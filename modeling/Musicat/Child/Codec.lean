import Musicat.Child.Command
import Mathlib.Data.List.Nodup
import Mathlib.Data.List.TakeWhile

/-!
# The command codec

A value is escaped when a command is built, unescaped while the command is split
at its semicolons, escaped again behind its equals sign and unescaped again by
`set_option`. What comes out is what went in, for every list of the
string-valued keys.
-/

namespace Musicat.Child

open Lib

/-! ## One argument -/

@[simp] theorem shouldSanitize_equals : shouldSanitize equals = true := rfl

/-- A key with nothing to escape in it. -/
def Plain (key : Bytes) : Prop := ∀ c ∈ key, shouldSanitize c = false ∧ c ≠ 0

theorem plain_of_all {key : Bytes} (h : key.all (fun c => !shouldSanitize c && c != 0) = true) :
    Plain key := by
  unfold Plain
  simpa using h

theorem Plain.not_mem {key : Bytes} (h : Plain key) {c : UInt8} (hc : shouldSanitize c = true) :
    c ∉ key := fun hk => by simp [(h c hk).1] at hc

theorem sanitizeFrom_true (v : Bytes) :
    sanitizeFrom true v = escape backslash shouldSanitize v := by
  induction v with
  | nil => rfl
  | cons c cs ih => simp [sanitizeFrom, escape, ih]

/-- `sanitize_command_key_value` escapes what follows the key. -/
theorem sanitizeCommandKeyValue_arg {key : Bytes} (hk : equals ∉ key) (v : Bytes) :
    sanitizeCommandKeyValue (key ++ equals :: v) = key ++ equals :: sanitizeCommandValue v := by
  unfold sanitizeCommandKeyValue sanitizeCommandValue
  induction key with
  | nil => simp [sanitizeFrom, sanitizeFrom_true]
  | cons c cs ih =>
    have hc : c ≠ equals := fun h => hk (h ▸ List.mem_cons_self)
    simp only [List.cons_append, sanitizeFrom, Bool.false_and, Bool.false_eq_true, if_false,
      Bool.false_or, beq_eq_false_iff_ne.2 hc]
    rw [ih fun h => hk (List.mem_cons_of_mem c h)]

theorem foldl_add_value (v opt value : Bytes) :
    v.foldl OptionText.add ⟨true, opt, value⟩ = ⟨true, opt, value ++ v⟩ := by
  induction v generalizing value with
  | nil => simp
  | cons c cs ih => simp [OptionText.add, ih]

theorem foldl_bare_opt {key : Bytes} (hk : equals ∉ key) (opt value : Bytes) :
    key.foldl OptionText.bare ⟨false, opt, value⟩ = ⟨false, opt ++ key, value⟩ := by
  induction key generalizing opt with
  | nil => simp
  | cons c cs ih =>
    have hc : c ≠ equals := fun h => hk (h ▸ List.mem_cons_self)
    simp [OptionText.bare, OptionText.add, hc, ih fun h => hk (List.mem_cons_of_mem c h)]

/-- **`set_option` reads an escaped argument back.** -/
theorem setOption_arg {key : Bytes} (hk : Plain key) (options : CommandOptions) (v : Bytes) :
    setOption options (key ++ equals :: sanitizeCommandValue v) =
      assignCommandOptionKeyValue options key v := by
  have hlit (t : OptionText) (c : UInt8) :
      (if shouldSanitize c then t.add c else t.bare c) = t.add c := by
    split
    · rfl
    · rename_i h
      have hc : c ≠ equals := fun e => h (by rw [e]; rfl)
      simp [OptionText.bare, hc]
  have hvalue : scan backslash OptionText.bare OptionText.add false ⟨true, key, []⟩
      (sanitizeCommandValue v) = (false, ⟨true, key, v⟩) := by
    rw [sanitizeCommandValue, scan_escape _ _ rfl]
    simp only [hlit, foldl_add_value, List.nil_append]
  have hkey : scan backslash OptionText.bare OptionText.add false {}
      (key ++ [equals]) = (false, ⟨true, key, []⟩) := by
    rw [scan_append, scan_plain _ _ (hk.not_mem rfl), foldl_bare_opt (hk.not_mem rfl)]
    rfl
  have h : key ++ equals :: sanitizeCommandValue v =
      (key ++ [equals]) ++ sanitizeCommandValue v := by simp
  rw [setOption, h, scan_append, hkey, hvalue]

theorem foldl_parse_add (v : Bytes) (options : CommandOptions) (temp : Bytes) :
    v.foldl ParseState.add (some (options, temp)) = some (options, temp ++ v) := by
  induction v generalizing temp with
  | nil => simp
  | cons c cs ih =>
    simp only [List.foldl_cons, ParseState.add, Option.map_some]
    rw [ih]
    simp

theorem foldl_parse_bare {v : Bytes} (hv : semicolon ∉ v) (options : CommandOptions)
    (temp : Bytes) :
    v.foldl ParseState.bare (some (options, temp)) = some (options, temp ++ v) := by
  induction v generalizing temp with
  | nil => simp
  | cons c cs ih =>
    have hc : c ≠ semicolon := fun h => hv (h ▸ List.mem_cons_self)
    simp only [List.foldl_cons, ParseState.bare, if_neg hc, ParseState.add, Option.map_some]
    rw [ih fun h => hv (List.mem_cons_of_mem c h)]
    simp

/-- Up to its semicolon an argument is its key and its value. -/
theorem scan_keyValue {key : Bytes} (hk : Plain key) (options : CommandOptions) (v : Bytes) :
    scan backslash ParseState.bare ParseState.add false (some (options, []))
        (key ++ [equals] ++ sanitizeCommandValue v) =
      (false, some (options, key ++ equals :: v)) := by
  have hlit (s : ParseState) (c : UInt8) :
      (if shouldSanitize c then s.add c else s.bare c) = s.add c := by
    split
    · rfl
    · rename_i h
      have hc : c ≠ semicolon := fun e => h (by rw [e]; rfl)
      simp [ParseState.bare, hc]
  have hkey : semicolon ∉ key ++ [equals] :=
    List.mem_append.not.2 (not_or.2 ⟨hk.not_mem rfl, by decide⟩)
  have hkey' : backslash ∉ key ++ [equals] :=
    List.mem_append.not.2 (not_or.2 ⟨hk.not_mem rfl, by decide⟩)
  rw [scan_append, scan_plain _ _ hkey', foldl_parse_bare hkey, sanitizeCommandValue,
    scan_escape _ _ rfl]
  simp only [hlit, foldl_parse_add, List.nil_append, List.append_assoc, List.singleton_append]

/-- **One argument of a command assigns its option.** -/
theorem scan_createArg {key : Bytes} (hk : Plain key) (options : CommandOptions) (v : Bytes) :
    scan backslash ParseState.bare ParseState.add false (some (options, []))
        (createArgSanitizeValue key v) =
      (false, (assignCommandOptionKeyValue options key v).map (·, [])) := by
  rw [createArgSanitizeValue, createArg, scan_append, scan_keyValue hk]
  simp only [scan, if_neg (show semicolon ≠ backslash by decide), ParseState.bare, if_true,
    Option.bind_some, sanitizeCommandKeyValue_arg (hk.not_mem shouldSanitize_equals),
    setOption_arg hk]

/-! ## The string-valued keys -/

/-- A string-valued key of `command_options_keys_t` that is assigned, not accumulated. -/
inductive StringKey where
  | command
  | filePath
  | id
  | guildId
  | seek
  | ytdlpUtilExe
  | ytdlpQuery
  | ytdlpLibPath
  | gnuplotCmd
  | sysCmd
  deriving DecidableEq, Repr

namespace StringKey

def name : StringKey → Bytes
  | command => keyCommand
  | filePath => keyFilePath
  | id => keyId
  | guildId => keyGuildId
  | seek => keySeek
  | ytdlpUtilExe => keyYtdlpUtilExe
  | ytdlpQuery => keyYtdlpQuery
  | ytdlpLibPath => keyYtdlpLibPath
  | gnuplotCmd => keyGnuplotCmd
  | sysCmd => keySysCmd

/-- The field of a key. -/
def get (o : CommandOptions) : StringKey → Bytes
  | command => o.command
  | filePath => o.filePath
  | id => o.id
  | guildId => o.guildId
  | seek => o.seek
  | ytdlpUtilExe => o.ytdlpUtilExe
  | ytdlpQuery => o.ytdlpQuery
  | ytdlpLibPath => o.ytdlpLibPath
  | gnuplotCmd => o.gnuplotCmd
  | sysCmd => o.sysCmd

def set (o : CommandOptions) (v : Bytes) : StringKey → CommandOptions
  | command => { o with command := v }
  | filePath => { o with filePath := v }
  | id => { o with id := v }
  | guildId => { o with guildId := v }
  | seek => { o with seek := v }
  | ytdlpUtilExe => { o with ytdlpUtilExe := v }
  | ytdlpQuery => { o with ytdlpQuery := v }
  | ytdlpLibPath => { o with ytdlpLibPath := v }
  | gnuplotCmd => { o with gnuplotCmd := v }
  | sysCmd => { o with sysCmd := v }

@[simp] theorem get_set_self (k : StringKey) (o : CommandOptions) (v : Bytes) :
    k.get (k.set o v) = v := by
  cases k <;> rfl

theorem get_set_of_ne {k k' : StringKey} (h : k ≠ k') (o : CommandOptions) (v : Bytes) :
    k.get (k'.set o v) = k.get o := by
  cases k <;> cases k' <;> first | rfl | exact absurd rfl h

theorem name_plain (k : StringKey) : Plain k.name :=
  plain_of_all (by cases k <;> rfl)

/-- Each of the keys assigns its own field. -/
theorem assign_name (k : StringKey) (o : CommandOptions) (v : Bytes) :
    assignCommandOptionKeyValue o k.name v = some (k.set o v) := by
  cases k <;> rfl

/-- The options without their string-valued fields. -/
def erase (o : CommandOptions) : CommandOptions :=
  { o with
    command := [], filePath := [], id := [], guildId := [], seek := [], ytdlpUtilExe := []
    ytdlpQuery := [], ytdlpLibPath := [], gnuplotCmd := [], sysCmd := [] }

@[simp] theorem erase_set (k : StringKey) (o : CommandOptions) (v : Bytes) :
    erase (k.set o v) = erase o := by
  cases k <;> rfl

end StringKey

/-! ## A list of arguments -/

/-- The command built from a list of arguments. -/
def createArgs (args : List (StringKey × Bytes)) : Bytes :=
  args.flatMap fun (k, v) => createArgSanitizeValue k.name v

/-- The options the arguments assign one after the other. -/
def assignArgs (args : List (StringKey × Bytes)) (o : CommandOptions) : CommandOptions :=
  args.foldl (fun o (k, v) => k.set o v) o

/-- **Parsing a list of arguments assigns them in order.** -/
theorem parse_createArgs (args : List (StringKey × Bytes)) (o : CommandOptions) :
    parseCommandToOptions (createArgs args) o = some (assignArgs args o) := by
  have hscan : ∀ (args : List (StringKey × Bytes)) (o : CommandOptions),
      scan backslash ParseState.bare ParseState.add false (some (o, [])) (createArgs args) =
        (false, some (assignArgs args o, [])) := by
    intro args
    induction args with
    | nil => intro o; rfl
    | cons a args ih =>
      intro o
      obtain ⟨k, v⟩ := a
      rw [createArgs, List.flatMap_cons, scan_append, scan_createArg k.name_plain,
        StringKey.assign_name]
      exact ih (k.set o v)
  rw [parseCommandToOptions, hscan]
  rfl

theorem get_assignArgs_of_not_mem {args : List (StringKey × Bytes)} {k : StringKey}
    (h : k ∉ args.map Prod.fst) (o : CommandOptions) :
    k.get (assignArgs args o) = k.get o := by
  induction args generalizing o with
  | nil => rfl
  | cons a args ih =>
    obtain ⟨hk, hargs⟩ := not_or.1 (List.mem_cons.not.1 h)
    exact (ih hargs _).trans (StringKey.get_set_of_ne hk ..)

theorem get_assignArgs_of_mem {args : List (StringKey × Bytes)} {k : StringKey} {v : Bytes}
    (hnd : (args.map Prod.fst).Nodup) (h : (k, v) ∈ args) (o : CommandOptions) :
    k.get (assignArgs args o) = v := by
  induction args generalizing o with
  | nil => cases h
  | cons a args ih =>
    obtain ⟨ha, hnd⟩ := List.nodup_cons.1 hnd
    rcases List.mem_cons.1 h with rfl | h
    · exact (get_assignArgs_of_not_mem ha _).trans (StringKey.get_set_self ..)
    · exact ih hnd h _

theorem erase_assignArgs (args : List (StringKey × Bytes)) (o : CommandOptions) :
    StringKey.erase (assignArgs args o) = StringKey.erase o := by
  induction args generalizing o with
  | nil => rfl
  | cons a args ih => exact (ih _).trans (StringKey.erase_set ..)

/-! ## Through the record -/

theorem zero_not_mem_createArgs {args : List (StringKey × Bytes)}
    (h : ∀ a ∈ args, (0 : UInt8) ∉ a.2) : (0 : UInt8) ∉ createArgs args := by
  intro hz
  obtain ⟨⟨k, v⟩, ha, hz⟩ := List.mem_flatMap.1 hz
  simp only [createArgSanitizeValue, createArg, List.mem_append, List.mem_singleton] at hz
  rcases hz with ((hz | hz) | hz) | hz
  · exact (k.name_plain 0 hz).2 rfl
  · cases hz
  · rcases mem_escape hz with hz | hz
    · cases hz
    · exact h _ ha hz
  · cases hz

theorem cString_append {cmd : Bytes} (h : (0 : UInt8) ∉ cmd) (rest : Bytes) :
    cString (cmd ++ rest) = cmd ++ cString rest := by
  have hcmd : ∀ c ∈ cmd, decide (c ≠ 0) = true :=
    fun c hc => decide_eq_true fun e => h (e ▸ hc)
  exact List.takeWhile_append_of_pos hcmd

theorem cString_of_not_mem {cmd : Bytes} (h : (0 : UInt8) ∉ cmd) : cString cmd = cmd := by
  rw [← List.append_nil cmd, cString_append h]
  simp [cString]

/-- **A padded record reads back as the command in it.** -/
theorem cString_pad {cmd : Bytes} (h : (0 : UInt8) ∉ cmd) : cString (pad cmd) = cmd := by
  rw [pad, cString_append h]
  cases cmdBufsize - cmd.length <;> simp [cString, List.replicate_succ]

/-! ## Cut off at a NUL -/

theorem cString_pad_eq (cmd : Bytes) : cString (pad cmd) = cString cmd := by
  by_cases h : (0 : UInt8) ∈ cmd
  · rw [pad, cString, cString, List.takeWhile_append, if_neg]
    intro hlen
    have hall := List.takeWhile_prefix (fun c : UInt8 => decide (c ≠ 0)) (l := cmd)
    rw [← hall.eq_of_length hlen] at h
    simpa using List.mem_takeWhile_imp h
  · rw [cString_pad h, cString_of_not_mem h]

theorem parse_createArg_append (k : StringKey) (v rest : Bytes) (o : CommandOptions) :
    parseCommandToOptions (createArgSanitizeValue k.name v ++ rest) o =
      parseCommandToOptions rest (k.set o v) := by
  rw [parseCommandToOptions, scan_append, scan_createArg k.name_plain, StringKey.assign_name]
  rfl

theorem parse_createArgs_append (args : List (StringKey × Bytes)) (rest : Bytes)
    (o : CommandOptions) : parseCommandToOptions (createArgs args ++ rest) o =
      parseCommandToOptions rest (assignArgs args o) := by
  induction args generalizing o with
  | nil => rfl
  | cons a args ih =>
    rw [createArgs, List.flatMap_cons, List.append_assoc, parse_createArg_append, ← createArgs, ih]
    rfl

/-- A last argument without its semicolon assigns its option all the same. -/
theorem parse_last (k : StringKey) (v : Bytes) (o : CommandOptions) :
    parseCommandToOptions (k.name ++ equals :: sanitizeCommandValue v) o = some (k.set o v) := by
  have hsplit : k.name ++ equals :: sanitizeCommandValue v =
      k.name ++ [equals] ++ sanitizeCommandValue v := by simp
  have hne : (k.name ++ equals :: v).isEmpty = false := by simp
  rw [parseCommandToOptions, hsplit, scan_keyValue k.name_plain]
  simp only [Option.bind_some, hne, Bool.false_eq_true, if_false]
  rw [sanitizeCommandKeyValue_arg (k.name_plain.not_mem shouldSanitize_equals),
    setOption_arg k.name_plain, StringKey.assign_name]

theorem cString_arg (k : StringKey) {v : Bytes} (h : (0 : UInt8) ∈ v) (rest : Bytes) :
    cString (createArgSanitizeValue k.name v ++ rest) =
      k.name ++ equals :: sanitizeCommandValue (cString v) := by
  have hkey : (0 : UInt8) ∉ k.name ++ [equals] := fun hz => by
    rcases List.mem_append.1 hz with hz | hz
    · exact (k.name_plain 0 hz).2 rfl
    · cases List.mem_singleton.1 hz
  have hcut : cString (sanitizeCommandValue v) = sanitizeCommandValue (cString v) :=
    escape_takeWhile rfl (fun c hc => by
      rcases Decidable.em (c = 0) with rfl | hne
      · cases hc
      · simpa using hne) v
  have hmem : ∀ v : Bytes, (0 : UInt8) ∈ v → (0 : UInt8) ∈ sanitizeCommandValue v := by
    intro v hv
    induction v with
    | nil => cases hv
    | cons c cs ih =>
      rw [sanitizeCommandValue, escape]
      rcases List.mem_cons.1 hv with rfl | hv
      · split <;> simp
      · have hcs := ih hv
        rw [sanitizeCommandValue] at hcs
        split <;> simp [hcs]
  have hsplit : createArgSanitizeValue k.name v ++ rest =
      (k.name ++ [equals]) ++ (sanitizeCommandValue v ++ ([semicolon] ++ rest)) := by
    simp [createArgSanitizeValue, createArg]
  have htail : cString (sanitizeCommandValue v ++ ([semicolon] ++ rest)) =
      cString (sanitizeCommandValue v) := by
    rw [cString, List.takeWhile_append, if_neg, cString]
    intro hlen
    have hz := hmem v h
    rw [← (List.takeWhile_prefix _).eq_of_length hlen] at hz
    simpa using List.mem_takeWhile_imp hz
  rw [hsplit, cString_append hkey, htail, hcut]
  simp

/-- **Cut off at a NUL or not, a command assigns no options but those of its arguments.** -/
theorem parse_cString {tail : Bytes} (hnul : (0 : UInt8) ∉ tail)
    (htail : ∀ o, ∃ o', parseCommandToOptions tail o = some o' ∧
      ∀ k : StringKey, k.get o' = k.get o) :
    ∀ (args : List (StringKey × Bytes)) (o : CommandOptions),
      ∃ o', parseCommandToOptions (cString (createArgs args ++ tail)) o = some o' ∧
        ∀ k : StringKey, k ∉ args.map Prod.fst → k.get o' = k.get o
  | [], o => by
    obtain ⟨o', hparse, hkeep⟩ := htail o
    refine ⟨o', ?_, fun k _ => hkeep k⟩
    rw [createArgs, List.flatMap_nil, List.nil_append, cString_of_not_mem hnul, hparse]
  | (k, v) :: args, o => by
    rw [createArgs, List.flatMap_cons, List.append_assoc, ← createArgs]
    by_cases hv : (0 : UInt8) ∈ v
    · refine ⟨k.set o (cString v), ?_, fun k' hk => ?_⟩
      · rw [cString_arg k hv, parse_last]
      · exact StringKey.get_set_of_ne (fun h => hk (by simp [h])) o _
    · have harg : (0 : UInt8) ∉ createArgSanitizeValue k.name v := by
        have hone : (0 : UInt8) ∉ createArgs [(k, v)] :=
          zero_not_mem_createArgs (by simpa using hv)
        simpa [createArgs] using hone
      obtain ⟨o', hparse, hkeep⟩ := parse_cString hnul htail args (k.set o v)
      refine ⟨o', ?_, fun k' hk => ?_⟩
      · rw [cString_append harg, parse_createArg_append, hparse]
      · rw [hkeep k' fun h => hk (List.mem_cons_of_mem _ h)]
        exact StringKey.get_set_of_ne (fun h => hk (by simp [h])) o v

/-! ## Numbers -/

theorem bytes_toString (n : Nat) :
    bytes (toString (n : Int)) = (Nat.toDigits 10 n).map Char.toUInt8 := by
  have hnat : toString (n : Int) = n.repr := rfl
  rw [bytes, hnat, Nat.toList_repr]

theorem toNat_of_isDigit {c : Char} (h : c.isDigit = true) :
    48 ≤ c.toNat ∧ c.toNat ≤ 57 ∧ c.toUInt8.toNat = c.toNat := by
  simp only [Char.isDigit, Bool.and_eq_true, decide_eq_true_eq] at h
  have hlow : 48 ≤ c.toNat := h.1
  have hhigh : c.toNat ≤ 57 := h.2
  have hbyte : c.toUInt8.toNat = c.toNat % 256 := rfl
  exact ⟨hlow, hhigh, by omega⟩

/-- A number is written in digits. -/
theorem isDigit_of_mem_bytes {n : Nat} {c : UInt8} (h : c ∈ bytes (toString (n : Int))) :
    isDigit c = true := by
  rw [bytes_toString] at h
  obtain ⟨d, hd, rfl⟩ := List.mem_map.1 h
  obtain ⟨hlow, hhigh, hbyte⟩ :=
    toNat_of_isDigit (Nat.isDigit_of_mem_toDigits (by decide) (by decide) hd)
  simp only [isDigit, Bool.and_eq_true, decide_eq_true_eq, UInt8.le_iff_toNat_le]
  exact ⟨by rw [hbyte]; exact hlow, by rw [hbyte]; exact hhigh⟩

theorem foldl_digits (l : List Char) (hl : ∀ c ∈ l, c.isDigit = true) (init : Nat) :
    (l.map Char.toUInt8).foldl (fun n c => 10 * n + (c.toNat - 48)) init =
      Nat.ofDigitChars 10 l init := by
  induction l generalizing init with
  | nil => rfl
  | cons c l ih =>
    obtain ⟨-, -, hbyte⟩ := toNat_of_isDigit (hl c List.mem_cons_self)
    rw [List.map_cons, List.foldl_cons, Nat.ofDigitChars_cons,
      ih (fun d hd => hl d (List.mem_cons_of_mem c hd)), hbyte]
    rfl

theorem takeWhile_bytes_toString (n : Nat) :
    (bytes (toString (n : Int))).takeWhile isDigit = bytes (toString (n : Int)) :=
  List.takeWhile_eq_self_iff.2 fun _ hc => isDigit_of_mem_bytes hc

theorem foldl_bytes_toString (n : Nat) :
    (bytes (toString (n : Int))).foldl (fun n c => 10 * n + (c.toNat - 48)) 0 = n := by
  have hchars : ∀ c ∈ Nat.toDigits 10 n, c.isDigit = true :=
    fun c hc => Nat.isDigit_of_mem_toDigits (by decide) (by decide) hc
  rw [bytes_toString]
  exact (foldl_digits (Nat.toDigits 10 n) hchars 0).trans Nat.ofDigitChars_ten_toDigits

theorem bytes_toString_ne_nil (n : Nat) : bytes (toString (n : Int)) ≠ [] := by
  rw [bytes_toString, ne_eq, List.map_eq_nil_iff]
  exact Nat.toDigits_ne_nil

/-- Neither a blank nor a sign is a digit. -/
theorem isSpace_of_isDigit {c : UInt8} (hc : isDigit c = true) : isSpace c = false := by
  simp only [isDigit, Bool.and_eq_true, decide_eq_true_eq, UInt8.le_iff_toNat_le] at hc
  simp only [isSpace, Bool.or_eq_false_iff, Bool.and_eq_false_iff, beq_eq_false_iff_ne,
    decide_eq_false_iff_not, UInt8.le_iff_toNat_le, ne_eq, ← UInt8.toNat_inj]
  have h48 : (48 : UInt8).toNat = 48 := rfl
  have h13 : (13 : UInt8).toNat = 13 := rfl
  have h32 : (32 : UInt8).toNat = 32 := rfl
  omega

theorem not_sign_of_isDigit {c : UInt8} (hc : isDigit c = true) : c ≠ 45 ∧ c ≠ 43 := by
  constructor
  · rintro rfl
    cases hc
  · rintro rfl
    cases hc

/-- **A number is read back as it was written.** -/
theorem strtol_toString (n : Nat) : strtol (bytes (toString (n : Int))) = some (false, n) := by
  have hall := takeWhile_bytes_toString n
  have hvalue := foldl_bytes_toString n
  have hdigit : ∀ c ∈ bytes (toString (n : Int)), isDigit c = true :=
    fun c hc => isDigit_of_mem_bytes hc
  cases htext : bytes (toString (n : Int)) with
  | nil => exact absurd htext (bytes_toString_ne_nil n)
  | cons c s =>
    rw [htext] at hdigit hvalue hall
    have hc := hdigit c List.mem_cons_self
    have hsign := not_sign_of_isDigit hc
    rw [strtol, List.dropWhile_cons_of_neg (by simp [isSpace_of_isDigit hc])]
    split
    rename_i neg t heq
    split at heq
    · rename_i h
      exact absurd (List.cons.inj h).1 hsign.1
    · rename_i h
      exact absurd (List.cons.inj h).1 hsign.2
    · cases heq
      simp only [hall, List.isEmpty_cons, Bool.false_eq_true, if_false, hvalue]

theorem strtol_neg_toString (n : Nat) :
    strtol (45 :: bytes (toString (n : Int))) = some (true, n) := by
  have hne := bytes_toString_ne_nil n
  have hspace : (45 :: bytes (toString (n : Int))).dropWhile isSpace =
      45 :: bytes (toString (n : Int)) := rfl
  simp only [strtol, hspace, takeWhile_bytes_toString, foldl_bytes_toString, List.isEmpty_iff, hne,
    if_false]

theorem stoi_toString {n : Nat} {i : Int} (h : stoi (bytes (toString (n : Int))) = some i) :
    i = n := by
  rw [stoi, strtol_toString, Option.bind_some] at h
  simp only [Bool.false_eq_true, if_false] at h
  split at h
  · exact (Option.some.inj h).symm
  · cases h

theorem bytes_toString_neg (n : Nat) :
    bytes (toString (-((n + 1 : Nat) : Int))) = 45 :: bytes (toString ((n + 1 : Nat) : Int)) := by
  have hneg : toString (-((n + 1 : Nat) : Int)) = "-" ++ (n + 1).repr := rfl
  have hpos : toString ((n + 1 : Nat) : Int) = (n + 1).repr := rfl
  rw [hneg, hpos, bytes, String.toList_append]
  rfl

/-- An `int` is read back as `std::to_string` wrote it. -/
theorem stoi_toString_int {i : Int} (hlo : -2 ^ 31 ≤ i) (hhi : i < 2 ^ 31) :
    stoi (bytes (toString i)) = some i := by
  by_cases hneg : i < 0
  · obtain ⟨n, rfl⟩ : ∃ n : Nat, i = -((n + 1 : Nat) : Int) := ⟨(-i - 1).toNat, by omega⟩
    rw [bytes_toString_neg, stoi, strtol_neg_toString, Option.bind_some]
    simp only [if_true]
    rw [if_pos ⟨hlo, hhi⟩]
  · obtain ⟨n, rfl⟩ := Int.eq_ofNat_of_zero_le (show 0 ≤ i by omega)
    rw [stoi, strtol_toString, Option.bind_some]
    simp only [Bool.false_eq_true, if_false]
    rw [if_pos ⟨hlo, hhi⟩]

/-! ## The round trip -/

/-- **The command codec round trip**: written as a record, read back as a C string and parsed,
a list of arguments assigns each of its fields its value and leaves every other field at its
default. -/
theorem command_codec {args : List (StringKey × Bytes)} {writeFd : Int}
    (hnd : (args.map Prod.fst).Nodup) (hnul : ∀ a ∈ args, (0 : UInt8) ∉ a.2)
    (hlen : (createArgs args).length ≤ cmdBufsize) (hfd : 0 ≤ writeFd) :
    ∃ record o, writeCommand (createArgs args) writeFd = some record ∧
      parseCommandToOptions (cString record) createCommandOptions = some o ∧
      (∀ a ∈ args, a.1.get o = a.2) ∧
      (∀ k, k ∉ args.map Prod.fst → k.get o = k.get createCommandOptions) ∧
      StringKey.erase o = createCommandOptions := by
  refine ⟨pad (createArgs args), assignArgs args createCommandOptions, ?_, ?_, ?_, ?_, ?_⟩
  · rw [writeCommand, if_neg (by omega), if_neg (by omega)]
  · rw [cString_pad (zero_not_mem_createArgs hnul), parse_createArgs]
  · exact fun a ha => get_assignArgs_of_mem hnd ha _
  · exact fun k hk => get_assignArgs_of_not_mem hk _
  · exact erase_assignArgs args _

theorem command_codec_two :
    ∃ record o,
      writeCommand (createArgs [(.id, bytes "a;b"), (.sysCmd, bytes "x=\\")]) 3 = some record ∧
      parseCommandToOptions (cString record) createCommandOptions = some o ∧
      (∀ a ∈ [(StringKey.id, bytes "a;b"), (.sysCmd, bytes "x=\\")], a.1.get o = a.2) ∧
      (∀ k, k ∉ [StringKey.id, .sysCmd] → k.get o = k.get createCommandOptions) ∧
      StringKey.erase o = createCommandOptions :=
  @command_codec [(.id, bytes "a;b"), (.sysCmd, bytes "x=\\")] 3
    (by decide) (by decide) (by decide) (by decide)

end Musicat.Child
