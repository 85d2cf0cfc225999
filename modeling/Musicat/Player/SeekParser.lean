import Musicat.Lib.Decimal

/-!
# The seek parser

`parse_arg_to` reads a timestamp `[[hour:]minute:]second[.ms]` of the seek
command. Its first loop cuts the text into at most four groups and counts the
separators, and stops at a group that is empty; the number of colons then says
which group is which field. A text is a list of bytes, each as a character.
-/

namespace Musicat.Player

open Lib

/-- `valid_tokens`. -/
def validTokens : List Char := "0123456789:.".toList

def isValidChar (c : Char) : Bool := validTokens.contains c

/-- `arg_to_t`. -/
structure ArgTo where
  hour : Int := 0
  minute : Int := 0
  second : Int := 0
  ms : Int := 0
  valid : Bool := false
  deriving DecidableEq, Repr

/-- `std::isspace` in the C locale. -/
def isSpace (c : Char) : Bool := c = ' ' || '\t' ≤ c && c ≤ '\r'

/-- `std::stoll` in base ten; `none` when it throws. -/
def stoll (s : List Char) : Option Int :=
  let (negative, s) := readSign (s.dropWhile isSpace)
  let digits := s.takeWhile Char.isDigit
  if digits.isEmpty then none
  else
    let n : Int := Nat.ofDigitChars 10 digits 0
    let n := if negative then -n else n
    if -2 ^ 63 ≤ n ∧ n < 2 ^ 63 then some n else none

/-- Where the first loop is: the text from `last_idx` on, and its counters. -/
structure SeekScan where
  rest : List Char
  scCount : Nat := 0
  dotCount : Nat := 0

/-- The inner loop, from `temp` on; `none` when it returns from the function. -/
def readGroup (scCount dotCount : Nat) : List Char → List Char → Option (List Char × SeekScan)
  | [], temp => some (temp, ⟨[], scCount, dotCount⟩)
  | c :: rest, temp =>
    if !isValidChar c then none
    else if c = ':' then
      if dotCount ≠ 0 then none else some (temp, ⟨rest, scCount + 1, dotCount⟩)
    else if c = '.' then some (temp, ⟨rest, scCount, dotCount + 1⟩)
    else readGroup scCount dotCount rest (temp ++ [c])

/-- The first loop, with `n` slots of `list` left; `i` is the length of `list`. -/
def readGroups : Nat → List (List Char) → SeekScan → Option (List (List Char) × SeekScan)
  | 0, list, s => some (list, s)
  | n + 1, list, s =>
    match readGroup s.scCount s.dotCount s.rest [] with
    | none => none
    | some (temp, s) => if temp.isEmpty then some (list, s) else readGroups n (list ++ [temp]) s

/-- A field is set to the number in a slot; an empty slot ends the function. -/
def setField (slot : List Char) (result : ArgTo) (set : Int → ArgTo)
    (next : ArgTo → Option ArgTo) : Option ArgTo :=
  if slot.isEmpty then some result else (stoll slot).bind fun n => next (set n)

section
variable (list : List (List Char)) (subt scCount dotCount : Nat)

def setValid (r : ArgTo) : Option ArgTo := some { r with valid := true }

/-- From the milliseconds on. -/
def setMs (r : ArgTo) : Option ArgTo :=
  if dotCount = 1 then setField (list.getD (3 - subt) []) r (fun n => { r with ms := n }) setValid
  else setValid r

/-- From the seconds on. -/
def setSecond (r : ArgTo) : Option ArgTo :=
  setField (list.getD (2 - subt) []) r (fun n => { r with second := n })
    (setMs list subt dotCount)

/-- From the minutes on. -/
def setMinute (r : ArgTo) : Option ArgTo :=
  if 0 < scCount then
    setField (list.getD (1 - subt) []) r (fun n => { r with minute := n })
      (setSecond list subt dotCount)
  else setSecond list subt dotCount r

/-- `subt` once it is used: the number of fields that are missing in front. -/
def subtOf : Nat := if scCount = 2 then 0 else if 0 < scCount then 1 else 2

/-- The fields, from the slots of `list`. -/
def setFields (r : ArgTo) : Option ArgTo :=
  let subt := subtOf scCount
  if scCount = 2 then
    setField (list.getD 0 []) r (fun n => { r with hour := n })
      (setMinute list subt scCount dotCount)
  else setMinute list subt scCount dotCount r

end

/-- `parse_arg_to`; `none` when it throws. -/
def parseArgTo (str : List Char) : Option ArgTo :=
  if str.length < 1 ∨ 14 < str.length then some {}
  else
    match readGroups 4 [] { rest := str } with
    | none => some {}
    | some (list, s) =>
      if 0 < list.length ∧ s.scCount < 3 ∧ s.dotCount < 2 then
        setFields list s.scCount s.dotCount {}
      else some {}

/-! ## The grammar -/

/-- `D+` -/
def Group (g : List Char) : Prop := g ≠ [] ∧ ∀ c ∈ g, c.isDigit = true

/-- The decimal value of a group. -/
def groupValue (g : List Char) : Int := Nat.ofDigitChars 10 g 0

/-- `D+ (: D+){0,2}`, with the hour, minute and second. -/
inductive ClockForm : List Char → Int → Int → Int → Prop where
  | second {s : List Char} (hs : Group s) : ClockForm s 0 0 (groupValue s)
  | minute {m s : List Char} (hm : Group m) (hs : Group s) :
      ClockForm (m ++ ':' :: s) 0 (groupValue m) (groupValue s)
  | hour {h m s : List Char} (hh : Group h) (hm : Group m) (hs : Group s) :
      ClockForm (h ++ ':' :: (m ++ ':' :: s)) (groupValue h) (groupValue m) (groupValue s)

/-- `D+ (: D+){0,2} (. D+)?`, with what it stands for. -/
inductive SeekForm : List Char → ArgTo → Prop where
  | whole {t : List Char} {hour minute second : Int} (ht : ClockForm t hour minute second) :
      SeekForm t ⟨hour, minute, second, 0, true⟩
  | point {t f : List Char} {hour minute second : Int} (ht : ClockForm t hour minute second)
      (hf : Group f) : SeekForm (t ++ '.' :: f) ⟨hour, minute, second, groupValue f, true⟩

/-! ## Numbers -/

section
variable {g s : List Char} {c : Char}

theorem isValidChar_of_isDigit (h : c.isDigit = true) : isValidChar c = true := by
  obtain ⟨n, hn, rfl⟩ := exists_digitChar h
  have hall : ∀ n < 10, isValidChar n.digitChar = true := by decide
  exact hall n hn

theorem separator_of_isValidChar (h : isValidChar c = true) (hdigit : c.isDigit = false) :
    c = ':' ∨ c = '.' := by
  have hall : validTokens.all (fun c => c.isDigit || c == ':' || c == '.') = true := by decide
  have hc := List.all_eq_true.1 hall c (List.contains_iff_mem.1 h)
  simpa [hdigit] using hc

theorem isSpace_of_isDigit (h : c.isDigit = true) : isSpace c = false := by
  obtain ⟨n, hn, rfl⟩ := exists_digitChar h
  have hall : ∀ n < 10, isSpace n.digitChar = false := by decide
  exact hall n hn

/-- A group of up to 18 digits is read. -/
theorem stoll_group (hg : Group g) (hlength : g.length ≤ 18) : stoll g = some (groupValue g) := by
  obtain ⟨hne, hdigits⟩ := hg
  have hlt := ofDigitChars_lt hdigits
  have hpow : 10 ^ g.length ≤ 10 ^ 18 := Nat.pow_le_pow_right (by decide) hlength
  obtain ⟨c, g, rfl⟩ := List.exists_cons_of_ne_nil hne
  have hc := hdigits c List.mem_cons_self
  have hspace : ¬ isSpace c = true := by simp [isSpace_of_isDigit hc]
  rw [stoll, List.dropWhile_cons_of_neg hspace, readSign_of_isDigit hc]
  dsimp only
  rw [List.takeWhile_eq_self_iff.2 hdigits, List.isEmpty_cons, if_neg Bool.false_ne_true,
    if_neg Bool.false_ne_true, if_pos (by omega)]
  rfl

end
/-! ## Cutting into groups -/

/-- What the inner loop does with a text that starts with the digits `g`. -/
inductive GroupRead (scCount dotCount : Nat) (g : List Char) : List Char → SeekScan → Prop where
  | atEnd : GroupRead scCount dotCount g g ⟨[], scCount, dotCount⟩
  | colon (h : dotCount = 0) (rest : List Char) :
      GroupRead scCount dotCount g (g ++ ':' :: rest) ⟨rest, scCount + 1, dotCount⟩
  | point (rest : List Char) :
      GroupRead scCount dotCount g (g ++ '.' :: rest) ⟨rest, scCount, dotCount + 1⟩

/-- A text of groups, from `dotCount` dots on, with its colons and dots. -/
inductive Groups : Nat → Nat → Nat → List (List Char) → List Char → Prop where
  | last {dotCount : Nat} {g : List Char} (hg : Group g) : Groups dotCount 0 0 [g] g
  | colon {a b : Nat} {g t : List Char} {gs : List (List Char)} (hg : Group g)
      (h : Groups 0 a b gs t) : Groups 0 (a + 1) b (g :: gs) (g ++ ':' :: t)
  | point {dotCount a b : Nat} {g t : List Char} {gs : List (List Char)} (hg : Group g)
      (h : Groups (dotCount + 1) a b gs t) : Groups dotCount a (b + 1) (g :: gs) (g ++ '.' :: t)

section
variable {scCount dotCount a b n : Nat} {g s t temp : List Char} {s' : SeekScan}
  {list list' gs : List (List Char)}

theorem readGroup_digits (hg : ∀ c ∈ g, c.isDigit = true) (s temp : List Char) :
    readGroup scCount dotCount (g ++ s) temp = readGroup scCount dotCount s (temp ++ g) := by
  induction g generalizing temp with
  | nil => rw [List.nil_append, List.append_nil]
  | cons c g ih =>
    obtain ⟨hc, hg⟩ := List.forall_mem_cons.1 hg
    have hvalid : ¬ (!isValidChar c) = true := by simp [isValidChar_of_isDigit hc]
    have hcolon : c ≠ ':' := by
      rintro rfl
      cases hc
    have hpoint : c ≠ '.' := by
      rintro rfl
      cases hc
    rw [List.cons_append, readGroup, if_neg hvalid, if_neg hcolon, if_neg hpoint, ih hg,
      List.append_assoc, List.singleton_append]

theorem exists_digits (s : List Char) :
    ∃ g rest, s = g ++ rest ∧ (∀ c ∈ g, c.isDigit = true) ∧
      ∀ c ∈ rest.head?, c.isDigit = false := by
  refine ⟨_, _, List.takeWhile_append_dropWhile.symm, fun c hc => List.mem_takeWhile_imp hc,
    fun c hc => ?_⟩
  have hhead := List.head?_dropWhile_not Char.isDigit s
  rw [hc] at hhead
  exact hhead

/-- The inner loop reads digits up to the end or a separator. -/
theorem readGroup_iff : readGroup scCount dotCount s [] = some (g, s') ↔
    (∀ c ∈ g, c.isDigit = true) ∧ GroupRead scCount dotCount g s s' := by
  constructor
  · intro h
    obtain ⟨d, rest, rfl, hdigits, hhead⟩ := exists_digits s
    rw [readGroup_digits hdigits, List.nil_append] at h
    cases rest with
    | nil =>
      cases h
      rw [List.append_nil]
      exact ⟨hdigits, .atEnd⟩
    | cons c rest =>
      rw [readGroup] at h
      split at h
      · cases h
      · rename_i hvalid
        have hvalid : isValidChar c = true := by simpa using hvalid
        rcases separator_of_isValidChar hvalid (hhead c rfl) with rfl | rfl
        · rw [if_pos rfl] at h
          split at h
          · cases h
          · rename_i hdot
            cases h
            exact ⟨hdigits, .colon (not_not.1 hdot) rest⟩
        · rw [if_neg (by decide), if_pos rfl] at h
          cases h
          exact ⟨hdigits, .point rest⟩
  · rintro ⟨hdigits, hread⟩
    cases hread with
    | atEnd =>
      have h : readGroup scCount dotCount (g ++ []) [] = readGroup scCount dotCount [] ([] ++ g) :=
        readGroup_digits hdigits [] []
      rwa [List.append_nil] at h
    | colon h rest =>
      subst h
      rw [readGroup_digits hdigits]
      rfl
    | point rest =>
      rw [readGroup_digits hdigits]
      rfl

theorem length_le_of_groupRead (h : GroupRead scCount dotCount g s s') :
    g.length ≤ s.length ∧ s'.rest.length ≤ s.length := by
  cases h with
  | atEnd => exact ⟨Nat.le_refl _, Nat.zero_le _⟩
  | colon h rest =>
    rw [List.length_append, List.length_cons]
    constructor
    · omega
    · dsimp only
      omega
  | point rest =>
    rw [List.length_append, List.length_cons]
    constructor
    · omega
    · dsimp only
      omega

/-- One slot of the first loop. -/
theorem readGroups_succ (hg : Group g) (h : GroupRead scCount dotCount g s s') :
    readGroups (n + 1) list ⟨s, scCount, dotCount⟩ = readGroups n (list ++ [g]) s' := by
  have hgroup : readGroup scCount dotCount s [] = some (g, s') := readGroup_iff.2 ⟨hg.2, h⟩
  have hne : ¬ g.isEmpty = true := by simpa using hg.1
  rw [readGroups]
  dsimp only
  rw [hgroup]
  dsimp only
  rw [if_neg hne]

theorem readGroups_nil (n : Nat) (list : List (List Char)) :
    readGroups n list ⟨[], scCount, dotCount⟩ = some (list, ⟨[], scCount, dotCount⟩) := by
  cases n <;> rfl

/-- Groups are all read, if there are slots for them. -/
theorem readGroups_of_groups (h : Groups dotCount a b gs t) (hn : gs.length ≤ n) :
    readGroups n list ⟨t, scCount, dotCount⟩ =
      some (list ++ gs, ⟨[], scCount + a, dotCount + b⟩) := by
  induction h generalizing n list scCount with
  | last hg =>
    obtain ⟨n, rfl⟩ := Nat.exists_eq_succ_of_ne_zero (Nat.ne_of_gt hn)
    rw [readGroups_succ hg .atEnd, readGroups_nil]
    rfl
  | colon hg _ ih =>
    obtain ⟨n, rfl⟩ := Nat.exists_eq_succ_of_ne_zero (Nat.ne_of_gt (Nat.zero_lt_of_lt hn))
    rw [readGroups_succ hg (.colon rfl _), ih (Nat.le_of_succ_le_succ hn), List.append_assoc,
      List.singleton_append, Nat.add_right_comm, Nat.add_assoc]
  | point hg _ ih =>
    obtain ⟨n, rfl⟩ := Nat.exists_eq_succ_of_ne_zero (Nat.ne_of_gt (Nat.zero_lt_of_lt hn))
    rw [readGroups_succ hg (.point _), ih (Nat.le_of_succ_le_succ hn), List.append_assoc,
      List.singleton_append, Nat.add_right_comm _ 1, Nat.add_assoc _ _ 1]

/-- **What one slot of the first loop does**: it reads a group and goes on, or it stops where there
is no digit. -/
theorem readGroups_cases
    (h : readGroups (n + 1) list ⟨t, scCount, dotCount⟩ = some (list', s')) :
    ∃ g s, GroupRead scCount dotCount g t s ∧
      (list' = list ∧ s' = s ∨ Group g ∧ readGroups n (list ++ [g]) s = some (list', s')) := by
  rw [readGroups] at h
  dsimp only at h
  cases hgroup : readGroup scCount dotCount t [] with
  | none =>
    rw [hgroup] at h
    cases h
  | some p =>
    obtain ⟨g, s⟩ := p
    obtain ⟨hdigits, hread⟩ := readGroup_iff.1 hgroup
    refine ⟨g, s, hread, ?_⟩
    rw [hgroup] at h
    dsimp only at h
    split at h
    · cases h
      exact .inl ⟨rfl, rfl⟩
    · rename_i hne
      exact .inr ⟨⟨by simpa using hne, hdigits⟩, h⟩

/-- What the first loop leaves: either the text was groups, or there are no more groups than
separators. -/
theorem groups_of_readGroups (h : readGroups n list ⟨t, scCount, dotCount⟩ = some (list', s')) :
    (∃ a b gs, Groups dotCount a b gs t ∧ list' = list ++ gs ∧
        s' = ⟨[], scCount + a, dotCount + b⟩) ∨
      list'.length + scCount + dotCount ≤ list.length + s'.scCount + s'.dotCount := by
  induction n generalizing list t scCount dotCount with
  | zero =>
    cases h
    exact .inr (Nat.le_refl _)
  | succ n ih =>
    obtain ⟨g, s, hread, ⟨rfl, rfl⟩ | ⟨hg, h⟩⟩ := readGroups_cases h
    · right
      cases hread <;> dsimp only <;> omega
    · cases hread with
      | atEnd =>
        rw [readGroups_nil] at h
        cases h
        exact .inl ⟨0, 0, [_], .last hg, rfl, rfl⟩
      | colon hdot rest =>
        subst hdot
        rcases ih h with ⟨a, b, gs, hgroups, rfl, rfl⟩ | hle
        · refine .inl ⟨a + 1, b, g :: gs, .colon hg hgroups, by simp, ?_⟩
          rw [Nat.add_right_comm, Nat.add_assoc]
        · right
          rw [List.length_append, List.length_singleton] at hle
          omega
      | point rest =>
        rcases ih h with ⟨a, b, gs, hgroups, rfl, rfl⟩ | hle
        · refine .inl ⟨a, b + 1, g :: gs, .point hg hgroups, by simp, ?_⟩
          rw [Nat.add_right_comm dotCount, Nat.add_assoc dotCount]
        · right
          rw [List.length_append, List.length_singleton] at hle
          omega

/-- The slots have groups of the text. -/
theorem mem_of_readGroups (h : readGroups n list ⟨t, scCount, dotCount⟩ = some (list', s'))
    (hg : g ∈ list') : g ∈ list ∨ Group g ∧ g.length ≤ t.length := by
  induction n generalizing list t scCount dotCount with
  | zero =>
    cases h
    exact .inl hg
  | succ n ih =>
    obtain ⟨d, s, hread, ⟨rfl, rfl⟩ | ⟨hd, h⟩⟩ := readGroups_cases h
    · exact .inl hg
    · have hlength := length_le_of_groupRead hread
      rcases ih h with hmem | ⟨hgroup, hle⟩
      · rcases List.mem_append.1 hmem with hmem | hmem
        · exact .inl hmem
        · obtain rfl := List.mem_singleton.1 hmem
          exact .inr ⟨hd, hlength.1⟩
      · exact .inr ⟨hgroup, Nat.le_trans hle hlength.2⟩

end

/-! ## The fields -/

/-- A group that is short enough for `stoll`. -/
def ShortGroup (g : List Char) : Prop := Group g ∧ g.length ≤ 14

section
variable {scCount dotCount a b : Nat} {g str : List Char} {list gs : List (List Char)}
  {r v : ArgTo} {set : Int → ArgTo} {next : ArgTo → Option ArgTo}

theorem setField_group (hg : ShortGroup g) : setField g r set next = next (set (groupValue g)) := by
  have hne : ¬ g.isEmpty = true := by simpa using hg.1.1
  rw [setField, if_neg hne, stoll_group hg.1 (Nat.le_trans hg.2 (by decide)), Option.bind_some]

theorem slot_cases (h : ∀ g ∈ list, ShortGroup g) (i : Nat) :
    list.getD i [] = [] ∨ ShortGroup (list.getD i []) := by
  rw [List.getD_eq_getElem?_getD]
  cases hi : list[i]? with
  | none => exact .inl rfl
  | some g => exact .inr (h g (List.mem_of_getElem? hi))

theorem lt_length_of_slot {i : Nat} (h : list.getD i [] ≠ []) : i < list.length := by
  by_contra hle
  rw [List.getD_eq_getElem?_getD, List.getElem?_eq_none (Nat.not_lt.1 hle)] at h
  exact h rfl

/-- The function returns, and with fewer than `n` groups it returns no valid result. -/
def Returns (list : List (List Char)) (n : Nat) (o : Option ArgTo) : Prop :=
  ∃ v, o = some v ∧ (list.length < n → v.valid = false)

/-- Setting a field does not throw; it is the last one if the slot is empty. -/
theorem returns_setField (h : ∀ g ∈ list, ShortGroup g) (hr : r.valid = false) {i n : Nat}
    (hnext : i < list.length → ∀ m, Returns list n (next (set m))) :
    Returns list n (setField (list.getD i []) r set next) := by
  rcases slot_cases h i with hnil | hg
  · rw [hnil]
    exact ⟨r, rfl, fun _ => hr⟩
  · rw [setField_group hg]
    exact hnext (lt_length_of_slot hg.1.1) _

theorem returns_setMs (h : ∀ g ∈ list, ShortGroup g) (hr : r.valid = false) {subt : Nat}
    (hsubt : subt ≤ 2) (hsecond : 2 - subt < list.length) (hdot : dotCount < 2) :
    Returns list (3 - subt + dotCount) (setMs list subt dotCount r) := by
  unfold setMs
  split
  · exact returns_setField h hr fun hms m => ⟨_, rfl, fun hlt => by omega⟩
  · exact ⟨_, rfl, fun hlt => by omega⟩

theorem returns_setSecond (h : ∀ g ∈ list, ShortGroup g) (hr : r.valid = false) {subt : Nat}
    (hsubt : subt ≤ 2) (hdot : dotCount < 2) :
    Returns list (3 - subt + dotCount) (setSecond list subt dotCount r) :=
  returns_setField h hr fun hsecond _ => returns_setMs h (by exact hr) hsubt hsecond hdot

theorem returns_setMinute (h : ∀ g ∈ list, ShortGroup g) (hr : r.valid = false) {subt : Nat}
    (hsubt : subt ≤ 2) (hdot : dotCount < 2) :
    Returns list (3 - subt + dotCount) (setMinute list subt scCount dotCount r) := by
  unfold setMinute
  split
  · exact returns_setField h hr fun _ _ => returns_setSecond h (by exact hr) hsubt hdot
  · exact returns_setSecond h hr hsubt hdot

theorem subtOf_add (hsc : scCount < 3) : subtOf scCount + scCount = 2 := by
  unfold subtOf
  split
  · omega
  · split <;> omega

/-- **Setting the fields does not throw**, and with no more groups than separators the result is
not valid. -/
theorem returns_setFields (h : ∀ g ∈ list, ShortGroup g) (hr : r.valid = false)
    (hsc : scCount < 3) (hdot : dotCount < 2) :
    Returns list (scCount + dotCount + 1) (setFields list scCount dotCount r) := by
  have hsubt := subtOf_add hsc
  have hle : subtOf scCount ≤ 2 := by omega
  have hcount : scCount + dotCount + 1 = 3 - subtOf scCount + dotCount := by omega
  rw [hcount]
  unfold setFields
  dsimp only
  split
  · exact returns_setField h hr fun _ _ => returns_setMinute h (by exact hr) hle hdot
  · exact returns_setMinute h hr hle hdot

theorem length_of_groups {d : Nat} (h : Groups d a b gs str) : gs.length = a + b + 1 := by
  induction h with
  | last _ => rfl
  | colon _ _ ih =>
    rw [List.length_cons, ih]
    omega
  | point _ _ ih =>
    rw [List.length_cons, ih]
    omega

/-- No colon comes after a dot. -/
theorem no_colon_of_groups {d : Nat} (h : Groups d a b gs str) (hd : d ≠ 0) : a = 0 := by
  induction h with
  | last _ => rfl
  | colon _ _ => exact absurd rfl hd
  | point _ _ ih => exact ih (Nat.succ_ne_zero _)

/-- The first colon. -/
theorem colon_of_groups (h : Groups 0 (a + 1) b gs str) :
    ∃ g gs' t, Group g ∧ gs = g :: gs' ∧ str = g ++ ':' :: t ∧ Groups 0 a b gs' t := by
  cases h with
  | colon hg h => exact ⟨_, _, _, hg, rfl, rfl, h⟩
  | point _ h => exact absurd (no_colon_of_groups h (Nat.succ_ne_zero _)) (Nat.succ_ne_zero a)

/-- A clock with what comes from the second on. -/
theorem seekForm_of_second {d : Nat} {pre t : List Char} {hour minute : Int}
    (hclock : ∀ s, Group s → ClockForm (pre ++ s) hour minute (groupValue s))
    (h : Groups d 0 b gs t) (hb : b < 2) : ∃ v, SeekForm (pre ++ t) v := by
  cases h with
  | last hs => exact ⟨_, .whole (hclock _ hs)⟩
  | point hs h =>
    cases h with
    | last hf =>
      rw [← List.append_assoc]
      exact ⟨_, .point (hclock _ hs) hf⟩
    | point _ _ => omega

/-- A text of groups with few enough separators is one of the grammar. -/
theorem seekForm_of_groups (h : Groups 0 a b gs str) (ha : a < 3) (hb : b < 2) :
    ∃ v, SeekForm str v := by
  obtain rfl | rfl | rfl : a = 0 ∨ a = 1 ∨ a = 2 := by omega
  · exact @seekForm_of_second _ _ _ [] _ _ _ (fun s hs => .second hs) h hb
  · obtain ⟨m, gs, t, hm, -, rfl, hsecond⟩ := colon_of_groups h
    have hclock (s : List Char) (hs : Group s) :
        ClockForm (m ++ [':'] ++ s) 0 (groupValue m) (groupValue s) := by
      simpa using ClockForm.minute hm hs
    simpa using seekForm_of_second hclock hsecond hb
  · obtain ⟨hour, gs, t, hh, -, rfl, hminute⟩ := colon_of_groups h
    obtain ⟨m, gs, t, hm, -, rfl, hsecond⟩ := colon_of_groups hminute
    have hclock (s : List Char) (hs : Group s) :
        ClockForm (hour ++ ':' :: m ++ [':'] ++ s) (groupValue hour) (groupValue m)
          (groupValue s) := by
      simpa using ClockForm.hour hh hm hs
    simpa using seekForm_of_second hclock hsecond hb

/-- A text of the grammar is one of groups, and the fields are set to the values of the grammar. -/
theorem groups_of_seekForm (h : SeekForm str v) :
    ∃ a b gs, Groups 0 a b gs str ∧ a < 3 ∧ b < 2 ∧
      ((∀ g ∈ gs, ShortGroup g) → setFields gs a b {} = some v) := by
  cases h with
  | whole ht =>
    cases ht with
    | second hs =>
      refine ⟨0, 0, _, .last hs, by decide, by decide, fun hshort => ?_⟩
      exact setField_group (hshort _ List.mem_cons_self)
    | minute hm hs =>
      refine ⟨1, 0, _, .colon hm (.last hs), by decide, by decide, fun hshort => ?_⟩
      simp only [List.forall_mem_cons] at hshort
      exact (setField_group hshort.1).trans (setField_group hshort.2.1)
    | hour hh hm hs =>
      refine ⟨2, 0, _, .colon hh (.colon hm (.last hs)), by decide, by decide, fun hshort => ?_⟩
      simp only [List.forall_mem_cons] at hshort
      exact (setField_group hshort.1).trans
        ((setField_group hshort.2.1).trans (setField_group hshort.2.2.1))
  | point ht hf =>
    cases ht with
    | second hs =>
      refine ⟨0, 1, _, .point hs (.last hf), by decide, by decide, fun hshort => ?_⟩
      simp only [List.forall_mem_cons] at hshort
      exact (setField_group hshort.1).trans (setField_group hshort.2.1)
    | minute hm hs =>
      rw [List.append_assoc, List.cons_append]
      refine ⟨1, 1, _, .colon hm (.point hs (.last hf)), by decide, by decide, fun hshort => ?_⟩
      simp only [List.forall_mem_cons] at hshort
      exact (setField_group hshort.1).trans
        ((setField_group hshort.2.1).trans (setField_group hshort.2.2.1))
    | hour hh hm hs =>
      rw [List.append_assoc, List.cons_append, List.append_assoc, List.cons_append]
      refine ⟨2, 1, _, .colon hh (.colon hm (.point hs (.last hf))), by decide, by decide,
        fun hshort => ?_⟩
      simp only [List.forall_mem_cons] at hshort
      exact (setField_group hshort.1).trans ((setField_group hshort.2.1).trans
        ((setField_group hshort.2.2.1).trans (setField_group hshort.2.2.2.1)))

/-! ## What is accepted -/

theorem ne_nil_of_groups {d : Nat} (h : Groups d a b gs str) : str ≠ [] := by
  cases h with
  | last hg => exact hg.1
  | colon _ _ => exact List.append_ne_nil_of_right_ne_nil _ (List.cons_ne_nil _ _)
  | point _ _ => exact List.append_ne_nil_of_right_ne_nil _ (List.cons_ne_nil _ _)

theorem short_of_readGroups {s' : SeekScan} (hlength : str.length ≤ 14)
    (h : readGroups 4 [] { rest := str } = some (list, s')) : ∀ g ∈ list, ShortGroup g := by
  intro g hg
  rcases mem_of_readGroups h hg with hg | ⟨hg, hle⟩
  · cases hg
  · exact ⟨hg, Nat.le_trans hle hlength⟩

/-- **A text of the grammar has the values of the grammar.** -/
theorem parseArgTo_of_seekForm (h : SeekForm str v) (hlength : str.length ≤ 14) :
    parseArgTo str = some v := by
  obtain ⟨a, b, gs, hgroups, ha, hb, hfields⟩ := groups_of_seekForm h
  have hgs := length_of_groups hgroups
  have hread : readGroups 4 [] { rest := str } = some (gs, ⟨[], a, b⟩) := by
    have hread : readGroups 4 [] ⟨str, 0, 0⟩ = some ([] ++ gs, ⟨[], 0 + a, 0 + b⟩) :=
      readGroups_of_groups hgroups (by omega)
    rwa [Nat.zero_add, Nat.zero_add] at hread
  have hpos : 0 < str.length := List.length_pos_of_ne_nil (ne_nil_of_groups hgroups)
  rw [parseArgTo, if_neg (by omega), hread]
  dsimp only
  rw [if_pos ⟨by omega, ha, hb⟩]
  exact hfields (short_of_readGroups hlength hread)

/-- Any other text is not accepted. -/
theorem parseArgTo_of_not_seekForm (hlength : str.length ≤ 14) (h : ¬ ∃ v, SeekForm str v) :
    ∃ r, parseArgTo str = some r ∧ r.valid = false := by
  rw [parseArgTo]
  split
  · exact ⟨{}, rfl, rfl⟩
  · split
    · exact ⟨{}, rfl, rfl⟩
    · rename_i list s' hread
      split
      · rename_i haccepted
        obtain ⟨-, hsc, hdot⟩ := haccepted
        rcases groups_of_readGroups hread with ⟨a, b, gs, hgroups, -, rfl⟩ | hfew
        · rw [Nat.zero_add] at hsc
          dsimp only at hdot
          rw [Nat.zero_add] at hdot
          exact absurd (seekForm_of_groups hgroups hsc hdot) h
        · obtain ⟨r, hr, hvalid⟩ :=
            returns_setFields (r := {}) (short_of_readGroups hlength hread) rfl hsc hdot
          exact ⟨r, hr, hvalid (by simpa [Nat.lt_succ_iff] using hfew)⟩
      · exact ⟨{}, rfl, rfl⟩

/-- What is valid is a text of the grammar that is not too long, with its values. -/
theorem seekForm_of_parseArgTo {r : ArgTo} (h : parseArgTo str = some r) (hvalid : r.valid = true) :
    str.length ≤ 14 ∧ SeekForm str r := by
  have hlength : str.length ≤ 14 := by
    by_contra hlong
    rw [parseArgTo, if_pos (by omega)] at h
    cases h
    cases hvalid
  by_cases hform : ∃ v, SeekForm str v
  · obtain ⟨v, hv⟩ := hform
    obtain rfl : r = v := Option.some.inj (h.symm.trans (parseArgTo_of_seekForm hv hlength))
    exact ⟨hlength, hv⟩
  · obtain ⟨w, hw, hinvalid⟩ := parseArgTo_of_not_seekForm hlength hform
    obtain rfl : r = w := Option.some.inj (h.symm.trans hw)
    rw [hvalid] at hinvalid
    cases hinvalid

end

/-- **The seek parser accepts its grammar**, up to 14 characters, with the values of the grammar;
it never throws. -/
theorem parse_arg_to_accepts_grammar (str : List Char) :
    ∃ r, parseArgTo str = some r ∧
      (r.valid = true ↔ (1 ≤ str.length ∧ str.length ≤ 14) ∧ ∃ v, SeekForm str v) ∧
      (str.length ≤ 14 → ∀ v, SeekForm str v → r = v) := by
  by_cases hlength : str.length ≤ 14
  · by_cases hform : ∃ v, SeekForm str v
    · obtain ⟨v, hv⟩ := hform
      have hparse := parseArgTo_of_seekForm hv hlength
      have hvalid : v.valid = true := by
        cases hv <;> rfl
      obtain ⟨a, b, gs, hgroups, -⟩ := groups_of_seekForm hv
      have hpos : 0 < str.length := List.length_pos_of_ne_nil (ne_nil_of_groups hgroups)
      refine ⟨v, hparse, iff_of_true hvalid ⟨⟨hpos, hlength⟩, v, hv⟩, fun _ w hw => ?_⟩
      exact Option.some.inj (hparse.symm.trans (parseArgTo_of_seekForm hw hlength))
    · obtain ⟨r, hr, hvalid⟩ := parseArgTo_of_not_seekForm hlength hform
      exact ⟨r, hr, iff_of_false (by simp [hvalid]) fun h => hform h.2,
        fun _ v hv => absurd ⟨v, hv⟩ hform⟩
  · refine ⟨{}, by rw [parseArgTo, if_pos (by omega)], ?_, fun h => absurd h hlength⟩
    exact iff_of_false (by decide) fun h => hlength h.1.2

example : parseArgTo "2:15:37.899".toList = some ⟨2, 15, 37, 899, true⟩ := by decide

end Musicat.Player
