import Musicat.Child.Codec
import Musicat.Child.Execute

/-!
# The way back of a ready message

The worker puts its ready message together from the status and the id as they
are, and the parent parses it like a command. An id with neither a backslash nor
a semicolon comes back; any other does not: what the scan takes for the value of
an id is shorter than the id was, or it ends in the last letter of the message
(`ready_reply_iff`).
-/

namespace Musicat.Child

open Lib

/-! ## The parent -/

/-- `slave_ready_queue`. -/
abbrev ReadyQueue := Bytes → Option (Bool × Int)

/-- `mark_slave_ready`. -/
def markSlaveReady (queue : ReadyQueue) (id : Bytes) (status : Int) : ReadyQueue :=
  Function.update queue id (some (true, status))

/-- `handle_child_message`. -/
def handleChildMessage (queue : ReadyQueue) (o : CommandOptions) : ReadyQueue :=
  if o.command = keyReady then markSlaveReady queue o.id o.ready else queue

/-- A turn of the loop of `notify_thread`, on the record it has read. -/
def readNotification (queue : ReadyQueue) (buf : Bytes) : Option ReadyQueue :=
  (parseCommandToOptions (cString buf) createCommandOptions).map (handleChildMessage queue)

/-! ## What an option takes of its text -/

/-- An assignment, unless it throws, keeps the id. -/
def KeepsId (o : CommandOptions) (r : Option CommandOptions) : Prop :=
  ∀ o', r = some o' → o'.id = o.id

section
variable {o : CommandOptions}

theorem KeepsId.ite {p : Prop} [Decidable p] {r r' : Option CommandOptions} (h : KeepsId o r)
    (h' : KeepsId o r') : KeepsId o (if p then r else r') := by
  split
  · exact h
  · exact h'

theorem KeepsId.apply {r : Option CommandOptions} {o' : CommandOptions} (hk : KeepsId o r)
    (h : r = some o') : o'.id = o.id := hk o' h

theorem keepsId_some {o' : CommandOptions} (h : o'.id = o.id) : KeepsId o (some o') := by
  rintro _ ⟨⟩
  exact h

theorem keepsId_map {α : Type} {r : Option α} {f : α → CommandOptions}
    (h : ∀ a, (f a).id = o.id) : KeepsId o (r.map f) := by
  intro o' ho
  obtain ⟨a, -, rfl⟩ := Option.map_eq_some_iff.1 ho
  exact h a

theorem assign_id {o' : CommandOptions} {opt value : Bytes}
    (h : assignCommandOptionKeyValue o opt value = some o') :
    opt = keyId ∧ o'.id = value ∨ o'.id = o.id := by
  by_cases hopt : opt = keyId
  · rw [assignCommandOptionKeyValue, if_pos hopt] at h
    cases h
    exact .inl ⟨hopt, rfl⟩
  · rw [assignCommandOptionKeyValue, if_neg hopt] at h
    refine .inr (KeepsId.apply ?_ h)
    repeat' apply KeepsId.ite
    all_goals
      first
      | exact keepsId_some rfl
      | exact keepsId_map fun _ => rfl

end

namespace OptionText

/-- The bytes that have been taken, with the equals sign. -/
def size (t : OptionText) : Nat := t.opt.length + t.value.length + t.fillingValue.toNat

/-- No value is filled before the equals sign. -/
def Ordered (t : OptionText) : Prop := t.fillingValue = false → t.value = []

theorem size_add (t : OptionText) (c : UInt8) : (t.add c).size = t.size + 1 := by
  obtain ⟨fillingValue, opt, value⟩ := t
  cases fillingValue <;> simp [add, size] <;> omega

theorem size_bare (t : OptionText) (c : UInt8) : (t.bare c).size ≤ t.size + 1 := by
  unfold bare
  split
  · obtain ⟨fillingValue, opt, value⟩ := t
    cases fillingValue <;> simp [size]
  · exact (t.size_add c).le

theorem Ordered.add {t : OptionText} (h : t.Ordered) (c : UInt8) : (t.add c).Ordered := by
  obtain ⟨fillingValue, opt, value⟩ := t
  cases fillingValue with
  | false => exact fun _ => h rfl
  | true => exact nofun

theorem Ordered.bare {t : OptionText} (h : t.Ordered) (c : UInt8) : (t.bare c).Ordered := by
  unfold OptionText.bare
  split
  · exact nofun
  · exact h.add c

end OptionText

/-- No more bytes are taken than the text had before it was escaped behind its equals sign. -/
theorem size_scan_sanitize (temp : Bytes) (checks flag : Bool) (t : OptionText)
    (hflag : checks = true → flag = false) :
    (scan backslash OptionText.bare OptionText.add flag t (sanitizeFrom checks temp)).2.size ≤
      t.size + temp.length := by
  induction temp generalizing checks flag t with
  | nil => exact Nat.le_refl _
  | cons c cs ih =>
    rw [sanitizeFrom, List.length_cons]
    split
    · rename_i hc
      obtain ⟨hchecks, -⟩ := Bool.and_eq_true_iff.1 hc
      rw [hflag hchecks]
      have := ih checks false (t.add c) fun _ => rfl
      rw [t.size_add] at this
      simp only [scan, if_true]
      omega
    · rename_i hc
      cases flag with
      | true =>
        have := ih (checks || c == equals) false (t.add c) fun _ => rfl
        rw [t.size_add] at this
        simp only [scan]
        omega
      | false =>
        simp only [scan]
        split
        · rename_i hb
          have hchecks : checks = false := by
            cases checks with
            | false => rfl
            | true => exact absurd (by rw [hb]; rfl) hc
          have := ih (checks || c == equals) true t
            (fun h => absurd (by rw [hchecks, hb] at h; exact h) Bool.false_ne_true)
          omega
        · have := ih (checks || c == equals) false (t.bare c) fun _ => rfl
          have := t.size_bare c
          omega

theorem sanitizeFrom_append {c : UInt8} (hc : shouldSanitize c = false) (u : Bytes)
    (checks : Bool) : sanitizeFrom checks (u ++ [c]) = sanitizeFrom checks u ++ [c] := by
  induction u generalizing checks with
  | nil => simp [sanitizeFrom, hc]
  | cons d u ih =>
    simp only [List.cons_append, sanitizeFrom]
    split
    · rw [ih]; rfl
    · rw [ih]; rfl

/-- The texts of an option that `set_option` splits its argument into. -/
def optionText (temp : Bytes) : OptionText :=
  (scan backslash OptionText.bare OptionText.add false {} (sanitizeCommandKeyValue temp)).2

theorem optionText_ordered (temp : Bytes) : (optionText temp).Ordered :=
  scan_inv _ _ (fun _ c h => h.bare c) (fun _ c h => h.add c) _ fun _ => rfl

theorem optionText_size (temp : Bytes) : (optionText temp).size ≤ temp.length := by
  have := size_scan_sanitize temp false false {} nofun
  rwa [show OptionText.size {} = 0 from rfl, Nat.zero_add] at this

/-- A value ends as its text does. -/
theorem optionText_last {c : UInt8} (hc : shouldSanitize c = false) (u : Bytes) :
    (optionText (u ++ [c])).value = [] ∨ (optionText (u ++ [c])).value.getLast? = some c := by
  have hb : c ≠ backslash := by rintro rfl; cases hc
  have he : c ≠ equals := by rintro rfl; cases hc
  have hadd : ∃ t : OptionText, t.Ordered ∧ optionText (u ++ [c]) = t.add c := by
    refine ⟨optionText u, optionText_ordered u, ?_⟩
    rw [optionText, sanitizeCommandKeyValue, sanitizeFrom_append hc, scan_append]
    generalize (scan backslash OptionText.bare OptionText.add false {} _).1 = flag
    cases flag with
    | true => rfl
    | false =>
      simp only [scan, if_neg hb, OptionText.bare, if_neg he]
      rfl
  obtain ⟨t, ht, hadd⟩ := hadd
  rw [hadd, OptionText.add]
  split
  · exact .inr List.getLast?_concat
  · rename_i hf
    exact .inl (ht (Bool.eq_false_iff.2 hf))

/-- Where an id comes from: its text is longer by the key and the equals sign. -/
theorem setOption_id {o o' : CommandOptions} {temp : Bytes}
    (h : setOption o (sanitizeCommandKeyValue temp) = some o') :
    o'.id = o.id ∨ o'.id = [] ∨
      o'.id = (optionText temp).value ∧ o'.id.length + 3 ≤ temp.length := by
  rcases assign_id (show assignCommandOptionKeyValue o (optionText temp).opt
    (optionText temp).value = some o' from h) with ⟨hopt, hid⟩ | hid
  · refine .inr ?_
    cases hf : (optionText temp).fillingValue with
    | false => exact .inl (hid.trans (optionText_ordered temp hf))
    | true =>
      have hsize := optionText_size temp
      rw [OptionText.size, hopt, hf] at hsize
      have hkey : keyId.length = 2 := rfl
      have hone : true.toNat = 1 := rfl
      refine .inr ⟨hid, ?_⟩
      rw [hid]
      omega
  · exact .inl hid

/-! ## Scanning an id -/

/-- `m` bytes behind the start of an argument: `temp_str` is shorter by `d`, and an id that has
been read is shorter than the bytes behind its equals sign. -/
def IdScan (m d : Nat) (st : ParseState) : Prop :=
  ∀ o temp, st = some (o, temp) →
    temp.length + d ≤ m ∧ (o.id = [] ∨ o.id.length + 4 ≤ m)

section
variable {m d : Nat} {st : ParseState}

theorem IdScan.add (h : IdScan m d st) (c : UInt8) : IdScan (m + 1) d (st.add c) := by
  rintro o temp hst
  obtain ⟨⟨o', temp'⟩, hst', heq⟩ := Option.map_eq_some_iff.1 hst
  cases heq
  obtain ⟨htemp, hid⟩ := h o temp' hst'
  refine ⟨by simp only [List.length_append, List.length_singleton]; omega, ?_⟩
  exact hid.imp id fun hid => by omega

theorem IdScan.escape (h : IdScan m d st) : IdScan (m + 1) (d + 1) st := by
  intro o temp hst
  obtain ⟨htemp, hid⟩ := h o temp hst
  exact ⟨by omega, hid.imp id fun hid => by omega⟩

theorem bare_semicolon {o' : CommandOptions} {temp' : Bytes}
    (h : st.bare semicolon = some (o', temp')) :
    ∃ o temp, st = some (o, temp) ∧ setOption o (sanitizeCommandKeyValue temp) = some o' ∧
      temp' = [] := by
  rw [ParseState.bare, if_pos rfl] at h
  obtain ⟨⟨o, temp⟩, hst, h⟩ := Option.bind_eq_some_iff.1 h
  obtain ⟨o₁, hset, heq⟩ := Option.map_eq_some_iff.1 h
  cases heq
  exact ⟨o, temp, hst, hset, rfl⟩

/-- A semicolon ends the argument; what was shorter by `d` gives an id shorter by `d`. -/
theorem IdScan.endArg (h : IdScan m d st) {o' : CommandOptions} {temp' : Bytes}
    (hst : st.bare semicolon = some (o', temp')) :
    temp' = [] ∧ (o'.id = [] ∨ o'.id.length + 4 ≤ m ∨ o'.id.length + 3 + d ≤ m) := by
  obtain ⟨o, temp, hsome, hset, rfl⟩ := bare_semicolon hst
  obtain ⟨htemp, hid⟩ := h o temp hsome
  refine ⟨rfl, ?_⟩
  rcases setOption_id hset with heq | hnil | ⟨-, hlen⟩
  · rw [heq]
    exact hid.imp id .inl
  · exact .inl hnil
  · exact .inr (.inr (by omega))

theorem IdScan.bare (h : IdScan m d st) (c : UInt8) :
    ∃ d', IdScan (m + 1) d' (st.bare c) ∧ (1 ≤ d ∨ c = semicolon → 1 ≤ d') := by
  by_cases hc : c = semicolon
  · subst hc
    refine ⟨m + 1, fun o' temp' hst => ?_, fun _ => Nat.le_add_left 1 m⟩
    obtain ⟨rfl, hid⟩ := h.endArg hst
    exact ⟨by simp, hid.imp id fun hid => by omega⟩
  · refine ⟨d, ?_, fun h => h.resolve_right hc⟩
    rw [ParseState.bare, if_neg hc]
    exact h.add c

/-- **Every byte that is not taken as it is makes `temp_str` shorter.** -/
theorem IdScan.scan (v : Bytes) (flag : Bool) (h : IdScan m d st) (hflag : flag = true → 1 ≤ d) :
    ∃ d', IdScan (m + v.length) d' (scan backslash ParseState.bare ParseState.add flag st v).2 ∧
      (1 ≤ d ∨ backslash ∈ v ∨ semicolon ∈ v → 1 ≤ d') := by
  induction v generalizing m d flag st with
  | nil => exact ⟨d, h, fun hd => hd.elim id (fun h => by simp at h)⟩
  | cons c cs ih =>
    have hlen : m + (c :: cs).length = m + 1 + cs.length := by
      rw [List.length_cons]; omega
    rw [hlen]
    cases flag with
    | true =>
      obtain ⟨d', hscan, hd'⟩ := ih false (h.add c) nofun
      exact ⟨d', hscan, fun _ => hd' (.inl (hflag rfl))⟩
    | false =>
      simp only [Lib.scan]
      split
      · obtain ⟨d', hscan, hd'⟩ := ih true h.escape fun _ => Nat.le_add_left 1 d
        exact ⟨d', hscan, fun _ => hd' (.inl (Nat.le_add_left 1 d))⟩
      · rename_i hc
        obtain ⟨d₁, hbare, hd₁⟩ := h.bare c
        obtain ⟨d', hscan, hd'⟩ := ih false hbare nofun
        refine ⟨d', hscan, fun hor => hd' ?_⟩
        rcases hor with hd | hb | hs
        · exact .inl (hd₁ (.inl hd))
        · exact .inr (.inl ((List.mem_cons.1 hb).resolve_left (Ne.symm hc)))
        · rcases List.mem_cons.1 hs with rfl | hs
          · exact .inl (hd₁ (.inr rfl))
          · exact .inr (.inr hs)

end

/-! ## The message -/

theorem scan_createArg_raw (key v : Bytes) (hk : Plain key) (hb : backslash ∉ v)
    (hs : semicolon ∉ v) (o : CommandOptions) :
    scan backslash ParseState.bare ParseState.add false (some (o, [])) (createArg key v) =
      (false, (assignCommandOptionKeyValue o key v).map (·, [])) := by
  have hkey : ∀ c, shouldSanitize c = true → c ≠ equals → c ∉ v → c ∉ key ++ equals :: v := by
    intro c hc he hv hmem
    rcases List.mem_append.1 hmem with h | h
    · exact hk.not_mem hc h
    · exact (List.mem_cons.1 h).elim he hv
  have harg : createArg key v = (key ++ equals :: v) ++ [semicolon] := by
    simp [createArg]
  rw [harg, scan_append, scan_plain _ _ (hkey _ rfl (by decide) hb),
    foldl_parse_bare (hkey _ rfl (by decide) hs), List.nil_append]
  simp only [scan, if_neg (show semicolon ≠ backslash by decide), ParseState.bare, if_true,
    Option.bind_some, sanitizeCommandKeyValue_arg (hk.not_mem shouldSanitize_equals),
    setOption_arg hk]

theorem not_mem_toString {c : UInt8} (hc : isDigit c = false) (hm : c ≠ 45) (i : Int) :
    c ∉ bytes (toString i) := by
  have hnat (n : Nat) : c ∉ bytes (toString (n : Int)) := fun h => by
    rw [isDigit_of_mem_bytes h] at hc
    cases hc
  by_cases hneg : i < 0
  · obtain ⟨n, rfl⟩ : ∃ n : Nat, i = -((n + 1 : Nat) : Int) := ⟨(-i - 1).toNat, by omega⟩
    rw [bytes_toString_neg, List.mem_cons]
    exact not_or.2 ⟨hm, hnat (n + 1)⟩
  · obtain ⟨n, rfl⟩ := Int.eq_ofNat_of_zero_le (show 0 ≤ i by omega)
    exact hnat n

section
variable {status : Int} {id : Bytes}

/-- The argument with the status is read as it was written. -/
theorem scan_status (hlo : -2 ^ 31 ≤ status) (hhi : status < 2 ^ 31) :
    scan backslash ParseState.bare ParseState.add false (some (createCommandOptions, []))
        (createArg keyReady (bytes (toString status))) =
      (false, some ({ ready := status }, [])) := by
  have hassign : assignCommandOptionKeyValue createCommandOptions keyReady
      (bytes (toString status)) = some { ready := status } := by
    have hkey : ∀ value, assignCommandOptionKeyValue createCommandOptions keyReady value =
        (stoi value).map fun ready => { ready } := fun _ => rfl
    rw [hkey, stoi_toString_int hlo hhi]
    rfl
  rw [scan_createArg_raw _ _ (plain_of_all rfl) (not_mem_toString rfl (by decide) status)
    (not_mem_toString rfl (by decide) status), hassign]
  rfl

theorem readyMsg_eq : readyMsg status id =
    createArg keyReady (bytes (toString status)) ++ createArg keyId id ++
      createArg keyCommand keyReady := by
  simp [readyMsg, createArg]

/-- **A plain id comes back**, with its status. -/
theorem parse_readyMsg (hlo : -2 ^ 31 ≤ status) (hhi : status < 2 ^ 31) (hb : backslash ∉ id)
    (hs : semicolon ∉ id) :
    parseCommandToOptions (readyMsg status id) createCommandOptions =
      some { ready := status, id := id, command := keyReady } := by
  have hid := scan_createArg_raw keyId id (plain_of_all rfl) hb hs { ready := status }
  have hcmd := scan_createArg_raw keyCommand keyReady (plain_of_all rfl)
    (by decide) (by decide) { ready := status, id := id }
  rw [parseCommandToOptions, readyMsg_eq, scan_append, scan_append, scan_status hlo hhi, hid]
  show (scan backslash ParseState.bare ParseState.add false
    (some ({ ready := status, id := id }, [])) (createArg keyCommand keyReady)).2.bind _ = _
  rw [hcmd]
  rfl

theorem scan_none (v : Bytes) (flag : Bool) :
    (scan backslash ParseState.bare ParseState.add flag none v).2 = none :=
  scan_inv (P := (· = none)) _ _ (by rintro _ c rfl; unfold ParseState.bare; split <;> rfl)
    (by rintro _ c rfl; rfl) v rfl

/-- What the parent has read when it has read the id. -/
def idRead (status : Int) (id : Bytes) : Bool × ParseState :=
  scan backslash ParseState.bare ParseState.add false
    (some ({ ready := status }, keyId ++ [equals])) id

theorem idRead_idScan (status : Int) (h : backslash ∈ id ∨ semicolon ∈ id) :
    ∃ d, IdScan (3 + id.length) d (idRead status id).2 ∧ 1 ≤ d := by
  have hstart : IdScan 3 0 (some ({ ready := status }, keyId ++ [equals])) := by
    rintro o temp ⟨⟩
    exact ⟨Nat.le_refl 3, .inl rfl⟩
  obtain ⟨d, hscan, hd⟩ := hstart.scan id false nofun
  exact ⟨d, hscan, hd (.inr h)⟩

theorem parse_readyMsg_eq (hlo : -2 ^ 31 ≤ status) (hhi : status < 2 ^ 31) :
    parseCommandToOptions (readyMsg status id) createCommandOptions =
      (scan backslash ParseState.bare ParseState.add (idRead status id).1 (idRead status id).2
        (semicolon :: createArg keyCommand keyReady)).2.bind fun (options, temp) =>
          if temp.isEmpty then some options
          else setOption options (sanitizeCommandKeyValue temp) := by
  have hmsg : readyMsg status id = createArg keyReady (bytes (toString status)) ++
      ((keyId ++ [equals]) ++ (id ++ semicolon :: createArg keyCommand keyReady)) := by
    simp [readyMsg, createArg]
  have hkey : scan backslash ParseState.bare ParseState.add false (some ({ ready := status }, []))
      (keyId ++ [equals]) = (false, some ({ ready := status }, keyId ++ [equals])) := by
    rw [scan_plain _ _ (by decide), foldl_parse_bare (by decide)]
    rfl
  rw [parseCommandToOptions, hmsg, scan_append, scan_status hlo hhi, scan_append, hkey,
    scan_append]
  rfl

/-- An id that ends where the parent's argument ends. -/
theorem parse_id_closed {st : ParseState} {m d : Nat} (h : IdScan m d st) (hd : 1 ≤ d)
    {o' : CommandOptions}
    (ho : (scan backslash ParseState.bare ParseState.add false st
      (semicolon :: createArg keyCommand keyReady)).2.bind (fun (options, temp) =>
          if temp.isEmpty then some options
          else setOption options (sanitizeCommandKeyValue temp)) = some o') :
    o'.id = [] ∨ o'.id.length + 4 ≤ m := by
  simp only [scan, if_neg (show semicolon ≠ backslash by decide)] at ho
  cases hb : st.bare semicolon with
  | none => rw [hb, scan_none] at ho; cases ho
  | some r =>
    obtain ⟨o, temp⟩ := r
    obtain ⟨rfl, hid⟩ := h.endArg hb
    rw [hb, scan_createArg_raw _ _ (plain_of_all rfl) (by decide) (by decide)] at ho
    cases ho
    exact hid.imp id fun hid => by
      show o.id.length + 4 ≤ m
      omega

/-- An id whose end takes the meaning out of the semicolon after it. -/
theorem parse_id_open {st : ParseState} {m d : Nat} (h : IdScan m d st) {o' : CommandOptions}
    (ho : (scan backslash ParseState.bare ParseState.add true st
      (semicolon :: createArg keyCommand keyReady)).2.bind (fun (options, temp) =>
          if temp.isEmpty then some options
          else setOption options (sanitizeCommandKeyValue temp)) = some o') :
    o'.id = [] ∨ o'.id.length + 4 ≤ m ∨ o'.id.getLast? = some 121 := by
  cases st with
  | none => rw [scan_none] at ho; cases ho
  | some r =>
    obtain ⟨o, temp⟩ := r
    have harg : createArg keyCommand keyReady = (bytes "cmd=rd" ++ [121]) ++ [semicolon] := rfl
    simp only [scan, ParseState.add, Option.map_some] at ho
    rw [harg, scan_append, scan_plain _ _ (by decide), foldl_parse_bare (by decide)] at ho
    simp only [scan, if_neg (show semicolon ≠ backslash by decide), ← List.append_assoc] at ho
    cases hb : ParseState.bare (some (o, temp ++ [semicolon] ++ bytes "cmd=rd" ++ [121]))
        semicolon with
    | none => rw [hb] at ho; cases ho
    | some r =>
      obtain ⟨o₂, temp₂⟩ := r
      obtain ⟨_, _, ⟨⟩, hset, rfl⟩ := bare_semicolon hb
      rw [hb] at ho
      cases ho
      obtain ⟨-, hid⟩ := h o temp rfl
      rcases setOption_id hset with heq | hnil | ⟨heq, -⟩
      · rw [heq]
        exact hid.imp id .inl
      · exact .inl hnil
      · rw [heq]
        exact (optionText_last rfl _).imp id .inr

end

section
variable {status : Int} {id : Bytes}

/-- **Any other id does not come back.** -/
theorem parse_readyMsg_ne (hlo : -2 ^ 31 ≤ status) (hhi : status < 2 ^ 31)
    (h : backslash ∈ id ∨ semicolon ∈ id) {o : CommandOptions}
    (ho : parseCommandToOptions (readyMsg status id) createCommandOptions = some o) :
    o.id ≠ id := by
  rintro rfl
  obtain ⟨d, hscan, hd⟩ := idRead_idScan status h
  have hne : o.id ≠ [] := by
    intro hnil
    simp [hnil] at h
  rw [parse_readyMsg_eq hlo hhi] at ho
  cases hflag : (idRead status o.id).1 with
  | false =>
    rw [hflag] at ho
    rcases parse_id_closed hscan hd ho with hnil | hlen
    · exact hne hnil
    · omega
  | true =>
    rw [hflag] at ho
    have hlast : o.id.getLast? = some backslash :=
      (getLast_of_scan _ _ hflag).resolve_left fun hnil => hne hnil.1
    rcases parse_id_open hscan ho with hnil | hlen | hlast'
    · exact hne hnil
    · omega
    · rw [hlast] at hlast'
      cases hlast'

theorem zero_not_mem_readyMsg (hnul : (0 : UInt8) ∉ id) : (0 : UInt8) ∉ readyMsg status id := by
  have hstatus : (0 : UInt8) ∉ bytes (toString status) :=
    not_mem_toString rfl (by decide) status
  have hkeys : (0 : UInt8) ∉ keyReady ∧ (0 : UInt8) ∉ keyId ∧ (0 : UInt8) ∉ keyCommand := by
    decide
  have hsep : (0 : UInt8) ∉ [equals] ∧ (0 : UInt8) ∉ [semicolon] := by decide
  simp only [readyMsg, List.mem_append, hstatus, hkeys, hsep, hnul, or_self, not_false_eq_true]

end

/-! ## A reply of the worker -/

section
variable {now : Int} {env : LaunchEnv} {o : CommandOptions} {s : WorkerState} {msg : Bytes}

theorem reply_replies {s₁ : WorkerState} {status : Int} {id : Bytes}
    (hs : s₁.replies = s.replies) (h : (s₁.reply status id).replies = s.replies ++ [msg]) :
    msg = readyMsg status id := by
  unfold WorkerState.reply at h
  split at h
  · rw [hs] at h
    simp at h
  · simp only [hs] at h
    exact (List.singleton_inj.1 (List.append_cancel_left h)).symm

theorem launch_keeps (fifos : Nat) :
    (launch fifos env o s).1.replies = s.replies ∧ (launch fifos env o s).2.1.id = o.id := by
  cases hf : env.fails fifos with
  | true =>
    obtain ⟨status, -, hlaunch⟩ := launch_fails (o := o) (s := s) hf
    rw [hlaunch]
    exact ⟨rfl, rfl⟩
  | false =>
    rw [launch_succeeds hf]
    exact ⟨rfl, rfl⟩

theorem finishExecute_reply {r : WorkerState × CommandOptions × Int}
    (hr : r.1.replies = s.replies ∧ r.2.1.id = o.id)
    (h : (finishExecute r).1.replies = s.replies ++ [msg]) :
    msg = readyMsg (finishExecute r).2 o.id := by
  obtain ⟨s₁, o₁, status⟩ := r
  obtain ⟨hs, hid⟩ := hr
  have h' : ((if status = 0 then s₁.insertSlave o₁ else s₁).reply status o₁.id).replies =
      s.replies ++ [msg] := h
  have hinsert : (s₁.insertSlave o₁).replies = s.replies := by
    unfold WorkerState.insertSlave
    split <;> exact hs
  rw [← hid]
  refine reply_replies ?_ h'
  split
  · exact hinsert
  · exact hs

/-- What `execute` writes to the parent is the ready message of its status. -/
theorem execute_reply (h : (execute now env o s).1.replies = s.replies ++ [msg]) :
    msg = readyMsg (execute now env o s).2 o.id := by
  cases hsame : s.sameSlave o with
  | true =>
    have hstatus : (execute now env o s).2 = errSlaveExist := by
      unfold WorkerState.sameSlave at hsame
      unfold execute
      simp only [hsame, if_true]
    rw [execute_same hsame] at h
    rw [hstatus]
    exact reply_replies rfl h
  | false =>
    by_cases hsh : o.command = cmdShutdown
    · rw [execute_shutdown hsame hsh] at h
      split at h <;> simp at h
    · rw [execute_eq hsame hsh] at h ⊢
      refine finishExecute_reply ?_ h
      split
      · exact launch_keeps _
      · exact ⟨rfl, rfl⟩

/-- The parent marks the id ready that a ready message was written for, with its status, exactly
if the id has neither a backslash nor a semicolon. -/
theorem ready_reply_iff (hreply : (execute now env o s).1.replies = s.replies ++ [msg])
    (hnul : (0 : UInt8) ∉ o.id)
    (hint : -2 ^ 31 ≤ (execute now env o s).2 ∧ (execute now env o s).2 < 2 ^ 31) :
    (∀ queue, readNotification queue (pad msg) =
        some (markSlaveReady queue o.id (execute now env o s).2)) ↔
      backslash ∉ o.id ∧ semicolon ∉ o.id := by
  obtain ⟨hlo, hhi⟩ := hint
  obtain rfl := execute_reply hreply
  simp only [readNotification, cString_pad (zero_not_mem_readyMsg hnul)]
  constructor
  · intro hmarks
    by_contra hspecial
    rw [← not_or, not_not] at hspecial
    have hempty := hmarks fun _ => none
    obtain ⟨o', ho', hmark⟩ := Option.map_eq_some_iff.1 hempty
    have hne := parse_readyMsg_ne hlo hhi hspecial ho'
    have hat := congrFun hmark o.id
    rw [markSlaveReady, Function.update_self, handleChildMessage] at hat
    split at hat
    · rw [markSlaveReady, Function.update_of_ne (Ne.symm hne)] at hat
      cases hat
    · cases hat
  · rintro ⟨hb, hs⟩ queue
    rw [parse_readyMsg hlo hhi hb hs]
    rfl

/-- A search whose id is plain is launched and marked ready. -/
theorem ready_reply_iff_plain :
    (∀ queue, readNotification queue (pad (readyMsg 0 (bytes "v1="))) =
        some (markSlaveReady queue (bytes "v1=") 0)) ↔
      backslash ∉ bytes "v1=" ∧ semicolon ∉ bytes "v1=" :=
  @ready_reply_iff 0 { fork := 7 } { id := bytes "v1=", command := cmdCallYtdlp } {} _ rfl
    (by decide)
    ⟨by show -2 ^ 31 ≤ (0 : Int); decide, by show (0 : Int) < 2 ^ 31; decide⟩

/-- The parent marks `a` ready for the child `a;b`. -/
theorem semicolon_id_lost :
    ¬∀ (now : Int) (env : LaunchEnv) (o : CommandOptions) (s : WorkerState) (msg : Bytes),
      (execute now env o s).1.replies = s.replies ++ [msg] → (0 : UInt8) ∉ o.id →
      ∀ queue, readNotification queue (pad msg) =
        some (markSlaveReady queue o.id (execute now env o s).2) := by
  intro h
  have hmarks := h 0 { fork := 7 } { id := bytes "a;b", command := cmdCallYtdlp } {}
    (readyMsg 0 (bytes "a;b")) rfl (by decide) fun _ => none
  have hparse : parseCommandToOptions (readyMsg 0 (bytes "a;b")) createCommandOptions =
      some { id := bytes "a", command := keyReady } := rfl
  have hne : bytes "a;b" ≠ bytes "a" := by decide
  rw [readNotification, cString_pad (by decide), hparse] at hmarks
  have hat := congrFun (Option.some.inj hmarks) (bytes "a;b")
  simp [handleChildMessage, markSlaveReady, Function.update_of_ne hne] at hat

end

end Musicat.Child
