import Musicat.Child.Command
import Musicat.Lib.MaxRuns

/-!
# Arguments of the runtime CLI

`parse_args_str` goes over a text once. It keeps the index of the first
character of the word that it is in, and pushes the word at the space behind it
or at the end of the text. So the arguments are the maximal runs without a
space, from the left to the right (`parse_args_str_runs`).
-/

namespace Musicat

open Child Lib

abbrev CmdArgs := List Bytes

/-- `args_str.substr (pos, n)`, for a `pos` in the text. -/
def argsSubstr (argsStr : Bytes) (pos n : Nat) : Bytes := (argsStr.drop pos).take n

/-- The variables of `parse_args_str`. -/
structure ArgsScan where
  ret : CmdArgs := []
  /-- The start index. -/
  sI : Nat := 0
  /-- A valid character has been found. -/
  f : Bool := false
  deriving DecidableEq, Repr

/-- What is not `' '`. -/
def ValidChar (c : UInt8) : Prop := c ≠ ' '.toUInt8

instance (c : UInt8) : Decidable (ValidChar c) := inferInstanceAs (Decidable (_ ≠ _))

/-- The body of the loop, for the character `c` at `i`. -/
def argsStep (argsStr : Bytes) (s : ArgsScan) (i : Nat) (c : UInt8) : ArgsScan :=
  if ValidChar c then if !s.f then { s with sI := i, f := true } else s
  else if !s.f then s
  else { s with ret := s.ret ++ [argsSubstr argsStr s.sI (i - s.sI)], f := false }

/-- The loop from `i`, with the characters from there on. -/
def argsLoop (argsStr : Bytes) : Bytes → (i : Nat) → ArgsScan → ArgsScan
  | [], _, s => s
  | c :: rest, i, s => argsLoop argsStr rest (i + 1) (argsStep argsStr s i c)

def parseArgsStr (argsStr : Bytes) : CmdArgs :=
  if argsStr.length = 0 then []
  else
    let s := argsLoop argsStr argsStr 0 {}
    if s.f then s.ret ++ [argsStr.drop s.sI] else s.ret

/-! ## The loop -/

/-- The text of a range. -/
def argAt (argsStr : Bytes) (r : Nat × Nat) : Bytes := argsSubstr argsStr r.1 (r.2 - r.1)

/-- Before `i` the words are found that have ended, and the one that `i` is in is known by its
start. -/
structure Scanned (argsStr : Bytes) (i : Nat) (s : ArgsScan) : Prop where
  found : ∃ runs, RunsBefore ValidChar argsStr i runs ∧ s.ret = runs.map (argAt argsStr)
  word : if s.f then IsRun ValidChar argsStr s.sI i ∧ Starts ValidChar argsStr s.sI
    else Starts ValidChar argsStr i

section
variable {argsStr : Bytes} {s : ArgsScan} {i : Nat} {c : UInt8}

theorem scanned_zero (argsStr : Bytes) : Scanned argsStr 0 {} :=
  ⟨⟨[], .zero _ _, rfl⟩, fun k _ hk => absurd hk (Nat.succ_ne_zero k)⟩

/-- A word may begin behind a space. -/
theorem starts_succ (hc : argsStr[i]? = some c) (hspace : ¬ ValidChar c) :
    Starts ValidChar argsStr (i + 1) := by
  intro k d hk hd
  obtain rfl : k = i := Nat.succ.inj hk
  rw [hc] at hd
  exact Option.some.inj hd ▸ hspace

theorem ends_of_space (hc : argsStr[i]? = some c) (hspace : ¬ ValidChar c) :
    Ends ValidChar argsStr i := by
  intro d hd
  rw [hc] at hd
  exact Option.some.inj hd ▸ hspace

theorem Scanned.step (h : Scanned argsStr i s) (hc : argsStr[i]? = some c) :
    Scanned argsStr (i + 1) (argsStep argsStr s i c) := by
  obtain ⟨⟨runs, hruns, hret⟩, hword⟩ := h
  unfold argsStep
  by_cases hvalid : ValidChar c
  · rw [if_pos hvalid]
    cases hf : s.f with
    | false =>
      -- the first character of a word
      rw [hf] at hword
      exact ⟨⟨runs, hruns.inside hc hvalid, hret⟩, isRun_single hc hvalid, hword⟩
    | true =>
      rw [hf] at hword
      refine ⟨⟨runs, hruns.inside hc hvalid, hret⟩, ?_⟩
      rw [Bool.not_true, if_neg Bool.false_ne_true, hf]
      exact ⟨hword.1.succ hc hvalid, hword.2⟩
  · rw [if_neg hvalid]
    cases hf : s.f with
    | false =>
      rw [hf] at hword
      refine ⟨⟨runs, hruns.gap hword, hret⟩, ?_⟩
      rw [Bool.not_false, if_pos rfl, hf]
      exact starts_succ hc hvalid
    | true =>
      -- the space behind a word
      rw [hf] at hword
      have hclosed := hruns.close hword.1 hword.2 (ends_of_space hc hvalid)
      refine ⟨⟨_, hclosed, ?_⟩, starts_succ hc hvalid⟩
      rw [List.map_append, ← hret]
      rfl

/-- **What the loop has found at the end of the text.** -/
theorem Scanned.loop {rest : Bytes} (h : Scanned argsStr i s) (hrest : argsStr.drop i = rest) :
    Scanned argsStr (i + rest.length) (argsLoop argsStr rest i s) := by
  induction rest generalizing i s with
  | nil => exact h
  | cons c rest ih =>
    have hc : argsStr[i]? = some c := by
      rw [← List.head?_drop, hrest]
      rfl
    have hnext : argsStr.drop (i + 1) = rest := by
      rw [← List.drop_drop, hrest]
      rfl
    have := ih (h.step hc) hnext
    rwa [Nat.add_right_comm, Nat.add_assoc] at this

/-- The end of the text ends the last word. -/
theorem Scanned.parse (h : Scanned argsStr argsStr.length s) :
    ∃ runs, RunsBefore ValidChar argsStr (argsStr.length + 1) runs ∧
      (if s.f then s.ret ++ [argsStr.drop s.sI] else s.ret) = runs.map (argAt argsStr) := by
  obtain ⟨⟨runs, hruns, hret⟩, hword⟩ := h
  cases hf : s.f with
  | false =>
    rw [hf] at hword
    exact ⟨runs, hruns.gap hword, hret⟩
  | true =>
    rw [hf] at hword
    have hend : Ends ValidChar argsStr argsStr.length := by
      intro c hc
      rw [List.getElem?_eq_none (Nat.le_refl _)] at hc
      cases hc
    refine ⟨_, hruns.close hword.1 hword.2 hend, ?_⟩
    have hlast : argAt argsStr (s.sI, argsStr.length) = argsStr.drop s.sI := by
      rw [argAt, argsSubstr, ← List.length_drop]
      exact List.take_length
    rw [if_pos rfl, hret, List.map_append, List.map_singleton, hlast]

theorem parseArgsStr_runs (argsStr : Bytes) :
    ∃ runs, RunsBefore ValidChar argsStr (argsStr.length + 1) runs ∧
      parseArgsStr argsStr = runs.map (argAt argsStr) := by
  unfold parseArgsStr
  split
  · rename_i hempty
    obtain rfl := List.eq_nil_of_length_eq_zero hempty
    exact ⟨[], (RunsBefore.zero ValidChar []).gap (scanned_zero []).word, rfl⟩
  · have hloop := (scanned_zero argsStr).loop (List.drop_zero)
    rw [Nat.zero_add] at hloop
    exact hloop.parse

theorem argAt_ne_nil {r : Nat × Nat} (h : IsRun ValidChar argsStr r.1 r.2) :
    argAt argsStr r ≠ [] := by
  have hlt := h.lt
  have hle := h.le
  apply List.ne_nil_of_length_pos
  show 0 < ((argsStr.drop r.1).take (r.2 - r.1)).length
  rw [List.length_take, List.length_drop]
  omega

end

/-- **The arguments are the maximal nonempty ranges without a space, all of them and in order.** -/
theorem parse_args_str_runs (argsStr : Bytes) :
    ∃ runs : List (Nat × Nat),
      runs.Pairwise (fun a b => a.2 < b.1) ∧
      (∀ r, r ∈ runs ↔ MaxRun ValidChar argsStr r.1 r.2) ∧
      parseArgsStr argsStr = runs.map (argAt argsStr) ∧ [] ∉ parseArgsStr argsStr := by
  obtain ⟨runs, hruns, hparse⟩ := parseArgsStr_runs argsStr
  refine ⟨runs, hruns.sorted, fun r => hruns.mem_iff, hparse, ?_⟩
  rw [hparse, List.mem_map]
  rintro ⟨r, hr, hnil⟩
  exact argAt_ne_nil (hruns.mem_iff.1 hr).run hnil

example : parseArgsStr (bytes "   inter   com iah h   ") =
    [bytes "inter", bytes "com", bytes "iah", bytes "h"] := by decide

end Musicat
