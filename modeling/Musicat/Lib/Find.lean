import Mathlib.Data.List.Basic
import Mathlib.Data.List.Infix
import Mathlib.Data.List.TakeWhile

/-!
# Searching a text for a key

`find pat s` is the place where `pat` first occurs in `s`, and `after pat s` the
text behind it. `fieldsText sep fs` writes fields, each a key and a value, with a
separator between them. A key is found at its own field when it does not occur
in an earlier one (`after_fieldsText`), which follows from its not occurring in
the earlier keys when the values do not have its last symbol
(`not_infix_field`).
-/

namespace Musicat.Lib

variable {α : Type*}

section
variable {pat s : List α} {c : α}

/-- A pattern with a symbol that the text does not have does not occur in it. -/
theorem not_infix_of_not_mem (hp : c ∈ pat) (hs : c ∉ s) : ¬ pat <:+: s := fun h =>
  hs (h.subset hp)

/-- A pattern whose last symbol is in no value occurs in a field only where it does in the key. -/
theorem not_infix_field {key value : List α} (hkey : ¬ pat ++ [c] <:+: key) (hvalue : c ∉ value) :
    ¬ pat ++ [c] <:+: key ++ value := by
  rintro ⟨u, v, huv⟩
  rcases List.append_eq_append_iff.1 huv with ⟨w, hw, hv⟩ | ⟨w, hw, hv⟩
  · exact hkey ⟨u, w, hw.symm⟩
  · cases hw' : w.reverse with
    | nil =>
      obtain rfl : w = [] := by simpa using hw'
      exact hkey ⟨u, [], by simpa using hw⟩
    | cons d w' =>
      obtain rfl : w = w'.reverse ++ [d] := by simpa using congrArg List.reverse hw'
      rw [← List.append_assoc, ← List.append_assoc] at hw
      obtain ⟨-, hcd⟩ := List.append_inj' hw rfl
      refine hvalue (hv ▸ ?_)
      simp [List.singleton_inj.1 hcd]

end

/-- The fields, each its key and then its value, with `sep` between them. -/
def fieldsText (sep : α) : List (List α × List α) → List α
  | [] => []
  | [(key, value)] => key ++ value
  | (key, value) :: f :: fs => key ++ value ++ sep :: fieldsText sep (f :: fs)

/-- The symbols of the fields. -/
theorem mem_fieldsText {sep c : α} {fs : List (List α × List α)} (h : c ∈ fieldsText sep fs) :
    c = sep ∨ ∃ f ∈ fs, c ∈ f.1 ∨ c ∈ f.2 := by
  induction fs with
  | nil => cases h
  | cons g fs ih =>
    obtain ⟨k, v⟩ := g
    have hfirst (hc : c ∈ k ++ v) : ∃ f ∈ (k, v) :: fs, c ∈ f.1 ∨ c ∈ f.2 :=
      ⟨(k, v), List.mem_cons_self, List.mem_append.1 hc⟩
    cases fs with
    | nil => exact .inr (hfirst h)
    | cons f fs =>
      rw [fieldsText, List.mem_append, List.mem_cons] at h
      rcases h with h | h | h
      · exact .inr (hfirst h)
      · exact .inl h
      · rcases ih h with hc | ⟨f, hf, hc⟩
        · exact .inl hc
        · exact .inr ⟨f, List.mem_cons_of_mem _ hf, hc⟩

variable [DecidableEq α]

/-- The index at which `pat` first occurs. -/
def find (pat : List α) : List α → Option Nat
  | [] => if pat.isEmpty then some 0 else none
  | c :: s => if pat.isPrefixOf (c :: s) then some 0 else (find pat s).map (· + 1)

/-- The index at which `pat` first occurs from the index `i` on. -/
def findFrom (pat s : List α) (i : Nat) : Option Nat := (find pat (s.drop i)).map (i + ·)

/-- What comes after the first occurrence of `pat`. -/
def after (pat s : List α) : Option (List α) := (find pat s).map fun i => s.drop (i + pat.length)

section
variable {pat s part : List α} {c : α}

theorem find_of_starts (h : pat <+: s) : find pat s = some 0 := by
  cases s with
  | nil => simp [find, List.prefix_nil.1 h]
  | cons c s => simp [find, List.isPrefixOf_iff_prefix.2 h]

theorem find_cons_of_not_starts (h : ¬ pat <+: c :: s) :
    find pat (c :: s) = (find pat s).map (· + 1) := by
  rw [find, if_neg (mt List.isPrefixOf_iff_prefix.1 h)]

/-- A pattern is found at the beginning where the text starts with it, and only there. -/
theorem find_eq_zero_iff : find pat s = some 0 ↔ pat <+: s := by
  refine ⟨fun h => ?_, find_of_starts⟩
  cases s with
  | nil =>
    rw [find] at h
    split at h
    · rename_i hp
      exact List.isEmpty_iff.1 hp ▸ List.prefix_rfl
    · cases h
  | cons c s =>
    by_contra hp
    rw [find_cons_of_not_starts hp, Option.map_eq_some_iff] at h
    obtain ⟨i, -, hi⟩ := h
    exact absurd hi (Nat.succ_ne_zero i)

/-- What does not occur is not found. -/
theorem find_eq_none (h : ¬ pat <:+: s) : find pat s = none := by
  induction s with
  | nil =>
    have hne : pat ≠ [] := fun hp => h (hp ▸ List.infix_rfl)
    simp [find, hne]
  | cons c s ih =>
    have hprefix : ¬ pat <+: c :: s := mt List.IsPrefix.isInfix h
    have hrest : ¬ pat <:+: s := fun hs => h (hs.trans (List.suffix_cons c s).isInfix)
    rw [find_cons_of_not_starts hprefix, ih hrest, Option.map_none]

/-- A search goes past a part without the pattern, up to a symbol that is not in the pattern. -/
theorem find_skip (hpart : ¬ pat <:+: part) (hc : c ∉ pat) :
    find pat (part ++ c :: s) = (find pat s).map (part.length + 1 + ·) := by
  have hstart {u v : List α} (hu : ¬ pat <+: u) : ¬ pat <+: u ++ c :: v := by
    intro hp
    rcases List.prefix_or_prefix_of_prefix hp (List.prefix_append u (c :: v)) with hpu | hup
    · exact hu hpu
    · obtain ⟨w, rfl⟩ := hup
      rw [List.prefix_append_right_inj] at hp
      cases w with
      | nil => exact hu (by simp)
      | cons d w => exact hc (by simp [(List.cons_prefix_cons.1 hp).1])
  induction part with
  | nil =>
    rw [List.nil_append, find_cons_of_not_starts (hstart (u := []) fun h => hpart h.isInfix)]
    congr 1
    funext i
    simp only [List.length_nil]
    omega
  | cons d part ih =>
    have hrest : ¬ pat <:+: part := fun h => hpart (h.trans (List.suffix_cons d part).isInfix)
    have hfirst : ¬ pat <+: d :: (part ++ c :: s) :=
      hstart (u := d :: part) fun h => hpart h.isInfix
    rw [List.cons_append, find_cons_of_not_starts hfirst, ih hrest, Option.map_map]
    congr 1
    funext i
    simp only [Function.comp_apply, List.length_cons]
    omega

theorem after_skip (hpart : ¬ pat <:+: part) (hc : c ∉ pat) :
    after pat (part ++ c :: s) = after pat s := by
  rw [after, find_skip hpart hc, Option.map_map, after]
  congr 1
  funext i
  have hsplit : part ++ c :: s = (part ++ [c]) ++ s := by simp
  rw [Function.comp_apply, hsplit, show part.length + 1 + i + pat.length =
    (part ++ [c]).length + (i + pat.length) by simp; omega, List.drop_length_add_append]

theorem after_self (pat s : List α) : after pat (pat ++ s) = some s := by
  rw [after, find_of_starts (List.prefix_append pat s)]
  simp

/-- What is found stands there. -/
theorem drop_of_find {i : Nat} (h : find pat s = some i) :
    s.drop i = pat ++ s.drop (i + pat.length) := by
  induction s generalizing i with
  | nil =>
    rw [find] at h
    split at h
    · rename_i hp
      simp [List.isEmpty_iff.1 hp]
    · cases h
  | cons c s ih =>
    by_cases hp : pat <+: c :: s
    · rw [find_of_starts hp, Option.some.injEq] at h
      obtain ⟨t, ht⟩ := hp
      rw [← h, ← ht]
      simp
    · rw [find_cons_of_not_starts hp, Option.map_eq_some_iff] at h
      obtain ⟨j, hj, rfl⟩ := h
      rw [List.drop_succ_cons, ih hj, show j + 1 + pat.length = j + pat.length + 1 by omega,
        List.drop_succ_cons]

/-- What is found occurs. -/
theorem infix_of_find {i : Nat} (h : find pat s = some i) : pat <:+: s := by
  refine ⟨s.take i, s.drop (i + pat.length), ?_⟩
  rw [List.append_assoc, ← drop_of_find h, List.take_append_drop]

theorem add_length_le_of_find {i : Nat} (h : find pat s = some i) (hpat : pat ≠ []) :
    i + pat.length ≤ s.length := by
  have hlength := congrArg List.length (drop_of_find h)
  rw [List.length_drop, List.length_append] at hlength
  have := List.length_pos_iff.2 hpat
  omega

/-- What occurs is found. -/
theorem exists_find_of_infix (h : pat <:+: s) : ∃ i, find pat s = some i := by
  induction s with
  | nil => exact ⟨0, find_of_starts (List.infix_nil.1 h ▸ List.nil_prefix)⟩
  | cons c s ih =>
    by_cases hp : pat <+: c :: s
    · exact ⟨0, find_of_starts hp⟩
    · obtain ⟨i, hi⟩ := ih ((List.infix_cons_iff.1 h).resolve_left hp)
      exact ⟨i + 1, by rw [find_cons_of_not_starts hp, hi, Option.map_some]⟩

/-- What is found in a text is found there, too, when more follows. -/
theorem find_append {i : Nat} (h : find pat s = some i) (t : List α) :
    find pat (s ++ t) = some i := by
  induction s generalizing i with
  | nil =>
    rw [find] at h
    split at h
    · rename_i hp
      cases h
      exact find_of_starts (List.isEmpty_iff.1 hp ▸ List.nil_prefix)
    · cases h
  | cons c s ih =>
    by_cases hp : pat <+: c :: s
    · rw [find_of_starts hp] at h
      cases h
      exact find_of_starts (hp.trans (List.prefix_append _ t))
    · rw [find_cons_of_not_starts hp, Option.map_eq_some_iff] at h
      obtain ⟨j, hj, rfl⟩ := h
      have hlonger : ¬ pat <+: c :: (s ++ t) := by
        intro hpt
        have hle : pat.length ≤ (c :: s).length :=
          (infix_of_find hj).length_le.trans (Nat.le_succ _)
        exact hp (List.prefix_of_prefix_length_le hpt (List.prefix_append (c :: s) t) hle)
      rw [List.cons_append, find_cons_of_not_starts hlonger, ih hj]
      rfl

/-- The search for one symbol. -/
theorem find_singleton (c : α) (s : List α) :
    find [c] s = if c ∈ s then some (s.takeWhile (· ≠ c)).length else none := by
  induction s with
  | nil => rfl
  | cons d s ih =>
    by_cases hd : d = c
    · subst hd
      rw [find_of_starts (by simp)]
      simp
    · have hp : ¬ [c] <+: d :: s := fun h => hd (List.cons_prefix_cons.1 h).1.symm
      rw [find_cons_of_not_starts hp, ih]
      have hcd : c ≠ d := Ne.symm hd
      by_cases hs : c ∈ s
      · simp [hs, hd]
      · simp [hs, hcd]

/-- The first of a symbol that does not occur before it. -/
theorem find_singleton_append (hpart : c ∉ part) : find [c] (part ++ c :: s) = some part.length := by
  have hkeep : ∀ a ∈ part, decide (a ≠ c) = true := fun a ha =>
    decide_eq_true fun h => hpart (h ▸ ha)
  rw [find_singleton, if_pos (List.mem_append_right _ List.mem_cons_self),
    List.takeWhile_append_of_pos hkeep]
  simp

end

/-! ## Finding a field -/

/-- What stands between the key found at `i` and the next separator. -/
def valueAt (sep : α) (key s : List α) (i : Nat) : List α :=
  let start := i + key.length
  match findFrom [sep] s (i + 1) with
  | none => s.drop start
  | some e => (s.drop start).take (e - start)

/-- That is what comes after the key, up to the separator. -/
theorem valueAt_eq {sep : α} {key s : List α} {i : Nat} (hfind : find key s = some i)
    (hkey : key ≠ []) (hsep : sep ∉ key) :
    valueAt sep key s i = (s.drop (i + key.length)).takeWhile (· ≠ sep) := by
  obtain ⟨c, key, rfl⟩ := List.exists_cons_of_ne_nil hkey
  have hdrop : s.drop (i + 1) = key ++ s.drop (i + (c :: key).length) := by
    rw [← List.drop_drop, drop_of_find hfind]
    rfl
  have hkeep : ∀ a ∈ key, decide (a ≠ sep) = true := fun a ha =>
    decide_eq_true fun h => hsep (h ▸ List.mem_cons_of_mem _ ha)
  have hmem : sep ∈ s.drop (i + 1) ↔ sep ∈ s.drop (i + (c :: key).length) := by
    rw [hdrop, List.mem_append]
    exact or_iff_right fun h => hsep (List.mem_cons_of_mem _ h)
  rw [valueAt, findFrom, find_singleton]
  by_cases hs : sep ∈ s.drop (i + 1)
  · rw [if_pos hs, Option.map_some, hdrop, List.takeWhile_append_of_pos hkeep]
    have hlen (k : Nat) : i + 1 + (key.length + k) - (i + (c :: key).length) = k := by
      rw [List.length_cons]
      omega
    simp only [List.length_append, hlen]
    exact (List.prefix_iff_eq_take.1 (List.takeWhile_prefix _)).symm
  · rw [if_neg hs, Option.map_none]
    have hall : ∀ a ∈ s.drop (i + (c :: key).length), decide (a ≠ sep) = true := fun a ha =>
      decide_eq_true fun h => hs (hmem.2 (h ▸ ha))
    exact (List.takeWhile_eq_self_iff.2 hall).symm

/-- What comes after a value: the other fields, and what was written after all of them. -/
def fieldsTail (sep : α) (rest : List (List α × List α)) (x : List α) : List α :=
  match rest with
  | [] => x
  | f :: fs => sep :: (fieldsText sep (f :: fs) ++ x)

section
variable {sep : α} {key value : List α}

/-- **A key that is in no earlier field is found at its own.** -/
theorem after_fieldsText {before : List (List α × List α)} (hsep : sep ∉ key)
    (hbefore : ∀ f ∈ before, ¬ key <:+: f.1 ++ f.2) (value : List α)
    (rest : List (List α × List α)) (x : List α) :
    after key (fieldsText sep (before ++ (key, value) :: rest) ++ x) =
      some (value ++ fieldsTail sep rest x) := by
  induction before with
  | nil =>
    cases rest with
    | nil =>
      rw [List.nil_append, fieldsText, List.append_assoc]
      exact after_self key _
    | cons f fs =>
      rw [List.nil_append, fieldsText, List.append_assoc, List.append_assoc]
      exact after_self key _
  | cons g before ih =>
    have hrest := ih fun f hf => hbefore f (List.mem_cons_of_mem _ hf)
    have hg := hbefore g List.mem_cons_self
    obtain ⟨k, v⟩ := g
    have hskip (u : List α) : after key (k ++ v ++ sep :: u ++ x) = after key (u ++ x) := by
      rw [List.append_assoc, List.cons_append]
      exact after_skip hg hsep
    cases before with
    | nil => exact (hskip _).trans hrest
    | cons h before => exact (hskip _).trans hrest

end

end Musicat.Lib
