import Mathlib.Data.List.Basic

/-!
# Maximal runs

A run of a list is a nonempty range of places all of whose symbols satisfy `p`.
It is maximal when no larger range is a run, which says that the places just
before and behind it do not satisfy `p` (`maxRun_iff`). A scan from the left has
found the maximal runs that end before the place it is at (`RunsBefore`); at a
symbol it keeps them, or adds the run that ends there.
-/

namespace Musicat.Lib

section
variable {α : Type*} (p : α → Prop) (xs : List α)

/-- The places from `s` up to `e`. -/
structure IsRun (s e : Nat) : Prop where
  lt : s < e
  le : e ≤ xs.length
  all : ∀ k c, s ≤ k → k < e → xs[k]? = some c → p c

/-- No range that has all the places of the run is a larger one. -/
structure MaxRun (s e : Nat) : Prop where
  run : IsRun p xs s e
  max : ∀ s' e', s' ≤ s → e ≤ e' → IsRun p xs s' e' → s' = s ∧ e' = e

/-- A run may begin at `s`: what is before it, if anything, is of none. -/
def Starts (s : Nat) : Prop := ∀ k c, k + 1 = s → xs[k]? = some c → ¬ p c

/-- A run may end at `e`. -/
def Ends (e : Nat) : Prop := ∀ c, xs[e]? = some c → ¬ p c

/-- The maximal runs that end before `i`, from the left to the right. -/
structure RunsBefore (i : Nat) (runs : List (Nat × Nat)) : Prop where
  mem : ∀ r, r ∈ runs ↔ MaxRun p xs r.1 r.2 ∧ r.2 < i
  sorted : runs.Pairwise fun a b => a.2 < b.1

end

section
variable {α : Type*} {p : α → Prop} {xs : List α} {c : α} {s s' e i k : Nat}
  {runs : List (Nat × Nat)}

theorem IsRun.exists_get (h : IsRun p xs s e) (hs : s ≤ k) (hk : k < e) :
    ∃ c, xs[k]? = some c ∧ p c := by
  have hlt : k < xs.length := Nat.lt_of_lt_of_le hk h.le
  have hget : xs[k]? = some xs[k] := List.getElem?_eq_getElem hlt
  exact ⟨xs[k], hget, h.all k _ hs hk hget⟩

/-- No run goes over a place where one may begin. -/
theorem IsRun.le_of_starts (h : IsRun p xs s' e) (hs : Starts p xs s) (hle : s ≤ e) : s ≤ s' := by
  by_contra hlt
  obtain ⟨k, rfl⟩ : ∃ k, s = k + 1 := ⟨s - 1, by omega⟩
  obtain ⟨c, hc, hp⟩ := h.exists_get (show s' ≤ k by omega) (by omega)
  exact hs k c rfl hc hp

/-- No run goes over a place where one may end. -/
theorem IsRun.le_of_ends (h : IsRun p xs s i) (he : Ends p xs e) (hle : s ≤ e) : i ≤ e := by
  by_contra hlt
  obtain ⟨c, hc, hp⟩ := h.exists_get hle (by omega)
  exact he c hc hp

theorem isRun_single (hc : xs[i]? = some c) (hp : p c) : IsRun p xs i (i + 1) := by
  have hlt := (List.getElem?_eq_some_iff.1 hc).1
  refine ⟨Nat.lt_succ_self i, hlt, fun k d hk hki hd => ?_⟩
  obtain rfl : k = i := by omega
  rw [hc] at hd
  exact Option.some.inj hd ▸ hp

/-- A run goes on. -/
theorem IsRun.succ (h : IsRun p xs s i) (hc : xs[i]? = some c) (hp : p c) :
    IsRun p xs s (i + 1) := by
  have hlt := (List.getElem?_eq_some_iff.1 hc).1
  refine ⟨Nat.lt_succ_of_lt h.lt, hlt, fun k d hs hk hd => ?_⟩
  rcases Nat.lt_or_eq_of_le (Nat.le_of_lt_succ hk) with hk | rfl
  · exact h.all k d hs hk hd
  · rw [hc] at hd
    exact Option.some.inj hd ▸ hp

/-- **A run is maximal when what stands beside it is of none.** -/
theorem maxRun_iff : MaxRun p xs s e ↔ IsRun p xs s e ∧ Starts p xs s ∧ Ends p xs e := by
  constructor
  · intro h
    refine ⟨h.run, fun k c hk hc hp => ?_, fun c hc hp => ?_⟩
    · subst hk
      have hlarger : IsRun p xs k e := by
        refine ⟨by have := h.run.lt; omega, h.run.le, fun j d hj hje hd => ?_⟩
        rcases Nat.lt_or_eq_of_le hj with hj | rfl
        · exact h.run.all j d hj hje hd
        · rw [hc] at hd
          exact Option.some.inj hd ▸ hp
      have := (h.max k e (Nat.le_succ k) (Nat.le_refl e) hlarger).1
      omega
    · have hlarger := h.run.succ hc hp
      have := (h.max s (e + 1) (Nat.le_refl s) (Nat.le_succ e) hlarger).2
      omega
  · rintro ⟨hrun, hs, he⟩
    refine ⟨hrun, fun s' e' hs' he' hrun' => ⟨?_, ?_⟩⟩
    · have hlt := hrun.lt
      exact Nat.le_antisymm hs' (hrun'.le_of_starts hs (by omega))
    · have hlt := hrun.lt
      exact Nat.le_antisymm (hrun'.le_of_ends he (by omega)) he'

end

/-! ## The scan -/

namespace RunsBefore

section
variable {α : Type*} {p : α → Prop} {xs : List α} {c : α} {s i : Nat} {runs : List (Nat × Nat)}

theorem zero (p : α → Prop) (xs : List α) : RunsBefore p xs 0 [] :=
  ⟨fun _ => ⟨(nomatch ·), fun h => absurd h.2 (Nat.not_lt_zero _)⟩, .nil⟩

/-- Where no run ends. -/
theorem skip (h : RunsBefore p xs i runs) (hno : ∀ s, ¬ MaxRun p xs s i) :
    RunsBefore p xs (i + 1) runs := by
  refine ⟨fun r => ?_, h.sorted⟩
  rw [h.mem]
  refine and_congr_right fun hr => ⟨Nat.lt_succ_of_lt, fun hlt => ?_⟩
  rcases Nat.lt_or_eq_of_le (Nat.le_of_lt_succ hlt) with hlt | heq
  · exact hlt
  · exact absurd (heq ▸ hr) (hno r.1)

/-- A symbol of a run. -/
theorem inside (h : RunsBefore p xs i runs) (hc : xs[i]? = some c) (hp : p c) :
    RunsBefore p xs (i + 1) runs :=
  h.skip fun _ hr => (maxRun_iff.1 hr).2.2 c hc hp

/-- A place that comes after no run. -/
theorem gap (h : RunsBefore p xs i runs) (hs : Starts p xs i) : RunsBefore p xs (i + 1) runs := by
  refine h.skip fun s hr => ?_
  have hle := hr.run.le_of_starts hs (Nat.le_refl i)
  exact absurd hr.run.lt (Nat.not_lt.2 hle)

/-- **The run that ends at a place is added.** -/
theorem close (h : RunsBefore p xs i runs) (hrun : IsRun p xs s i) (hs : Starts p xs s)
    (he : Ends p xs i) : RunsBefore p xs (i + 1) (runs ++ [(s, i)]) := by
  refine ⟨fun r => ?_, ?_⟩
  · rw [List.mem_append, List.mem_singleton, h.mem]
    constructor
    · rintro (⟨hr, hlt⟩ | rfl)
      · exact ⟨hr, Nat.lt_succ_of_lt hlt⟩
      · exact ⟨maxRun_iff.2 ⟨hrun, hs, he⟩, Nat.lt_succ_self i⟩
    · rintro ⟨hr, hlt⟩
      rcases Nat.lt_or_eq_of_le (Nat.le_of_lt_succ hlt) with hlt | heq
      · exact .inl ⟨hr, hlt⟩
      · -- two runs that end at the same place begin at the same
        obtain ⟨hrun', hs', -⟩ := maxRun_iff.1 hr
        have hlt := hrun.lt
        have hlt' := hrun'.lt
        have hle := hrun.le_of_starts hs' (by omega)
        have hle' := hrun'.le_of_starts hs (by omega)
        exact .inr (Prod.ext (Nat.le_antisymm hle hle') heq)
  · rw [List.pairwise_append]
    refine ⟨h.sorted, List.pairwise_singleton _ _, fun r hr r' hr' => ?_⟩
    obtain rfl := List.mem_singleton.1 hr'
    obtain ⟨hmax, hlt⟩ := (h.mem r).1 hr
    by_contra hle
    have := hrun.le_of_ends (maxRun_iff.1 hmax).2.2 (by omega)
    omega

/-- At the end of the list they are all found. -/
theorem mem_iff (h : RunsBefore p xs (xs.length + 1) runs) {r : Nat × Nat} :
    r ∈ runs ↔ MaxRun p xs r.1 r.2 := by
  rw [h.mem]
  exact and_iff_left_of_imp fun hr => Nat.lt_succ_of_le hr.run.le

end

end RunsBefore

end Musicat.Lib
