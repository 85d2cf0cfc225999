import Mathlib.Data.List.Basic

/-!
# Removing entries of an array by moving the others back

The loop goes over the entries of an array once. It counts in `mv` how many it
has removed and moves each entry back by as many places, so that the entries
which are kept end up in front, in their order (`compact_spec`); what stands
after them is of no use. A list that is kept beside the array loses the same
entries, one `erase` each.
-/

namespace Musicat.Lib

section
variable {α β : Type*}

/-- The entry `i` is moved back by `mv` places. -/
def moveBack (xs : List α) (i mv : Nat) : List α :=
  match xs[i]? with
  | some x => xs.set (i - mv) x
  | none => xs

variable (removed : Nat → Bool)

/-- `k` entries are left, `i` is the next one, and `mv` have been removed. -/
def compactLoop : (k i mv : Nat) → List α → List β → List α × List β
  | 0, _, _, xs, ys => (xs, ys)
  | k + 1, i, mv, xs, ys =>
    compactLoop k (i + 1) (if removed i then mv + 1 else mv)
      (if 0 < mv then moveBack xs i mv else xs) (if removed i then ys.eraseIdx (i - mv) else ys)

/-- The array `xs` and the list `ys`, which has the array's first entries. -/
def compact (xs : List α) (ys : List β) : List α × List β :=
  compactLoop removed ys.length 0 0 xs ys

/-- The entries from `i` on that are not removed. -/
def kept : Nat → List α → List α
  | _, [] => []
  | i, x :: xs => if removed i then kept (i + 1) xs else x :: kept (i + 1) xs

variable {removed}

theorem moveBack_append (first junk : List α) (x : α) (rest : List α) :
    ∃ junk' : List α, junk'.length = junk.length ∧
      (if 0 < junk.length then
        moveBack (first ++ junk ++ x :: rest) (first.length + junk.length) junk.length
      else first ++ junk ++ x :: rest) = first ++ x :: junk' ++ rest := by
  cases junk with
  | nil => exact ⟨[], rfl, by simp⟩
  | cons j junk =>
    have hget :
        (first ++ (j :: junk) ++ x :: rest)[first.length + (junk.length + 1)]? = some x := by
      rw [List.append_assoc, List.getElem?_append_right (by omega)]
      simp
    refine ⟨junk ++ [x], by simp, ?_⟩
    rw [if_pos (by simp), moveBack, List.length_cons, hget]
    simp [List.append_assoc]

/-- **The loop**: in front what has been kept, `first`, then as many entries of no use as have been
removed, then what is left. -/
theorem compactLoop_spec :
    ∀ (k : Nat) (first junk rest : List α) (firstY restY : List β),
      first.length = firstY.length → restY.length = k → k ≤ rest.length →
      ∃ junk', compactLoop removed k (first.length + junk.length) junk.length
          (first ++ junk ++ rest) (firstY ++ restY) =
        (first ++ kept removed (first.length + junk.length) (rest.take k) ++ junk',
          firstY ++ kept removed (first.length + junk.length) restY)
  | 0, first, junk, rest, firstY, restY, _, hk, _ => by
    obtain rfl := List.eq_nil_of_length_eq_zero hk
    exact ⟨junk ++ rest, by simp [compactLoop, kept]⟩
  | k + 1, first, junk, x :: rest, firstY, y :: restY, hlen, hk, hle => by
    obtain ⟨junk', hjunk', hmove⟩ := moveBack_append first junk x rest
    have hk' : restY.length = k := by simpa using hk
    have hle' : k ≤ rest.length := by simpa using hle
    have herase : (firstY ++ y :: restY).eraseIdx (first.length + junk.length - junk.length) =
        firstY ++ restY := by
      rw [Nat.add_sub_cancel, hlen, List.eraseIdx_append_of_length_le (Nat.le_refl _), Nat.sub_self,
        List.eraseIdx_cons_zero]
    rw [compactLoop, hmove, herase]
    cases hr : removed (first.length + junk.length) with
    | true =>
      obtain ⟨last, hspec⟩ := compactLoop_spec k first (x :: junk') rest firstY restY hlen hk' hle'
      rw [List.length_cons, hjunk', ← Nat.add_assoc] at hspec
      refine ⟨last, ?_⟩
      simp only [if_true, List.take_succ_cons, kept, hr]
      exact hspec
    | false =>
      obtain ⟨last, hspec⟩ := compactLoop_spec k (first ++ [x]) junk' rest (firstY ++ [y]) restY
        (by simp [hlen]) hk' hle'
      rw [List.length_append, List.length_singleton, hjunk', Nat.add_right_comm] at hspec
      refine ⟨last, ?_⟩
      simp only [Bool.false_eq_true, if_false, List.take_succ_cons, kept, hr]
      simpa [List.append_assoc] using hspec

/-- **What is kept ends up in front, in its order.** -/
theorem compact_spec {xs : List α} {ys : List β} (h : ys.length ≤ xs.length) :
    ∃ junk, compact removed xs ys =
      (kept removed 0 (xs.take ys.length) ++ junk, kept removed 0 ys) := by
  obtain ⟨junk, hspec⟩ := @compactLoop_spec _ _ removed ys.length [] [] xs [] ys rfl rfl h
  exact ⟨junk, by simpa [compact] using hspec⟩

theorem kept_sublist (i : Nat) (xs : List α) : (kept removed i xs).Sublist xs := by
  induction xs generalizing i with
  | nil => exact .slnil
  | cons x xs ih =>
    rw [kept]
    split
    · exact (ih (i + 1)).cons x
    · exact (ih (i + 1)).cons_cons x

theorem kept_map (f : α → β) (i : Nat) (xs : List α) :
    kept removed i (xs.map f) = (kept removed i xs).map f := by
  induction xs generalizing i with
  | nil => rfl
  | cons x xs ih =>
    rw [List.map_cons, kept, kept, ih]
    split <;> rfl

/-- Where the entries themselves say whether they are removed, keeping is a filter. -/
theorem kept_eq_filter {keeps : α → Bool} {i : Nat} {xs : List α}
    (h : ∀ j x, xs[j]? = some x → removed (i + j) = !keeps x) :
    kept removed i xs = xs.filter keeps := by
  induction xs generalizing i with
  | nil => rfl
  | cons x xs ih =>
    have hrest := @ih (i + 1) fun j y hj => by
      have := h (j + 1) y hj
      rwa [show i + (j + 1) = i + 1 + j by omega] at this
    have hfirst : removed i = !keeps x := h 0 x rfl
    rw [kept, hfirst, hrest, List.filter_cons]
    cases keeps x <;> rfl

/-- An entry is kept when it is one whose place is not removed. -/
theorem mem_kept {x : α} {i : Nat} {xs : List α} :
    x ∈ kept removed i xs ↔ ∃ j, xs[j]? = some x ∧ removed (i + j) = false := by
  induction xs generalizing i with
  | nil => simp [kept]
  | cons y xs ih =>
    have htail : (∃ j, xs[j]? = some x ∧ removed (i + 1 + j) = false) ↔
        ∃ j, (y :: xs)[j + 1]? = some x ∧ removed (i + (j + 1)) = false := by
      simp [Nat.add_assoc, Nat.add_comm 1]
    have hsplit : (∃ j, (y :: xs)[j]? = some x ∧ removed (i + j) = false) ↔
        (y = x ∧ removed i = false) ∨
          ∃ j, (y :: xs)[j + 1]? = some x ∧ removed (i + (j + 1)) = false := by
      constructor
      · rintro ⟨j, hj, hr⟩
        cases j with
        | zero => exact .inl ⟨by simpa using hj, hr⟩
        | succ j => exact .inr ⟨j, hj, hr⟩
      · rintro (⟨rfl, hr⟩ | ⟨j, hj, hr⟩)
        · exact ⟨0, rfl, hr⟩
        · exact ⟨j + 1, hj, hr⟩
    rw [hsplit, ← htail, ← ih, kept]
    cases hr : removed i with
    | true => simp
    | false => simp [eq_comm]

end

end Musicat.Lib
