import Mathlib.Algebra.Order.Group.Nat
import Mathlib.Data.List.Rotate
import Mathlib.Logic.Function.Iterate

/-!
# Lists played from their front

An entry carries how often it is to be repeated. When it has been played, its
count goes down; when the count is used up, the entry leaves, goes to the back or
stays. `plays` is what a list that only shrinks will play, in order.
-/

namespace Musicat.Lib

/-- What becomes of an entry whose repeats are used up. -/
inductive Finish where
  | leave
  | toBack
  | stay
  deriving DecidableEq, Repr

variable {α : Type*}

/-- The list once its front has been played. -/
def advance (f : Finish) : List (α × Int) → List (α × Int)
  | [] => []
  | (a, r) :: l =>
    if 0 < r then (a, r - 1) :: l
    else
      match f with
      | .leave => l
      | .toBack => l ++ [(a, r)]
      | .stay => (a, r) :: l

theorem advance_cons (f : Finish) (a : α) (r : Int) (l : List (α × Int)) :
    advance f ((a, r) :: l) =
      if 0 < r then (a, r - 1) :: l
      else
        match f with
        | .leave => l
        | .toBack => l ++ [(a, r)]
        | .stay => (a, r) :: l := rfl

/-- Each entry, once more than it is repeated. -/
def plays (l : List (α × Int)) : List α := l.flatMap fun e => List.replicate (e.2.toNat + 1) e.1

theorem plays_cons (a : α) (r : Int) (l : List (α × Int)) :
    plays ((a, r) :: l) = List.replicate (r.toNat + 1) a ++ plays l := rfl

/-- The next to be played is the front. -/
theorem head?_plays : ∀ l : List (α × Int), (plays l).head? = l.head?.map Prod.fst
  | [] => rfl
  | (a, r) :: l => by rw [plays_cons, List.replicate_succ]; rfl

theorem plays_eq_nil {l : List (α × Int)} : plays l = [] ↔ l = [] := by
  cases l with
  | nil => simp [plays]
  | cons e l => simp [plays, List.replicate_succ]

/-- **One advance plays one.** -/
theorem plays_advance (l : List (α × Int)) : plays (advance .leave l) = (plays l).tail := by
  cases l with
  | nil => rfl
  | cons e l =>
    obtain ⟨a, r⟩ := e
    rw [plays_cons, List.replicate_succ, List.cons_append, List.tail_cons, advance_cons]
    split
    · rename_i hr
      have hn : r.toNat = (r - 1).toNat + 1 := by omega
      rw [plays_cons, hn]
    · rename_i hr
      have hn : r.toNat = 0 := by omega
      rw [hn]
      rfl

theorem plays_iterate (k : Nat) (l : List (α × Int)) :
    plays ((advance .leave)^[k] l) = (plays l).drop k := by
  induction k generalizing l with
  | zero => rfl
  | succ k ih =>
    rw [Function.iterate_succ_apply, ih, plays_advance, List.drop_tail]

/-- Without repeats the list goes round. -/
theorem advance_toBack_iterate {l : List (α × Int)} (h : ∀ e ∈ l, e.2 ≤ 0) (k : Nat) :
    (advance .toBack)^[k] l = l.rotate k := by
  induction k with
  | zero => simp
  | succ k ih =>
    rw [Function.iterate_succ_apply', ih, ← List.rotate_rotate]
    cases hl : l.rotate k with
    | nil => rfl
    | cons e l' =>
      have he : e ∈ l := List.mem_rotate.1 (hl ▸ List.mem_cons_self)
      have hr := h e he
      rw [advance_cons, if_neg (by omega)]
      simp

/-- An entry that stays keeps the others behind it. -/
theorem advance_stay_iterate (k : Nat) (a : α) (r : Int) (l : List (α × Int)) :
    (advance .stay)^[k] ((a, r) :: l) = (a, r - min k r.toNat) :: l := by
  induction k generalizing r with
  | zero => simp
  | succ k ih =>
    rw [Function.iterate_succ_apply, advance_cons]
    split
    · rename_i hr
      rw [ih, show r - 1 - ((min k (r - 1).toNat : Nat) : Int) = r - (min (k + 1) r.toNat : Nat) by
        omega]
    · rename_i hr
      rw [ih, show r.toNat = 0 by omega]
      simp

end Musicat.Lib
