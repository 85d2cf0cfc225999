import Mathlib.Algebra.BigOperators.Group.Finset.Piecewise
import Mathlib.Algebra.Order.BigOperators.Group.Finset
import Mathlib.Data.Fintype.BigOperators

/-!
# Weights of program counters

`weigh w pc` adds up the weights `w` of where the threads are; with a weight of
one or zero it counts the threads at a place. Moving one thread changes the sum
by the difference of the two weights (`weigh_update`), which is all that an
argument over a step needs.
-/

namespace Musicat.Lib

section
variable {τ π : Type*} [Fintype τ] {w v : π → Nat} {pc : τ → π}

/-- The sum of the weights of the program counters. -/
def weigh (w : π → Nat) (pc : τ → π) : Nat := ∑ t, w (pc t)

theorem weigh_le_mul {n : Nat} (h : ∀ p, w p ≤ n) : weigh w pc ≤ n * Fintype.card τ := by
  have hsum : weigh w pc ≤ ∑ _t : τ, n := Finset.sum_le_sum fun t _ => h (pc t)
  simpa [mul_comm] using hsum

theorem weigh_eq_zero : weigh w pc = 0 ↔ ∀ t, w (pc t) = 0 := by
  simp [weigh]

theorem le_weigh (t : τ) : w (pc t) ≤ weigh w pc :=
  Finset.single_le_sum (f := fun u => w (pc u)) (fun _ _ => Nat.zero_le _) (Finset.mem_univ t)

theorem weigh_const (p : π) (h : w p = 0) : weigh w (fun _ : τ => p) = 0 :=
  weigh_eq_zero.2 fun _ => h

variable [DecidableEq τ]

/-- **One thread moves**: the sum loses the weight of the old place and gains that of the new. -/
theorem weigh_update (t : τ) (p : π) :
    weigh w (Function.update pc t p) + w (pc t) = weigh w pc + w p := by
  have hnew : weigh w (Function.update pc t p) =
      w p + ∑ u ∈ Finset.univ.erase t, w (Function.update pc t p u) := by
    rw [weigh, ← Finset.add_sum_erase _ _ (Finset.mem_univ t), Function.update_self]
  have hrest : ∑ u ∈ Finset.univ.erase t, w (Function.update pc t p u) =
      ∑ u ∈ Finset.univ.erase t, w (pc u) :=
    Finset.sum_congr rfl fun u hu => by rw [Function.update_of_ne (Finset.ne_of_mem_erase hu)]
  have hold : weigh w pc = w (pc t) + ∑ u ∈ Finset.univ.erase t, w (pc u) :=
    (Finset.add_sum_erase _ _ (Finset.mem_univ t)).symm
  omega

end

end Musicat.Lib
