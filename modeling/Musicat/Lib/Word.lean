import Mathlib.Algebra.Group.Nat.Defs
import Mathlib.Algebra.Ring.Int.Defs
import Mathlib.Data.Int.Order.Basic

/-!
# Machine words

What a `uint64_t` and an `int64_t` hold of a number: the number itself where it
fits, and otherwise what is left of it modulo `2 ^ 64`. A number may be cut
once after a computation as well as in between.
-/

namespace Musicat.Lib

/-- A number as a `uint64_t`. -/
def toU64 (n : Int) : Nat := (n % 2 ^ 64).toNat

/-- A number as an `int64_t`. -/
def toI64 (n : Int) : Int := n.bmod (2 ^ 64)

section
variable {a a' b b' : Int} {n : Nat}

theorem toU64_natCast (h : n < 2 ^ 64) : toU64 n = n := by
  unfold toU64
  omega

theorem toU64_of_nonneg (h : 0 ≤ a) (hlt : a < 2 ^ 64) : (toU64 a : Int) = a := by
  unfold toU64
  omega

@[simp] theorem toU64_toU64 (a : Int) : toU64 (toU64 a) = toU64 a := by
  unfold toU64
  omega

theorem toU64_add_congr (ha : toU64 a = toU64 a') (hb : toU64 b = toU64 b') :
    toU64 (a + b) = toU64 (a' + b') := by
  unfold toU64 at *
  omega

@[simp] theorem toI64_toU64 (a : Int) : toI64 (toU64 a) = toI64 a := by
  have hnonneg : 0 ≤ a % 2 ^ 64 := Int.emod_nonneg a (by decide)
  rw [toI64, toU64, Int.toNat_of_nonneg hnonneg]
  exact Int.emod_bmod a (2 ^ 64)

theorem toI64_eq_self_iff : toI64 a = a ↔ -2 ^ 63 ≤ a ∧ a < 2 ^ 63 := by
  have hcast : ((2 ^ 64 : Nat) : Int) = 18446744073709551616 := rfl
  rw [toI64, Int.bmod_def, hcast]
  split <;> omega

end

end Musicat.Lib
