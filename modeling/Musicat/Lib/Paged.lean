import Mathlib.Data.List.Basic
import Mathlib.Tactic.Common

/-!
# A list on pages

A list is put on pages with room for `n` entries each, the first of which has
some entries already. A `Paged` list is put down entry by entry: an entry goes
on the page that has room for it (`onPage`), or it makes the page full and the
next entry goes on a new one (`turnPage`).
-/

namespace Musicat.Lib

variable {α : Type*} {n used : Nat} {l : List α} {a : α}

/-- A list on pages with room for `n`, the first of which had `used` entries before. -/
structure Paged (n used : Nat) (l : List α) where
  first : List α
  others : List (List α)
  flatten_eq : first ++ others.flatten = l
  first_le : used + first.length ≤ n
  others_le : ∀ page ∈ others, page.length ≤ n
  /-- No more pages than the entries need, and one where there are none. -/
  length_eq : others.length + 1 = max 1 ((used + l.length + (n - 1)) / n)

namespace Paged

/-- Nothing more. -/
@[simps]
def nil (h : used ≤ n) (hn : 0 < n) : Paged n used ([] : List α) where
  first := []
  others := []
  flatten_eq := rfl
  first_le := h
  others_le := List.forall_mem_nil _
  length_eq := by
    have hlt : used + (n - 1) < 2 * n := by omega
    have := Nat.div_lt_of_lt_mul (Nat.mul_comm 2 n ▸ hlt)
    simp only [List.length_nil, Nat.add_zero]
    omega

/-- An entry on the page that there is. -/
@[simps]
def onPage (a : α) (p : Paged n (used + 1) l) : Paged n used (a :: l) where
  first := a :: p.first
  others := p.others
  flatten_eq := by rw [List.cons_append, p.flatten_eq]
  first_le := by
    have := p.first_le
    rw [List.length_cons]
    omega
  others_le := p.others_le
  length_eq := by rw [p.length_eq, List.length_cons, Nat.add_right_comm used 1, Nat.add_assoc used]

/-- An entry that makes the page full, and more on new pages. -/
@[simps]
def turnPage (a : α) (hfull : used + 1 = n) (hl : l ≠ []) (p : Paged n 0 l) :
    Paged n used (a :: l) where
  first := [a]
  others := p.first :: p.others
  flatten_eq := by rw [List.flatten_cons, p.flatten_eq, List.singleton_append]
  first_le := Nat.le_of_eq hfull
  others_le := List.forall_mem_cons.2 ⟨by simpa using p.first_le, p.others_le⟩
  length_eq := by
    have hpos := List.length_pos_iff.2 hl
    have hdiv : (used + (l.length + 1) + (n - 1)) / n = (l.length + (n - 1)) / n + 1 := by
      rw [show used + (l.length + 1) + (n - 1) = l.length + (n - 1) + n by omega,
        Nat.add_div_right _ (by omega)]
    have hone : 1 ≤ (l.length + (n - 1)) / n := (Nat.one_le_div_iff (by omega)).2 (by omega)
    have := p.length_eq
    rw [Nat.zero_add] at this
    rw [List.length_cons, List.length_cons, hdiv]
    omega

end Paged

end Musicat.Lib
