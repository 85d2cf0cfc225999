import Musicat.Lib.Transducer

/-!
# A sink behind a transducer

The outputs of a transducer wait in a sink, which hands them out in chunks. How
many make a chunk is up to the sink: while it is open it may wait for more; once
it is closed it gives something as long as there is something. `left` is what
waits when all inputs are in, if the sink was emptied as far as it goes before
each of them.
-/

namespace Musicat.Lib

/-- How many of what waits a sink hands out, closed or not; zero when it waits for more. -/
structure Chunking (α : Type*) (max : Nat) where
  size : Bool → List α → Nat
  le_max : ∀ closed l, size closed l ≤ max
  le_length : ∀ closed l, size closed l ≤ l.length
  pos : ∀ l, l ≠ [] → 0 < size true l

namespace Chunking

variable {σ φ α : Type*} {max : Nat} (c : Chunking α max)

/-- Takes the next chunk; what waits afterwards. -/
def take (closed : Bool) (l : List α) : Received (List α) × List α :=
  let n := c.size closed l
  if n = 0 then (if closed then .ended else .again, l) else (.output (l.take n), l.drop n)

/-- What waits in an open sink once it has been emptied as far as it goes. -/
def drained (l : List α) : List α :=
  if _h : c.size false l = 0 then l else drained (l.drop (c.size false l))
  termination_by l.length
  decreasing_by
    have hle := c.le_length false l
    rw [List.length_drop]
    omega

/-- What waits after the inputs `l`, from the state `s` with `w` waiting. -/
def left (t : Transducer σ φ α) : σ → List α → List φ → List α
  | _, w, [] => c.drained w
  | s, w, i :: l => left t (t.feed s i).1 (c.drained w ++ (t.feed s i).2) l

section
variable {c} {t : Transducer σ φ α} {l : List α}

/-- What an open sink gives: a chunk of what waits, or nothing until there is more. -/
theorem take_open (c : Chunking α max) (l : List α) :
    (∃ chunk l', l = chunk ++ l' ∧ chunk ≠ [] ∧ c.take false l = (.output chunk, l') ∧
      c.drained l = c.drained l') ∨
      c.take false l = (.again, l) ∧ c.drained l = l := by
  rcases Nat.eq_zero_or_pos (c.size false l) with h | h
  · exact .inr ⟨by rw [take, if_pos h]; rfl, by rw [drained, dif_pos h]⟩
  · have hle := c.le_length false l
    have hne : c.size false l ≠ 0 := Nat.ne_of_gt h
    refine .inl ⟨l.take (c.size false l), l.drop (c.size false l), (List.take_append_drop _ l).symm,
      ?_, by rw [take, if_neg hne], by rw [drained, dif_neg hne]⟩
    rw [← List.length_pos_iff, List.length_take]
    omega

/-- A closed sink gives something as long as there is something. -/
theorem take_closed (c : Chunking α max) (l : List α) :
    l = [] ∧ c.take true l = (.ended, []) ∨
      l ≠ [] ∧ c.take true l = (.output (l.take (c.size true l)), l.drop (c.size true l)) := by
  by_cases hl : l = []
  · refine .inl ⟨hl, ?_⟩
    have hzero : c.size true l = 0 := by
      have := c.le_length true l
      rw [hl, List.length_nil] at this
      rw [hl]
      exact Nat.le_zero.1 this
    rw [take, if_pos hzero, hl]
    rfl
  · exact .inr ⟨hl, by rw [take, if_neg (Nat.ne_of_gt (c.pos l hl))]⟩

theorem left_congr {w w' : List α} (h : c.drained w = c.drained w') (s : σ) (l : List φ) :
    c.left t s w l = c.left t s w' l := by
  cases l with
  | nil => exact h
  | cons i l => rw [left, left, h]

end

/-- Chunks that are full, but for the last. -/
def full (α : Type*) (max : Nat) (h : 0 < max) : Chunking α max where
  size closed l := if closed then min max l.length else if max ≤ l.length then max else 0
  le_max closed l := by
    split
    · exact Nat.min_le_left _ _
    · split
      · exact Nat.le_refl _
      · exact Nat.zero_le _
  le_length closed l := by
    split
    · exact Nat.min_le_right _ _
    · split
      · assumption
      · exact Nat.zero_le _
  pos l hl := by
    have := List.length_pos_iff.2 hl
    rw [if_pos rfl]
    omega

section
variable {t : Transducer σ φ α} (h : 0 < max)

theorem length_drained_full (l : List α) :
    ((full α max h).drained l).length = l.length % max := by
  induction hn : l.length using Nat.strongRecOn generalizing l with
  | ind n ih =>
    rw [drained]
    by_cases hle : max ≤ l.length
    · have hsize : (full α max h).size false l = max := by
        simp only [full, Bool.false_eq_true, if_false, if_pos hle]
      rw [dif_neg (by omega), ih (l.length - max) (by omega) _ (by rw [hsize, List.length_drop]),
        ← hn, ← Nat.mod_eq_sub_mod hle]
    · have hsize : (full α max h).size false l = 0 := by
        simp only [full, Bool.false_eq_true, if_false, if_neg hle]
      rw [dif_pos hsize, ← hn, Nat.mod_eq_of_lt (Nat.lt_of_not_le hle)]

/-- **Full chunks leave the remainder** of all that was put out. -/
theorem length_left_full (s : σ) (w : List α) (l : List φ) :
    ((full α max h).left t s w l).length = (w.length + (t.body s l).length) % max := by
  induction l generalizing s w with
  | nil => exact length_drained_full h w
  | cons i l ih =>
    rw [left, ih, List.length_append, length_drained_full, Transducer.body, List.length_append,
      Nat.add_assoc, Nat.mod_add_mod]

end

end Chunking

end Musicat.Lib
