import Mathlib.Algebra.GroupWithZero.Nat
import Mathlib.Data.List.Basic
import Mathlib.Data.List.DropRight
import Mathlib.Data.List.Forall2
import Mathlib.Data.List.Perm.Basic
import Mathlib.Data.List.Nodup
import Mathlib.Data.List.Rotate
import Mathlib.Data.List.Sort

/-!
# Lists of owners

A list of owners, each with a list of things it holds (`flatMap`), and what
replacing one owner does to the things held altogether; and a list whose
elements carry a key of their own, inserted, looked up and erased by that key.
The last facts are about a list that is put together in two ways, or cut twice,
or that is a table with distinct keys.
-/

namespace Musicat.Lib

variable {α β κ : Type*}

/-- Replacing one owner replaces its share and leaves the rest. -/
theorem flatMap_set_perm {l : List α} {i : Nat} {a : α} (f : α → List β) (hi : l[i]? = some a) :
    ∃ rest, (l.flatMap f).Perm (f a ++ rest) ∧
      ∀ b, ((l.set i b).flatMap f).Perm (f b ++ rest) := by
  obtain ⟨hlt, rfl⟩ := List.getElem?_eq_some_iff.1 hi
  refine ⟨(l.take i).flatMap f ++ (l.drop (i + 1)).flatMap f, ?_, fun b => ?_⟩
  · conv_lhs => rw [← List.take_append_drop i l, List.drop_eq_getElem_cons hlt]
    simp only [List.flatMap_append, List.flatMap_cons, ← List.append_assoc]
    exact (List.perm_append_comm).append_right _
  · rw [List.set_eq_take_append_cons_drop, if_pos hlt]
    simp only [List.flatMap_append, List.flatMap_cons, ← List.append_assoc]
    exact (List.perm_append_comm).append_right _

/-- Replacing one element changes a count by what the two count. -/
theorem countP_set_add {l : List α} {i : Nat} {a : α} (p : α → Bool) (hi : l[i]? = some a) (b : α) :
    (l.set i b).countP p + (if p a then 1 else 0) = l.countP p + if p b then 1 else 0 := by
  induction l generalizing i with
  | nil => cases hi
  | cons c l ih =>
    cases i with
    | zero =>
      cases hi
      rw [List.set_cons_zero, List.countP_cons, List.countP_cons]
      omega
    | succ i =>
      have hrest := ih hi
      rw [List.set_cons_succ, List.countP_cons, List.countP_cons]
      omega

/-- Replacing one element changes a sum by what the two add to it. -/
theorem sum_map_set_add {l : List α} {i : Nat} {a : α} (f : α → Nat) (hi : l[i]? = some a) (b : α) :
    ((l.set i b).map f).sum + f a = (l.map f).sum + f b := by
  induction l generalizing i with
  | nil => cases hi
  | cons c l ih =>
    cases i with
    | zero =>
      cases hi
      simp only [List.set_cons_zero, List.map_cons, List.sum_cons]
      omega
    | succ i =>
      have hrest := ih hi
      simp only [List.set_cons_succ, List.map_cons, List.sum_cons]
      omega

/-- What is found first is what is erased first. -/
theorem perm_cons_eraseP {l : List α} {p : α → Bool} {a : α} (h : l.find? p = some a) :
    l.Perm (a :: l.eraseP p) := by
  induction l with
  | nil => cases h
  | cons b l ih =>
    cases hb : p b with
    | true =>
      rw [List.find?_cons_of_pos hb, Option.some.injEq] at h
      rw [List.eraseP_cons_of_pos hb, h]
    | false =>
      rw [List.find?_cons_of_neg (by simp [hb])] at h
      rw [List.eraseP_cons_of_neg (by simp [hb])]
      exact ((ih h).cons b).trans (.swap a b _)

theorem countP_eraseP (l : List α) (p : α → Bool) : (l.eraseP p).countP p = l.countP p - 1 := by
  induction l with
  | nil => rfl
  | cons a l ih =>
    by_cases ha : p a
    · simp [ha]
    · simp [ha, ih]

/-- Erasing an element that `q` does not find leaves what `q` finds. -/
theorem find?_eraseP_of_disjoint {l : List α} {p q : α → Bool} (h : ∀ a, p a = true → q a = false) :
    (l.eraseP p).find? q = l.find? q := by
  induction l with
  | nil => rfl
  | cons b l ih =>
    cases hb : p b with
    | true =>
      rw [List.eraseP_cons_of_pos hb, List.find?_cons_of_neg (by simp [h b hb])]
    | false =>
      rw [List.eraseP_cons_of_neg (by simp [hb]), List.find?_cons, List.find?_cons, ih]

theorem mem_set_imp {l : List α} {i : Nat} {a b : α} (h : a ∈ l.set i b) :
    a = b ∨ a ∈ l.eraseIdx i := by
  obtain ⟨j, hj⟩ := List.mem_iff_getElem?.1 h
  by_cases hij : i = j
  · left
    rw [← hij, List.getElem?_set_self'] at hj
    obtain ⟨_, -, hb⟩ := Option.map_eq_some_iff.1 hj
    exact hb.symm
  · right
    rw [List.getElem?_set_ne hij] at hj
    exact List.mem_eraseIdx_iff_getElem?.2 ⟨j, Ne.symm hij, hj⟩

theorem eq_or_mem_eraseIdx {l : List α} {i : Nat} {a b : α} (hb : l[i]? = some b) (h : a ∈ l) :
    a = b ∨ a ∈ l.eraseIdx i := by
  obtain ⟨j, hj⟩ := List.mem_iff_getElem?.1 h
  by_cases hij : i = j
  · rw [hij, hj] at hb
    exact .inl (Option.some.inj hb)
  · exact .inr (List.mem_eraseIdx_iff_getElem?.2 ⟨j, Ne.symm hij, hj⟩)

theorem getElem?_of_prefix {l l' : List α} (h : l <+: l') {i : Nat} {a : α}
    (ha : l[i]? = some a) : l'[i]? = some a := by
  obtain ⟨t, rfl⟩ := h
  rw [List.getElem?_append_left (List.getElem?_eq_some_iff.1 ha).1, ha]

theorem getElem?_concat_eq_some {l : List α} {i : Nat} {a b : α} :
    (l ++ [a])[i]? = some b ↔ l[i]? = some b ∨ i = l.length ∧ a = b := by
  rw [List.getElem?_append]
  by_cases hi : i < l.length
  · rw [if_pos hi]
    exact ⟨.inl, fun h => h.resolve_right fun h => Nat.ne_of_lt hi h.1⟩
  · rw [if_neg hi, List.getElem?_eq_none (Nat.not_lt.1 hi), List.getElem?_singleton]
    by_cases he : i = l.length
    · simp [he]
    · have hne : i - l.length ≠ 0 := by omega
      simp [hne, he]

theorem drop_eraseIdx_self (l : List α) (i : Nat) : (l.eraseIdx i).drop i = l.drop (i + 1) := by
  induction l generalizing i with
  | nil => simp
  | cons a l ih =>
    cases i with
    | zero => rfl
    | succ i => exact ih i

section
variable {r : α → α → Prop} [DecidableRel r] {p : α → Bool} {a : α} {l : List α}

theorem find?_orderedInsert_self (ha : p a = true) (hl : ∀ b ∈ l, p b = false) :
    (l.orderedInsert r a).find? p = some a := by
  induction l with
  | nil => simp [ha]
  | cons b l ih =>
    rw [List.orderedInsert_cons]
    split
    · exact List.find?_cons_of_pos ha
    · rw [List.find?_cons_of_neg (by simp [hl b List.mem_cons_self])]
      exact ih fun c hc => hl c (List.mem_cons_of_mem b hc)

theorem find?_orderedInsert_of_neg (ha : p a = false) :
    (l.orderedInsert r a).find? p = l.find? p := by
  induction l with
  | nil => simp [ha]
  | cons b l ih =>
    rw [List.orderedInsert_cons]
    split
    · exact List.find?_cons_of_neg (by simp [ha])
    · rw [List.find?_cons, List.find?_cons, ih]

end

/-- Two lists that agree place by place still do without one place. -/
theorem forall₂_eraseIdx {R : α → β → Prop} {l₁ : List α} {l₂ : List β} (h : List.Forall₂ R l₁ l₂)
    (i : Nat) : List.Forall₂ R (l₁.eraseIdx i) (l₂.eraseIdx i) := by
  rw [List.eraseIdx_eq_take_drop_succ, List.eraseIdx_eq_take_drop_succ]
  exact List.rel_append (List.forall₂_take i h) (List.forall₂_drop (i + 1) h)

theorem forall₂_getElem? {R : α → β → Prop} {l₁ : List α} {l₂ : List β} (h : List.Forall₂ R l₁ l₂)
    {i : Nat} {a : α} {b : β} (ha : l₁[i]? = some a) (hb : l₂[i]? = some b) : R a b := by
  induction h generalizing i with
  | nil => cases ha
  | cons hab _ ih =>
    cases i with
    | zero =>
      cases ha
      cases hb
      exact hab
    | succ i => exact ih ha hb

section
variable [DecidableEq κ] {key : α → κ} {l : List α} {a : α} {k : κ}

/-- With distinct keys, erasing a key leaves no element with it. -/
theorem key_ne_of_mem_eraseP (h : (l.map key).Nodup) (ha : a ∈ l.eraseP (key · = k)) :
    key a ≠ k := by
  induction l with
  | nil => cases ha
  | cons b l ih =>
    obtain ⟨hb, hl⟩ := List.nodup_cons.1 h
    by_cases hbk : key b = k
    · rw [List.eraseP_cons_of_pos (by simpa using hbk)] at ha
      rintro rfl
      exact hb (hbk ▸ List.mem_map_of_mem ha)
    · rw [List.eraseP_cons_of_neg (by simpa using hbk)] at ha
      rcases List.mem_cons.1 ha with rfl | ha
      · exact hbk
      · exact ih hl ha

/-- With distinct keys, an element is found by its key. -/
theorem find?_key (h : (l.map key).Nodup) (ha : a ∈ l) : l.find? (key · = key a) = some a := by
  induction l with
  | nil => cases ha
  | cons b l ih =>
    obtain ⟨hb, hl⟩ := List.nodup_cons.1 h
    rcases List.mem_cons.1 ha with rfl | ha
    · exact List.find?_cons_of_pos (by simp)
    · have hne : key b ≠ key a := fun hab => hb (hab ▸ List.mem_map_of_mem ha)
      rw [List.find?_cons_of_neg (by simpa using hne)]
      exact ih hl ha

theorem nodup_map_eraseP (h : (l.map key).Nodup) : ((l.eraseP (key · = k)).map key).Nodup :=
  h.sublist (List.eraseP_sublist.map key)

theorem mem_eraseP_of_key_ne (ha : a ∈ l) (hk : key a ≠ k) : a ∈ l.eraseP (key · = k) :=
  (List.mem_eraseP_of_neg (by simpa using hk)).2 ha

/-- With distinct keys, erasing a key is keeping the other keys. -/
theorem eraseP_eq_filter (h : (l.map key).Nodup) :
    l.eraseP (key · = k) = l.filter (key · ≠ k) := by
  induction l with
  | nil => rfl
  | cons b l ih =>
    obtain ⟨hb, hl⟩ := List.nodup_cons.1 h
    by_cases hk : key b = k
    · rw [List.eraseP_cons_of_pos (by simpa using hk), List.filter_cons_of_neg (by simpa using hk)]
      refine (List.filter_eq_self.2 fun c hc => ?_).symm
      have hne : key c ≠ k := fun he => hb (hk.trans he.symm ▸ List.mem_map_of_mem hc)
      simpa using hne
    · rw [List.eraseP_cons_of_neg (by simpa using hk), List.filter_cons_of_pos (by simpa using hk),
        ih hl]

/-- A list up to the first element with a key, and that element. -/
theorem exists_takeWhile_key (h : k ∈ l.map key) :
    ∃ a rest, l = l.takeWhile (key · ≠ k) ++ a :: rest ∧ key a = k := by
  induction l with
  | nil => cases h
  | cons b l ih =>
    by_cases hb : key b = k
    · exact ⟨b, l, by simp [hb], hb⟩
    · have hl : k ∈ l.map key := by
        rcases List.mem_cons.1 h with h | h
        · exact absurd h.symm hb
        · exact h
      obtain ⟨a, rest, hrest, ha⟩ := ih hl
      refine ⟨a, rest, ?_, ha⟩
      rw [List.takeWhile_cons_of_pos (by simpa using hb), List.cons_append, ← hrest]

end

/-- The first element that `p` finds, updated. -/
def updateP (p : α → Bool) (f : α → α) : List α → List α
  | [] => []
  | a :: l => if p a then f a :: l else a :: updateP p f l

section
variable {p q : α → Bool} {f : α → α}

theorem find?_updateP_self (h : ∀ a, p (f a) = p a) (l : List α) :
    (updateP p f l).find? p = (l.find? p).map f := by
  induction l with
  | nil => rfl
  | cons a l ih =>
    by_cases ha : p a
    · simp [updateP, ha, h a]
    · simp [updateP, ha, ih]

/-- What another search finds is not updated. -/
theorem find?_updateP_of_disjoint (h : ∀ a, p a = true → q a = false ∧ q (f a) = false)
    (l : List α) : (updateP p f l).find? q = l.find? q := by
  induction l with
  | nil => rfl
  | cons a l ih =>
    by_cases ha : p a
    · simp [updateP, ha, h a ha]
    · simp [updateP, ha, List.find?_cons, ih]

theorem map_updateP (key : α → κ) (h : ∀ a, key (f a) = key a) (l : List α) :
    (updateP p f l).map key = l.map key := by
  induction l with
  | nil => rfl
  | cons a l ih =>
    by_cases ha : p a
    · simp [updateP, ha, h a]
    · simp [updateP, ha, ih]

end

theorem forall_of_forall₂ {R : α → β → Prop} {P : α → Prop} {Q : β → Prop}
    {xs : List α} {ys : List β} (h : List.Forall₂ R xs ys) (hQ : ∀ y ∈ ys, Q y)
    (hP : ∀ x y, R x y → Q y → P x) : ∀ x ∈ xs, P x := by
  induction h with
  | nil => exact List.forall_mem_nil P
  | cons hxy _ ih =>
    obtain ⟨hy, hys⟩ := List.forall_mem_cons.1 hQ
    exact List.forall_mem_cons.2 ⟨hP _ _ hxy hy, ih hys⟩

/-- A list equal to its rotation repeats one element. -/
theorem concat_eq_cons_iff (l : List α) (b : α) :
    l ++ [b] = b :: l ↔ ∀ a ∈ l, a = b := by
  constructor
  · intro h
    have : Nonempty α := ⟨b⟩
    have hrot : (b :: l).rotate 1 = b :: l := by simpa using h
    obtain ⟨c, hc⟩ := List.rotate_one_eq_self_iff_eq_replicate.1 hrot
    intro a ha
    have hmem : ∀ x ∈ b :: l, x = c := fun x hx => List.eq_of_mem_replicate (hc ▸ hx)
    rw [hmem a (List.mem_cons_of_mem b ha), ← hmem b List.mem_cons_self]
  · intro h
    rw [List.eq_replicate_of_mem h, ← List.replicate_succ', List.replicate_succ]

/-- A list with `a` behind elements that all meet `p` has `a` before any other that does not. -/
theorem mem_of_append_cons_eq {p : α → Prop} {l₁ l₂ r₁ r₂ : List α} {a b : α}
    (h : l₁ ++ a :: r₁ = l₂ ++ b :: r₂) (hl : ∀ c ∈ l₁, p c) (hb : ¬ p b) (hab : a ≠ b) :
    a ∈ l₂ := by
  rcases List.append_eq_append_iff.1 h with ⟨w, hw, hrest⟩ | ⟨w, hw, hrest⟩
  · cases w with
    | nil => exact absurd (List.cons.inj hrest).1 hab
    | cons c w =>
      rw [hw, (List.cons.inj hrest).1]
      exact List.mem_append_right _ List.mem_cons_self
  · cases w with
    | nil => exact absurd (List.cons.inj hrest).1.symm hab
    | cons c w =>
      refine absurd (hl b ?_) hb
      rw [hw, (List.cons.inj hrest).1]
      exact List.mem_append_right _ List.mem_cons_self

/-- Cutting a list once more, after something was added. -/
theorem rtake_append_rtake (l r : List α) (m : Nat) :
    (l.rtake m ++ r).rtake m = (l ++ r).rtake m := by
  have hcut : l.drop (l.length - m) ++ r = (l ++ r).drop (l.length - m) :=
    (List.drop_append_of_le_length (Nat.sub_le _ _)).symm
  unfold List.rtake
  rw [hcut, List.drop_drop, List.length_drop, List.length_append]
  congr 1
  omega

/-- A table with distinct keys has one entry at most for a key. -/
theorem filterMap_key {ν : Type*} [DecidableEq κ] (f : ν → β) (k : κ) (l : List (ν × κ))
    (h : (l.map Prod.snd).Nodup) :
    (l.filterMap fun x => if x.2 = k then some (f x.1) else none) =
      ((l.find? (·.2 = k)).map fun x => f x.1).toList := by
  induction l with
  | nil => rfl
  | cons x l ih =>
    obtain ⟨hx, hl⟩ := List.nodup_cons.1 h
    by_cases hk : x.2 = k
    · have hnone : (l.filterMap fun x => if x.2 = k then some (f x.1) else none) = [] := by
        refine List.filterMap_eq_nil_iff.2 fun y hy => if_neg fun he => hx ?_
        rw [hk, ← he]
        exact List.mem_map_of_mem hy
      simp only [List.filterMap_cons, if_pos hk, hnone, List.find?_cons, decide_eq_true hk]
      rfl
    · simp only [List.filterMap_cons, if_neg hk, List.find?_cons, decide_eq_false hk, ih hl]

end Musicat.Lib
