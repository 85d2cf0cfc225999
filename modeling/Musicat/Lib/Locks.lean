import Mathlib.Data.Set.Finite.Basic
import Mathlib.Logic.Function.Basic
import Mathlib.Order.Preorder.Finite
import Musicat.Lib.Run

/-!
# Threads and mutexes

A thread is at a program counter; a mutex has an owner or none. A `LockView`
says of a program counter which mutexes it holds and which one it is about to
take. `Owned` ties the owners to the program counters; every step that `Moves`
a thread by `goto`, `take` or `drop` keeps it. In a `Deadlock` some thread holds
a mutex and waits for one of a smaller rank, whatever the ranks are
(`Deadlock.inversion`).
-/

namespace Musicat.Lib

/-- Where the threads are and who owns the mutexes. -/
structure Threads (τ π κ : Type*) where
  pc : τ → π
  owner : κ → Option τ

/-- What a program counter says about the mutexes. -/
structure LockView (π κ : Type*) where
  done : π → Prop
  waits : π → Option κ
  holds : π → κ → Prop
  not_holds_of_done : ∀ {p : π} {l : κ}, done p → ¬ holds p l
  not_holds_of_waits : ∀ {p : π} {l : κ}, waits p = some l → ¬ holds p l

namespace Threads

section
variable {τ π κ : Type*} [DecidableEq τ] [DecidableEq κ]

/-- Thread `t` goes on without touching a mutex. -/
def goto (s : Threads τ π κ) (t : τ) (p : π) : Threads τ π κ :=
  { s with pc := Function.update s.pc t p }

/-- Thread `t` takes the mutex `l`, which has to be free. -/
def take (s : Threads τ π κ) (t : τ) (l : κ) (p : π) : Option (Threads τ π κ) :=
  if s.owner l = none then
    some ⟨Function.update s.pc t p, Function.update s.owner l (some t)⟩
  else none

/-- Thread `t` releases the mutex `l`. -/
def drop (s : Threads τ π κ) (t : τ) (l : κ) (p : π) : Threads τ π κ :=
  ⟨Function.update s.pc t p, Function.update s.owner l none⟩

end

section
variable {τ π κ : Type*} (V : LockView π κ)

/-- The owner of a mutex is the thread whose program counter says so. -/
def Owned (s : Threads τ π κ) : Prop := ∀ t l, s.owner l = some t ↔ V.holds (s.pc t) l

/-- Some thread is unfinished, and every unfinished one waits for a mutex of another. -/
def Deadlock (s : Threads τ π κ) : Prop :=
  (∃ t, ¬ V.done (s.pc t)) ∧
    ∀ t, ¬ V.done (s.pc t) → ∃ l u, V.waits (s.pc t) = some l ∧ u ≠ t ∧ s.owner l = some u

variable {V} {s s' : Threads τ π κ} {t : τ} {l : κ} {p : π}

/-- A mutex has one holder. -/
theorem Owned.unique (h : s.Owned V) {u : τ} (ht : V.holds (s.pc t) l)
    (hu : V.holds (s.pc u) l) : t = u := by
  have := (h t l).2 ht
  rw [(h u l).2 hu] at this
  exact (Option.some.inj this).symm

section
variable [DecidableEq τ]

theorem Owned.goto (h : s.Owned V) (hp : ∀ k, V.holds p k ↔ V.holds (s.pc t) k) :
    (s.goto t p).Owned V := by
  intro u k
  by_cases hu : u = t
  · subst hu
    simp only [Threads.goto, Function.update_self, hp k]
    exact h u k
  · simp only [Threads.goto, Function.update_of_ne hu]
    exact h u k

variable [DecidableEq κ]

theorem take_eq_some (h : s.take t l p = some s') :
    s.owner l = none ∧
      s' = ⟨Function.update s.pc t p, Function.update s.owner l (some t)⟩ := by
  unfold take at h
  split at h
  · exact ⟨‹_›, (Option.some.inj h).symm⟩
  · cases h

theorem Owned.take (h : s.Owned V) (hs : s.take t l p = some s')
    (hp : ∀ k, V.holds p k ↔ k = l ∨ V.holds (s.pc t) k) : s'.Owned V := by
  obtain ⟨hfree, rfl⟩ := take_eq_some hs
  have hnone : ∀ u, ¬ V.holds (s.pc u) l := fun u hu => by
    rw [(h u l).2 hu] at hfree
    cases hfree
  intro u k
  by_cases hu : u = t
  · subst hu
    by_cases hk : k = l
    · simp [hk, hp]
    · simp only [Function.update_self, Function.update_of_ne hk, hp k, hk, false_or]
      exact h u k
  · simp only [Function.update_of_ne hu]
    by_cases hk : k = l
    · subst hk
      simp [hnone u, Ne.symm hu]
    · simp only [Function.update_of_ne hk]
      exact h u k

theorem Owned.drop (h : s.Owned V) (hl : V.holds (s.pc t) l)
    (hp : ∀ k, V.holds p k ↔ k ≠ l ∧ V.holds (s.pc t) k) : (s.drop t l p).Owned V := by
  have hown := (h t l).2 hl
  intro u k
  by_cases hk : k = l
  · subst hk
    by_cases hu : u = t
    · subst hu
      simp [Threads.drop, hp]
    · have hne : ¬ V.holds (s.pc u) k := fun hc => by
        rw [(h u k).2 hc] at hown
        exact hu (Option.some.inj hown)
      simp [Threads.drop, Function.update_of_ne hu, hne]
  · by_cases hu : u = t
    · subst hu
      simp only [Threads.drop, Function.update_self, Function.update_of_ne hk, hp k]
      exact (h u k).trans (by simp [hk])
    · simp only [Threads.drop, Function.update_of_ne hu, Function.update_of_ne hk]
      exact h u k

/-- Thread `t` goes to `p`, and takes or releases what the program counters say. -/
inductive Moves (V : LockView π κ) (s : Threads τ π κ) (t : τ) (p : π) : Threads τ π κ → Prop where
  | goto (hp : ∀ k, V.holds p k ↔ V.holds (s.pc t) k) : Moves V s t p (s.goto t p)
  | take {l : κ} {s' : Threads τ π κ} (h : s.take t l p = some s')
      (hp : ∀ k, V.holds p k ↔ k = l ∨ V.holds (s.pc t) k) : Moves V s t p s'
  | drop {l : κ} (hl : V.holds (s.pc t) l)
      (hp : ∀ k, V.holds p k ↔ k ≠ l ∧ V.holds (s.pc t) k) : Moves V s t p (s.drop t l p)

theorem Moves.owned (h : Moves V s t p s') (hs : s.Owned V) : s'.Owned V := by
  cases h with
  | goto hp => exact hs.goto hp
  | take h hp => exact hs.take h hp
  | drop hl hp => exact hs.drop hl hp

theorem Moves.pc (h : Moves V s t p s') : s'.pc = Function.update s.pc t p := by
  cases h with
  | goto hp => rfl
  | take h hp => rw [(take_eq_some h).2]
  | drop hl hp => rfl

/-- **Two kinds of threads that do not meet.** Those of `A` hold `a`, those of `B` hold `b`. They
do not meet after a move that makes a thread one of `A` only when the owner of `b` is not of `B`,
and one of `B` only when the owner of `a` is not of `A`. -/
theorem Moves.apart (A A' B : π → Prop) {a b : κ} (hown : s.Owned V) (hm : s.Moves V t p s')
    (hA : ∀ q, A q → V.holds q a) (hB : ∀ q, B q → V.holds q b) (hAB : ∀ q, A' q → ¬ B q)
    (hother : ∀ u, u ≠ t → A' (s.pc u) → A (s.pc u))
    (h : ∀ u v, A (s.pc u) → ¬ B (s.pc v))
    (hpA : A' p → A (s.pc t) ∨ ∀ u, s.owner b = some u → ¬ B (s.pc u))
    (hpB : B p → ∀ u, s.owner a = some u → ¬ A (s.pc u)) :
    ∀ u v, A' (s'.pc u) → ¬ B (s'.pc v) := by
  intro u v hu hv
  rw [hm.pc] at hu hv
  by_cases hut : u = t <;> by_cases hvt : v = t
  · subst hut
    subst hvt
    exact hAB _ hu hv
  · subst hut
    rw [Function.update_self] at hu
    rw [Function.update_of_ne hvt] at hv
    exact (hpA hu).elim (fun ha => h u v ha hv) fun hb => hb v ((hown v b).2 (hB _ hv)) hv
  · subst hvt
    rw [Function.update_self] at hv
    rw [Function.update_of_ne hut] at hu
    have hu := hother u hut hu
    exact hpB hv u ((hown u a).2 (hA _ hu)) hu
  · rw [Function.update_of_ne hut] at hu
    rw [Function.update_of_ne hvt] at hv
    exact h u v (hother u hut hu) hv

/-- A thread that takes no step of a run stays where it is. -/
theorem run_pc {σ ι : Type*} {step : σ → ι → Option σ} (threads : σ → Threads τ π κ)
    (thread : ι → τ)
    (hstep : ∀ {s a s'}, step s a = some s' →
      ∃ p, (threads s).Moves V (thread a) p (threads s')) :
    ∀ {l : List ι} {s s' : σ}, (∀ a ∈ l, thread a ≠ t) → run step s l = some s' →
      (threads s').pc t = (threads s).pc t
  | [], _, _, _, h => by cases h; rfl
  | a :: l, s, _, hl, h => by
    obtain ⟨s₁, hs, hr⟩ := run_cons_eq_some.1 h
    obtain ⟨p, hp⟩ := hstep hs
    rw [run_pc threads thread hstep (fun b hb => hl b (List.mem_cons_of_mem a hb)) hr, hp.pc]
    exact Function.update_of_ne (Ne.symm (hl a List.mem_cons_self)) _ _

end

/-- **In a deadlock some thread holds a mutex and waits for one of a smaller rank**: take the
mutex of the greatest rank that is waited for; its owner waits for another one. -/
theorem Deadlock.inversion [Finite κ] {α : Type*} [LinearOrder α] (r : κ → α)
    (hr : Function.Injective r) (hown : s.Owned V) (h : s.Deadlock V) :
    ∃ t l l', V.holds (s.pc t) l ∧ V.waits (s.pc t) = some l' ∧ r l' < r l := by
  obtain ⟨⟨t₀, ht₀⟩, hall⟩ := h
  obtain ⟨l₀, -, hl₀, -, -⟩ := hall t₀ ht₀
  obtain ⟨l, ⟨t, ht, hl⟩, hmax⟩ :=
    Set.Finite.exists_maximalFor r {l | ∃ t, ¬ V.done (s.pc t) ∧ V.waits (s.pc t) = some l}
      (Set.toFinite _) ⟨l₀, t₀, ht₀, hl₀⟩
  obtain ⟨l', u, hl', -, hu⟩ := hall t ht
  obtain rfl : l' = l := Option.some.inj (hl'.symm.trans hl)
  have hholds : V.holds (s.pc u) l' := (hown u l').1 hu
  have hudone : ¬ V.done (s.pc u) := fun hd => V.not_holds_of_done hd hholds
  obtain ⟨k, -, hk, -, -⟩ := hall u hudone
  have hne : r k ≠ r l' := fun he => V.not_holds_of_waits hk (hr he ▸ hholds)
  have hle : r k ≤ r l' := (le_total (r k) (r l')).elim id (hmax ⟨u, hudone, hk⟩)
  exact ⟨u, l', k, hholds, hk, lt_of_le_of_ne hle hne⟩

/-- Over two mutexes, each of them is held by a thread that waits for the other. -/
theorem Deadlock.holder_waits {a b : κ} (hall : ∀ l, l = a ∨ l = b) (hne : a ≠ b)
    (hown : s.Owned V) (h : s.Deadlock V) :
    ∃ t, V.holds (s.pc t) a ∧ V.waits (s.pc t) = some b := by
  classical
  have hfin : Finite κ := Set.finite_univ_iff.1
    ((Set.toFinite {a, b}).subset fun l _ => by simpa using hall l)
  let r : κ → Nat := fun l => if l = a then 1 else 0
  have hb : r b = 0 := if_neg (Ne.symm hne)
  have ha : r a = 1 := if_pos rfl
  have hr : Function.Injective r := fun l k hlk => by
    rcases hall l with rfl | rfl <;> rcases hall k with rfl | rfl <;> first | rfl | omega
  obtain ⟨t, l, l', ht, hw, hlt⟩ := h.inversion r hr hown
  rcases hall l with rfl | rfl
  · rcases hall l' with rfl | rfl
    · omega
    · exact ⟨t, ht, hw⟩
  · omega

/-- **No deadlock over two mutexes** when those that hold `a` and wait for `b` and those that hold
`b` and wait for `a` are of two kinds that do not meet. -/
theorem Owned.not_deadlock (hown : s.Owned V) {a b : κ} (hall : ∀ l, l = a ∨ l = b) (hne : a ≠ b)
    {A B : π → Prop} (hA : ∀ p, V.holds p a → V.waits p = some b → A p)
    (hB : ∀ p, V.holds p b → V.waits p = some a → B p) (h : ∀ t u, A (s.pc t) → ¬ B (s.pc u)) :
    ¬ s.Deadlock V := by
  intro hd
  obtain ⟨t, ht, hwt⟩ := hd.holder_waits hall hne hown
  obtain ⟨u, hu, hwu⟩ := hd.holder_waits (fun l => (hall l).symm) hne.symm hown
  exact h t u (hA _ ht hwt) (hB _ hu hwu)

/-- Two threads that wait for each other, when the others have finished. -/
theorem deadlock_of_crossed {u : τ} {k : κ} (htu : t ≠ u) (hdone : ¬ V.done (s.pc t))
    (ht : V.waits (s.pc t) = some l) (hl : s.owner l = some u) (hu : V.waits (s.pc u) = some k)
    (hk : s.owner k = some t) (hrest : ∀ v, v ≠ t → v ≠ u → V.done (s.pc v)) : s.Deadlock V := by
  refine ⟨⟨t, hdone⟩, fun v hv => ?_⟩
  by_cases hvt : v = t
  · exact ⟨l, u, hvt ▸ ht, hvt ▸ htu.symm, hl⟩
  by_cases hvu : v = u
  · exact ⟨k, t, hvu ▸ hu, hvu ▸ htu, hk⟩
  · exact absurd (hrest v hvt hvu) hv

end

end Threads

end Musicat.Lib
