import Mathlib.Logic.Function.Basic
import Musicat.Lib.Lists
import Musicat.Lib.Run

/-!
# Threads that are joined

A thread is created, which starts it, and passed to `dispatch`, which puts it
into `_threads`; its `DoneSetter` looks the thread up there and marks it done.
A thread that gets there before it is in `_threads` marks nothing and is never
joined by `join_done`; in a run in which none does, every finished thread is
(`finished_joined`).

`dispatch` and `set_done` hold `_ns_mutex` for one step; `join_done` holds it
from its first step to its last, and waits for the thread it joins.
-/

namespace Musicat.Threads

open Lib

/-- Where a thread is. -/
inductive ThreadPhase where
  | running
  /-- In the destructor of its `DoneSetter`. -/
  | finishing
  /-- `set_done` has returned. -/
  | ending
  | terminated
  deriving DecidableEq, Repr

/-- `thread_data`; `t` is the number of the thread. -/
structure ThreadData where
  t : Nat
  done : Bool
  deriving DecidableEq, Repr

structure ManagerState where
  /-- The number of threads created so far. -/
  created : Nat := 0
  phase : Nat → ThreadPhase := fun _ => .running
  threads : List ThreadData := []
  /-- The index `join_done` is at. -/
  joiner : Option Nat := none
  /-- The threads that `join_done` has joined and removed. -/
  joined : List Nat := []

/-- The loop of `set_done`. -/
def markDone (t : Nat) : List ThreadData → List ThreadData
  | [] => []
  | d :: threads => if d.t = t then { d with done := true } :: threads else d :: markDone t threads

namespace ManagerState

def ids (s : ManagerState) : List Nat := s.threads.map (·.t)

/-- The thread has been passed to `dispatch`. -/
def Dispatched (s : ManagerState) (t : Nat) : Prop := t ∈ s.ids ∨ t ∈ s.joined

instance (s : ManagerState) (t : Nat) : Decidable (s.Dispatched t) :=
  inferInstanceAs (Decidable (_ ∨ _))

def setPhase (s : ManagerState) (t : Nat) (phase : ThreadPhase) : ManagerState :=
  { s with phase := Function.update s.phase t phase }

/-- Its `set_done` has returned. -/
def Finished (s : ManagerState) (t : Nat) : Prop :=
  s.phase t = .ending ∨ s.phase t = .terminated

end ManagerState

inductive ManagerAction where
  | create
  /-- The thread reaches its `DoneSetter`'s destructor. -/
  | finish (t : Nat)
  | setDone (t : Nat)
  | terminate (t : Nat)
  | dispatch (t : Nat)
  /-- `join_done` is called. -/
  | joinDone
  /-- Its loop goes on. -/
  | join
  deriving DecidableEq, Repr

def managerStep (s : ManagerState) : ManagerAction → Option ManagerState
  | .create => some { s with created := s.created + 1 }
  | .finish t =>
    if t < s.created ∧ s.phase t = .running then some (s.setPhase t .finishing) else none
  | .setDone t =>
    if s.phase t = .finishing ∧ s.joiner = none then
      some { s.setPhase t .ending with threads := markDone t s.threads }
    else none
  | .terminate t => if s.phase t = .ending then some (s.setPhase t .terminated) else none
  | .dispatch t =>
    if t < s.created ∧ ¬s.Dispatched t ∧ s.joiner = none then
      some { s with threads := s.threads ++ [⟨t, false⟩] }
    else none
  | .joinDone => if s.joiner = none then some { s with joiner := some 0 } else none
  | .join =>
    s.joiner.bind fun i =>
      match s.threads[i]? with
      | none => some { s with joiner := none }
      | some d =>
        if !d.done then some { s with joiner := some (i + 1) }
        else if s.phase d.t = .terminated then
          some { s with threads := s.threads.eraseIdx i, joined := s.joined ++ [d.t] }
        else none

/-- No thread calls `set_done` before it has been dispatched. -/
def DoneAfterDispatch (s : ManagerState) : ManagerAction → Prop
  | .setDone t => s.Dispatched t
  | _ => True

instance (s : ManagerState) (a : ManagerAction) : Decidable (DoneAfterDispatch s a) :=
  match a with
  | .setDone t => inferInstanceAs (Decidable (s.Dispatched t))
  | .create | .finish _ | .terminate _ | .dispatch _ | .joinDone | .join => isTrue trivial

/-! ## Marking -/

section
variable {t u : Nat} {l : List ThreadData}

theorem map_markDone (t : Nat) (l : List ThreadData) :
    (markDone t l).map (·.t) = l.map (·.t) := by
  induction l with
  | nil => rfl
  | cons d l ih =>
    rw [markDone]
    split
    · rfl
    · rw [List.map_cons, ih, List.map_cons]

theorem mem_markDone {d : ThreadData} (h : d ∈ markDone t l) : d ∈ l ∨ d.t = t := by
  induction l with
  | nil => cases h
  | cons e l ih =>
    rw [markDone] at h
    split at h
    · rename_i he
      rcases List.mem_cons.1 h with rfl | h
      · exact .inr he
      · exact .inl (List.mem_cons_of_mem e h)
    · rcases List.mem_cons.1 h with rfl | h
      · exact .inl List.mem_cons_self
      · exact (ih h).imp_left (List.mem_cons_of_mem e)

theorem done_mem_markDone (h : ⟨u, true⟩ ∈ l) : ⟨u, true⟩ ∈ markDone t l := by
  induction l with
  | nil => cases h
  | cons e l ih =>
    rw [markDone]
    split
    · rcases List.mem_cons.1 h with rfl | h
      · exact List.mem_cons_self
      · exact List.mem_cons_of_mem _ h
    · rcases List.mem_cons.1 h with rfl | h
      · exact List.mem_cons_self
      · exact List.mem_cons_of_mem _ (ih h)

/-- A thread that is in the list is marked. -/
theorem marked_mem_markDone (h : t ∈ l.map (·.t)) : ⟨t, true⟩ ∈ markDone t l := by
  induction l with
  | nil => cases h
  | cons e l ih =>
    rw [markDone]
    split
    · rename_i he
      rw [← he]
      exact List.mem_cons_self
    · rename_i he
      rw [List.map_cons] at h
      exact List.mem_cons_of_mem e (ih ((List.mem_cons.1 h).resolve_left (Ne.symm he)))

end

/-! ## What holds in every run -/

structure ManagerInv (s : ManagerState) : Prop where
  nodup : (s.ids ++ s.joined).Nodup
  done : ∀ d ∈ s.threads, d.done = true → s.Finished d.t
  joined : ∀ t ∈ s.joined, s.phase t = .terminated

/-- What no early `set_done` leaves. -/
def AllMarked (s : ManagerState) : Prop :=
  ∀ t, s.Finished t → t ∈ s.joined ∨ ⟨t, true⟩ ∈ s.threads

section
variable {s s' : ManagerState} {a : ManagerAction} {t : Nat}

theorem managerInv_init : ManagerInv {} := ⟨List.nodup_nil, nofun, nofun⟩

theorem finished_setPhase_of_ne {phase : ThreadPhase} {u : Nat} (h : u ≠ t) :
    (s.setPhase t phase).Finished u ↔ s.Finished u := by
  have hphase : (s.setPhase t phase).phase u = s.phase u := Function.update_of_ne h ..
  unfold ManagerState.Finished
  rw [hphase]

/-- A thread goes on; those that have finished stay finished. -/
theorem finished_setPhase {phase : ThreadPhase} {u : Nat} (h : s.Finished u)
    (ht : s.Finished t → (s.setPhase t phase).Finished t) : (s.setPhase t phase).Finished u := by
  by_cases hu : u = t
  · subst hu
    exact ht h
  · exact (finished_setPhase_of_ne hu).2 h

theorem setPhase_phase (s : ManagerState) (t : Nat) (phase : ThreadPhase) :
    (s.setPhase t phase).phase t = phase := Function.update_self ..

theorem not_finished {phase : ThreadPhase} (h : s.phase t = phase)
    (hp : phase = .running ∨ phase = .finishing) : ¬s.Finished t := by
  unfold ManagerState.Finished
  rw [h]
  rcases hp with rfl | rfl <;> decide

theorem finish_eq_some (h : managerStep s (.finish t) = some s') :
    ¬s.Finished t ∧ s' = s.setPhase t .finishing := by
  simp only [managerStep] at h
  split at h
  · rename_i hcond
    cases h
    exact ⟨not_finished hcond.2 (.inl rfl), rfl⟩
  · cases h

theorem setDone_eq_some (h : managerStep s (.setDone t) = some s') :
    s.phase t = .finishing ∧ s.joiner = none ∧
      s' = { s.setPhase t .ending with threads := markDone t s.threads } := by
  simp only [managerStep] at h
  split at h
  · rename_i hcond
    cases h
    exact ⟨hcond.1, hcond.2, rfl⟩
  · cases h

theorem terminate_eq_some (h : managerStep s (.terminate t) = some s') :
    s.Finished t ∧ s' = s.setPhase t .terminated := by
  simp only [managerStep] at h
  split at h
  · rename_i hcond
    cases h
    exact ⟨.inl hcond, rfl⟩
  · cases h

theorem dispatch_eq_some (h : managerStep s (.dispatch t) = some s') :
    ¬s.Dispatched t ∧ s.joiner = none ∧ s' = { s with threads := s.threads ++ [⟨t, false⟩] } := by
  simp only [managerStep] at h
  split at h
  · rename_i hcond
    cases h
    exact ⟨hcond.2.1, hcond.2.2, rfl⟩
  · cases h

theorem joinDone_eq_some (h : managerStep s .joinDone = some s') :
    s.joiner = none ∧ s' = { s with joiner := some 0 } := by
  simp only [managerStep] at h
  split at h
  · rename_i hcond
    cases h
    exact ⟨hcond, rfl⟩
  · cases h

/-- The loop of `join_done` ends, skips a thread, or removes one that has terminated. -/
theorem join_cases (h : managerStep s .join = some s') :
    ∃ i, s.joiner = some i ∧
      (s.threads[i]? = none ∧ s' = { s with joiner := none } ∨
        ∃ d, s.threads[i]? = some d ∧
          (d.done = false ∧ s' = { s with joiner := some (i + 1) } ∨
            d.done = true ∧ s.phase d.t = .terminated ∧
              s' = { s with
                threads := s.threads.eraseIdx i, joined := s.joined ++ [d.t] })) := by
  obtain ⟨i, hi, h⟩ := Option.bind_eq_some_iff.1 h
  refine ⟨i, hi, ?_⟩
  split at h
  · rename_i hnone
    cases h
    exact .inl ⟨hnone, rfl⟩
  · rename_i d hd
    refine .inr ⟨d, hd, ?_⟩
    split at h
    · rename_i hdone
      cases h
      exact .inl ⟨by simpa using hdone, rfl⟩
    · rename_i hdone
      split at h
      · rename_i hterm
        cases h
        exact .inr ⟨by simpa using hdone, hterm, rfl⟩
      · cases h

/-! ## The steps -/

theorem ManagerInv.step (hi : ManagerInv s) (h : managerStep s a = some s') : ManagerInv s' := by
  cases a with
  | create =>
    cases h
    exact ⟨hi.nodup, hi.done, hi.joined⟩
  | finish t =>
    obtain ⟨hno, rfl⟩ := finish_eq_some h
    refine ⟨hi.nodup, fun d hd hdone => ?_, fun u hu => ?_⟩
    · exact finished_setPhase (hi.done d hd hdone) fun h => absurd h hno
    · have hut : u ≠ t := by
        rintro rfl
        exact hno (.inr (hi.joined u hu))
      exact (Function.update_of_ne hut ..).trans (hi.joined u hu)
  | setDone t =>
    obtain ⟨hphase, -, rfl⟩ := setDone_eq_some h
    have hending : (s.setPhase t .ending).Finished t := .inl (setPhase_phase s t _)
    refine ⟨?_, fun d hd hdone => ?_, fun u hu => ?_⟩
    · show ((markDone t s.threads).map (·.t) ++ s.joined).Nodup
      rw [map_markDone]
      exact hi.nodup
    · by_cases hdt : d.t = t
      · rw [hdt]
        exact hending
      · exact finished_setPhase (hi.done d ((mem_markDone hd).resolve_right hdt) hdone)
          fun _ => hending
    · have hut : u ≠ t := by
        rintro rfl
        rw [hi.joined u hu] at hphase
        cases hphase
      exact (Function.update_of_ne hut ..).trans (hi.joined u hu)
  | terminate t =>
    obtain ⟨-, rfl⟩ := terminate_eq_some h
    refine ⟨hi.nodup, fun d hd hdone => ?_, fun u hu => ?_⟩
    · exact finished_setPhase (hi.done d hd hdone) fun _ => .inr (setPhase_phase s t _)
    · by_cases hut : u = t
      · subst hut
        exact setPhase_phase s u _
      · exact (Function.update_of_ne hut ..).trans (hi.joined u hu)
  | dispatch t =>
    obtain ⟨hno, -, rfl⟩ := dispatch_eq_some h
    have hno := not_or.1 hno
    refine ⟨?_, fun d hd hdone => ?_, hi.joined⟩
    · have hids : s.ids ++ [t] ++ s.joined = s.ids ++ t :: s.joined := by simp
      show ((s.threads ++ [ThreadData.mk t false]).map (·.t) ++ s.joined).Nodup
      rw [List.map_append]
      show (s.ids ++ [t] ++ s.joined).Nodup
      rw [hids]
      refine List.perm_middle.nodup_iff.2 (List.nodup_cons.2 ⟨?_, hi.nodup⟩)
      exact List.mem_append.not.2 (not_or.2 hno)
    · rcases List.mem_append.1 hd with hd | hd
      · exact hi.done d hd hdone
      · rw [List.mem_singleton.1 hd] at hdone
        cases hdone
  | joinDone =>
    obtain ⟨-, rfl⟩ := joinDone_eq_some h
    exact ⟨hi.nodup, hi.done, hi.joined⟩
  | join =>
    obtain ⟨i, -, ⟨-, rfl⟩ | ⟨d, hd, ⟨-, rfl⟩ | ⟨-, hterm, rfl⟩⟩⟩ := join_cases h
    · exact ⟨hi.nodup, hi.done, hi.joined⟩
    · exact ⟨hi.nodup, hi.done, hi.joined⟩
    · refine ⟨?_, fun e he hdone => hi.done e (List.mem_of_mem_eraseIdx he) hdone, ?_⟩
      · have hperm : (s.ids ++ s.joined).Perm
            ((s.threads.eraseIdx i).map (·.t) ++ (s.joined ++ [d.t])) := by
          obtain ⟨hlt, rfl⟩ := List.getElem?_eq_some_iff.1 hd
          have herase := (List.getElem_cons_eraseIdx_perm hlt).map (·.t)
          rw [← List.append_assoc]
          refine (herase.symm.append_right s.joined).trans ?_
          exact (List.perm_append_singleton _ _).symm
        exact hperm.nodup_iff.1 hi.nodup
      · intro u hu
        rcases List.mem_append.1 hu with hu | hu
        · exact hi.joined u hu
        · rw [List.mem_singleton.1 hu]
          exact hterm

theorem AllMarked.step (hm : AllMarked s) (hc : DoneAfterDispatch s a)
    (h : managerStep s a = some s') : AllMarked s' := by
  intro u hu
  cases a with
  | create =>
    cases h
    exact hm u hu
  | finish t =>
    obtain ⟨-, rfl⟩ := finish_eq_some h
    by_cases hut : u = t
    · subst hut
      exact absurd hu (not_finished (setPhase_phase s u _) (.inr rfl))
    · exact hm u ((finished_setPhase_of_ne hut).1 hu)
  | setDone t =>
    obtain ⟨-, -, rfl⟩ := setDone_eq_some h
    by_cases hut : u = t
    · subst hut
      exact hc.elim (fun hids => .inr (marked_mem_markDone hids)) .inl
    · exact (hm u ((finished_setPhase_of_ne hut).1 hu)).imp_right done_mem_markDone
  | terminate t =>
    obtain ⟨hfin, rfl⟩ := terminate_eq_some h
    by_cases hut : u = t
    · subst hut
      exact hm u hfin
    · exact hm u ((finished_setPhase_of_ne hut).1 hu)
  | dispatch t =>
    obtain ⟨-, -, rfl⟩ := dispatch_eq_some h
    exact (hm u hu).imp_right fun hmem => List.mem_append_left _ hmem
  | joinDone =>
    obtain ⟨-, rfl⟩ := joinDone_eq_some h
    exact hm u hu
  | join =>
    obtain ⟨i, -, ⟨-, rfl⟩ | ⟨d, hd, ⟨-, rfl⟩ | ⟨-, -, rfl⟩⟩⟩ := join_cases h
    · exact hm u hu
    · exact hm u hu
    · rcases hm u hu with hj | hmem
      · exact .inl (List.mem_append_left _ hj)
      · rcases eq_or_mem_eraseIdx hd hmem with rfl | hmem
        · exact .inl (List.mem_append_right _ (List.mem_singleton_self u))
        · exact .inr hmem

/-! ## A call of `join_done` -/

/-- A marked thread has been joined, or the call under way has not passed it. -/
def JoinAhead (t : Nat) (s : ManagerState) : Prop :=
  t ∈ s.joined ∨ ∃ i j, s.joiner = some i ∧ i ≤ j ∧ s.threads[j]? = some ⟨t, true⟩

theorem JoinAhead.step (h : JoinAhead t s) (hs : managerStep s a = some s') : JoinAhead t s' := by
  rcases h with hj | ⟨i, j, hi, hij, hmem⟩
  · left
    cases a with
    | join =>
      obtain ⟨_, -, ⟨-, rfl⟩ | ⟨d, -, ⟨-, rfl⟩ | ⟨-, -, rfl⟩⟩⟩ := join_cases hs
      · exact hj
      · exact hj
      · exact List.mem_append_left _ hj
    | create => cases hs; exact hj
    | finish => obtain ⟨-, rfl⟩ := finish_eq_some hs; exact hj
    | setDone => obtain ⟨-, -, rfl⟩ := setDone_eq_some hs; exact hj
    | terminate => obtain ⟨-, rfl⟩ := terminate_eq_some hs; exact hj
    | dispatch => obtain ⟨-, -, rfl⟩ := dispatch_eq_some hs; exact hj
    | joinDone => obtain ⟨-, rfl⟩ := joinDone_eq_some hs; exact hj
  · -- `join_done` holds the mutex, so only its own loop touches `_threads`.
    have hlocked : s.joiner ≠ none := by rw [hi]; exact nofun
    cases a with
    | create => cases hs; exact .inr ⟨i, j, hi, hij, hmem⟩
    | finish => obtain ⟨-, rfl⟩ := finish_eq_some hs; exact .inr ⟨i, j, hi, hij, hmem⟩
    | terminate => obtain ⟨-, rfl⟩ := terminate_eq_some hs; exact .inr ⟨i, j, hi, hij, hmem⟩
    | setDone => exact absurd (setDone_eq_some hs).2.1 hlocked
    | dispatch => exact absurd (dispatch_eq_some hs).2.1 hlocked
    | joinDone => exact absurd (joinDone_eq_some hs).1 hlocked
    | join =>
      obtain ⟨i', hi', hcase⟩ := join_cases hs
      obtain rfl : i = i' := Option.some.inj (hi.symm.trans hi')
      obtain ⟨hnone, -⟩ | ⟨d, hd, ⟨hdone, rfl⟩ | ⟨-, -, rfl⟩⟩ := hcase
      · have hlt := (List.getElem?_eq_some_iff.1 hmem).1
        have := List.getElem?_eq_none_iff.1 hnone
        omega
      · have hne : i ≠ j := by
          rintro rfl
          rw [hd] at hmem
          cases hmem
          cases hdone
        exact .inr ⟨i + 1, j, rfl, by omega, hmem⟩
      · by_cases hij' : i = j
        · subst hij'
          rw [hd] at hmem
          cases hmem
          exact .inl (List.mem_append_right _ (List.mem_singleton_self t))
        · refine .inr ⟨i, j - 1, hi, by omega, ?_⟩
          show (s.threads.eraseIdx i)[j - 1]? = _
          rw [List.getElem?_eraseIdx, if_neg (by omega), show j - 1 + 1 = j by omega, hmem]

/-- A thread that has been joined, or is marked, has been joined when the next call returns. -/
theorem joined_of_joinDone (hmarked : t ∈ s.joined ∨ ⟨t, true⟩ ∈ s.threads) {l : List ManagerAction}
    (h : run managerStep s (.joinDone :: l) = some s') (hret : s'.joiner = none) :
    t ∈ s'.joined := by
  obtain ⟨s₁, hs₁, hrun⟩ := run_cons_eq_some.1 h
  have hstart : JoinAhead t s₁ := by
    obtain ⟨-, rfl⟩ := joinDone_eq_some hs₁
    refine hmarked.imp id fun hmem => ?_
    obtain ⟨j, hj⟩ := List.mem_iff_getElem?.1 hmem
    exact ⟨0, j, rfl, Nat.zero_le j, hj⟩
  rcases run_invariant (fun _ _ _ hi hs => JoinAhead.step hi hs) hstart hrun with hj | ⟨i, -, hi, -⟩
  · exact hj
  · rw [hret] at hi
    cases hi

/-- The finished threads of `_threads` are those marked done; a call of `join_done` joins and
removes each of them by the time it returns; and what has been removed has terminated. -/
structure JoinsFinished (s : ManagerState) : Prop where
  marked : ∀ d ∈ s.threads, d.done = true ↔ s.Finished d.t
  joins : ∀ t, s.Finished t → s.Dispatched t → ∀ l s',
    run managerStep s (.joinDone :: l) = some s' → s'.joiner = none →
      t ∈ s'.joined ∧ t ∉ s'.ids
  removed : ∀ t ∈ s.joined, s.phase t = .terminated

theorem joinsFinished (hi : ManagerInv s) (hm : AllMarked s) : JoinsFinished s where
  marked d hd := by
    refine ⟨hi.done d hd, fun hfin => ?_⟩
    rcases hm d.t hfin with hj | hmem
    · exact absurd hj (List.disjoint_of_nodup_append hi.nodup (List.mem_map_of_mem hd))
    · exact congrArg ThreadData.done
        (List.inj_on_of_nodup_map hi.nodup.of_append_left hd hmem rfl)
  joins t hfin _ l s' h hret := by
    have hj := joined_of_joinDone (hm t hfin) h hret
    have hi' := run_invariant (fun _ _ _ hi hs => ManagerInv.step hi hs) hi h
    exact ⟨hj, fun hids => List.disjoint_of_nodup_append hi'.nodup hids hj⟩
  removed := hi.joined

/-- **Where no thread calls `set_done` before it is dispatched, every finished thread is marked,
and joined by the next `join_done`.** -/
theorem finished_joined {l : List ManagerAction}
    (hc : Along managerStep DoneAfterDispatch {} l) (h : run managerStep {} l = some s) :
    JoinsFinished s := by
  have hinv : ManagerInv s := run_invariant (fun _ _ _ hi hs => hi.step hs) managerInv_init h
  have hmarked : AllMarked s :=
    run_inv (fun _ _ _ hi hc hs => AllMarked.step hi hc hs) (by rintro t (ht | ht) <;> cases ht)
      hc h
  exact joinsFinished hinv hmarked

/-- Two threads, one of them finished. -/
def twoThreads : List ManagerAction :=
  [.create, .create, .dispatch 1, .dispatch 0, .finish 1, .setDone 1, .terminate 1]

theorem finished_joined_two :
    ∃ s, run managerStep {} twoThreads = some s ∧ JoinsFinished s :=
  ⟨_, rfl, finished_joined (l := twoThreads) (by decide) rfl⟩

end

/-- A thread that has finished before it is dispatched stays in `_threads`. -/
theorem early_thread_kept :
    ¬∀ (l : List ManagerAction) (s : ManagerState), run managerStep {} l = some s →
      JoinsFinished s := by
  intro h
  have hs := h [.create, .finish 0, .setDone 0, .terminate 0, .dispatch 0] _ rfl
  have hjoins := hs.joins 0 (.inr rfl) (.inl List.mem_cons_self) [.join, .join] _ rfl rfl
  exact hjoins.2 List.mem_cons_self

end Musicat.Threads
