import Musicat.Child.Execute
import Musicat.Lib.Ghost

/-!
# Which child a queued shutdown reaches

An entry of `shutdown_queue` names a child by its id. When one of two entries
of an id has reaped the child, the other can stay in the queue until the next
walk, and a message read before that may start a new child under the id. The
record below numbers the steps: it says when the slave of each id was inserted,
when each entry was queued, and which slaves the walks have waited for.
-/

namespace Musicat.Child

open Lib WorkerState

/-- A slave that a turn of the walk found: when it was inserted, and when the entry of
`shutdown_queue` that led to it was queued. -/
structure Touch where
  inserted : Nat
  queued : Nat
  deriving DecidableEq, Repr

structure ReapRecord where
  now : Nat := 0
  /-- When the slave of an id was inserted last. -/
  inserted : Bytes → Nat := fun _ => 0
  /-- When the entries of `shutdown_queue` were queued, in its order. -/
  queued : List Nat := []
  touched : List Touch := []

/-- The slave that the next turn of the walk finds. -/
def WorkerState.reaps (s : WorkerState) (g : ReapRecord) : Option Touch :=
  match s.pc with
  | .reaping i =>
    match s.shutdownQueue[i]?, g.queued[i]? with
    | some o, some queued =>
      (s.getSlave o.id).map fun _ => { inserted := g.inserted o.id, queued }
    | _, _ => none
  | _ => none

def noteReap (s : WorkerState) (a : WorkerAction) (s' : WorkerState) (g : ReapRecord) :
    ReapRecord where
  now := g.now + 1
  inserted id :=
    if s.getSlave id = none ∧ s'.getSlave id ≠ none then g.now + 1 else g.inserted id
  queued :=
    if s'.shutdownQueue = s.shutdownQueue then g.queued
    else
      match s.pc with
      | .reaping i => g.queued.eraseIdx i
      | _ => g.queued ++ [g.now + 1]
  touched :=
    match a with
    | .reap _ => g.touched ++ (s.reaps g).toList
    | _ => g.touched

/-- A message that inserts a slave finds no entry of its id in `shutdown_queue`. -/
def InsertsUnqueued (s : WorkerState) : WorkerAction → Prop
  | .message cmd _ env =>
    match parseCommandToOptions cmd createCommandOptions with
    | some o => insertsSlave s env o = true → ∀ q ∈ s.shutdownQueue, q.id ≠ o.id
    | none => True
  | _ => True

instance (s : WorkerState) : ∀ a, Decidable (InsertsUnqueued s a)
  | .message cmd _ env =>
    match h : parseCommandToOptions cmd createCommandOptions with
    | some o =>
      decidable_of_iff (insertsSlave s env o = true → ∀ q ∈ s.shutdownQueue, q.id ≠ o.id) (by
        simp only [InsertsUnqueued, h])
    | none => isTrue (by simp only [InsertsUnqueued, h])
  | .reapStart | .reap _ | .childExit .. | .exit _ => isTrue trivial

/-- The slave of the entry's id, if there is one, was inserted before the entry was queued. -/
def QueuedAfter (s : WorkerState) (g : ReapRecord) (o : CommandOptions) (queued : Nat) : Prop :=
  s.getSlave o.id ≠ none → g.inserted o.id < queued

structure ReapInv (s : WorkerState) (g : ReapRecord) : Prop where
  inserted : ∀ id, g.inserted id ≤ g.now
  queued : List.Forall₂ (QueuedAfter s g) s.shutdownQueue g.queued
  touched : ∀ t ∈ g.touched, t.inserted < t.queued

/-! ## One step -/

section
variable {s s' : WorkerState} {g : ReapRecord} {a : WorkerAction}

theorem ReapInv.reaps (hi : ReapInv s g) {t : Touch} (h : s.reaps g = some t) :
    t.inserted < t.queued := by
  unfold WorkerState.reaps at h
  split at h
  · split at h
    · rename_i o queued ho hqueued
      obtain ⟨e, he, rfl⟩ := Option.map_eq_some_iff.1 h
      exact forall₂_getElem? hi.queued ho hqueued (by simp [he])
    · cases h
  · cases h

theorem noteReap_inserted_le (hi : ReapInv s g) (id : Bytes) :
    (noteReap s a s' g).inserted id ≤ (noteReap s a s' g).now := by
  have := hi.inserted id
  unfold noteReap
  dsimp only
  split <;> omega

theorem noteReap_touched (hi : ReapInv s g) :
    ∀ t ∈ (noteReap s a s' g).touched, t.inserted < t.queued := by
  intro t ht
  cases a with
  | reap now =>
    rcases List.mem_append.1 ht with ht | ht
    · exact hi.touched t ht
    · exact hi.reaps (Option.mem_toList.1 ht)
  | _ => exact hi.touched t ht

/-- An entry keeps its place in time while no slave is inserted under its id. -/
theorem QueuedAfter.step {o : CommandOptions} {queued : Nat} (h : QueuedAfter s g o queued)
    (hslave : s.getSlave o.id = none → s'.getSlave o.id = none) :
    QueuedAfter s' (noteReap s a s' g) o queued := by
  intro hsome
  have hold : s.getSlave o.id ≠ none := fun hnone => hsome (hslave hnone)
  have hinserted : (noteReap s a s' g).inserted o.id = g.inserted o.id := by
    unfold noteReap
    dsimp only
    rw [if_neg fun hand => hold hand.1]
  rw [hinserted]
  exact h hold

/-- A step that takes only slaves away, and leaves the queue or erases where the walk is. -/
theorem ReapInv.step_of_none (hi : ReapInv s g)
    (hslave : ∀ id, s.getSlave id = none → s'.getSlave id = none)
    (hqueue : s'.shutdownQueue = s.shutdownQueue ∨
      ∃ i, s.pc = .reaping i ∧ s'.shutdownQueue = s.shutdownQueue.eraseIdx i) :
    ReapInv s' (noteReap s a s' g) := by
  refine ⟨noteReap_inserted_le hi, ?_, noteReap_touched hi⟩
  have hkept : List.Forall₂ (QueuedAfter s' (noteReap s a s' g)) s.shutdownQueue g.queued :=
    hi.queued.imp fun o _ h => h.step (hslave o.id)
  by_cases heq : s'.shutdownQueue = s.shutdownQueue
  · have : (noteReap s a s' g).queued = g.queued := if_pos heq
    rw [this, heq]
    exact hkept
  · obtain ⟨i, hpc, hq⟩ := hqueue.resolve_left heq
    have : (noteReap s a s' g).queued = g.queued.eraseIdx i := by
      unfold noteReap
      dsimp only
      rw [if_neg heq, hpc]
    rw [this, hq]
    exact forall₂_eraseIdx hkept i

theorem ReapInv.message (hi : ReapInv s g) (hpc : s.pc = .running) {now : Int} {env : LaunchEnv}
    {o : CommandOptions}
    (hc : insertsSlave s env o = true → ∀ q ∈ s.shutdownQueue, q.id ≠ o.id) :
    ReapInv (execute now env o s).1 (noteReap s a (execute now env o s).1 g) := by
  refine ⟨noteReap_inserted_le hi, ?_, noteReap_touched hi⟩
  set s' := (execute now env o s).1 with hs'
  have hmem : ∀ q ∈ s.shutdownQueue, s.getSlave q.id = none → s'.getSlave q.id = none := by
    intro q hq hnone
    rw [hs', execute_getSlave, if_neg, hnone]
    simp only [Bool.and_eq_true, decide_eq_true_eq]
    rintro ⟨hins, hid⟩
    exact hc hins q hq hid
  have hkept : List.Forall₂ (QueuedAfter s' (noteReap s a s' g)) s.shutdownQueue g.queued :=
    ((List.forall₂_and_left ..).2 ⟨hmem, hi.queued⟩).imp fun q _ h => h.2.step h.1
  have hqueue : (execute now env o s).1.shutdownQueue = _ := execute_shutdownQueue
  rw [← hs'] at hqueue
  cases hq : queuesShutdown s o with
  | false =>
    rw [hq, if_neg Bool.false_ne_true] at hqueue
    have : (noteReap s a s' g).queued = g.queued := if_pos hqueue
    rw [this, hqueue]
    exact hkept
  | true =>
    rw [hq, if_pos rfl] at hqueue
    have hne : s'.shutdownQueue ≠ s.shutdownQueue := by simp [hqueue]
    have : (noteReap s a s' g).queued = g.queued ++ [g.now + 1] := by
      unfold noteReap
      dsimp only
      rw [if_neg hne, hpc]
    rw [this, hqueue]
    refine List.rel_append hkept (.cons (QueuedAfter.step (fun _ => ?_) fun hnone => ?_) .nil)
    · have := hi.inserted o.id
      dsimp only
      omega
    · -- a shutdown is queued for a slave that is there
      simp [queuesShutdown, hnone] at hq

/-- **Every step that meets the condition keeps the order in time.** -/
theorem ReapInv.step (hi : ReapInv s g) (hc : InsertsUnqueued s a)
    (h : workerStep s a = some s') : ReapInv s' (noteReap s a s' g) := by
  cases a with
  | message cmd now env =>
    obtain ⟨hpc, -, ⟨-, rfl⟩ | ⟨o, hparse, rfl⟩⟩ := workerStep_message h
    · exact hi.step_of_none (fun _ h => h) (.inl rfl)
    · simp only [InsertsUnqueued, hparse] at hc
      exact hi.message hpc hc
  | reapStart =>
    simp only [workerStep] at h
    split at h <;> cases h
    exact hi.step_of_none (fun _ h => h) (.inl rfl)
  | reap now =>
    have herase {id : Bytes} (hs : s'.slaveList = s.slaveList.eraseP (·.1 = id)) (id' : Bytes)
        (hnone : s.getSlave id' = none) : s'.getSlave id' = none := by
      unfold getSlave at hnone ⊢
      rw [Option.map_eq_none_iff, List.find?_eq_none] at hnone ⊢
      exact fun e he => hnone e (List.mem_of_mem_eraseP (hs ▸ he))
    cases reap_effect h with
    | kept slaves _ queue =>
      exact hi.step_of_none (fun id hnone => (getSlave_congr slaves id).trans hnone) (.inl queue)
    | dropped i _ pc _ queue slaves => exact hi.step_of_none (herase slaves) (.inr ⟨i, pc, queue⟩)
    | reaped i _ _ pc _ queue slaves => exact hi.step_of_none (herase slaves) (.inr ⟨i, pc, queue⟩)
  | childExit pid status =>
    simp only [workerStep] at h
    cases h
    exact hi.step_of_none (fun _ h => h) (.inl rfl)
  | exit pick =>
    simp only [workerStep] at h
    split at h <;> cases h
    refine hi.step_of_none (fun _ _ => rfl) (.inl ?_)
    exact waitAll_shutdownQueue pick

end

/-- **A queued shutdown reaches only a slave inserted before it was queued**, in every run in which
no slave is inserted under an id that `shutdown_queue` still has. -/
theorem shutdown_reaches_older {l : List WorkerAction} {s : WorkerState} {g : ReapRecord}
    (hc : Along workerStep InsertsUnqueued {} l)
    (h : run (noted workerStep noteReap) ({}, {}) l = some (s, g)) :
    ∀ t ∈ g.touched, t.inserted < t.queued :=
  (noted_inv (fun _ _ _ _ hi hc hs => hi.step hc hs) ⟨fun _ => le_rfl, .nil, by simp⟩ hc h :
    ReapInv s g).touched

/-! ## One shutdown and two -/

/-- A child is shut down once, reaped, and its id used again. -/
def reuseRun : List WorkerAction :=
  [.message (bytes "id=a;cmd=cap;") 0 { fork := 11 }, .message (bytes "id=a;cmd=shut;") 0 {},
    .reapStart, .reap 0, .childExit 11 0, .reap 0, .reapStart, .reap 0, .reap 0,
    .message (bytes "id=a;cmd=cap;") 1 { fork := 12 }, .reapStart, .reap 40]

theorem shutdown_reaches_older_reuse :
    ∃ p, run (noted workerStep noteReap) ({}, {}) reuseRun = some p ∧
      p.2.touched = [⟨1, 2⟩, ⟨1, 2⟩] ∧ ∀ t ∈ p.2.touched, t.inserted < t.queued :=
  ⟨_, rfl, rfl, shutdown_reaches_older (l := reuseRun) (by decide) rfl⟩

/-- Of two shutdowns the second reaps the child, and the first kills the next child of the id. -/
theorem shutdown_reaches_newer :
    ∃ p, run (noted workerStep noteReap) ({}, {})
        [.message (bytes "id=a;cmd=cap;") 0 { fork := 11 }, .message (bytes "id=a;cmd=shut;") 0 {},
          .message (bytes "id=a;cmd=shut;") 0 {}, .reapStart, .reap 0, .childExit 11 0, .reap 0,
          .reap 0, .message (bytes "id=a;cmd=cap;") 1 { fork := 12 }, .reapStart, .reap 40] =
        some p ∧
      p.2.touched = [⟨1, 2⟩, ⟨1, 3⟩, ⟨9, 2⟩] ∧ (¬ ∀ t ∈ p.2.touched, t.inserted < t.queued) ∧
      p.1.kills = [⟨12, [12]⟩] :=
  ⟨_, rfl, rfl, by decide, rfl⟩

end Musicat.Child
