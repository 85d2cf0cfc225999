import Mathlib.Data.List.TakeWhile
import Musicat.Lib.Lists
import Musicat.Lib.Run

/-!
# Tasks for the main loop

`run_may_block`, `run_on_main` and `run_on_main_and_wait` put a task into
`blocking_tasks`; `check_blocking_task`, a routine of the main loop, takes every
task that will not block out of it in one pass under the lock, and then runs
them one by one, with a `notify_all` after each that was to run on the main
loop. Every task taken is dispatched once. `run_on_main_and_wait` sleeps until
its id has left `blocking_tasks`, which it does before its function has run: it
waits for the function only when nothing wakes it in between.
-/

namespace Musicat.Task

open Lib

/-- `blocking_task_t`; `key` says which submission it is. What `will_block` returns is given
to the pass that calls it. -/
structure BlockingTask where
  key : Nat
  id : Nat
  onMain : Bool
  deriving DecidableEq, Repr

/-- A `run_on_main_and_wait` call. -/
inductive Wait where
  | asleep
  /-- Notified, or woken for no reason, and about to take the lock. -/
  | woken
  | returned
  deriving DecidableEq, Repr

structure Waiter where
  key : Nat
  /-- `cts`. -/
  id : Nat
  wait : Wait := .asleep
  deriving DecidableEq, Repr

structure Tasks where
  blockingTasks : List BlockingTask := []
  /-- What the main loop has left of `tasks_ready`. -/
  tasksReady : List BlockingTask := []
  /-- The function of an `on_main` task has returned, and `notify_all` is next. -/
  notifying : Bool := false
  waiters : List Waiter := []
  /-- The tasks given to the cluster's queue, and those whose function has returned on the main
  loop; the cluster is there for as long as the main loop runs. -/
  dispatched : List Nat := []
  submitted : Nat := 0
  deriving DecidableEq, Repr

inductive TaskAction where
  | runMayBlock
  | runOnMain (id : Nat)
  | runOnMainAndWait (id : Nat)
  /-- The pass of `check_blocking_task`, in which `will_block` returns true for `blocked`. -/
  | check (blocked : List Nat)
  /-- The loop over `tasks_ready` goes on. -/
  | next
  /-- A waiter wakes without a notification. -/
  | wake (key : Nat)
  /-- A waiter takes the lock and evaluates its condition. -/
  | evaluate (key : Nat)
  deriving DecidableEq, Repr

namespace BlockingTask

/-- `will_block`: constantly false for a task of `run_on_main`. -/
def willBlock (blocked : List Nat) (t : BlockingTask) : Bool :=
  !t.onMain && blocked.contains t.key

end BlockingTask

namespace Waiter

/-- `notify_all`, or a spurious wake-up. -/
def wakeUp (w : Waiter) : Waiter := if w.wait = .asleep then { w with wait := .woken } else w

/-- The condition of `cv.wait`: no task with the waiter's id is in `blocking_tasks`. -/
def evaluate (tasks : List BlockingTask) (w : Waiter) : Waiter :=
  if w.wait = .woken then
    { w with wait := if tasks.any (·.id = w.id) then .asleep else .returned }
  else w

end Waiter

namespace Tasks

def submit (s : Tasks) (id : Nat) (onMain : Bool) : Tasks :=
  { s with
    blockingTasks := s.blockingTasks ++ [{ key := s.submitted, id, onMain }]
    submitted := s.submitted + 1 }

def mapWaiter (s : Tasks) (key : Nat) (f : Waiter → Waiter) : Tasks :=
  { s with waiters := s.waiters.map fun w => if w.key = key then f w else w }

end Tasks

def taskStep (s : Tasks) : TaskAction → Option Tasks
  | .runMayBlock => some (s.submit 0 false)
  | .runOnMain id => some (s.submit id true)
  | .runOnMainAndWait id =>
    some { s.submit id true with waiters := s.waiters ++ [{ key := s.submitted, id }] }
  | .check blocked =>
    if s.notifying || !s.tasksReady.isEmpty then none
    else
      let (blocking, ready) := s.blockingTasks.partition (·.willBlock blocked)
      some { s with blockingTasks := blocking, tasksReady := ready }
  | .next =>
    if s.notifying then some { s with notifying := false, waiters := s.waiters.map (·.wakeUp) }
    else
      match s.tasksReady with
      | [] => none
      | t :: ready =>
        some { s with
          tasksReady := ready, dispatched := s.dispatched ++ [t.key], notifying := t.onMain }
  | .wake key => some (s.mapWaiter key (·.wakeUp))
  | .evaluate key => some (s.mapWaiter key (·.evaluate s.blockingTasks))

/-! ## Every task is in one place -/

namespace Tasks

def keys (s : Tasks) : List Nat :=
  s.blockingTasks.map (·.key) ++ (s.tasksReady.map (·.key) ++ s.dispatched)

/-- Each submitted task is in `blocking_tasks`, in `tasks_ready` or dispatched, once. -/
def Accounted (s : Tasks) : Prop := s.keys.Perm (List.range s.submitted)

end Tasks

section
variable {s s' : Tasks} {a : TaskAction}

/-- A pass splits `blocking_tasks` by what `will_block` returned. -/
theorem check_eq_some {blocked : List Nat} :
    taskStep s (.check blocked) = some s' ↔
      s.notifying = false ∧ s.tasksReady = [] ∧
        s' = { s with
          blockingTasks := s.blockingTasks.filter (·.willBlock blocked)
          tasksReady := s.blockingTasks.filter fun t => !t.willBlock blocked } := by
  simp only [taskStep, List.partition_eq_filter_filter]
  split
  · rename_i h
    simp only [Bool.or_eq_true, Bool.not_eq_true', List.isEmpty_eq_false_iff] at h
    constructor
    · intro h'
      cases h'
    · rintro ⟨hn, hr, -⟩
      simp [hn, hr] at h
  · rename_i h
    simp only [Bool.or_eq_true, Bool.not_eq_true', List.isEmpty_eq_false_iff, not_or,
      Bool.not_eq_true, ne_eq, not_not] at h
    simp only [Option.some.injEq, h, true_and]
    exact eq_comm

/-- The loop over `tasks_ready`: a notification, or the next task. -/
theorem next_cases (h : taskStep s .next = some s') :
    (s.notifying = true ∧
      s' = { s with notifying := false, waiters := s.waiters.map (·.wakeUp) }) ∨
    ∃ t ready, s.notifying = false ∧ s.tasksReady = t :: ready ∧
      s' = { s with
        tasksReady := ready, dispatched := s.dispatched ++ [t.key], notifying := t.onMain } := by
  simp only [taskStep] at h
  split at h
  · rename_i hn
    exact .inl ⟨hn, (Option.some.inj h).symm⟩
  · rename_i hn
    split at h
    · cases h
    · rename_i t ready hready
      exact .inr ⟨t, ready, by simpa using hn, hready, (Option.some.inj h).symm⟩

theorem Tasks.Accounted.submit (h : s.Accounted) (id : Nat) (onMain : Bool) :
    (s.submit id onMain).Accounted := by
  have hmove : (s.submit id onMain).keys.Perm (s.keys ++ [s.submitted]) := by
    simp only [Tasks.keys, Tasks.submit, List.map_append, List.map_cons, List.map_nil,
      List.append_assoc]
    exact List.perm_append_comm.append_left _ |>.trans (by simp)
  rw [Tasks.Accounted, Tasks.submit, List.range_succ]
  exact hmove.trans (h.append_right _)

/-- **No step loses a task or dispatches it twice.** -/
theorem accounted_step (hi : s.Accounted) (h : taskStep s a = some s') : s'.Accounted := by
  cases a with
  | runMayBlock =>
    cases h
    exact hi.submit 0 false
  | runOnMain id =>
    cases h
    exact hi.submit id true
  | runOnMainAndWait id =>
    cases h
    exact hi.submit id true
  | check blocked =>
    obtain ⟨-, hr, rfl⟩ := check_eq_some.1 h
    refine .trans ?_ hi
    have hsplit := (List.filter_append_perm (·.willBlock blocked) s.blockingTasks).map (·.key)
    simp only [Tasks.keys, hr, List.map_nil, List.nil_append, ← List.append_assoc,
      ← List.map_append]
    exact hsplit.append_right _
  | next =>
    rcases next_cases h with ⟨-, rfl⟩ | ⟨t, ready, -, hr, rfl⟩
    · exact hi
    · refine .trans ?_ hi
      simp only [Tasks.keys, hr, List.map_cons]
      refine List.Perm.append_left _ ?_
      rw [← List.append_assoc]
      exact List.perm_append_singleton _ _
  | wake key | evaluate key =>
    cases h
    exact hi

theorem accounted_init : Tasks.Accounted {} := List.Perm.refl []

theorem accounted_run {l : List TaskAction} (h : run taskStep {} l = some s) : s.Accounted :=
  run_invariant (fun _ _ _ => accounted_step) accounted_init h

theorem Tasks.Accounted.nodup (h : s.Accounted) : s.keys.Nodup :=
  h.nodup_iff.2 List.nodup_range

/-- What was taken out of `blocking_tasks` stays in `tasks_ready` until it is dispatched. -/
theorem taken_step {k : Nat} (hk : k ∈ s.tasksReady.map (·.key) ++ s.dispatched)
    (h : taskStep s a = some s') : k ∈ s'.tasksReady.map (·.key) ++ s'.dispatched := by
  cases a with
  | runMayBlock | runOnMain id | runOnMainAndWait id | wake key | evaluate key =>
    cases h
    exact hk
  | check blocked =>
    obtain ⟨-, hr, rfl⟩ := check_eq_some.1 h
    rw [hr, List.map_nil, List.nil_append] at hk
    exact List.mem_append_right _ hk
  | next =>
    rcases next_cases h with ⟨-, rfl⟩ | ⟨t, ready, -, hr, rfl⟩
    · exact hk
    · simp only [hr, List.map_cons, List.cons_append, List.mem_cons, List.mem_append] at hk ⊢
      tauto

/-- **A task that a pass takes is dispatched once by the time `tasks_ready` is run.** -/
theorem taken_dispatched {l : List TaskAction} {k : Nat} (hi : s.Accounted)
    (hk : k ∈ s.tasksReady.map (·.key) ++ s.dispatched) (h : run taskStep s l = some s')
    (hr : s'.tasksReady = []) : s'.dispatched.count k = 1 := by
  have hk' := run_invariant (fun _ _ _ => taken_step) hk h
  have hnd := (run_invariant (fun _ _ _ => accounted_step) hi h).nodup
  rw [hr, List.map_nil, List.nil_append] at hk'
  exact List.count_eq_one_of_mem (List.nodup_append.1 (List.nodup_append.1 hnd).2.1).2.1 hk'

/-- The loop over `tasks_ready` comes to its end. -/
theorem drains (s : Tasks) :
    ∃ n s', run taskStep s (List.replicate n .next) = some s' ∧ s'.tasksReady = [] := by
  have hall (ready : List BlockingTask) :
      ∀ s : Tasks, s.tasksReady = ready →
        ∃ n s', run taskStep s (List.replicate n .next) = some s' ∧ s'.tasksReady = [] := by
    induction ready with
    | nil => exact fun s hs => ⟨0, s, rfl, hs⟩
    | cons t ready ih =>
      have hpop (s : Tasks) (hs : s.tasksReady = t :: ready) (hn : s.notifying = false) :
          ∃ n s', run taskStep s (List.replicate n .next) = some s' ∧ s'.tasksReady = [] := by
        obtain ⟨n, s', hrun, hs'⟩ := ih { s with
          tasksReady := ready, dispatched := s.dispatched ++ [t.key], notifying := t.onMain } rfl
        refine ⟨n + 1, s', ?_, hs'⟩
        rw [List.replicate_succ, run_cons (by simp [taskStep, hs, hn]; rfl)]
        exact hrun
      intro s hs
      cases hn : s.notifying with
      | false => exact hpop s hs hn
      | true =>
        obtain ⟨n, s', hrun, hs'⟩ := hpop
          { s with notifying := false, waiters := s.waiters.map (·.wakeUp) } hs rfl
        refine ⟨n + 1, s', ?_, hs'⟩
        rw [List.replicate_succ, run_cons (by simp [taskStep, hn]; rfl)]
        exact hrun
  exact hall s.tasksReady s rfl

end

/-! ## Waiting for one's own function -/

/-- The part of `tasks_ready` that runs before the task `k`. -/
def before (k : Nat) (ready : List BlockingTask) : List BlockingTask :=
  ready.takeWhile (·.key ≠ k)

/-- A task of `run_on_main_and_wait` is taken while its waiter sleeps and with nothing for the
main loop to run before it, and the waiter is not woken for no reason until it has run. -/
def Undisturbed (s : Tasks) : TaskAction → Prop
  | .check blocked =>
    let ready := s.blockingTasks.filter fun t => !t.willBlock blocked
    ∀ w ∈ s.waiters, w.key ∈ ready.map (·.key) →
      w.wait = .asleep ∧ ∀ t ∈ before w.key ready, t.onMain = false
  | .wake key => ∀ w ∈ s.waiters, w.key = key → key ∉ s.tasksReady.map (·.key)
  | _ => True

instance (s : Tasks) : (a : TaskAction) → Decidable (Undisturbed s a)
  | .check _ => inferInstanceAs (Decidable (∀ w ∈ s.waiters, _ → _))
  | .wake _ => inferInstanceAs (Decidable (∀ w ∈ s.waiters, _ → _))
  | .runMayBlock | .runOnMain _ | .runOnMainAndWait _ | .next | .evaluate _ => isTrue trivial

/-- Where the task of a waiter is, and what that means for the waiter. -/
inductive Placed (s : Tasks) (w : Waiter) : Prop where
  | waiting (t : BlockingTask) (mem : t ∈ s.blockingTasks) (key : t.key = w.key) (id : t.id = w.id)
      (blocked : w.wait ≠ .returned)
  | taken (first : List BlockingTask) (t : BlockingTask) (rest : List BlockingTask)
      (ready : s.tasksReady = first ++ t :: rest) (key : t.key = w.key)
      (quiet : ∀ u ∈ first, u.onMain = false) (asleep : w.wait = .asleep)
      (silent : s.notifying = false)
  | done (mem : w.key ∈ s.dispatched)

def WaitersPlaced (s : Tasks) : Prop := ∀ w ∈ s.waiters, Placed s w

section
variable {s s' : Tasks} {a : TaskAction}

@[simp] theorem wakeUp_key (w : Waiter) : w.wakeUp.key = w.key := by
  unfold Waiter.wakeUp
  split <;> rfl

@[simp] theorem wakeUp_id (w : Waiter) : w.wakeUp.id = w.id := by
  unfold Waiter.wakeUp
  split <;> rfl

theorem wakeUp_returned {w : Waiter} : w.wakeUp.wait = .returned ↔ w.wait = .returned := by
  unfold Waiter.wakeUp
  split
  · rename_i h
    simp [h]
  · exact Iff.rfl

@[simp] theorem evaluate_key (w : Waiter) (tasks : List BlockingTask) :
    (w.evaluate tasks).key = w.key := by
  unfold Waiter.evaluate
  split <;> rfl

@[simp] theorem evaluate_id (w : Waiter) (tasks : List BlockingTask) :
    (w.evaluate tasks).id = w.id := by
  unfold Waiter.evaluate
  split <;> rfl

/-- More tasks do not change where a waiter's task is. -/
theorem Placed.submit {w : Waiter} (h : Placed s w) (id : Nat) (onMain : Bool) :
    Placed (s.submit id onMain) w := by
  cases h with
  | waiting t mem key id blocked => exact .waiting t (List.mem_append_left _ mem) key id blocked
  | taken first t rest ready key quiet asleep silent =>
    exact .taken first t rest ready key quiet asleep silent
  | done mem => exact .done mem

theorem placed_wakeUp {w : Waiter} (h : Placed s w)
    (hw : w.key ∉ s.tasksReady.map (·.key)) : Placed s w.wakeUp := by
  cases h with
  | waiting t mem key id blocked =>
    exact .waiting t mem (by simpa using key) (by simpa using id) (mt wakeUp_returned.1 blocked)
  | taken first t rest ready key =>
    exact absurd (List.mem_map.2 ⟨t, by rw [ready]; simp, key⟩) hw
  | done mem => exact .done (by simpa using mem)

/-- A condition that is evaluated with its task in `blocking_tasks` is false. -/
theorem placed_evaluate {w : Waiter} (h : Placed s w) : Placed s (w.evaluate s.blockingTasks) := by
  cases h with
  | waiting t mem key id blocked =>
    refine .waiting t mem (by simpa using key) (by simpa using id) ?_
    unfold Waiter.evaluate
    split
    · have hany : s.blockingTasks.any (·.id = w.id) = true :=
        List.any_eq_true.2 ⟨t, mem, by simpa using id⟩
      simp [hany]
    · exact blocked
  | taken first t rest ready key quiet asleep silent =>
    have hsame : w.evaluate s.blockingTasks = w := by simp [Waiter.evaluate, asleep]
    rw [hsame]
    exact .taken first t rest ready key quiet asleep silent
  | done mem => exact .done (by simpa using mem)

theorem placed_next {w : Waiter} (hw : Placed s w) {t : BlockingTask} {ready : List BlockingTask}
    (hr : s.tasksReady = t :: ready) :
    Placed { s with
      tasksReady := ready, dispatched := s.dispatched ++ [t.key], notifying := t.onMain } w := by
  cases hw with
  | waiting u mem key id blocked => exact .waiting u mem key id blocked
  | taken first u rest hready key quiet asleep silent =>
    rw [hr] at hready
    cases first with
    | nil =>
      obtain ⟨rfl, -⟩ := List.cons.inj hready
      exact .done (key ▸ List.mem_append_right _ (List.mem_singleton_self _))
    | cons v first =>
      obtain ⟨rfl, hrest⟩ := List.cons.inj hready
      exact .taken first u rest hrest key (fun x hx => quiet x (List.mem_cons_of_mem _ hx)) asleep
        (quiet t List.mem_cons_self)
  | done mem => exact .done (List.mem_append_left _ mem)

theorem placed_check {w : Waiter} (hw : Placed s w) (hmem : w ∈ s.waiters) {blocked : List Nat}
    (hc : Undisturbed s (.check blocked)) (hn : s.notifying = false) (hr : s.tasksReady = []) :
    Placed { s with
      blockingTasks := s.blockingTasks.filter (·.willBlock blocked)
      tasksReady := s.blockingTasks.filter fun t => !t.willBlock blocked } w := by
  cases hw with
  | waiting t mem key id notReturned =>
    cases hb : t.willBlock blocked with
    | true => exact .waiting t (List.mem_filter.2 ⟨mem, hb⟩) key id notReturned
    | false =>
      have ht : t ∈ s.blockingTasks.filter fun t => !t.willBlock blocked :=
        List.mem_filter.2 ⟨mem, by rw [hb]; rfl⟩
      obtain ⟨hasleep, hquiet⟩ := hc w hmem (List.mem_map.2 ⟨t, ht, key⟩)
      obtain ⟨u, rest, hready, hu⟩ := exists_takeWhile_key (List.mem_map.2 ⟨t, ht, key⟩)
      exact .taken _ u rest hready hu hquiet hasleep hn
  | taken first t rest ready => simp [hr] at ready
  | done mem => exact .done mem

/-- Where a waiter's task is depends on the tasks only. -/
theorem Placed.congr {w : Waiter} (h : Placed s w) (hb : s'.blockingTasks = s.blockingTasks)
    (hr : s'.tasksReady = s.tasksReady) (hn : s'.notifying = s.notifying)
    (hd : s'.dispatched = s.dispatched) : Placed s' w := by
  cases h with
  | waiting t mem key id blocked => exact .waiting t (hb ▸ mem) key id blocked
  | taken first t rest ready key quiet asleep silent =>
    exact .taken first t rest (hr ▸ ready) key quiet asleep (hn ▸ silent)
  | done mem => exact .done (hd ▸ mem)

/-- A notification wakes no waiter whose task is taken and has not run. -/
theorem placed_notify {w : Waiter} (h : Placed s w) (hn : s.notifying = true) :
    Placed { s with notifying := false, waiters := s.waiters.map (·.wakeUp) } w.wakeUp := by
  cases h with
  | waiting t mem key id blocked =>
    exact .waiting t mem (by simpa using key) (by simpa using id) (mt wakeUp_returned.1 blocked)
  | taken first t rest ready key quiet asleep silent =>
    rw [hn] at silent
    cases silent
  | done mem => exact .done (by simpa using mem)

/-- **In an undisturbed step every waiter's task stays in a place that keeps it waiting.** -/
theorem waitersPlaced_step (hi : WaitersPlaced s) (hc : Undisturbed s a)
    (h : taskStep s a = some s') : WaitersPlaced s' := by
  cases a with
  | runMayBlock =>
    cases h
    exact fun w hw => (hi w hw).submit 0 false
  | runOnMain id =>
    cases h
    exact fun w hw => (hi w hw).submit id true
  | runOnMainAndWait id =>
    cases h
    intro w hw
    rcases List.mem_append.1 hw with hw | hw
    · exact ((hi w hw).submit id true).congr rfl rfl rfl rfl
    · rw [List.mem_singleton.1 hw]
      exact .waiting { key := s.submitted, id, onMain := true }
        (List.mem_append_right _ (List.mem_singleton_self _)) rfl rfl (by simp)
  | check blocked =>
    obtain ⟨hn, hr, rfl⟩ := check_eq_some.1 h
    exact fun w hw => placed_check (hi w hw) hw hc hn hr
  | next =>
    rcases next_cases h with ⟨hn, rfl⟩ | ⟨t, ready, -, hr, rfl⟩
    · intro w hw
      obtain ⟨v, hv, rfl⟩ := List.mem_map.1 hw
      exact placed_notify (hi v hv) hn
    · exact fun w hw => placed_next (hi w hw) hr
  | wake key =>
    cases h
    intro w hw
    obtain ⟨v, hv, rfl⟩ := List.mem_map.1 hw
    split
    · rename_i hkey
      exact (placed_wakeUp (hi v hv) (hkey ▸ hc v hv hkey)).congr rfl rfl rfl rfl
    · exact (hi v hv).congr rfl rfl rfl rfl
  | evaluate key =>
    cases h
    intro w hw
    obtain ⟨v, hv, rfl⟩ := List.mem_map.1 hw
    split
    · exact (placed_evaluate (hi v hv)).congr rfl rfl rfl rfl
    · exact (hi v hv).congr rfl rfl rfl rfl

theorem waitersPlaced_run {l : List TaskAction} (hc : Along taskStep Undisturbed {} l)
    (h : run taskStep {} l = some s) : WaitersPlaced s :=
  run_inv (fun _ _ _ => waitersPlaced_step) (fun w hw => by cases hw) hc h

/-- A waiter that returned has had its function run. -/
theorem dispatched_of_returned {w : Waiter} (h : Placed s w) (hr : w.wait = .returned) :
    w.key ∈ s.dispatched := by
  cases h with
  | waiting t mem key id blocked => exact absurd hr blocked
  | taken first t rest ready key quiet asleep =>
    rw [asleep] at hr
    cases hr
  | done mem => exact mem

/-! ## Returning early -/

/-- A waiter has returned although its function has not run. -/
def ReturnedEarly (s : Tasks) : Prop :=
  ∃ w ∈ s.waiters, w.wait = .returned ∧ w.key ∉ s.dispatched

/-- No other task has the random id of a waiter's task. -/
def IdsApart (s : Tasks) : Prop :=
  ∀ w ∈ s.waiters, ∀ t ∈ s.blockingTasks, t.id = w.id → t.key = w.key

/-- A waiter that is awake while its task is in `tasks_ready` returns. -/
theorem early_of_woken {w : Waiter} (hw : w ∈ s.waiters) (hwoken : w.wait = .woken)
    (hids : ∀ t ∈ s.blockingTasks, t.id ≠ w.id) (hd : w.key ∉ s.dispatched) :
    ∃ s', taskStep s (.evaluate w.key) = some s' ∧ ReturnedEarly s' := by
  have hany : s.blockingTasks.any (·.id = w.id) = false := by
    simpa [List.any_eq_false] using hids
  have hreturned : w.evaluate s.blockingTasks = { w with wait := .returned } := by
    simp [Waiter.evaluate, hwoken, hany]
  refine ⟨_, rfl, w.evaluate s.blockingTasks, List.mem_map.2 ⟨w, hw, if_pos rfl⟩, ?_, ?_⟩
  · rw [hreturned]
  · rw [hreturned]
    exact hd

/-- So does one whose task is behind another one for the main loop. -/
theorem early_of_behind {w : Waiter} {u : BlockingTask} {rest : List BlockingTask}
    (hu : u.onMain = true) (huw : u.key ≠ w.key) :
    ∀ {first : List BlockingTask} {s : Tasks}, s.tasksReady = first ++ u :: rest →
      (∀ t ∈ first, t.onMain = false ∧ t.key ≠ w.key) → s.notifying = false → w ∈ s.waiters →
      w.wait = .asleep → (∀ t ∈ s.blockingTasks, t.id ≠ w.id) → w.key ∉ s.dispatched →
      ∃ l s', run taskStep s l = some s' ∧ ReturnedEarly s'
  | [], s, hr, _, hn, hw, hasleep, hids, hd => by
    obtain ⟨s', hs', hearly⟩ := early_of_woken
      (s := { s with
        tasksReady := rest, dispatched := s.dispatched ++ [u.key], notifying := false
        waiters := s.waiters.map (·.wakeUp) })
      (w := w.wakeUp) (List.mem_map_of_mem hw) (by simp [Waiter.wakeUp, hasleep])
      (by simpa using hids) (by simpa [hd] using Ne.symm huw)
    refine ⟨[.next, .next, .evaluate w.wakeUp.key], s', ?_, hearly⟩
    simp only [run, taskStep, hn, hr, hu, List.nil_append, if_true, Bool.false_eq_true, if_false,
      Option.bind_some]
    exact hs'
  | t :: first, s, hr, hq, hn, hw, hasleep, hids, hd => by
    obtain ⟨ht, htw⟩ := hq t List.mem_cons_self
    obtain ⟨l, s', hrun, hearly⟩ := early_of_behind hu huw
      (s := { s with
        tasksReady := first ++ u :: rest, dispatched := s.dispatched ++ [t.key]
        notifying := t.onMain })
      rfl (fun v hv => hq v (List.mem_cons_of_mem _ hv)) ht hw hasleep hids
      (by simpa [hd] using Ne.symm htw)
    refine ⟨.next :: l, s', ?_, hearly⟩
    rw [run_cons (by simp [taskStep, hn, hr]; rfl)]
    exact hrun

/-- **A disturbed step can end in a return that is too early.** -/
theorem early_of_disturbed (hi : s.Accounted) (hp : WaitersPlaced s)
    (h : taskStep s a = some s') (hids : IdsApart s') (hc : ¬ Undisturbed s a) :
    ∃ l t, run taskStep s' l = some t ∧ ReturnedEarly t := by
  -- a task in `tasks_ready` is nowhere else
  have happart {k : Nat} (hk : k ∈ s'.tasksReady.map (·.key)) :
      k ∉ s'.dispatched ∧ ∀ t ∈ s'.blockingTasks, t.key ≠ k := by
    have hnd := List.nodup_append.1 (accounted_step hi h).nodup
    refine ⟨fun hd => (List.nodup_append.1 hnd.2.1).2.2 _ hk _ hd rfl, fun t ht htk => ?_⟩
    exact hnd.2.2 _ (List.mem_map_of_mem ht) _ (List.mem_append_left _ hk) htk
  have hidsOf {w : Waiter} (hw : w ∈ s'.waiters) (hk : w.key ∈ s'.tasksReady.map (·.key)) :
      ∀ t ∈ s'.blockingTasks, t.id ≠ w.id := fun t ht hid =>
    (happart hk).2 t ht (hids w hw t ht hid)
  cases a with
  | check blocked =>
    obtain ⟨hn, -, hs'⟩ := check_eq_some.1 h
    have hready' : (s.blockingTasks.filter fun t => !t.willBlock blocked) = s'.tasksReady := by
      rw [hs']
    have hn' : s'.notifying = false := by rw [hs', hn]
    have hd' : s'.dispatched = s.dispatched := by rw [hs']
    have hws : s'.waiters = s.waiters := by rw [hs']
    simp only [Undisturbed, not_forall, hready'] at hc
    obtain ⟨w, hw, hk, hdisturbed⟩ := hc
    have hw' : w ∈ s'.waiters := hws ▸ hw
    have hd := (happart hk).1
    cases hwait : w.wait with
    | returned => exact absurd (hd' ▸ dispatched_of_returned (hp w hw) hwait) hd
    | woken =>
      obtain ⟨t, ht, hearly⟩ := early_of_woken hw' hwait (hidsOf hw' hk) hd
      exact ⟨[_], t, by rw [run_cons ht]; rfl, hearly⟩
    | asleep =>
      rw [hwait, not_and] at hdisturbed
      have hloud := hdisturbed rfl
      simp only [not_forall, Bool.not_eq_false] at hloud
      obtain ⟨v, hv, hmain⟩ := hloud
      obtain ⟨x, rest, hready, -⟩ := exists_takeWhile_key hk
      -- the first of the tasks before `x` that is for the main loop
      obtain ⟨u, mid, hbefore, hu⟩ := exists_takeWhile_key
        (show true ∈ (before w.key s'.tasksReady).map (·.onMain) from
          List.mem_map.2 ⟨v, hv, hmain⟩)
      have hne {t : BlockingTask} (ht : t ∈ before w.key s'.tasksReady) : t.key ≠ w.key := by
        simpa using List.mem_takeWhile_imp ht
      rw [← before, hbefore, List.append_assoc] at hready
      refine early_of_behind hu (hne ?_) hready (fun t ht => ⟨?_, hne ?_⟩) hn' hw' hwait
        (hidsOf hw' hk) hd
      · rw [hbefore]
        simp
      · simpa using List.mem_takeWhile_imp ht
      · rw [hbefore]
        exact List.mem_append_left _ ht
  | wake key =>
    simp only [Undisturbed, not_forall, not_not] at hc
    obtain ⟨w, hw, rfl, hk⟩ := hc
    cases h
    obtain ⟨hd, hblock⟩ := happart hk
    cases hp w hw with
    | waiting t mem key => exact absurd key (hblock t mem)
    | taken first t rest ready key quiet asleep =>
      have hw' : w.wakeUp ∈ (s.mapWaiter w.key (·.wakeUp)).waiters :=
        List.mem_map.2 ⟨w, hw, if_pos rfl⟩
      obtain ⟨t, ht, hearly⟩ := early_of_woken hw' (by simp [Waiter.wakeUp, asleep])
        (hidsOf hw' ((wakeUp_key w).symm ▸ hk)) ((wakeUp_key w).symm ▸ hd)
      exact ⟨[_], t, by rw [run_cons ht]; rfl, hearly⟩
    | done mem => exact absurd mem hd
  | runMayBlock | runOnMain id | runOnMainAndWait id | next | evaluate key =>
    exact absurd trivial hc

end

/-! ## Every run -/

/-- **Every task taken is dispatched once, and an undisturbed `run_on_main_and_wait` returns only
after its function has**: at any time each task is in `blocking_tasks`, in `tasks_ready` or
dispatched, once; a pass takes the tasks that will not block, the loop over them comes to its
end, and by then each has been dispatched once. A waiter returns early only after a step that
disturbs one, and every such step can lead there. -/
theorem tasks_run {l : List TaskAction} {s : Tasks} (h : run taskStep {} l = some s) :
    (∀ k < s.submitted, s.keys.count k = 1) ∧
      (∀ blocked s', taskStep s (.check blocked) = some s' →
        (∃ n t, run taskStep s' (List.replicate n .next) = some t ∧ t.tasksReady = []) ∧
          ∀ l t, run taskStep s' l = some t → t.tasksReady = [] →
            ∀ b ∈ s.blockingTasks, b.willBlock blocked = false → t.dispatched.count b.key = 1) ∧
      (Along taskStep Undisturbed {} l →
        (∀ w ∈ s.waiters, w.wait = .returned → w.key ∈ s.dispatched) ∧
          ∀ a s', taskStep s a = some s' → IdsApart s' → ¬ Undisturbed s a →
            ∃ l t, run taskStep s' l = some t ∧ ReturnedEarly t) := by
  have hi := accounted_run h
  refine ⟨fun k hk => ?_, fun blocked s' hs => ⟨drains s', fun l t ht hr b hb hfree => ?_⟩,
    fun hc => ?_⟩
  · rw [hi.count_eq k]
    exact List.count_eq_one_of_mem List.nodup_range (List.mem_range.2 hk)
  · refine taken_dispatched (accounted_step hi hs) (List.mem_append_left _ ?_) ht hr
    obtain ⟨-, -, rfl⟩ := check_eq_some.1 hs
    exact List.mem_map_of_mem (List.mem_filter.2 ⟨hb, by rw [hfree]; rfl⟩)
  · have hp := waitersPlaced_run hc h
    exact ⟨fun w hw => dispatched_of_returned (hp w hw),
      fun a s' hs hids hdis => early_of_disturbed hi hp hs hids hdis⟩

/-- One waiter and a task that blocks at first. -/
def oneWaiter : List TaskAction :=
  [.runMayBlock, .runOnMainAndWait 7, .check [0], .next, .next, .evaluate 1, .check [], .next]

theorem tasks_run_oneWaiter : ∃ s, run taskStep {} oneWaiter = some s ∧
    s.waiters = [{ key := 1, id := 7, wait := .returned }] ∧ s.dispatched = [1, 0] ∧
    ∀ w ∈ s.waiters, w.wait = .returned → w.key ∈ s.dispatched :=
  ⟨_, rfl, rfl, rfl, ((@tasks_run oneWaiter _ rfl).2.2 (by decide)).1⟩

/-- A `run_on_main` and a `run_on_main_and_wait` task, taken in one pass: the notification after
the first wakes the waiter, which returns before its function has run. -/
theorem returns_before_its_function : ¬ ∀ (l : List TaskAction) (s : Tasks),
    run taskStep {} l = some s → ∀ w ∈ s.waiters, w.wait = .returned → w.key ∈ s.dispatched := by
  intro h
  have hmem := h [.runOnMain 3, .runOnMainAndWait 7, .check [], .next, .next, .evaluate 1] _ rfl
    { key := 1, id := 7, wait := .returned } (by decide) rfl
  revert hmem
  decide

end Musicat.Task
