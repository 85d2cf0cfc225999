import Mathlib.Logic.Function.Basic
import Musicat.Lib.Run

/-!
# Waking the threads that wait

A stream thread reads the running state, takes its `t_m`, and waits on `t_cv`
without a predicate when it has no contexts; the command thread waits on
`command_cv` with a predicate that it evaluates under `command_mutex`. The
shutdown sets the running state to false and then notifies both condition
variables, and takes neither mutex to do so. A notification wakes a thread that
is waiting and is lost on one that is about to (`shutdown_wakes`).

Which thread `notify_work` picks is left open, and so is what a context or a
command does. A mutex is held only within a step, but for a thread that is about
to wait: it holds its mutex until it waits.
-/

namespace Musicat.Threads

open Lib

/-- Where `stream_thread_t::run` is. -/
inductive StreamPc where
  /-- At the condition of its loop. -/
  | check
  /-- The running state was true; `t_m` is taken next. -/
  | checked
  /-- It has no context and holds `t_m`; `t_cv.wait` is next. -/
  | empty
  | waiting
  | woken
  | processing (ctxs : List Nat)
  | exited
  deriving DecidableEq, Repr

structure StreamThread where
  pc : StreamPc := .check
  ctxs : List Nat := []
  deriving DecidableEq, Repr

/-- Where the command thread is. -/
inductive CommandPc where
  /-- At the condition of its loop. -/
  | check
  /-- The running state was true; `command_queue_routine` is next. -/
  | routine
  /-- In `command_cv.wait`, about to take `command_mutex` and evaluate the predicate. -/
  | predicate
  /-- The predicate was false; it holds `command_mutex` and blocks next. -/
  | blocking
  | waiting
  | exited
  deriving DecidableEq, Repr

/-- Where the main thread is. -/
inductive MainPc where
  | mainLoop
  /-- In `child::shutdown`, before `command::wake`. -/
  | waking
  /-- In the loop of `stream_shutdown`, at the thread `i`. -/
  | notifying (i : Nat)
  | finished
  deriving DecidableEq, Repr

structure ShutdownState where
  running : Bool := true
  main : MainPc := .mainLoop
  command : CommandPc := .check
  commandQueue : List Nat := []
  /-- The calls of `wake` that `send_command` has still to make. -/
  wakes : Nat := 0
  /-- The number of the stream threads. -/
  count : Nat
  streams : Nat → StreamThread := fun _ => {}
  /-- The threads that `notify_work` has still to notify. -/
  notifies : List Nat := []

inductive ShutdownAction where
  /-- `set_running_state (false)`. -/
  | stop
  | main
  | command
  | stream (i : Nat)
  /-- `send_command`, and its `wake`. -/
  | send (cmd : Nat)
  | wake
  /-- `notify_work` gives a context to the thread `i`, and its `notify_one`. -/
  | work (i ctx : Nat)
  | notify (j : Nat)
  deriving DecidableEq, Repr

/-- `t_cv.notify_all`, or `notify_one`: only its own thread waits on it. -/
def StreamThread.wakeUp (t : StreamThread) : StreamThread :=
  if t.pc = .waiting then { t with pc := .woken } else t

/-- The next step of `stream_thread_t::run`; a waiting thread has none. -/
def StreamThread.turn (t : StreamThread) (running : Bool) : Option StreamThread :=
  match t.pc with
  | .check => some { t with pc := if running then .checked else .exited }
  | .checked =>
    some { ctxs := [], pc := if t.ctxs.isEmpty then .empty else .processing t.ctxs }
  | .empty => some { t with pc := .waiting }
  | .woken | .processing [] => some { t with pc := .check }
  | .processing (_ :: ctxs) => some { t with pc := .processing ctxs }
  | .waiting | .exited => none

namespace ShutdownState

def setStream (s : ShutdownState) (i : Nat) (t : StreamThread) : ShutdownState :=
  { s with streams := Function.update s.streams i t }

@[simp] theorem setStream_self (s : ShutdownState) (i : Nat) (t : StreamThread) :
    (s.setStream i t).streams i = t := Function.update_self ..

theorem setStream_of_ne {i j : Nat} (h : j ≠ i) (s : ShutdownState) (t : StreamThread) :
    (s.setStream i t).streams j = s.streams j := Function.update_of_ne h ..

/-- `t_cv.notify_all` of the thread `i`. -/
def notifyStream (s : ShutdownState) (i : Nat) : ShutdownState :=
  s.setStream i (s.streams i).wakeUp

/-- `command_cv.notify_all`. -/
def notifyCommand (s : ShutdownState) : ShutdownState :=
  { s with command := if s.command = .waiting then .predicate else s.command }

/-- The next step of the command thread. -/
def commandTurn (s : ShutdownState) : Option ShutdownState :=
  match s.command with
  | .check => some { s with command := if s.running then .routine else .exited }
  | .routine => some { s with commandQueue := [], command := .predicate }
  | .predicate =>
    some { s with
      command := if !s.commandQueue.isEmpty || !s.running then .check else .blocking }
  | .blocking => some { s with command := .waiting }
  | .waiting | .exited => none

/-- The next step of the main thread. -/
def mainTurn (s : ShutdownState) : Option ShutdownState :=
  match s.main with
  | .mainLoop => if s.running then none else some { s with main := .waking }
  | .waking => some { s.notifyCommand with main := .notifying 0 }
  | .notifying i =>
    if i < s.count then some { s.notifyStream i with main := .notifying (i + 1) }
    else some { s with main := .finished }
  | .finished => none

end ShutdownState

def shutdownStep (s : ShutdownState) : ShutdownAction → Option ShutdownState
  | .stop => some { s with running := false }
  | .main => s.mainTurn
  | .command => s.commandTurn
  | .stream i =>
    if i < s.count then ((s.streams i).turn s.running).map (s.setStream i) else none
  | .send cmd =>
    if s.command = .blocking then none
    else some { s with commandQueue := s.commandQueue ++ [cmd], wakes := s.wakes + 1 }
  | .wake => if s.wakes = 0 then none else some { s.notifyCommand with wakes := s.wakes - 1 }
  | .work i ctx =>
    if s.count ≤ i ∨ (s.streams i).pc = .empty then none
    else some { s.setStream i { s.streams i with ctxs := (s.streams i).ctxs ++ [ctx] } with
      notifies := s.notifies ++ [i] }
  | .notify j =>
    (s.notifies[j]?).map fun i => { s.notifyStream i with notifies := s.notifies.eraseIdx j }

/-! ## What a notification can miss -/

/-- The thread has found the running state true and is going to wait. -/
def StreamThread.AboutToWait (t : StreamThread) : Prop :=
  t.pc = .empty ∨ t.pc = .checked ∧ t.ctxs = []

instance (t : StreamThread) : Decidable t.AboutToWait := inferInstanceAs (Decidable (_ ∨ _))

/-- The thread that the shutdown notifies next is about to wait. -/
def ShutdownState.misses (s : ShutdownState) : Bool :=
  match s.main with
  | .waking => s.command = .blocking
  | .notifying i => i < s.count && decide (s.streams i).AboutToWait
  | _ => false

/-- The shutdown notifies no thread that is about to wait. -/
def NothingMissed (s : ShutdownState) (a : ShutdownAction) : Prop := a = .main → s.misses = false

instance (s : ShutdownState) (a : ShutdownAction) : Decidable (NothingMissed s a) :=
  inferInstanceAs (Decidable (_ → _))

/-- `stream_shutdown` has notified the thread `i`. -/
def MainPc.Notified (pc : MainPc) (i : Nat) : Prop :=
  match pc with
  | .notifying j => i < j
  | .finished => True
  | _ => False

/-- `command::wake` has been called. -/
def MainPc.Woke (pc : MainPc) : Prop :=
  match pc with
  | .notifying _ | .finished => True
  | _ => False

/-- No thread waits that the shutdown has notified. -/
structure NoneLeft (s : ShutdownState) : Prop where
  command : s.main.Woke → s.command ≠ .waiting
  streams : ∀ i, i < s.count → s.main.Notified i → (s.streams i).pc ≠ .waiting

/-- The thread will find the running state false before it waits. -/
def StreamThread.Leaving (t : StreamThread) : Prop := t.pc ≠ .waiting ∧ ¬t.AboutToWait

structure ShutdownInv (s : ShutdownState) : Prop where
  stopped : s.main ≠ .mainLoop → s.running = false
  command : s.main.Woke → s.command ≠ .waiting ∧ s.command ≠ .blocking
  streams : ∀ i, i < s.count → s.main.Notified i → (s.streams i).Leaving

namespace StreamThread

variable {t t' : StreamThread}

/-- With the running state false no thread gets to a wait. -/
theorem Leaving.turn (h : t.Leaving) (ht : t.turn false = some t') : t'.Leaving := by
  obtain ⟨pc, ctxs⟩ := t
  obtain ⟨hwait, habout⟩ := h
  cases pc with
  | check | woken => cases ht; exact ⟨nofun, by simp [AboutToWait]⟩
  | checked =>
    have hctxs : ctxs ≠ [] := fun h => habout (.inr ⟨rfl, h⟩)
    cases ht
    exact ⟨by simp [hctxs], by simp [AboutToWait, hctxs]⟩
  | empty => exact absurd (.inl rfl) habout
  | waiting => exact absurd rfl hwait
  | processing left =>
    cases left <;> cases ht <;> exact ⟨nofun, by simp [AboutToWait]⟩
  | exited => cases ht

theorem leaving_wakeUp (h : ¬t.AboutToWait) : t.wakeUp.Leaving := by
  unfold wakeUp
  split
  · exact ⟨nofun, by simp [AboutToWait]⟩
  · rename_i hpc
    exact ⟨hpc, h⟩

theorem Leaving.work (h : t.Leaving) (ctx : Nat) :
    StreamThread.Leaving { t with ctxs := t.ctxs ++ [ctx] } := by
  refine ⟨h.1, ?_⟩
  rintro (hpc | ⟨-, hctxs⟩)
  · exact h.2 (.inl hpc)
  · simp at hctxs

end StreamThread

section
variable {s s' : ShutdownState} {a : ShutdownAction} {i : Nat}

theorem setStream_streams {t : StreamThread} (h : ∀ j, j < s.count → s.main.Notified j →
    (s.streams j).Leaving) (ht : i < s.count → s.main.Notified i → t.Leaving) :
    ∀ j, j < s.count → s.main.Notified j → ((s.setStream i t).streams j).Leaving := by
  intro j hj hn
  by_cases hji : j = i
  · subst hji
    rw [ShutdownState.setStream_self]
    exact ht hj hn
  · rw [ShutdownState.setStream_of_ne hji]
    exact h j hj hn

theorem notifyCommand_command (h : s.command ≠ .blocking) :
    s.notifyCommand.command ≠ .waiting ∧ s.notifyCommand.command ≠ .blocking := by
  unfold ShutdownState.notifyCommand
  simp only
  split
  · exact ⟨nofun, nofun⟩
  · rename_i hw
    exact ⟨hw, h⟩

namespace ShutdownInv

theorem running (hi : ShutdownInv s) (h : s.main.Notified i ∨ s.main.Woke) :
    s.running = false := by
  refine hi.stopped ?_
  rintro hm
  rw [hm] at h
  exact h.elim id id

theorem main (hi : ShutdownInv s) (hc : NothingMissed s .main) (h : s.mainTurn = some s') :
    ShutdownInv s' := by
  have hcond := hc rfl
  unfold ShutdownState.misses at hcond
  unfold ShutdownState.mainTurn at h
  split at h
  · split at h
    · cases h
    · rename_i hrun
      cases h
      exact ⟨fun _ => Bool.eq_false_iff.2 hrun, nofun, nofun⟩
  · rename_i hm
    have hrun := hi.stopped (by rw [hm]; nofun)
    simp only [hm, decide_eq_false_iff_not] at hcond
    cases h
    exact ⟨fun _ => hrun, fun _ => notifyCommand_command hcond,
      fun j _ hj => absurd hj (Nat.not_lt_zero j)⟩
  · rename_i i hm
    have hrun := hi.stopped (by rw [hm]; nofun)
    have hcmd := hi.command (by rw [hm]; trivial)
    have hstreams : ∀ j, j < s.count → j < i → (s.streams j).Leaving := by
      have := hi.streams
      rwa [hm] at this
    simp only [hm, Bool.and_eq_false_imp, decide_eq_true_eq, decide_eq_false_iff_not] at hcond
    split at h
    · rename_i hlt
      cases h
      refine ⟨fun _ => hrun, fun _ => hcmd, fun j hj hn => ?_⟩
      have hn : j < i + 1 := hn
      show ((s.notifyStream i).streams j).Leaving
      by_cases hji : j = i
      · subst hji
        rw [ShutdownState.notifyStream, ShutdownState.setStream_self]
        exact StreamThread.leaving_wakeUp (hcond hlt)
      · rw [ShutdownState.notifyStream, ShutdownState.setStream_of_ne hji]
        exact hstreams j hj (by omega)
    · rename_i hge
      cases h
      exact ⟨fun _ => hrun, fun _ => hcmd, fun j hj _ =>
        hstreams j hj (Nat.lt_of_lt_of_le hj (Nat.le_of_not_lt hge))⟩
  · cases h

theorem commandTurn (hi : ShutdownInv s) (h : s.commandTurn = some s') : ShutdownInv s' := by
  have hrun := fun hw => hi.running (i := 0) (.inr hw)
  have hcmd := hi.command
  unfold ShutdownState.commandTurn at h
  split at h
  · cases h
    exact ⟨hi.stopped, fun hw => by simp [hrun hw], hi.streams⟩
  · cases h
    exact ⟨hi.stopped, fun _ => ⟨nofun, nofun⟩, hi.streams⟩
  · cases h
    exact ⟨hi.stopped, fun hw => by simp [hrun hw], hi.streams⟩
  · rename_i hb
    cases h
    exact ⟨hi.stopped, fun hw => absurd hb (hcmd hw).2, hi.streams⟩
  · cases h
  · cases h

theorem step (hi : ShutdownInv s) (hc : NothingMissed s a) (h : shutdownStep s a = some s') :
    ShutdownInv s' := by
  cases a with
  | stop =>
    cases h
    exact ⟨fun _ => rfl, hi.command, hi.streams⟩
  | main => exact hi.main hc h
  | command => exact hi.commandTurn h
  | stream i =>
    simp only [shutdownStep] at h
    split at h
    · obtain ⟨t, ht, rfl⟩ := Option.map_eq_some_iff.1 h
      refine ⟨hi.stopped, hi.command, setStream_streams hi.streams fun hlt hn => ?_⟩
      rw [hi.running (.inl hn)] at ht
      exact (hi.streams i hlt hn).turn ht
    · cases h
  | send cmd =>
    simp only [shutdownStep] at h
    split at h
    · cases h
    · cases h
      exact ⟨hi.stopped, hi.command, hi.streams⟩
  | wake =>
    simp only [shutdownStep] at h
    split at h
    · cases h
    · cases h
      exact ⟨hi.stopped, fun hw => notifyCommand_command (hi.command hw).2, hi.streams⟩
  | work i ctx =>
    simp only [shutdownStep] at h
    split at h
    · cases h
    · cases h
      exact ⟨hi.stopped, hi.command,
        setStream_streams hi.streams fun hlt hn => (hi.streams i hlt hn).work ctx⟩
  | notify j =>
    obtain ⟨i, hj, rfl⟩ := Option.map_eq_some_iff.1 h
    exact ⟨hi.stopped, hi.command, setStream_streams hi.streams fun hlt hn =>
      StreamThread.leaving_wakeUp (hi.streams i hlt hn).2⟩

theorem noneLeft (hi : ShutdownInv s) : NoneLeft s :=
  ⟨fun hw => (hi.command hw).1, fun i hlt hn => (hi.streams i hlt hn).1⟩

end ShutdownInv

end

theorem shutdownInv_init (count : Nat) : ShutdownInv { count } :=
  ⟨fun h => absurd rfl h, nofun, nofun⟩

/-- **Where no notification of the shutdown is missed, no thread is left waiting.** -/
theorem shutdown_wakes {count : Nat} {l : List ShutdownAction} {s : ShutdownState}
    (hc : Along shutdownStep NothingMissed { count } l) (h : run shutdownStep { count } l = some s) :
    NoneLeft s :=
  (run_inv (fun _ _ _ hi hc hs => ShutdownInv.step hi hc hs) (shutdownInv_init count) hc
    h).noneLeft

/-- A stream thread and the command thread wait, are woken and leave. -/
def shutdownOfWaiting : List ShutdownAction :=
  [.stream 0, .stream 0, .stream 0, .command, .command, .command, .command, .stop, .main, .main,
    .main, .main, .stream 0, .stream 0, .command, .command]

theorem shutdown_wakes_waiting :
    ∃ s, run shutdownStep { count := 1 } shutdownOfWaiting = some s ∧ NoneLeft s :=
  ⟨_, rfl, @shutdown_wakes 1 shutdownOfWaiting _ (by decide) rfl⟩

/-- The threads have no step left. -/
def Final (s : ShutdownState) : Prop :=
  s.mainTurn = none ∧ s.commandTurn = none ∧ ∀ i, shutdownStep s (.stream i) = none

/-- The running state is set to false, and the thread notified, between its look at it and its
wait. -/
theorem stream_left_waiting :
    ¬∀ (count : Nat) (l : List ShutdownAction) (s : ShutdownState),
      run shutdownStep { count } l = some s → Final s → NoneLeft s := by
  intro h
  have hleft := h 1 [.stream 0, .stop, .stream 0, .main, .main, .main, .main, .stream 0, .command] _
    rfl ⟨rfl, rfl, fun i => by
      by_cases hi : i < 1
      · obtain rfl : i = 0 := by omega
        rfl
      · simp only [shutdownStep]
        exact if_neg hi⟩
  exact hleft.streams 0 (by decide) trivial rfl

end Musicat.Threads
