import Mathlib.Algebra.Group.Nat.Defs
import Musicat.Lib.Lists
import Musicat.Lib.Run

/-!
# The stream scheduler

`check_stream_contexts` walks over `stream_ctxs` under its lock and hands the
contexts that need a handler to the stream threads (`notify_work`); each thread
moves its `ctxs` to `processing_ctxs`, runs them and marks each unhandled again
or deletes it. A step is what happens between two acquisitions of `t_m` or of
the lock of `stream_ctxs`: the walk holds that lock from its start to its end,
so whoever else needs it waits for `check = none`.
-/

namespace Musicat.Stream

open Lib

/-- A context in `stream_ctxs`, told from the others by its address. -/
structure Ctx where
  ptr : Nat
  guildId : Nat
  handled : Bool := false
  deriving DecidableEq, Repr

/-- `stream_thread_t`; `processing_ctxs` is `finished ++ processing`, cut at the context the
loop is at. -/
structure StreamThread where
  ctxs : List Nat := []
  ctxsSize : Nat := 0
  finished : List Nat := []
  processing : List Nat := []
  /-- Asleep on `t_cv`. -/
  waiting : Bool := false
  deriving DecidableEq, Repr

namespace StreamThread

def processingCtxs (t : StreamThread) : List Nat := t.finished ++ t.processing

/-- What the thread still has to run. -/
def pending (t : StreamThread) : List Nat := t.processing ++ t.ctxs

def push (t : StreamThread) (c : Nat) : StreamThread :=
  { t with ctxs := t.ctxs ++ [c], waiting := false }

end StreamThread

/-- Where the walk over `stream_ctxs` is. -/
inductive Phase where
  | next
  /-- The first pass of `notify_work`, at thread `i`. -/
  | first (c i max min : Nat)
  /-- Its second pass. -/
  | second (c i max : Nat)
  /-- `c->handled = true`. -/
  | mark (c : Nat)
  deriving DecidableEq, Repr

structure Sched where
  streamCtxs : List Ctx := []
  threads : List StreamThread
  /-- The walk: the index it is at, and its phase. -/
  check : Option (Nat × Phase) := none
  fresh : Nat := 0
  deriving DecidableEq, Repr

namespace Sched

def setThread (s : Sched) (i : Nat) (t : StreamThread) : Sched :=
  { s with threads := s.threads.set i t }

def setHandled (s : Sched) (c : Nat) (handled : Bool) : Sched :=
  { s with
    streamCtxs := s.streamCtxs.map fun x => if x.ptr = c then { x with handled } else x }

def goto (s : Sched) (k : Nat) (phase : Phase) : Sched := { s with check := some (k, phase) }

/-- Everything the threads still have to run. -/
def pending (s : Sched) : List Nat := s.threads.flatMap StreamThread.pending

end Sched

/-- `static_cast<size_t> (0) - 1`. -/
def sizeMax : Nat := 2 ^ 64 - 1

/-- One step of the walk; `need` is what `need_handler` returns. -/
def checkStep (need : Bool) (s : Sched) (k : Nat) : Phase → Sched
  | .next =>
    match s.streamCtxs[k]? with
    | none => { s with check := none }
    | some x =>
      if x.handled || !need then s.goto (k + 1) .next else s.goto k (.first x.ptr 0 0 sizeMax)
  | .first c i max min =>
    match s.threads[i]? with
    | none => s.goto k (.second c 0 (if max = min then (max + 1) % 2 ^ 64 else max))
    | some t =>
      if t.ctxsSize ≠ 0 then
        s.goto k (.first c (i + 1) (if max < t.ctxsSize then t.ctxsSize else max)
          (if min > t.ctxsSize then t.ctxsSize else min))
      else (s.setThread i (t.push c)).goto k (.mark c)
  | .second c i max =>
    match s.threads[i]? with
    | none => s.goto k (.mark c)
    | some t =>
      if t.ctxsSize = max then s.goto k (.second c (i + 1) max)
      else (s.setThread i (t.push c)).goto k (.mark c)
  | .mark c => (s.setHandled c true).goto (k + 1) .next

inductive SchedAction where
  /-- `submit_stream_ctx`, whose `init` succeeds. -/
  | submit (guildId : Nat)
  /-- `check_stream_contexts` takes the lock. -/
  | checkStart
  | check (need : Bool)
  /-- Thread `i` moves `ctxs` to `processing_ctxs`. -/
  | take (i : Nat)
  /-- Thread `i` wakes without a notification. -/
  | wake (i : Nat)
  /-- The context thread `i` is at returned non-zero from `run`. -/
  | runEnd (i : Nat)
  /-- The context thread `i` is at needs no handler any more. -/
  | runYield (i : Nat)
  /-- `processing_ctxs.clear ()`. -/
  | clear (i : Nat)
  deriving DecidableEq, Repr

def schedStep (s : Sched) : SchedAction → Option Sched
  | .submit g =>
    if s.check.isSome then none
    else if s.streamCtxs.any (·.guildId = g) then some s
    else
      some { s with
        streamCtxs := s.streamCtxs ++ [{ ptr := s.fresh, guildId := g }]
        fresh := s.fresh + 1 }
  | .checkStart => if s.check.isSome then none else some (s.goto 0 .next)
  | .check need => s.check.map fun (k, phase) => checkStep need s k phase
  | .take i =>
    s.threads[i]?.bind fun t =>
      if t.waiting || !t.processingCtxs.isEmpty then none
      else
        some (s.setThread i
          { t with processing := t.ctxs, ctxs := [], ctxsSize := t.ctxs.length
                   waiting := t.ctxs.isEmpty })
  | .wake i => s.threads[i]?.map fun t => s.setThread i { t with waiting := false }
  | .runEnd i =>
    s.threads[i]?.bind fun t =>
      match t.processing with
      | [] => none
      | c :: rest =>
        if s.check.isSome then none
        else
          (s.streamCtxs.find? (·.ptr = c)).map fun x =>
            { s.setThread i { t with finished := t.finished ++ [c], processing := rest } with
              streamCtxs := s.streamCtxs.eraseP (·.guildId = x.guildId) }
  | .runYield i =>
    s.threads[i]?.bind fun t =>
      match t.processing with
      | [] => none
      | c :: rest =>
        if s.check.isSome then none
        else
          some ((s.setThread i
            { t with finished := t.finished ++ [c], processing := rest }).setHandled c false)
  | .clear i =>
    s.threads[i]?.bind fun t =>
      if t.processing.isEmpty then some (s.setThread i { t with finished := [] }) else none

/-- `count` threads and nothing submitted yet. -/
def Sched.init (count : Nat) : Sched := { threads := List.replicate count {} }

/-! ## What a step of a thread is -/

section
variable {s s' : Sched} {i : Nat}

theorem take_eq (h : schedStep s (.take i) = some s') :
    ∃ t, s.threads[i]? = some t ∧ t.processingCtxs = [] ∧
      s' = s.setThread i
        { t with processing := t.ctxs, ctxs := [], ctxsSize := t.ctxs.length
                 waiting := t.ctxs.isEmpty } := by
  obtain ⟨t, ht, h⟩ := Option.bind_eq_some_iff.1 h
  split at h
  · cases h
  · rename_i hidle
    cases h
    simp only [Bool.or_eq_true, Bool.not_eq_true', List.isEmpty_eq_false_iff, ne_eq, not_or,
      not_not] at hidle
    exact ⟨t, ht, hidle.2, rfl⟩

theorem wake_eq (h : schedStep s (.wake i) = some s') :
    ∃ t, s.threads[i]? = some t ∧ s' = s.setThread i { t with waiting := false } := by
  obtain ⟨t, ht, rfl⟩ := Option.map_eq_some_iff.1 h
  exact ⟨t, ht, rfl⟩

/-- The thread ends the context `x` that it is at. -/
theorem runEnd_eq (h : schedStep s (.runEnd i) = some s') :
    ∃ t rest x, s.threads[i]? = some t ∧ t.processing = x.ptr :: rest ∧ ¬ s.check.isSome = true ∧
      s.streamCtxs.find? (·.ptr = x.ptr) = some x ∧
      s' = { s.setThread i { t with finished := t.finished ++ [x.ptr], processing := rest } with
        streamCtxs := s.streamCtxs.eraseP (·.guildId = x.guildId) } := by
  obtain ⟨t, ht, h⟩ := Option.bind_eq_some_iff.1 h
  split at h
  · cases h
  · rename_i c rest hproc
    split at h
    · cases h
    · rename_i hfree
      obtain ⟨x, hx, rfl⟩ := Option.map_eq_some_iff.1 h
      obtain rfl : x.ptr = c := by simpa using List.find?_some hx
      exact ⟨t, rest, x, ht, hproc, hfree, hx, rfl⟩

/-- The thread lets the context that it is at go. -/
theorem runYield_eq (h : schedStep s (.runYield i) = some s') :
    ∃ t c rest, s.threads[i]? = some t ∧ t.processing = c :: rest ∧ ¬ s.check.isSome = true ∧
      s' = (s.setThread i
        { t with finished := t.finished ++ [c], processing := rest }).setHandled c false := by
  obtain ⟨t, ht, h⟩ := Option.bind_eq_some_iff.1 h
  split at h
  · cases h
  · rename_i c rest hproc
    split at h
    · cases h
    · rename_i hfree
      cases h
      exact ⟨t, c, rest, ht, hproc, hfree, rfl⟩

theorem clear_eq (h : schedStep s (.clear i) = some s') :
    ∃ t, s.threads[i]? = some t ∧ s' = s.setThread i { t with finished := [] } := by
  obtain ⟨t, ht, h⟩ := Option.bind_eq_some_iff.1 h
  split at h
  · cases h
    exact ⟨t, ht, rfl⟩
  · cases h

end

end Musicat.Stream
