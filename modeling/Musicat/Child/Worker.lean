import Mathlib.Data.List.Sort
import Musicat.Child.Command

/-!
# The worker and its children

`worker::execute` on the messages read from the parent, `slave_manager`'s list of
children, the shutdown queue of `worker::run` and its end. The operating system
is the list of the children forked and not reaped, each with its wait status
once it has terminated; `fork` returns `-1` or a pid that none of them has. The
fifos of a launcher are left out but for the results of `mkfifo`, and so is
what is printed.
-/

namespace Musicat.Child

structure ChildProc where
  pid : Int
  /-- Its exit status or the signal that ended it. -/
  exited : Option Nat := none
  deriving DecidableEq, Repr

/-- A `kill (pid, SIGKILL)`, and the children not reaped when it was issued. -/
structure Kill where
  pid : Int
  children : List Int
  deriving DecidableEq, Repr

inductive WorkerPc where
  | running
  /-- In the walk over `shutdown_queue`, at index `i`. -/
  | reaping (i : Nat)
  | crashed
  | exited
  deriving DecidableEq, Repr

structure WorkerState where
  /-- `slave_list`, in the order of its keys. -/
  slaveList : List (Bytes × CommandOptions) := []
  shutdownQueue : List CommandOptions := []
  children : List ChildProc := []
  kills : List Kill := []
  /-- The messages written to the parent. -/
  replies : List Bytes := []
  pc : WorkerPc := .running
  deriving DecidableEq, Repr

namespace WorkerState

def pids (s : WorkerState) : List Int := s.children.map ChildProc.pid

/-! ## The slave manager -/

/-- `slave_manager::get_slave`; `none` is its `-1`. -/
def getSlave (s : WorkerState) (id : Bytes) : Option CommandOptions :=
  (s.slaveList.find? (·.1 = id)).map Prod.snd

/-- `slave_manager::insert_slave`. -/
def insertSlave (s : WorkerState) (o : CommandOptions) : WorkerState :=
  if (s.getSlave o.id).isSome then s
  else { s with slaveList := s.slaveList.orderedInsert (·.1 < ·.1) (o.id, o) }

/-- `fork`, in the parent. -/
def fork (s : WorkerState) (pid : Int) : WorkerState :=
  { s with children := s.children ++ [{ pid }] }

/-- `kill (pid, SIGKILL)`. -/
def kill (s : WorkerState) (pid : Int) : WorkerState :=
  { s with kills := s.kills ++ [⟨pid, s.pids⟩] }

/-- `worker::call_waitpid_nohang`. -/
def callWaitpidNohang (s : WorkerState) (cpid : Int) : WorkerState × Int :=
  if cpid = -1 then (s, 1)
  else
    match s.children.find? (·.pid = cpid) with
    | none => (s, -2)
    | some c =>
      match c.exited with
      | none => (s, -1)
      | some status => ({ s with children := s.children.eraseP (·.pid = cpid) }, status)

/-- `SIGKILL`. -/
def sigkill : Nat := 9

/-- `worker::call_waitpid`, after a `SIGKILL`; for the pid `-1` the system reaps any child,
here the one at index `pick`. -/
def callWaitpid (s : WorkerState) (pick : Nat) (cpid : Int) : WorkerState × Int :=
  if cpid = -1 then
    match s.children[pick]? with
    | none => (s, -2)
    | some c => ({ s with children := s.children.eraseIdx pick }, c.exited.getD sigkill)
  else
    match s.children.find? (·.pid = cpid) with
    | none => (s, -2)
    | some c =>
      ({ s with children := s.children.eraseP (·.pid = cpid) }, c.exited.getD sigkill)

/-- The `kill` of `wait_routine`. -/
def forceKill (s : WorkerState) (o : CommandOptions) (force : Bool) : WorkerState :=
  if force then s.kill o.pid else s

/-- `slave_manager::wait`: `wait_routine` without blocking. -/
def wait (s : WorkerState) (id : Bytes) (force : Bool) : WorkerState × Int :=
  match s.getSlave id with
  | none => (s, 1)
  | some o => (s.forceKill o force).callWaitpidNohang o.pid

/-- `slave_manager::clean_up`. -/
def cleanUp (s : WorkerState) (id : Bytes) : WorkerState :=
  { s with slaveList := s.slaveList.eraseP (·.1 = id) }

/-- One turn of `wait_all`: `wait_routine`, forced and blocking. -/
def waitOne (pick : Nat) (s : WorkerState) (e : Bytes × CommandOptions) : WorkerState :=
  ((s.forceKill e.2 true).callWaitpid pick e.2.pid).1

/-- `slave_manager::wait_all`. -/
def waitAll (s : WorkerState) (pick : Nat) : WorkerState := s.slaveList.foldl (waitOne pick) s

/-- `slave_manager::clean_up_all`. -/
def cleanUpAll (s : WorkerState) : WorkerState := { s with slaveList := [] }

end WorkerState

/-! ## The launchers -/

/-- What a launcher meets: the results of its calls of `mkfifo`, and of `fork`. -/
structure LaunchEnv where
  mkfifo : List Int := []
  fork : Int := -1
  deriving DecidableEq, Repr

/-- What `fork` may return to the worker. -/
def WorkerState.forkOk (s : WorkerState) (env : LaunchEnv) : Bool :=
  env.fork = -1 || 0 < env.fork && !s.pids.contains env.fork

/-- A launcher that makes `fifos` fifos and forks: the options with their pid, and the status. -/
def launch (fifos : Nat) (env : LaunchEnv) (o : CommandOptions) (s : WorkerState) :
    WorkerState × CommandOptions × Int :=
  match (env.mkfifo.take fifos).find? (· < 0) with
  | some status => (s, o, status)
  | none =>
    if env.fork < 0 then (s, o, env.fork)
    else (s.fork env.fork, { o with pid := env.fork }, 0)

/-- `worker_command::create_audio_processor`. -/
def createAudioProcessor := launch 3

/-- `worker_command::call_ytdlp`. -/
def callYtdlp := launch 1

/-- `worker_command::call_system`. -/
def callSystem := launch 1

/-- `worker_command::download_music`. -/
def downloadMusic := launch 1

/-! ## Executing a message -/

/-- `ERR_SLAVE_EXIST`. -/
def errSlaveExist : Int := 875

/-- The ready message of a status. -/
def readyMsg (status : Int) (id : Bytes) : Bytes :=
  keyReady ++ [equals] ++ bytes (toString status) ++ [semicolon] ++ keyId ++ [equals] ++ id ++
    [semicolon] ++ keyCommand ++ [equals] ++ keyReady ++ [semicolon]

/-- Writing the ready message to the parent. -/
def WorkerState.reply (s : WorkerState) (status : Int) (id : Bytes) : WorkerState :=
  match writeCommand (readyMsg status id) 0 with
  | none => s
  | some _ => { s with replies := s.replies ++ [readyMsg status id] }

/-- The end of `execute`, after a launcher. -/
def finishExecute (r : WorkerState × CommandOptions × Int) : WorkerState × Int :=
  let (s, o, status) := r
  ((if status = 0 then s.insertSlave o else s).reply status o.id, status)

/-- `worker::execute` at the time `now`. -/
def execute (now : Int) (env : LaunchEnv) (o : CommandOptions) (s : WorkerState) :
    WorkerState × Int :=
  let slave := s.getSlave o.id
  if slave.any (·.command = o.command) then (s.reply errSlaveExist o.id, errSlaveExist)
  else if o.command = cmdCreateAudioProcessor then finishExecute (createAudioProcessor env o s)
  else if o.command = cmdShutdown then
    if slave.isNone then (s, -1)
    else ({ s with shutdownQueue := s.shutdownQueue ++ [{ o with tsQueued := now }] }, 0)
  else if o.command = cmdCallYtdlp then finishExecute (callYtdlp env o s)
  else if o.command = cmdCallSystem then finishExecute (callSystem env o s)
  else if o.command = cmdDlMusic then finishExecute (downloadMusic env o s)
  else finishExecute (s, o, 0)

/-- `worker::handle_command`; an exception ends the worker. -/
def handleCommand (now : Int) (env : LaunchEnv) (cmd : Bytes) (s : WorkerState) : WorkerState :=
  match parseCommandToOptions cmd createCommandOptions with
  | none => { s with pc := .crashed }
  | some o => (execute now env o s).1

/-! ## The worker -/

inductive WorkerAction where
  /-- A message is read. -/
  | message (cmd : Bytes) (now : Int) (env : LaunchEnv)
  /-- The walk over `shutdown_queue` starts. -/
  | reapStart
  /-- Its next turn. -/
  | reap (now : Int)
  /-- A child terminates. -/
  | childExit (pid : Int) (status : Nat)
  /-- The end of `run`: `shutdown_all`, which does nothing, `wait_all` and `clean_up_all`. -/
  | exit (pick : Nat)
  deriving DecidableEq, Repr

def workerStep (s : WorkerState) : WorkerAction → Option WorkerState
  | .message cmd now env =>
    if s.pc = .running ∧ s.forkOk env then some (handleCommand now env cmd s) else none
  | .reapStart => if s.pc = .running then some { s with pc := .reaping 0 } else none
  | .reap now =>
    match s.pc with
    | .reaping i =>
      match s.shutdownQueue[i]? with
      | none => some { s with pc := .running }
      | some o =>
        let (s, status) := s.wait o.id (o.force || 30 < now - o.tsQueued)
        if status ≠ -1 ∧ status ≠ -2 then
          some { s.cleanUp o.id with shutdownQueue := s.shutdownQueue.eraseIdx i }
        else some { s with pc := .reaping (i + 1) }
    | _ => none
  | .childExit pid status =>
    some { s with
      children := s.children.map fun c =>
        if c.pid = pid ∧ c.exited = none then { c with exited := some status } else c }
  | .exit pick =>
    if s.pc = .running then some { (s.waitAll pick).cleanUpAll with pc := .exited } else none

end Musicat.Child
