import Musicat.Child.Codec
import Musicat.Child.Execute

/-!
# Searches and downloads

`do_fetch` and `do_download` send a start command, wait for the child to be
ready, read what it writes and send a shutdown command. The worker handles the
commands in the order they were sent, at any later time: a wait that has run out
says nothing about the child, and the functions return on it as if there was
none. The wait for a free slot of `fetch_throttler` is left out, and so is what
is printed. `sent`, `handled`, `started` and `failed` are the history of the run.
-/

namespace Musicat.Child

open Lib WorkerState

/-! ## The requests -/

/-- `util::max_len`. -/
def maxLen (s : Bytes) (maxLen : Nat) (cutFront : Bool) : Bytes :=
  if s.length ≤ maxLen then s
  else if cutFront then s.drop (s.length - maxLen)
  else s.take maxLen

/-- What the requests read: the settings, and `cppcodec::base64_url_unpadded::encode`. -/
structure FetchEnv where
  encode : Bytes → Bytes
  ytdlpUtilExe : Bytes := []
  ytdlpLibPath : Bytes := []
  ytdlpExe : Bytes := []
  debug : Bool := false

inductive Request where
  /-- `do_fetch`. -/
  | fetch (query : Bytes) (maxEntries : Int) (isUrl : Bool)
  /-- `do_download`. -/
  | download (fname url filepath : Bytes)
  deriving DecidableEq, Repr

namespace Request

/-- `q` of `do_fetch`, and the url of `do_download`. -/
def query : Request → Bytes
  | fetch query maxEntries isUrl =>
    if isUrl then query
    else bytes "ytsearch" ++ bytes (toString maxEntries) ++ bytes ":" ++ query
  | download _ url _ => url

/-- `qid`. -/
def qid (env : FetchEnv) (r : Request) : Bytes :=
  match r with
  | fetch .. => maxLen (env.encode r.query) 40 true
  | download fname _ _ => maxLen (env.encode fname) 32 false

/-- `ytdlp_cmd`, and `child_cmd` of `do_download`. -/
def childCmd (env : FetchEnv) (r : Request) : Bytes :=
  match r with
  | fetch _ maxEntries _ =>
    createArg keyCommand cmdCallYtdlp ++ createArgSanitizeValue keyId (r.qid env) ++
      createArgSanitizeValue keyYtdlpUtilExe env.ytdlpUtilExe ++
      createArgSanitizeValue keyYtdlpLibPath env.ytdlpLibPath ++
      createArgSanitizeValue keyYtdlpQuery r.query ++
      (if 1 ≤ maxEntries then createArg keyYtdlpMaxEntries (bytes (toString maxEntries)) else [])
  | download _ url filepath =>
    createArgSanitizeValue keyId (r.qid env) ++ createArg keyCommand cmdDlMusic ++
      createArgSanitizeValue keyFilePath filepath ++ createArgSanitizeValue keyYtdlpQuery url ++
      createArgSanitizeValue keyYtdlpUtilExe env.ytdlpExe ++
      createArg keyDebug (bytes (if env.debug then "1" else "0"))

/-- `exit_cmd`. -/
def exitCmd (env : FetchEnv) (r : Request) : Bytes := getExitCommand (r.qid env)

/-- A search for nothing is turned away before anything is sent. -/
def empty : Request → Bool
  | fetch query _ _ => query.isEmpty
  | download .. => false

/-- The result of a search that could be read is in a file that it names. -/
def loads (size : Int) : Request → Bool
  | fetch .. => 0 ≤ size
  | download .. => false

end Request

/-! ## The parent and the worker -/

/-- Where a request is. -/
inductive RequestPc where
  /-- In `wait_slave_ready`. -/
  | waiting
  | opening
  | reading
  /-- Past the shutdown command, at the result file. -/
  | loading
  | returned
  deriving DecidableEq, Repr

structure RequestCall where
  request : Request
  pc : RequestPc
  deriving DecidableEq, Repr

/-- A command sent, and the request it was sent for. -/
structure Sent where
  call : Nat
  cmd : Bytes
  exit : Bool
  deriving DecidableEq, Repr

structure FetchState where
  worker : WorkerState := {}
  calls : Nat → Option RequestCall := fun _ => none
  next : Nat := 0
  sent : List Sent := []
  /-- How many of them the worker has handled. -/
  handled : Nat := 0
  /-- The requests whose command has forked a child. -/
  started : List Nat := []
  /-- The requests whose wait has failed. -/
  failed : List Nat := []

namespace FetchState

def setPc (s : FetchState) (k : Nat) (c : RequestCall) (pc : RequestPc) : FetchState :=
  { s with calls := Function.update s.calls k (some { c with pc }) }

/-- A new request is entered. -/
def add (s : FetchState) (c : RequestCall) : FetchState :=
  { s with calls := Function.update s.calls s.next (some c), next := s.next + 1 }

/-- `send_command`. -/
def send (s : FetchState) (k : Nat) (cmd : Bytes) (exit : Bool) : FetchState :=
  { s with sent := s.sent ++ [⟨k, cmd, exit⟩] }

/-- What the worker reads of a command; one that is too long was dropped. -/
def received (m : Sent) : Option Bytes := (writeCommand m.cmd 0).map cString

/-- The command forks a child. -/
def forks (s : FetchState) (env : LaunchEnv) (m : Sent) : Bool :=
  ((received m).bind (parseCommandToOptions · createCommandOptions)).any (forksChild s.worker env)

/-- `wait_slave_ready` of a request has failed, and it returns. -/
def giveUp (s : FetchState) (k : Nat) (c : RequestCall) : FetchState :=
  { s.setPc k c .returned with failed := s.failed ++ [k] }

/-- A step of a request that is at `pc`. -/
def resume (s : FetchState) (k : Nat) (pc : RequestPc) (f : RequestCall → FetchState) :
    Option FetchState :=
  match s.calls k with
  | some c => if c.pc = pc then some (f c) else none
  | none => none

theorem calls_setPc {s : FetchState} {j k : Nat} {c d : RequestCall} {pc : RequestPc}
    (h : (s.setPc k c pc).calls j = some d) :
    (j = k ∧ d = { c with pc }) ∨ (j ≠ k ∧ s.calls j = some d) := by
  unfold setPc at h
  by_cases hj : j = k
  · subst hj
    simp only [Function.update_self, Option.some.injEq] at h
    exact .inl ⟨rfl, h.symm⟩
  · simp only [Function.update_of_ne hj] at h
    exact .inr ⟨hj, h⟩

theorem calls_add {s : FetchState} {j : Nat} {c d : RequestCall}
    (h : (s.add c).calls j = some d) : (j = s.next ∧ d = c) ∨ s.calls j = some d := by
  unfold add at h
  by_cases hj : j = s.next
  · subst hj
    simp only [Function.update_self, Option.some.injEq] at h
    exact .inl ⟨rfl, h.symm⟩
  · simp only [Function.update_of_ne hj] at h
    exact .inr h

theorem resume_eq_some {s s' : FetchState} {k : Nat} {pc : RequestPc}
    {f : RequestCall → FetchState} (h : s.resume k pc f = some s') :
    ∃ c, s.calls k = some c ∧ c.pc = pc ∧ f c = s' := by
  unfold resume at h
  split at h
  · rename_i c hc
    split at h
    · rename_i hpc
      exact ⟨c, hc, hpc, Option.some.inj h⟩
    · cases h
  · cases h

end FetchState

inductive FetchAction where
  | call (r : Request)
  /-- The worker handles the next command. -/
  | work (now : Int) (env : LaunchEnv)
  /-- A step of the worker that handles no command. -/
  | worker (a : WorkerAction)
  /-- `wait_slave_ready` returns. -/
  | wait (k : Nat) (status : Int)
  /-- The fifo is opened. -/
  | openFifo (k : Nat) (fd : Int)
  /-- The last `read` of the fifo. -/
  | read (k : Nat) (size : Int)
  /-- The result file is read, or not. -/
  | load (k : Nat) (ok : Bool)
  deriving DecidableEq, Repr

def isMessage : WorkerAction → Bool
  | .message .. => true
  | _ => false

section
variable (env : FetchEnv)

def fetchStep (s : FetchState) : FetchAction → Option FetchState
  | .call r =>
    let pc := if r.empty then RequestPc.returned else .waiting
    let s' := { s with
      calls := Function.update s.calls s.next (some ⟨r, pc⟩)
      next := s.next + 1 }
    some (if r.empty then s' else s'.send s.next (r.childCmd env) false)
  | .work now launch =>
    match s.sent[s.handled]? with
    | none => none
    | some m =>
      match FetchState.received m with
      | none => some { s with handled := s.handled + 1 }
      | some cmd =>
        (workerStep s.worker (.message cmd now launch)).map fun worker =>
          { s with
            worker
            handled := s.handled + 1
            started := if s.forks launch m then s.started ++ [m.call] else s.started }
  | .worker a =>
    if isMessage a then none else (workerStep s.worker a).map fun worker => { s with worker }
  | .wait k status =>
    s.resume k .waiting fun c => if status = 0 then s.setPc k c .opening else s.giveUp k c
  | .openFifo k fd =>
    s.resume k .opening fun c =>
      if fd < 0 then (s.setPc k c .returned).send k (c.request.exitCmd env) true
      else s.setPc k c .reading
  | .read k size =>
    s.resume k .reading fun c =>
      (s.setPc k c (if c.request.loads size then .loading else .returned)).send k
        (c.request.exitCmd env) true
  | .load k _ => s.resume k .loading fun c => s.setPc k c .returned

/-- A wait that fails is one for a request without a child, and the worker forks none for a request
whose wait has failed. -/
def NoLateChild (s : FetchState) : FetchAction → Prop
  | .wait k status => status ≠ 0 → k ∉ s.started
  | .work _ launch => ∀ m ∈ s.sent[s.handled]?, m.call ∈ s.failed → s.forks launch m = false
  | _ => True

instance (s : FetchState) : ∀ a, Decidable (NoLateChild s a)
  | .wait k status => inferInstanceAs (Decidable (status ≠ 0 → k ∉ s.started))
  | .work _ launch => inferInstanceAs
    (Decidable (∀ m ∈ s.sent[s.handled]?, m.call ∈ s.failed → s.forks launch m = false))
  | .call _ | .worker _ | .openFifo .. | .read .. | .load .. => isTrue trivial

/-- A shutdown command of the request has been sent. -/
def FetchState.ShutDown (s : FetchState) (k : Nat) (c : RequestCall) : Prop :=
  ⟨k, c.request.exitCmd env, true⟩ ∈ s.sent

structure FetchInv (s : FetchState) : Prop where
  calls : ∀ k c, s.calls k = some c → k < s.next
  sent : ∀ m ∈ s.sent, m.call < s.next
  /-- A request that was turned away has sent nothing. -/
  empty : ∀ k c, s.calls k = some c → c.request.empty = true →
    c.pc = .returned ∧ ∀ m ∈ s.sent, m.call ≠ k
  started : ∀ k ∈ s.started, ∃ m ∈ s.sent, m.call = k
  failed : ∀ k ∈ s.failed, k ∉ s.started
  loading : ∀ k c, s.calls k = some c → c.pc = .loading → s.ShutDown env k c
  returned : ∀ k c, s.calls k = some c → c.pc = .returned →
    c.request.empty = true ∨ k ∈ s.failed ∨ s.ShutDown env k c

/-! ## One step -/

variable {env} {s s' : FetchState} {k : Nat} {c : RequestCall}

theorem FetchState.ShutDown.send (h : s.ShutDown env k c) (j : Nat) (cmd : Bytes) (exit : Bool) :
    (s.send j cmd exit).ShutDown env k c :=
  List.mem_append_left _ h

/-- A request that was not turned away sends a command. -/
theorem FetchInv.send (hi : FetchInv env s) (hc : s.calls k = some c)
    (hne : c.request.empty = false) (cmd : Bytes) (exit : Bool) :
    FetchInv env (s.send k cmd exit) where
  calls := hi.calls
  sent m hm := by
    rcases List.mem_append.1 hm with hm | hm
    · exact hi.sent m hm
    · rw [List.mem_singleton.1 hm]
      exact hi.calls k c hc
  empty j d hd he := by
    refine ⟨(hi.empty j d hd he).1, fun m hm => ?_⟩
    rcases List.mem_append.1 hm with hm | hm
    · exact (hi.empty j d hd he).2 m hm
    · rintro rfl
      rw [List.mem_singleton.1 hm] at hd
      cases hc.symm.trans hd
      rw [hne] at he
      cases he
  started j hj := by
    obtain ⟨m, hm, hk⟩ := hi.started j hj
    exact ⟨m, List.mem_append_left _ hm, hk⟩
  failed := hi.failed
  loading j d hd hpc := (hi.loading j d hd hpc).send ..
  returned j d hd hpc :=
    (hi.returned j d hd hpc).imp_right (Or.imp_right fun hs => hs.send ..)

/-- A request that has not returned was not turned away. -/
theorem FetchInv.not_empty (hi : FetchInv env s) (hc : s.calls k = some c)
    (hpc : c.pc ≠ .returned) : c.request.empty = false :=
  Bool.eq_false_iff.2 fun he => hpc (hi.empty k c hc he).1

/-- A request moves on; it returns only when it has sent its shutdown command. -/
theorem FetchInv.setPc (hi : FetchInv env s) (hc : s.calls k = some c) (hpc : c.pc ≠ .returned)
    {pc : RequestPc} (hdone : pc = .loading ∨ pc = .returned → s.ShutDown env k c) :
    FetchInv env (s.setPc k c pc) := by
  refine ⟨fun j d hd => ?_, hi.sent, fun j d hd he => ?_, hi.started, hi.failed,
    fun j d hd hl => ?_, fun j d hd hr => ?_⟩ <;>
    rcases FetchState.calls_setPc hd with ⟨rfl, rfl⟩ | ⟨-, hd⟩
  · exact hi.calls j c hc
  · exact hi.calls j d hd
  · exact absurd (hi.empty j c hc he).1 hpc
  · exact hi.empty j d hd he
  · exact hdone (.inl hl)
  · exact hi.loading j d hd hl
  · exact .inr (.inr (hdone (.inr hr)))
  · exact hi.returned j d hd hr

/-- A request without a child gives up. -/
theorem FetchInv.giveUp (hi : FetchInv env s) (hc : s.calls k = some c) (hpc : c.pc ≠ .returned)
    (hno : k ∉ s.started) : FetchInv env (s.giveUp k c) := by
  refine ⟨fun j d hd => ?_, hi.sent, fun j d hd he => ?_, hi.started, fun j hj => ?_,
    fun j d hd hl => ?_, fun j d hd hr => ?_⟩
  · rcases FetchState.calls_setPc hd with ⟨rfl, rfl⟩ | ⟨-, hd⟩
    · exact hi.calls j c hc
    · exact hi.calls j d hd
  · rcases FetchState.calls_setPc hd with ⟨rfl, rfl⟩ | ⟨-, hd⟩
    · exact absurd (hi.empty j c hc he).1 hpc
    · exact hi.empty j d hd he
  · rcases List.mem_append.1 hj with hj | hj
    · exact hi.failed j hj
    · exact List.mem_singleton.1 hj ▸ hno
  · rcases FetchState.calls_setPc hd with ⟨rfl, rfl⟩ | ⟨-, hd⟩
    · cases hl
    · exact hi.loading j d hd hl
  · rcases FetchState.calls_setPc hd with ⟨rfl, rfl⟩ | ⟨-, hd⟩
    · exact .inr (.inl (List.mem_append_right _ List.mem_cons_self))
    · exact (hi.returned j d hd hr).imp_right (Or.imp_left (List.mem_append_left _))

/-- A request sends its shutdown command and moves on. -/
theorem FetchInv.shutDown (hi : FetchInv env s) (hc : s.calls k = some c) (hpc : c.pc ≠ .returned)
    (pc : RequestPc) : FetchInv env ((s.setPc k c pc).send k (c.request.exitCmd env) true) := by
  have hsent := hi.send hc (hi.not_empty hc hpc) (c.request.exitCmd env) true
  exact hsent.setPc hc hpc fun _ => List.mem_append_right _ List.mem_cons_self

/-- A new request has sent nothing, and returns at once when it is turned away. -/
theorem FetchInv.add (hi : FetchInv env s)
    (hpc : c.pc = if c.request.empty then .returned else .waiting) : FetchInv env (s.add c) := by
  refine ⟨fun j d hd => ?_, fun m hm => (hi.sent m hm).trans (Nat.lt_succ_self _),
    fun j d hd he => ?_, hi.started, hi.failed, fun j d hd hl => ?_, fun j d hd hr => ?_⟩ <;>
    rcases FetchState.calls_add hd with ⟨rfl, rfl⟩ | hd
  · exact Nat.lt_succ_self _
  · exact (hi.calls j d hd).trans (Nat.lt_succ_self _)
  · exact ⟨by rw [hpc, if_pos he], fun m hm => (hi.sent m hm).ne⟩
  · exact hi.empty j d hd he
  · rw [hpc] at hl
    split at hl <;> cases hl
  · exact hi.loading j d hd hl
  · refine .inl (Bool.eq_true_of_not_eq_false fun he => ?_)
    rw [hpc, he] at hr
    cases hr
  · exact hi.returned j d hd hr

/-- The worker handles a command. -/
theorem FetchInv.work (hi : FetchInv env s) {now : Int} {launch : LaunchEnv}
    (hc : NoLateChild s (.work now launch)) (h : fetchStep env s (.work now launch) = some s') :
    FetchInv env s' := by
  simp only [fetchStep] at h
  cases hm : s.sent[s.handled]? with
  | none =>
    rw [hm] at h
    cases h
  | some m =>
    have hmem : m ∈ s.sent := List.mem_of_getElem? hm
    have hlate := hc m hm
    simp only [hm] at h
    split at h
    · cases h
      exact { hi with }
    · obtain ⟨worker, -, rfl⟩ := Option.map_eq_some_iff.1 h
      refine { hi with started := fun j hj => ?_, failed := fun j hj hstarted => ?_ }
      · split at hj
        · rcases List.mem_append.1 hj with hj | hj
          · exact hi.started j hj
          · exact ⟨m, hmem, (List.mem_singleton.1 hj).symm⟩
        · exact hi.started j hj
      · split at hstarted
        · rename_i hforks
          rcases List.mem_append.1 hstarted with hstarted | hstarted
          · exact hi.failed j hj hstarted
          · -- a late child
            rw [List.mem_singleton.1 hstarted] at hj
            rw [hlate hj] at hforks
            cases hforks
        · exact hi.failed j hj hstarted

/-- **Every step that meets the condition keeps the requests in order.** -/
theorem FetchInv.step {a : FetchAction} (hi : FetchInv env s) (hc : NoLateChild s a)
    (h : fetchStep env s a = some s') : FetchInv env s' := by
  cases a with
  | call r =>
    simp only [fetchStep] at h
    cases hr : r.empty with
    | true =>
      simp only [hr, if_true] at h
      cases h
      exact hi.add (by simp [hr])
    | false =>
      simp only [hr, Bool.false_eq_true, if_false] at h
      cases h
      exact FetchInv.send (hi.add (by simp [hr])) (Function.update_self ..) hr ..
  | work now launch => exact hi.work hc h
  | worker a =>
    simp only [fetchStep] at h
    split at h
    · cases h
    · obtain ⟨worker, -, rfl⟩ := Option.map_eq_some_iff.1 h
      exact { hi with }
  | wait k status =>
    obtain ⟨c, hcall, hpc, rfl⟩ := FetchState.resume_eq_some h
    have hpc' : c.pc ≠ .returned := by simp [hpc]
    split
    · exact hi.setPc hcall hpc' (by simp)
    · rename_i hst
      exact hi.giveUp hcall hpc' (hc hst)
  | openFifo k fd =>
    obtain ⟨c, hcall, hpc, rfl⟩ := FetchState.resume_eq_some h
    have hpc' : c.pc ≠ .returned := by simp [hpc]
    split
    · exact hi.shutDown hcall hpc' _
    · exact hi.setPc hcall hpc' (by simp)
  | read k size =>
    obtain ⟨c, hcall, hpc, rfl⟩ := FetchState.resume_eq_some h
    exact hi.shutDown hcall (by simp [hpc]) _
  | load k ok =>
    obtain ⟨c, hcall, hpc, rfl⟩ := FetchState.resume_eq_some h
    exact hi.setPc hcall (by simp [hpc]) fun _ => hi.loading k c hcall hpc

/-- **No child is abandoned**, in every run in which a wait fails only for a request without a child
and none is started for a request whose wait has failed: a request that has returned has sent the
shutdown command of the child started for it. -/
theorem no_child_abandoned {l : List FetchAction} (hc : Along (fetchStep env) NoLateChild {} l)
    (h : run (fetchStep env) {} l = some s) :
    ∀ k ∈ s.started, ∀ c, s.calls k = some c → c.pc = .returned → s.ShutDown env k c := by
  have hinit : FetchInv env {} := by
    constructor <;> simp
  have hi := run_inv (fun _ _ _ hi hc hs => FetchInv.step hi hc hs) hinit hc h
  intro k hk c hcall hpc
  rcases hi.returned k c hcall hpc with hempty | hfailed | hdone
  · obtain ⟨m, hm, hmk⟩ := hi.started k hk
    exact absurd hmk ((hi.empty k c hcall hempty).2 m hm)
  · exact absurd hk (hi.failed k hfailed)
  · exact hdone

/-- A shutdown command queues the shutdown of the child that is registered under the id. -/
theorem handle_exitCmd {w : WorkerState} {r : Request} {e : CommandOptions}
    (hslave : w.getSlave (r.qid env) = some e) (hcmd : e.command ≠ cmdShutdown) (now : Int)
    (launch : LaunchEnv) :
    ∃ o, o.id = r.qid env ∧
      (handleCommand now launch (r.exitCmd env) w).shutdownQueue = w.shutdownQueue ++ [o] := by
  have hargs : r.exitCmd env = createArgs [(.id, r.qid env), (.command, cmdShutdown)] := by
    have hplain : sanitizeCommandValue cmdShutdown = cmdShutdown := by decide
    simp [Request.exitCmd, getExitCommand, createArgs, createArgSanitizeValue, hplain,
      StringKey.name]
  have hparse := parse_createArgs [(.id, r.qid env), (.command, cmdShutdown)] createCommandOptions
  have hqueues : queuesShutdown w
      { createCommandOptions with id := r.qid env, command := cmdShutdown } = true := by
    simp [queuesShutdown, sameSlave, hslave, hcmd]
  unfold handleCommand
  rw [hargs, hparse]
  refine ⟨_, ?_, (execute_shutdownQueue ..).trans (if_pos hqueues)⟩
  rfl

end

/-! ## A search in time and one that is late -/

/-- The id of the search for `ytsearch1:a`. -/
def searchEnv : FetchEnv where
  encode _ := bytes "eXRzZWFyY2gxOmE"

def search : Request := .fetch (bytes "a") 1 false

def answeredRun : List FetchAction :=
  [.call search, .work 0 { fork := 11 }, .wait 0 0, .openFifo 0 7, .read 0 20, .load 0 true,
    .work 1 {}]

theorem no_child_abandoned_answered :
    ∃ s, run (fetchStep searchEnv) {} answeredRun = some s ∧
      s.calls 0 = some ⟨search, .returned⟩ ∧ s.ShutDown searchEnv 0 ⟨search, .returned⟩ :=
  ⟨_, rfl, rfl, no_child_abandoned (l := answeredRun) (by decide) rfl 0 (by decide) _ rfl rfl⟩

/-- The wait runs out before the worker starts the child: nothing shuts it down, and the next
search for the same is refused. -/
theorem child_abandoned :
    ∃ s, run (fetchStep searchEnv) {}
        [.call search, .wait 0 (-1), .work 0 { fork := 11 }, .call search, .work 20 { fork := 12 },
          .wait 1 errSlaveExist] = some s ∧
      0 ∈ s.started ∧ s.calls 0 = some ⟨search, .returned⟩ ∧
      ¬ s.ShutDown searchEnv 0 ⟨search, .returned⟩ ∧
      s.worker.replies.getLast? = some (readyMsg errSlaveExist (search.qid searchEnv)) := by
  refine ⟨_, rfl, by decide, rfl, ?_, rfl⟩
  unfold FetchState.ShutDown
  decide

end Musicat.Child
