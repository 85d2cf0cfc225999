import Musicat.Audio.HelperChain
import Musicat.Lib.Run

/-!
# One call of `write_stdout`

`write_stdout (buffer, size)` with the chain enabled, as a run over what its
system calls return: each `poll` reports anything, each `read` gives some bytes
or none, and a `write` stores all its bytes. `run_through_chain` says that it
has taken the buffer only by setting `*size` to zero; when its poll of 10 ms
reports nothing while nothing is pending, it returns without that, and
`write_stdout` writes the buffer itself (`chain_never_bypassed_iff`). What was
read and written is kept in `ops`.
-/

namespace Musicat.Audio

open Lib

/-- `revents`, as `poll` may report them of any descriptor. -/
structure PollEvents where
  pollin : Bool := false
  pollout : Bool := false
  pollerr : Bool := false
  pollhup : Bool := false
  pollnval : Bool := false
  deriving DecidableEq, Repr

/-- A call of `poll`: what it returns, and the `revents` that it leaves. -/
structure PollResult where
  event : Int := 0
  revents : List PollEvents := []
  deriving DecidableEq, Repr

/-- What the system calls of a step return: a `poll`, a `read` (nothing at the end and on an error),
and the polls of `write_fifo` before and after a `write`. -/
structure CallResult where
  poll : PollResult := {}
  data : List UInt8 := []
  fifoBefore : PollResult := {}
  fifoAfter : PollResult := {}
  deriving DecidableEq, Repr

/-- A transfer of bytes. -/
inductive ChainOp where
  | read (fd : HelperFd) (data : List UInt8)
  | write (fd : HelperFd) (data : List UInt8)
  | fifo (data : List UInt8)
  deriving DecidableEq, Repr

/-- Where the call is. A status is `none` for -1. -/
inductive CallPc where
  | poll
  /-- In the loop over the descriptors, at index `ni`. -/
  | visit (ni : Nat)
  /-- In `read_first_fd_routine`, with its `written`: at its `read`, `write_stdout`, `poll`. -/
  | firstRead (ni written : Nat)
  | firstWrite (ni written : Nat) (data : List UInt8)
  | firstPoll (ni written : Nat)
  /-- Behind the loop over the descriptors. -/
  | check
  /-- `run_through_chain` has returned. -/
  | stdout (status : Option Nat)
  | returned (status : Option Nat)
  deriving DecidableEq, Repr

structure ChainCall where
  pfds : List HelperFd
  oriBuffer : List UInt8
  /-- `*size`. -/
  size : Nat
  pendingWrite : List HelperFd
  pendingRead : List HelperFd
  oriBufferWritten : Bool := false
  firstReadFdReady : Bool := true
  currentHasRead : Bool := false
  written : Option Nat := some 0
  revents : List PollEvents := []
  ops : List ChainOp := []
  pc : CallPc := .poll
  deriving DecidableEq, Repr

/-- A bad `write_fifo`. -/
def PollResult.hup (r : PollResult) : Bool :=
  r.event ≠ 0 && r.revents.any fun revents => revents.pollhup || revents.pollerr

/-- `write_stdout` behind the chain: what it writes to `write_fifo`, and its status. -/
def CallResult.writeFifo (r : CallResult) (buffer : List UInt8) : List UInt8 × Option Nat :=
  if r.fifoBefore.hup then ([], none)
  else (buffer, if r.fifoAfter.hup then none else some buffer.length)

namespace ChainCall

/-- `write_stdout` with `n` helpers, up to the loop of `run_through_chain`. -/
def start (n : Nat) (buffer : List UInt8) (pendingWrite pendingRead : List HelperFd) : ChainCall :=
  { pfds := initHelpersPollfd false 0 n, oriBuffer := buffer, size := buffer.length,
    pendingWrite, pendingRead, pc := if buffer = [] ∨ n = 0 then .stdout (some 0) else .poll }

/-- The end of the body of the loop over the descriptors. -/
def next (c : ChainCall) (ni : Nat) : ChainCall :=
  { c with pc := if ni = 0 then .check else .visit (ni - 1) }

/-- The poll of 10 ms. -/
def pollAll (c : ChainCall) (r : PollResult) : Option ChainCall :=
  if r.revents.length = c.pfds.length then
    if r.event = 0 ∧ c.pendingRead = [] ∧ c.pendingWrite = [] then
      some { c with pc := .stdout (some 0) }
    else
      some { c with
        revents := r.revents, currentHasRead := false, pc := .visit (c.pfds.length - 1) }
  else none

/-- `pass_buf`; its status is 0 when something was read. -/
def passBuf (c : ChainCall) (niFd prevFd : HelperFd) (data : List UInt8) : ChainCall :=
  if data = [] then c
  else
    { c with
      ops := c.ops ++ [.read niFd data, .write prevFd data], currentHasRead := true
      pendingRead := removePending c.pendingRead niFd
      pendingWrite := removePending c.pendingWrite prevFd }

/-- A read end from which may be read. -/
def visitRead (c : ChainCall) (ni : Nat) (fd : HelperFd) (data : List UInt8) : Option ChainCall :=
  if ni + 1 = c.pfds.length then some { c with pc := .firstRead ni 0 }
  else
    match c.pfds[ni + 1]?, c.revents[ni + 1]? with
    | some prevFd, some prev =>
      if prev.pollout || c.pendingWrite.contains prevFd then
        if data.length ≤ bufferSize then some ((c.passBuf fd prevFd data).next ni) else none
      else some ({ c with pendingRead := addPending c.pendingRead fd }.next ni)
    | _, _ => none

/-- A write end to which may be written. -/
def visitWrite (c : ChainCall) (ni : Nat) (fd : HelperFd) : ChainCall :=
  if ni = 0 ∧ c.size ≠ 0 then
    if c.oriBufferWritten then { c with pc := .check }
    else
      { c with
        ops := c.ops ++ [.write fd c.oriBuffer], size := 0, oriBufferWritten := true
        pendingWrite := removePending c.pendingWrite fd, pc := .check }
  else { c with pendingWrite := addPending c.pendingWrite fd }.next ni

/-- A descriptor with an error is not pending any more. -/
def forget (c : ChainCall) (fd : HelperFd) : ChainCall :=
  if fd.isRead then { c with pendingRead := removePending c.pendingRead fd }
  else { c with pendingWrite := removePending c.pendingWrite fd }

/-- The body of the loop over the descriptors. -/
def visit (c : ChainCall) (ni : Nat) (data : List UInt8) : Option ChainCall :=
  match c.pfds[ni]?, c.revents[ni]? with
  | some fd, some r =>
    let allowRead := r.pollin || c.pendingRead.contains fd
    let allowWrite := r.pollout || c.pendingWrite.contains fd
    if fd.isRead && allowRead then c.visitRead ni fd data
    else if !fd.isRead && allowWrite then some (c.visitWrite ni fd)
    else if r.pollhup || r.pollerr || r.pollnval then some ((c.forget fd).next ni)
    else some (c.next ni)
  | _, _ => none

/-- The head of the loop of `read_first_fd_routine`, and its return. -/
def firstRead (c : ChainCall) (ni written : Nat) (data : List UInt8) : Option ChainCall :=
  c.pfds[ni]?.bind fun fd =>
    if !c.firstReadFdReady || data.isEmpty then
      some ({ c with
        pendingRead := removePending c.pendingRead fd, written := some written
        currentHasRead := 0 < written }.next ni)
    else if data.length ≤ bufferSize then
      some { c with ops := c.ops ++ [.read fd data], pc := .firstWrite ni written data }
    else none

/-- Its `write_stdout (buf, &read_size, true)`; an error leaves the loop over the descriptors. -/
def firstWrite (c : ChainCall) (ni written : Nat) (data : List UInt8) (r : CallResult) :
    ChainCall :=
  let (out, status) := r.writeFifo data
  let ops := c.ops ++ [.fifo out]
  match status with
  | none => { c with ops, written := none, pc := .check }
  | some wrote => { c with ops, pc := .firstPoll ni (written + wrote) }

/-- The poll of 5 ms in `read_first_fd_routine`. -/
def firstPoll (c : ChainCall) (ni written : Nat) (r : PollResult) : ChainCall :=
  { c with
    firstReadFdReady := 0 < r.event && r.revents.any (·.pollin), pc := .firstRead ni written }

/-- The condition behind the loop over the descriptors. -/
def check (c : ChainCall) : ChainCall :=
  { c with
    pc := if c.written = none || (c.oriBufferWritten && !c.currentHasRead) then .stdout c.written
      else .poll }

/-- `write_stdout` after the chain. -/
def stdout (c : ChainCall) (status : Option Nat) (r : CallResult) : ChainCall :=
  match status with
  | none => { c with pc := .returned none }
  | some _ =>
    if c.size = 0 then { c with pc := .returned (some 0) }
    else
      let (out, status) := r.writeFifo (c.oriBuffer.take c.size)
      { c with ops := c.ops ++ [.fifo out], pc := .returned status }

/-- One step of the call. -/
def step (c : ChainCall) (r : CallResult) : Option ChainCall :=
  match c.pc with
  | .poll => c.pollAll r.poll
  | .visit ni => c.visit ni r.data
  | .firstRead ni written => c.firstRead ni written r.data
  | .firstWrite ni written data => some (c.firstWrite ni written data r)
  | .firstPoll ni written => some (c.firstPoll ni written r.poll)
  | .check => some c.check
  | .stdout status => some (c.stdout status r)
  | .returned _ => none

end ChainCall

/-! ## What is transferred -/

def readFrom (fd : HelperFd) (ops : List ChainOp) : List UInt8 :=
  ops.flatMap fun
    | .read fd' data => if fd' = fd then data else []
    | _ => []

/-- The single writes to a descriptor. -/
def writesTo (fd : HelperFd) (ops : List ChainOp) : List (List UInt8) :=
  ops.flatMap fun
    | .write fd' data => if fd' = fd then [data] else []
    | _ => []

def fifoBytes (ops : List ChainOp) : List UInt8 :=
  ops.flatMap fun
    | .fifo data => data
    | _ => []

/-- The buffer is handed to the first of `n` helpers once; what is read of a helper is written to
the next, and what is read of the last to `write_fifo`, which gets nothing else. -/
structure NeverBypassed (n : Nat) (buffer : List UInt8) (ops : List ChainOp) : Prop where
  handed : writesTo (.write 0) ops = [buffer]
  passed : ∀ i, i + 1 < n → (writesTo (.write (i + 1)) ops).flatten = readFrom (.read i) ops
  fifo : fifoBytes ops = readFrom (.read (n - 1)) ops

instance (n : Nat) (buffer : List UInt8) (ops : List ChainOp) :
    Decidable (NeverBypassed n buffer ops) :=
  decidable_of_iff
    (writesTo (.write 0) ops = [buffer] ∧
      (∀ i < n - 1, (writesTo (.write (i + 1)) ops).flatten = readFrom (.read i) ops) ∧
      fifoBytes ops = readFrom (.read (n - 1)) ops)
    ⟨fun h => ⟨h.1, fun i hi => h.2.1 i (by omega), h.2.2⟩,
      fun h => ⟨h.handed, fun i hi => h.passed i (by omega), h.fifo⟩⟩

/-- The poll of 10 ms reports nothing, and nothing is pending, before the buffer is handed over. -/
def ChainCall.GivesUp (c : ChainCall) (r : CallResult) : Prop :=
  c.pc = .poll ∧ r.poll.event = 0 ∧ c.pendingRead = [] ∧ c.pendingWrite = [] ∧
    c.oriBufferWritten = false

instance (c : ChainCall) (r : CallResult) : Decidable (c.GivesUp r) :=
  inferInstanceAs (Decidable (_ ∧ _ ∧ _ ∧ _ ∧ _))

/-! ## The bytes of a step -/

section
variable {fd fd' : HelperFd} {data : List UInt8} {ops ops' : List ChainOp}

theorem readFrom_append : readFrom fd (ops ++ ops') = readFrom fd ops ++ readFrom fd ops' :=
  List.flatMap_append

theorem writesTo_append : writesTo fd (ops ++ ops') = writesTo fd ops ++ writesTo fd ops' :=
  List.flatMap_append

theorem fifoBytes_append : fifoBytes (ops ++ ops') = fifoBytes ops ++ fifoBytes ops' :=
  List.flatMap_append

theorem readFrom_read :
    readFrom fd (.read fd' data :: ops) = (if fd' = fd then data else []) ++ readFrom fd ops := rfl

theorem readFrom_write : readFrom fd (.write fd' data :: ops) = readFrom fd ops := rfl

theorem writesTo_write :
    writesTo fd (.write fd' data :: ops) = (if fd' = fd then [data] else []) ++ writesTo fd ops :=
  rfl

theorem writesTo_read : writesTo fd (.read fd' data :: ops) = writesTo fd ops := rfl

theorem writesTo_fifo : writesTo fd (.fifo data :: ops) = writesTo fd ops := rfl

theorem fifoBytes_write : fifoBytes (.write fd data :: ops) = fifoBytes ops := rfl

end

/-! ## The invariant -/

namespace ChainCall

/-- What has been read of the last helper and is not written yet. -/
def inHand (c : ChainCall) : List UInt8 :=
  match c.pc with
  | .firstWrite _ _ data => data
  | _ => []

/-- What has been transferred at any time of the call. -/
structure Transfers (n : Nat) (buffer : List UInt8) (c : ChainCall) : Prop where
  pos : 1 ≤ n
  ori : c.oriBuffer = buffer
  pfds : c.pfds = initHelpersPollfd false 0 n
  hand : if c.oriBufferWritten then c.size = 0 ∧ writesTo (.write 0) c.ops = [c.oriBuffer]
    else c.size = c.oriBuffer.length ∧ writesTo (.write 0) c.ops = []
  passed : ∀ i, i + 1 < n → (writesTo (.write (i + 1)) c.ops).flatten = readFrom (.read i) c.ops
  fifo : c.written ≠ none → fifoBytes c.ops ++ c.inHand = readFrom (.read (n - 1)) c.ops

/-- Where the call is; it comes to its end with the buffer handed over. -/
def PcOk (n : Nat) (c : ChainCall) : Prop :=
  match c.pc with
  | .poll => c.written ≠ none
  | .visit ni => ni < c.pfds.length ∧ c.written ≠ none
  | .firstRead ni _ | .firstWrite ni _ _ | .firstPoll ni _ =>
    ni < c.pfds.length ∧ c.pfds[ni]? = some (.read (n - 1)) ∧ c.written ≠ none
  | .check => True
  | .stdout status | .returned status =>
    status ≠ none → c.oriBufferWritten = true ∧ c.written ≠ none

structure Inv (n : Nat) (buffer : List UInt8) (c : ChainCall) : Prop where
  transfers : Transfers n buffer c
  pc : PcOk n c

section
variable {n ni : Nat} {c c' : ChainCall} {fd : HelperFd} {buffer data : List UInt8}

theorem pcOk_next (hni : ni < c.pfds.length) (hw : c.written ≠ none) : PcOk n (c.next ni) := by
  unfold PcOk next
  by_cases h : ni = 0
  · simp only [h, if_true]
  · simp only [if_neg h]
    exact ⟨by omega, hw⟩

theorem inHand_next (c : ChainCall) (ni : Nat) : (c.next ni).inHand = [] := by
  unfold inHand next
  by_cases h : ni = 0
  · simp only [h, if_true]
  · simp only [if_neg h]

theorem inv_start (hn : 1 ≤ n) (hb : buffer ≠ []) (pendingWrite pendingRead : List HelperFd) :
    Inv n buffer (start n buffer pendingWrite pendingRead) := by
  have hpc : (start n buffer pendingWrite pendingRead).pc = .poll :=
    if_neg fun h => h.elim hb (by omega)
  refine ⟨⟨hn, rfl, rfl, ⟨rfl, rfl⟩, fun _ _ => rfl, fun _ => ?_⟩, ?_⟩
  · unfold inHand
    rw [hpc]
    rfl
  · unfold PcOk
    rw [hpc]
    exact Option.some_ne_none 0

/-- The variables that the transfers depend on. -/
def moved (c : ChainCall) : List HelperFd × List UInt8 × Nat × Bool × List ChainOp :=
  (c.pfds, c.oriBuffer, c.size, c.oriBufferWritten, c.ops)

/-- **What a step transfers, other than the buffer, is passed on by itself.** -/
theorem Transfers.append {ops : List ChainOp} (ht : Transfers n buffer c)
    (hmoved : c'.moved = (c.pfds, c.oriBuffer, c.size, c.oriBufferWritten, c.ops ++ ops))
    (hfirst : writesTo (.write 0) ops = [])
    (hpassed : ∀ i, i + 1 < n → (writesTo (.write (i + 1)) ops).flatten = readFrom (.read i) ops)
    (hfifo : c'.written ≠ none → c.written ≠ none ∧
      fifoBytes ops ++ c'.inHand = c.inHand ++ readFrom (.read (n - 1)) ops) :
    Transfers n buffer c' := by
  simp only [moved, Prod.mk.injEq] at hmoved
  obtain ⟨hpfds, hbuffer, hsize, hwritten, hops⟩ := hmoved
  refine ⟨ht.pos, hbuffer.trans ht.ori, hpfds.trans ht.pfds, ?_, fun i hi => ?_, fun hw => ?_⟩
  · rw [hwritten, hsize, hbuffer, hops, writesTo_append, hfirst, List.append_nil]
    exact ht.hand
  · rw [hops, writesTo_append, readFrom_append, List.flatten_append, ht.passed i hi, hpassed i hi]
  · obtain ⟨hw', hrest⟩ := hfifo hw
    rw [hops, fifoBytes_append, readFrom_append, List.append_assoc, hrest, ← List.append_assoc,
      ht.fifo hw']

/-- Nothing is transferred. -/
theorem Transfers.same (ht : Transfers n buffer c) (hmoved : c'.moved = c.moved)
    (hfifo : c'.written ≠ none → c.written ≠ none ∧ c'.inHand = c.inHand) :
    Transfers n buffer c' := by
  have hops : c'.moved = (c.pfds, c.oriBuffer, c.size, c.oriBufferWritten, c.ops ++ []) := by
    rw [hmoved, List.append_nil]
    rfl
  refine ht.append hops rfl (fun _ _ => rfl) fun hw => ?_
  obtain ⟨hw', hhand⟩ := hfifo hw
  exact ⟨hw', hhand.trans (List.append_nil _).symm⟩

theorem inHand_eq_nil {pc : CallPc} (hpc : c.pc = pc)
    (h : ∀ ni written data, pc ≠ .firstWrite ni written data) : c.inHand = [] := by
  unfold inHand
  split
  · rename_i hwrite
    exact absurd (hpc.symm.trans hwrite) (h _ _ _)
  · rfl

/-- What holds at a place of the call. -/
theorem Inv.at {pc : CallPc} (hi : Inv n buffer c) (hpc : c.pc = pc) : PcOk n { c with pc } := by
  subst hpc
  exact hi.pc

/-- The loop over the descriptors goes on, with nothing transferred. -/
theorem Inv.next (ht : Transfers n buffer c) (hhand : c.inHand = []) (hni : ni < c.pfds.length)
    (hw : c.written ≠ none) (hmoved : c'.moved = c.moved) (hwritten : c'.written ≠ none) :
    Inv n buffer (c'.next ni) := by
  have hpfds : c'.pfds = c.pfds := congrArg (·.1) hmoved
  refine ⟨ht.same hmoved fun _ => ⟨hw, ?_⟩, pcOk_next (hpfds ▸ hni) hwritten⟩
  rw [hhand]
  exact inHand_next c' ni

theorem linked (ht : Transfers n buffer c) : Linked n c.pfds := by
  have h := linked_init 0 n
  rw [Nat.zero_add] at h
  rw [ht.pfds]
  exact h

/-- **What is read of a helper is written to the next.** -/
theorem transfers_passBuf {i : Nat} (ht : Transfers n buffer c) (hhand : c.inHand = [])
    (hi : i + 1 < n) (pc : CallPc) (hpc : ∀ ni written d, pc ≠ .firstWrite ni written d) :
    Transfers n buffer { c.passBuf (.read i) (.write (i + 1)) data with pc } := by
  have hnone : ({ c.passBuf (.read i) (.write (i + 1)) data with pc } : ChainCall).inHand = [] :=
    inHand_eq_nil rfl hpc
  unfold passBuf at hnone ⊢
  split at hnone
  · rename_i hdata
    rw [if_pos hdata]
    refine ht.same rfl fun hw => ⟨hw, ?_⟩
    rw [hhand, hnone]
  · rename_i hdata
    rw [if_neg hdata]
    refine ht.append rfl ?_ (fun k hk => ?_) fun hw => ⟨hw, ?_⟩
    · rw [writesTo_read, writesTo_write, if_neg (by simp)]
      rfl
    · rw [writesTo_read, writesTo_write, readFrom_read, readFrom_write]
      by_cases hki : k = i
      · rw [hki, if_pos rfl, if_pos rfl]
        rfl
      · rw [if_neg (by simpa using Ne.symm hki), if_neg (by simpa using Ne.symm hki)]
        rfl
    · rw [hnone, hhand, readFrom_read, readFrom_write, if_neg (by simp; omega)]
      rfl

/-! ## The steps -/

theorem pfds_ne_nil (ht : Transfers n buffer c) : 0 < c.pfds.length := by
  obtain ⟨m, rfl⟩ := Nat.exists_eq_add_of_le' ht.pos
  rw [ht.pfds, initHelpersPollfd_succ]
  exact Nat.succ_pos _

theorem inv_pollAll {r : CallResult} (hi : Inv n buffer c) (hpc : c.pc = .poll)
    (hg : ¬ c.GivesUp r) (h : c.pollAll r.poll = some c') : Inv n buffer c' := by
  have hw : c.written ≠ none := hi.at hpc
  have hhand : c.inHand = [] := inHand_eq_nil hpc nofun
  unfold pollAll at h
  split at h
  · split at h
    · rename_i hnothing
      cases h
      refine ⟨hi.transfers.same rfl fun _ => ⟨hw, hhand.symm⟩, fun _ => ⟨?_, hw⟩⟩
      -- the buffer has been handed over, or the call would give it up
      by_contra hbuffer
      exact hg ⟨hpc, hnothing.1, hnothing.2.1, hnothing.2.2, Bool.eq_false_iff.2 hbuffer⟩
    · cases h
      refine ⟨hi.transfers.same rfl fun _ => ⟨hw, hhand.symm⟩, ?_, hw⟩
      exact Nat.sub_lt (pfds_ne_nil hi.transfers) Nat.one_pos
  · cases h

theorem inv_visitRead {i : Nat} (ht : Transfers n buffer c) (hhand : c.inHand = [])
    (hni : ni < c.pfds.length) (hw : c.written ≠ none) (hfd : c.pfds[ni]? = some (.read i))
    (h : c.visitRead ni (.read i) data = some c') : Inv n buffer c' := by
  obtain ⟨hlast, hnext⟩ := linked ht ni i hfd
  unfold visitRead at h
  split at h
  · rename_i he
    cases h
    have hn : i = n - 1 := by
      have := hlast he
      omega
    exact ⟨ht.same rfl fun _ => ⟨hw, hhand.symm⟩, hni, hn ▸ hfd, hw⟩
  · rename_i he
    obtain ⟨hprev, hlt⟩ := hnext he
    rw [hprev] at h
    split at h
    · rename_i prevFd prev hp _
      obtain rfl := Option.some.inj hp
      split at h
      · split at h
        · cases h
          refine ⟨transfers_passBuf ht hhand hlt _ ?_, pcOk_next ?_ ?_⟩
          · intro k written d hk
            by_cases hzero : ni = 0
            · simp [hzero] at hk
            · simp [hzero] at hk
          · unfold passBuf
            split <;> exact hni
          · unfold passBuf
            split <;> exact hw
        · cases h
      · cases h
        exact Inv.next ht hhand hni hw rfl hw
    · cases h

/-- **The buffer is handed to the first helper once.** -/
theorem inv_visitWrite (ht : Transfers n buffer c) (hhand : c.inHand = [])
    (hni : ni < c.pfds.length) (hw : c.written ≠ none) (hfd : c.pfds[ni]? = some fd) :
    Inv n buffer (c.visitWrite ni fd) := by
  unfold visitWrite
  split
  · rename_i hsize
    split
    · exact ⟨ht.same rfl fun _ => ⟨hw, hhand.symm⟩, trivial⟩
    · rename_i hbuffer
      obtain rfl : fd = .write 0 := by
        obtain ⟨m, rfl⟩ := Nat.exists_eq_add_of_le' ht.pos
        rw [hsize.1, ht.pfds, initHelpersPollfd_succ] at hfd
        exact (Option.some.inj hfd).symm
      have hfirst := ht.hand
      rw [if_neg hbuffer] at hfirst
      refine ⟨⟨ht.pos, ht.ori, ht.pfds, ?_, fun i hi => ?_, fun _ => ?_⟩, trivial⟩
      · refine ⟨rfl, ?_⟩
        dsimp only
        rw [writesTo_append, hfirst.2, writesTo_write, if_pos rfl]
        rfl
      · dsimp only
        rw [writesTo_append, writesTo_write, if_neg (by simp), readFrom_append, readFrom_write,
          List.flatten_append, ht.passed i hi]
        rfl
      · have hfifo := ht.fifo hw
        rw [hhand] at hfifo
        dsimp only
        rw [fifoBytes_append, fifoBytes_write, readFrom_append, readFrom_write, ← hfifo]
        simp [fifoBytes, readFrom, inHand]
  · exact Inv.next ht hhand hni hw rfl hw

theorem inv_visit (hi : Inv n buffer c) (hpc : c.pc = .visit ni) (h : c.visit ni data = some c') :
    Inv n buffer c' := by
  obtain ⟨hni, hw⟩ : ni < c.pfds.length ∧ c.written ≠ none := hi.at hpc
  have hhand : c.inHand = [] := inHand_eq_nil hpc nofun
  unfold visit at h
  split at h
  · rename_i fd r hfd _
    dsimp only at h
    split at h
    · rename_i hread
      cases fd with
      | read i => exact inv_visitRead hi.transfers hhand hni hw hfd h
      | write i => simp [HelperFd.isRead] at hread
    · split at h
      · cases h
        exact inv_visitWrite hi.transfers hhand hni hw hfd
      · split at h
        · cases h
          have hforget : (c.forget fd).moved = c.moved ∧ (c.forget fd).written = c.written := by
            cases fd <;> exact ⟨rfl, rfl⟩
          exact Inv.next hi.transfers hhand hni hw hforget.1 (hforget.2 ▸ hw)
        · cases h
          exact Inv.next hi.transfers hhand hni hw rfl hw
  · cases h

theorem inv_firstRead {written : Nat} (hi : Inv n buffer c) (hpc : c.pc = .firstRead ni written)
    (h : c.firstRead ni written data = some c') : Inv n buffer c' := by
  obtain ⟨hni, hfd, hw⟩ : ni < c.pfds.length ∧ c.pfds[ni]? = some (.read (n - 1)) ∧
      c.written ≠ none := hi.at hpc
  have hhand : c.inHand = [] := inHand_eq_nil hpc nofun
  have ht := hi.transfers
  unfold firstRead at h
  rw [hfd, Option.bind_some] at h
  split at h
  · cases h
    exact Inv.next ht hhand hni hw rfl (Option.some_ne_none _)
  · split at h
    · cases h
      refine ⟨ht.append rfl rfl (fun i hi => ?_) fun _ => ⟨hw, ?_⟩, hni, hfd, hw⟩
      · rw [writesTo_read, readFrom_read, if_neg (by simp; omega)]
        rfl
      · rw [hhand, readFrom_read, if_pos rfl]
        exact (List.append_nil data).symm
    · cases h

/-- **What is read of the last helper is written to `write_fifo`**, or the call fails. -/
theorem inv_firstWrite {written : Nat} {r : CallResult} (hi : Inv n buffer c)
    (hpc : c.pc = .firstWrite ni written data) : Inv n buffer (c.firstWrite ni written data r) := by
  obtain ⟨hni, hfd, hw⟩ : ni < c.pfds.length ∧ c.pfds[ni]? = some (.read (n - 1)) ∧
      c.written ≠ none := hi.at hpc
  have ht := hi.transfers
  have hhand : c.inHand = data := by rw [inHand, hpc]
  unfold firstWrite
  dsimp only
  cases hstatus : (r.writeFifo data).2 with
  | none =>
    exact ⟨ht.append rfl rfl (fun _ _ => rfl) fun h => absurd rfl h, trivial⟩
  | some wrote =>
    -- it has written all of it
    have hout : (r.writeFifo data).1 = data := by
      unfold CallResult.writeFifo at hstatus ⊢
      split
      · rename_i hhup
        rw [if_pos hhup] at hstatus
        cases hstatus
      · rfl
    refine ⟨ht.append rfl rfl (fun _ _ => rfl) fun _ => ⟨hw, ?_⟩, hni, hfd, hw⟩
    rw [hout, hhand]
    exact List.append_nil _

theorem inv_check (hi : Inv n buffer c) (hpc : c.pc = .check) : Inv n buffer c.check := by
  have hhand : c.inHand = [] := inHand_eq_nil hpc nofun
  unfold check
  by_cases hstop : (c.written = none || (c.oriBufferWritten && !c.currentHasRead)) = true
  · rw [if_pos hstop]
    refine ⟨hi.transfers.same rfl fun hw => ⟨hw, hhand.symm⟩, fun hw => ⟨?_, hw⟩⟩
    simp only [hw, decide_false, Bool.false_or, Bool.and_eq_true] at hstop
    exact hstop.1
  · rw [if_neg hstop]
    refine ⟨hi.transfers.same rfl fun hw => ⟨hw, hhand.symm⟩, ?_⟩
    intro hw
    exact hstop (by simp only [show c.written = none from hw, decide_true, Bool.true_or])

theorem inv_stdout {status : Option Nat} {r : CallResult} (hi : Inv n buffer c)
    (hpc : c.pc = .stdout status) : Inv n buffer (c.stdout status r) := by
  have hend : status ≠ none → c.oriBufferWritten = true ∧ c.written ≠ none := hi.at hpc
  have hhand : c.inHand = [] := inHand_eq_nil hpc nofun
  cases status with
  | none => exact ⟨hi.transfers.same rfl fun hw => ⟨hw, hhand.symm⟩, fun h => absurd rfl h⟩
  | some wrote =>
    obtain ⟨hbuffer, hw⟩ := hend (Option.some_ne_none wrote)
    have hsize := hi.transfers.hand
    rw [if_pos hbuffer] at hsize
    unfold stdout
    dsimp only
    rw [if_pos hsize.1]
    exact ⟨hi.transfers.same rfl fun hw => ⟨hw, hhand.symm⟩, fun _ => ⟨hbuffer, hw⟩⟩

/-- **A step that does not give up keeps the invariant.** -/
theorem inv_step {r : CallResult} (hi : Inv n buffer c) (hg : ¬ c.GivesUp r)
    (h : c.step r = some c') : Inv n buffer c' := by
  unfold step at h
  cases hpc : c.pc with
  | poll =>
    simp only [hpc] at h
    exact inv_pollAll hi hpc hg h
  | visit ni =>
    simp only [hpc] at h
    exact inv_visit hi hpc h
  | firstRead ni written =>
    simp only [hpc] at h
    exact inv_firstRead hi hpc h
  | firstWrite ni written data =>
    simp only [hpc] at h
    cases h
    exact inv_firstWrite hi hpc
  | firstPoll ni written =>
    simp only [hpc] at h
    cases h
    have hhand : c.inHand = [] := inHand_eq_nil hpc nofun
    obtain ⟨hni, hfd, hw⟩ : ni < c.pfds.length ∧ c.pfds[ni]? = some (.read (n - 1)) ∧
        c.written ≠ none := hi.at hpc
    exact ⟨hi.transfers.same rfl fun _ => ⟨hw, hhand.symm⟩, hni, hfd, hw⟩
  | check =>
    simp only [hpc] at h
    cases h
    exact inv_check hi hpc
  | stdout status =>
    simp only [hpc] at h
    cases h
    exact inv_stdout hi hpc
  | returned status =>
    simp only [hpc] at h
    cases h

/-! ## The runs -/

/-- The call has left the chain and has not handed the buffer over. -/
def Bypassed (c : ChainCall) : Prop :=
  writesTo (.write 0) c.ops = [] ∧
    ((∃ status, c.pc = .stdout status) ∨ ∃ status, c.pc = .returned status)

theorem bypassed_givesUp {r : CallResult} (hi : Inv n buffer c) (hg : c.GivesUp r)
    (h : c.step r = some c') : c'.Bypassed := by
  obtain ⟨hpc, hevent, hread, hwrite, hbuffer⟩ := hg
  have hfirst := hi.transfers.hand
  rw [if_neg (Bool.eq_false_iff.1 hbuffer)] at hfirst
  unfold step at h
  rw [hpc] at h
  unfold pollAll at h
  dsimp only at h
  split at h
  · rw [if_pos ⟨hevent, hread, hwrite⟩] at h
    cases h
    exact ⟨hfirst.2, .inl ⟨_, rfl⟩⟩
  · cases h

theorem bypassed_step {r : CallResult} (hi : c.Bypassed) (h : c.step r = some c') :
    c'.Bypassed := by
  obtain ⟨hfirst, ⟨status, hpc⟩ | ⟨status, hpc⟩⟩ := hi
  · unfold step at h
    rw [hpc] at h
    cases h
    unfold stdout
    split
    · exact ⟨hfirst, .inr ⟨_, rfl⟩⟩
    · dsimp only
      split
      · exact ⟨hfirst, .inr ⟨_, rfl⟩⟩
      · refine ⟨?_, .inr ⟨_, rfl⟩⟩
        dsimp only
        rw [writesTo_append, writesTo_fifo, hfirst]
        rfl
  · unfold step at h
    rw [hpc] at h
    cases h

theorem Inv.neverBypassed {status : Option Nat} (hi : Inv n buffer c)
    (hpc : c.pc = .returned status) (hs : status ≠ none) : NeverBypassed n buffer c.ops := by
  have ht := hi.transfers
  have hend : status ≠ none → c.oriBufferWritten = true ∧ c.written ≠ none := hi.at hpc
  obtain ⟨hbuffer, hw⟩ := hend hs
  have hhand := ht.hand
  rw [if_pos hbuffer, ht.ori] at hhand
  refine ⟨hhand.2, ht.passed, ?_⟩
  have hfifo := ht.fifo hw
  rwa [inHand_eq_nil hpc nofun, List.append_nil] at hfifo

end

end ChainCall

/-- **A call that does not fail passes the buffer through the chain exactly when it does not give
up**: the chain is bypassed when a poll of 10 ms reports nothing, with nothing pending, before the
first helper has got the buffer. -/
theorem chain_never_bypassed_iff (n : Nat) (buffer : List UInt8)
    (pendingWrite pendingRead : List HelperFd) (results : List CallResult) (c : ChainCall)
    (wrote : Nat) (hn : 1 ≤ n) (hsize : buffer ≠ [])
    (hrun : run ChainCall.step (.start n buffer pendingWrite pendingRead) results = some c)
    (hret : c.pc = .returned (some wrote)) :
    NeverBypassed n buffer c.ops ↔
      Along ChainCall.step (fun c r => ¬ c.GivesUp r)
        (.start n buffer pendingWrite pendingRead) results := by
  have hruns := run_inv_or_broken (C := fun (c : ChainCall) r => ¬ c.GivesUp r)
    (I := ChainCall.Inv n buffer) (B := ChainCall.Bypassed)
    (fun c r c' hi hg h => ChainCall.inv_step hi hg h)
    (fun c r c' hi hg h => ChainCall.bypassed_givesUp hi (not_not.1 hg) h)
    (fun c r c' hi h => ChainCall.bypassed_step hi h)
    (ChainCall.inv_start hn hsize pendingWrite pendingRead) hrun
  constructor
  · intro hnever
    obtain ⟨halong, -⟩ | ⟨-, hbypassed⟩ := hruns
    · exact halong
    · have := hnever.handed
      rw [hbypassed.1] at this
      cases this
  · intro halong
    obtain ⟨-, hi⟩ | ⟨hbroken, -⟩ := hruns
    · exact hi.neverBypassed hret (Option.some_ne_none wrote)
    · exact absurd halong hbroken

/-- Both helpers hold a byte when the call begins; the second poll reports nothing. -/
def busyResults : List CallResult :=
  [{ poll := { event := 4, revents := [{ pollout := true }, { pollin := true },
      { pollout := true }, { pollin := true }] } },
    {}, { data := [9] }, {}, {}, {}, {}, { data := [8] }, {}, {},
    { poll := { event := 0, revents := [{}, {}, {}, {}] } }, {}]

theorem chain_never_bypassed_busy :
    ∃ c, run ChainCall.step (.start 2 [7] [] [.read 1]) busyResults = some c ∧
      NeverBypassed 2 [7] c.ops :=
  ⟨_, rfl, (chain_never_bypassed_iff 2 [7] [] [.read 1] busyResults _ 0 (by decide) (by decide)
    rfl rfl).2 (by decide)⟩

/-- Nothing is ready within 10 ms. -/
def timedOut : List CallResult :=
  [{ poll := { event := 0, revents := [{}, {}] } }, {}]

/-- The buffer itself is written to `write_fifo`. -/
theorem chain_bypassed_timedOut :
    ∃ c, run ChainCall.step (.start 1 [7] [] []) timedOut = some c ∧
      c.pc = .returned (some 1) ∧ c.ops = [.fifo [7]] ∧ ¬ NeverBypassed 1 [7] c.ops := by
  refine ⟨_, rfl, rfl, rfl, ?_⟩
  decide

end Musicat.Audio
