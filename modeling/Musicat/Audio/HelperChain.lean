import Mathlib.Data.List.Forall2
import Musicat.Lib.Pipeline

/-!
# The chain of helpers

`run_through_chain` hands a buffer to the first helper and moves what the
helpers write along the chain and to `write_fifo`; without a buffer it is the
shutdown, which closes the write ends one after the other. A helper is a stage:
its input pipe is written through `write_fd` and its output pipe is read through
`read_fd`. One step is one call of `poll`, one entry of the loop over the
descriptors, or one turn of `read_first_fd_routine`; what `poll` reports and how
much `read` returns come from outside. Writes store all their bytes and
`write_fifo` has no error.
-/

namespace Musicat.Audio

open Lib

/-- `BUFFER_SIZE` and `PROCESSOR_BUFFER_SIZE`, both `BUFSIZ / 2`. -/
def bufferSize : Nat := 4096

def maxShutdownIter : Nat := 50000

/-- A descriptor of `active_helpers[i]`. -/
inductive HelperFd where
  | write (i : Nat)
  | read (i : Nat)
  deriving DecidableEq, Repr

/-- Its entry of `fds_state` is `'r'`. -/
def HelperFd.isRead : HelperFd → Bool
  | .read _ => true
  | .write _ => false

/-- `revents`, up to the flags that are reported of a pipe in use. -/
structure Revents where
  pollin : Bool := false
  pollout : Bool := false
  pollhup : Bool := false
  deriving DecidableEq, Repr

/-- What may be reported of the read end of a pipe: it is readable only when there is something to
read or its end, and a hang-up without more to read is the end. -/
def Revents.OfPipe (r : Revents) (held : List UInt8) (closed : Bool) : Prop :=
  r.pollout = false ∧ (r.pollin = true → held.isEmpty = false ∨ closed = true) ∧
    (r.pollhup = true → closed = true ∧ (r.pollin = true ∨ held.isEmpty = true))

instance (r : Revents) (held : List UInt8) (closed : Bool) : Decidable (r.OfPipe held closed) :=
  inferInstanceAs (Decidable (_ ∧ _ ∧ _))

/-- What the system calls of a step return: the entries of `poll`, the size of a `read`. -/
structure Syscall where
  revents : List Revents := []
  size : Nat := 0
  deriving DecidableEq, Repr

/-- `read` with a buffer of `bufferSize`: what is read and what is left; it blocks while there is
nothing. -/
def readPipe (held : List UInt8) (closed : Bool) (size : Nat) : Option (List UInt8 × List UInt8) :=
  if held.isEmpty then if closed then some ([], []) else none
  else if 0 < size ∧ size ≤ bufferSize ∧ size ≤ held.length then
    some (held.take size, held.drop size)
  else none

/-- The helpers, the descriptors that `run_through_chain` remembers between two calls, and what has
been written to `write_fifo`. -/
structure HelperChain (σ : Type*) where
  helpers : List (Stage σ UInt8)
  pendingWrite : List HelperFd := []
  pendingRead : List HelperFd := []
  writeFifo : List UInt8 := []

def removePending (vec : List HelperFd) (fd : HelperFd) : List HelperFd := vec.filter (· ≠ fd)

def addPending (vec : List HelperFd) (fd : HelperFd) : List HelperFd :=
  if vec.contains fd then vec else vec ++ [fd]

namespace HelperChain

variable {σ : Type*}

def removeReadPending (s : HelperChain σ) (fd : HelperFd) : HelperChain σ :=
  { s with pendingRead := removePending s.pendingRead fd }

def removeWritePending (s : HelperChain σ) (fd : HelperFd) : HelperChain σ :=
  { s with pendingWrite := removePending s.pendingWrite fd }

/-- `remove_pending (read_mode ? &pending_read : &pending_write, fd)`. -/
def removePendingOf (s : HelperChain σ) (fd : HelperFd) : HelperChain σ :=
  if fd.isRead then s.removeReadPending fd else s.removeWritePending fd

/-- `read (fd, buf, ..)`. -/
def readFd (s : HelperChain σ) (fd : HelperFd) (size : Nat) :
    Option (List UInt8 × HelperChain σ) :=
  match fd with
  | .write _ => none
  | .read i =>
    s.helpers[i]?.bind fun h =>
      (readPipe h.output h.outClosed size).map fun (data, output) =>
        (data, { s with helpers := s.helpers.set i { h with output } })

/-- `write (fd, data.., ..)`. -/
def writeFd (s : HelperChain σ) (fd : HelperFd) (data : List UInt8) : HelperChain σ :=
  match fd with
  | .read _ => s
  | .write i =>
    match s.helpers[i]? with
    | none => s
    | some h => { s with helpers := s.helpers.set i (h.give data) }

/-- `remove_pending` and `close`. -/
def closeFd (s : HelperChain σ) (fd : HelperFd) : HelperChain σ :=
  let s := s.removePendingOf fd
  match fd with
  | .read _ => s
  | .write i =>
    match s.helpers[i]? with
    | none => s
    | some h => { s with helpers := s.helpers.set i h.closeInput }

/-- What may be reported of a descriptor. A helper reads to the end of its input, so that there is
no error on a write end. -/
def Reports (s : HelperChain σ) (fd : HelperFd) (r : Revents) : Prop :=
  match fd with
  | .read i => ∃ h ∈ s.helpers[i]?, r.OfPipe h.output h.outClosed
  | .write _ => r.pollin = false ∧ r.pollhup = false

instance (s : HelperChain σ) : ∀ fd r, Decidable (s.Reports fd r)
  | .read i, r =>
    match h : s.helpers[i]? with
    | none => isFalse (by simp [Reports, h])
    | some x => decidable_of_iff (r.OfPipe x.output x.outClosed) (by simp [Reports, h])
  | .write _, _ => inferInstanceAs (Decidable (_ ∧ _))

end HelperChain

/-! ## `run_through_chain` -/

/-- Where `run_through_chain` is. -/
inductive ChainPc where
  | poll
  /-- In the loop over the descriptors, at index `ni`. -/
  | visit (ni : Nat)
  /-- In `read_first_fd_routine`, at its `read` or at its `poll`, with its `written`. -/
  | firstRead (ni written : Nat)
  | firstPoll (ni written : Nat)
  /-- Behind the loop over the descriptors. -/
  | check
  | returned
  deriving DecidableEq, Repr

/-- The variables of `run_through_chain`; a freed `pfds` has no entries. -/
structure ChainRun where
  shutdown : Bool
  pfds : List HelperFd
  oriBuffer : List UInt8 := []
  /-- `*size`. -/
  size : Nat := 0
  oriBufferWritten : Bool := false
  firstReadFdReady : Bool := true
  iter : Nat := 0
  written : Nat := 0
  shutdownIsLastHup : Bool := false
  revents : List Revents := []
  currentHasRead : Bool := false
  pc : ChainPc := .poll
  deriving DecidableEq, Repr

/-- `init_helpers_pollfd`, from the helper `hi` on. -/
def initHelpersPollfd (closeFirstWriteFd : Bool) : Nat → Nat → List HelperFd
  | _, 0 => []
  | hi, n + 1 =>
    (if hi = 0 ∧ closeFirstWriteFd = true then [.read hi] else [.write hi, .read hi]) ++
      initHelpersPollfd closeFirstWriteFd (hi + 1) n

/-- `run_through_chain` up to its loop, with a buffer. -/
def ChainRun.ofBuffer (buffer : List UInt8) (helperSize : Nat) : ChainRun :=
  { shutdown := false
    pfds := initHelpersPollfd false 0 helperSize
    oriBuffer := buffer
    size := buffer.length }

/-- `run_through_chain` up to its loop, without a buffer. -/
def ChainRun.ofShutdown (helperSize : Nat) : ChainRun :=
  { shutdown := true, pfds := initHelpersPollfd true 0 helperSize }

/-- The end of the body of the loop over the descriptors. -/
def ChainRun.next (c : ChainRun) (ni : Nat) : ChainRun :=
  { c with pc := if ni = 0 then .check else .visit (ni - 1) }

namespace HelperChain

variable {σ : Type*}

/-- The poll of 10 ms. -/
def pollAll (s : HelperChain σ) (c : ChainRun) (revents : List Revents) :
    Option (HelperChain σ × ChainRun) :=
  if List.Forall₂ s.Reports c.pfds revents then
    let c := { c with iter := c.iter + 1 }
    -- nothing in 10 ms
    if revents.all (· = {}) && s.pendingRead.isEmpty && s.pendingWrite.isEmpty then
      some (s, { c with pc := .returned })
    else
      some (s, { c with revents, currentHasRead := false, pc := .visit (c.pfds.length - 1) })
  else none

/-- `close_pfds_ni`. -/
def closePfdsNi (s : HelperChain σ) (c : ChainRun) (ni : Nat) : HelperChain σ × ChainRun :=
  match c.pfds[ni]? with
  | none => (s, c)
  | some fd => (s.closeFd fd, { c with pfds := c.pfds.eraseIdx ni })

/-- The shutdown closes a descriptor that hung up, and the write end behind it. -/
def closeHup (s : HelperChain σ) (c : ChainRun) (ni : Nat) : HelperChain σ × ChainRun :=
  let firstFd := ni + 1 == c.pfds.length
  let (s, c) := s.closePfdsNi c ni
  if firstFd then (s, { c with shutdownIsLastHup := true, pc := .check })
  else
    let (s, c) := if (c.pfds[ni]?).any (!·.isRead) then s.closePfdsNi c ni else (s, c)
    (s, { c with pc := .check })

/-- `pass_buf`, and whether its status is 0. -/
def passBuf (s : HelperChain σ) (niFd prevFd : HelperFd) (size : Nat) :
    Option (HelperChain σ × Bool) :=
  (s.readFd niFd size).map fun (buf, s) =>
    if buf.isEmpty then (s, false)
    else (((s.writeFd prevFd buf).removeReadPending niFd).removeWritePending prevFd, true)

/-- A read end from which may be read. -/
def visitRead (s : HelperChain σ) (c : ChainRun) (ni : Nat) (fd : HelperFd) (size : Nat) :
    Option (HelperChain σ × ChainRun) :=
  if ni + 1 = c.pfds.length then some (s, { c with pc := .firstRead ni 0 })
  else
    match c.pfds[ni + 1]?, c.revents[ni + 1]? with
    | some prevFd, some prev =>
      if prev.pollout || s.pendingWrite.contains prevFd then
        (s.passBuf fd prevFd size).map fun (s, passed) =>
          (s, { c with currentHasRead := c.currentHasRead || passed }.next ni)
      else some ({ s with pendingRead := addPending s.pendingRead fd }, c.next ni)
    | _, _ => none

/-- A write end to which may be written. -/
def visitWrite (s : HelperChain σ) (c : ChainRun) (ni : Nat) (fd : HelperFd) :
    HelperChain σ × ChainRun :=
  if ni = 0 ∧ c.size ≠ 0 then
    if c.oriBufferWritten then (s, { c with pc := .check })
    else
      ((s.writeFd fd c.oriBuffer).removeWritePending fd,
        { c with size := 0, oriBufferWritten := true, pc := .check })
  else ({ s with pendingWrite := addPending s.pendingWrite fd }, c.next ni)

/-- The body of the loop over the descriptors. -/
def visit (s : HelperChain σ) (c : ChainRun) (ni : Nat) (size : Nat) :
    Option (HelperChain σ × ChainRun) :=
  match c.pfds[ni]?, c.revents[ni]? with
  | some fd, some r =>
    let firstFd := ni + 1 == c.pfds.length
    let allowRead := r.pollin || s.pendingRead.contains fd
    let allowWrite := r.pollout || s.pendingWrite.contains fd
    if c.shutdown && (r.pollhup && !allowRead && !allowWrite) then some (s.closeHup c ni)
    else
      let c :=
        if c.shutdown && (!c.firstReadFdReady && allowRead && firstFd) then
          { c with firstReadFdReady := true }
        else c
      if fd.isRead && allowRead then s.visitRead c ni fd size
      else if !fd.isRead && allowWrite then some (s.visitWrite c ni fd)
      else if r.pollhup then some (s.removePendingOf fd, c.next ni)
      else some (s, c.next ni)
  | _, _ => none

/-- `read_first_fd_routine` returns. -/
def firstDone (s : HelperChain σ) (c : ChainRun) (ni written : Nat) (fd : HelperFd) :
    HelperChain σ × ChainRun :=
  (s.removeReadPending fd, { c with written, currentHasRead := 0 < written }.next ni)

/-- The head of the loop of `read_first_fd_routine`, and its `write_stdout`. -/
def firstRead (s : HelperChain σ) (c : ChainRun) (ni written size : Nat) :
    Option (HelperChain σ × ChainRun) :=
  c.pfds[ni]?.bind fun fd =>
    if !c.firstReadFdReady then some (s.firstDone c ni written fd)
    else
      (s.readFd fd size).map fun (buf, s) =>
        if buf.isEmpty then s.firstDone c ni written fd
        else
          ({ s with writeFifo := s.writeFifo ++ buf },
            { c with pc := .firstPoll ni (written + buf.length) })

/-- The poll of 5 ms in `read_first_fd_routine`. -/
def firstPoll (s : HelperChain σ) (c : ChainRun) (ni written : Nat) (revents : List Revents) :
    Option (HelperChain σ × ChainRun) :=
  match c.pfds[ni]?, revents with
  | some fd, [r] =>
    if s.Reports fd r then
      some (s, { c with firstReadFdReady := r.pollin, pc := .firstRead ni written })
    else none
  | _, _ => none

/-- The condition behind the loop over the descriptors, and that of the outer loop. -/
def check (c : ChainRun) : ChainRun :=
  let stop := if c.shutdown then c.shutdownIsLastHup || decide (maxShutdownIter ≤ c.iter)
    else c.oriBufferWritten
  { c with pc := if stop && !c.currentHasRead || c.pfds.isEmpty then .returned else .poll }

/-- One step of `run_through_chain`. -/
def step (s : HelperChain σ) (c : ChainRun) (call : Syscall) : Option (HelperChain σ × ChainRun) :=
  match c.pc with
  | .poll => s.pollAll c call.revents
  | .visit ni => s.visit c ni call.size
  | .firstRead ni written => s.firstRead c ni written call.size
  | .firstPoll ni written => s.firstPoll c ni written call.revents
  | .check => some (s, check c)
  | .returned => none

end HelperChain

/-! ## The descriptors -/

@[simp] theorem initHelpersPollfd_succ (hi n : Nat) :
    initHelpersPollfd false hi (n + 1) =
      .write hi :: .read hi :: initHelpersPollfd false (hi + 1) n := by
  rw [initHelpersPollfd, if_neg (by simp)]
  rfl

/-- From the second helper on `close_first_write_fd` makes no difference. -/
theorem initHelpersPollfd_close (hi n : Nat) :
    initHelpersPollfd true (hi + 1) n = initHelpersPollfd false (hi + 1) n := by
  induction n generalizing hi with
  | zero => rfl
  | succ n ih =>
    rw [initHelpersPollfd, initHelpersPollfd, ih, if_neg (by simp), if_neg (by simp)]

theorem le_of_read_mem {hi n j : Nat} (h : HelperFd.read j ∈ initHelpersPollfd false hi n) :
    hi ≤ j := by
  induction n generalizing hi with
  | zero => cases h
  | succ n ih =>
    rw [initHelpersPollfd_succ, List.mem_cons, List.mem_cons] at h
    rcases h with h | h | h
    · cases h
    · cases h
      exact Nat.le_refl _
    · exact Nat.le_of_succ_le (ih h)

/-- Behind a read end comes the write end of the next helper, and behind the last nothing. -/
def Linked (n : Nat) (pfds : List HelperFd) : Prop :=
  ∀ ni j, pfds[ni]? = some (.read j) →
    (ni + 1 = pfds.length → j + 1 = n) ∧
      (ni + 1 ≠ pfds.length → pfds[ni + 1]? = some (.write (j + 1)) ∧ j + 1 < n)

theorem Linked.tail {n : Nat} {fd : HelperFd} {pfds : List HelperFd} (h : Linked n (fd :: pfds)) :
    Linked n pfds := by
  intro ni j hj
  obtain ⟨hlast, hnext⟩ := h (ni + 1) j hj
  exact ⟨fun he => hlast (by simpa using he), fun he => hnext (by simpa using he)⟩

theorem linked_init (hi m : Nat) : Linked (hi + m) (initHelpersPollfd false hi m) := by
  induction m generalizing hi with
  | zero => exact fun ni j hj => by cases hj
  | succ m ih =>
    rw [initHelpersPollfd_succ]
    intro ni j hj
    match ni with
    | 0 => cases hj
    | 1 =>
      cases hj
      cases m with
      | zero => exact ⟨fun _ => rfl, fun h => absurd rfl h⟩
      | succ m =>
        rw [initHelpersPollfd_succ]
        exact ⟨fun h => by simp at h, fun _ => ⟨rfl, by omega⟩⟩
    | ni + 2 =>
      obtain ⟨hlast, hnext⟩ := ih (hi + 1) ni j hj
      rw [Nat.add_right_comm hi 1 m] at hlast hnext
      exact ⟨fun h => hlast (by simpa using h), fun h => hnext (by simpa using h)⟩

end Musicat.Audio
