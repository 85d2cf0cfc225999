import Musicat.Child.Pipe
import Musicat.Lib.Compact

/-!
# The output file of a system call

`process_outfile` copies what a child writes on two pipes into a file, with a
mark before and after what comes from `stderr`. `poll` says which pipes can be
read and which are hung up; `manage_pollfds_stack` closes a pipe that has any
error bit and closes the gap in the array that is left. A hang-up is reported
once the write end is closed, though bytes may still be in the pipe, and these
are lost when the pipe is closed on its account: the output is whole exactly
when `stdout` had been emptied by then (`stdout_kept_iff`).
-/

namespace Musicat.Child

open Lib

/-- The two pipes, and with it what `fd_tracker` says of a descriptor. -/
inductive OutputFd where
  | stdout
  | stderr
  deriving DecidableEq, Repr

/-- `revents`. -/
structure PollFlags where
  pollin : Bool := false
  pollerr : Bool := false
  pollhup : Bool := false
  pollnval : Bool := false
  deriving DecidableEq, Repr

def reventsHasErr (revents : PollFlags) : Bool :=
  revents.pollerr || revents.pollhup || revents.pollnval

/-- A descriptor that `poll` counts. -/
def PollFlags.event (revents : PollFlags) : Bool := revents.pollin || reventsHasErr revents

structure OutputPipe where
  /-- What the child has written, and what of it has not been read. -/
  written : Bytes := []
  unread : Bytes := []
  /-- The write end is closed. -/
  closed : Bool := false
  /-- The read end is closed: the child's writes fail. -/
  broken : Bool := false
  deriving DecidableEq, Repr

/-- What `poll` may report: a hang-up when the write end is closed, and that a `read` would not
block when there are bytes or no more will come. -/
def OutputPipe.Allows (p : OutputPipe) (revents : PollFlags) : Prop :=
  (revents.pollin = true → p.unread ≠ [] ∨ p.closed = true) ∧
    (revents.pollhup = true → p.closed = true) ∧ revents.pollnval = false

instance (p : OutputPipe) (revents : PollFlags) : Decidable (p.Allows revents) :=
  inferInstanceAs (Decidable ((_ → _) ∧ (_ → _) ∧ _))

/-! ## Writing the file -/

def bsize : Nat := 4096

/-- A mark, which is written with its terminating NUL. -/
def errMark : Bytes :=
  bytes ("========================================" ++
    " V STDERR V ========================================\n") ++ [0]

def errMarkEnd : Bytes :=
  bytes ("\n========================================" ++
    " ^ STDERR ^ ========================================\n") ++ [0]

def cmpAvailable (want avail : Nat) : Nat := if avail < want then avail else want

/-- The file, each byte with the pipe it is from, `none` in a mark; and `out_siz`. -/
structure Outfile where
  text : List (Option OutputFd × UInt8) := []
  outSiz : Nat := 0
  deriving DecidableEq, Repr

namespace Outfile

/-- `fwrite` of at most `avail` bytes. -/
def fwrite (f : Outfile) (fd : Option OutputFd) (buf : Bytes) (avail : Nat) : Outfile where
  text := f.text ++ (buf.take (cmpAvailable buf.length avail)).map fun b => (fd, b)
  outSiz := f.outSiz + cmpAvailable buf.length avail

/-- What may be written in this iteration. -/
def maxOutsiz (o : CommandOptions) (f : Outfile) (fd : OutputFd) : Nat :=
  let thisIterOutsiz := bsize + if fd = .stdout then 0 else errMark.length + errMarkEnd.length
  if 0 < o.sysMaxOutLen ∧ o.sysMaxOutLen < f.outSiz + thisIterOutsiz then
    thisIterOutsiz - (f.outSiz + thisIterOutsiz - o.sysMaxOutLen)
  else thisIterOutsiz

/-- The mark comes before what is first read of `stderr`. -/
def marks (o : CommandOptions) (fd : OutputFd) (wroteStderr : Bool) (maxOutsiz : Nat) : Bool :=
  fd = .stderr && !wroteStderr && o.sysWStderrMark && 0 < maxOutsiz

/-- What is done with the bytes that were read: the file, `wrote_stderr` and `max_outsiz`. -/
def writeChunk (o : CommandOptions) (f : Outfile) (fd : OutputFd) (wroteStderr : Bool)
    (buf : Bytes) : Outfile × Bool × Nat :=
  let avail := f.maxOutsiz o fd
  let mark := marks o fd wroteStderr avail
  let marked := if mark then f.fwrite none errMark avail else f
  let left := if mark then avail - cmpAvailable errMark.length avail else avail
  let wrote := if 0 < left then marked.fwrite (some fd) buf left else marked
  (wrote, wroteStderr || mark, if 0 < left then left - cmpAvailable buf.length left else left)

/-- The mark after what was read of `stderr`. -/
def endMark (o : CommandOptions) (f : Outfile) (fd : OutputFd) (wroteStderr : Bool)
    (maxOutsiz : Nat) : Outfile :=
  if fd = .stdout ∨ wroteStderr = false ∨ o.sysWStderrMark = false ∨ maxOutsiz = 0 then f
  else f.fwrite none errMarkEnd maxOutsiz

/-- The bytes of one pipe, in their order. -/
def textOf (fd : OutputFd) (f : Outfile) : Bytes :=
  (f.text.filter (·.1 = some fd)).map Prod.snd

end Outfile

/-! ## The loop -/

/-- Where `process_outfile` is: at the `poll` of its loop; before the descriptor `i`; at the `read`
of it or at the `poll` after that; or at its end. -/
inductive OutfilePc where
  | outerPoll
  | descriptor (i : Nat)
  | reading (i : Nat) (wroteStderr : Bool) (maxOutsiz : Nat)
  | innerPoll (i : Nat) (wroteStderr : Bool) (maxOutsiz : Nat)
  | returned
  deriving DecidableEq, Repr

structure OutfileState where
  pipe : OutputFd → OutputPipe
  /-- `prfds`, its `fd`s and its `revents`. -/
  fds : List OutputFd
  revents : List PollFlags
  fdTracker : List OutputFd
  prfdsSize : Nat
  file : Outfile := {}
  pc : OutfilePc := .outerPoll

namespace OutfileState

def setPipe (s : OutfileState) (fd : OutputFd) (p : OutputPipe) : OutfileState :=
  { s with pipe := Function.update s.pipe fd p }

/-- `close` of the read end. -/
def closeRead (s : OutfileState) (fd : OutputFd) : OutfileState :=
  s.setPipe fd { s.pipe fd with broken := true }

/-- What the array has before the first `poll`; `garbage` are its `revents`, which are not set. -/
def init (o : CommandOptions) (garbage : List PollFlags) : OutfileState :=
  if o.sysNoStderr then
    closeRead {
      pipe := fun _ => {}, fds := [.stdout], revents := garbage, fdTracker := [.stdout]
      prfdsSize := 1 } .stderr
  else {
    pipe := fun _ => {}, fds := [.stdout, .stderr], revents := garbage
    fdTracker := [.stdout, .stderr], prfdsSize := 2 }

/-- The slots that have an error bit. -/
def removed (s : OutfileState) (i : Nat) : Bool := (s.revents[i]?).any reventsHasErr

/-- `manage_pollfds_stack`. -/
def managePollfdsStack (s : OutfileState) : OutfileState :=
  let closed := (s.fds.take s.fdTracker.length).zipIdx.filter fun p => s.removed p.2
  let new := compact s.removed s.fds s.fdTracker
  { closed.foldl (fun s p => s.closeRead p.1) s with fds := new.1, fdTracker := new.2 }

/-- The array after the `poll` of the loop; an error leaves it as it is. -/
def polled (s : OutfileState) : Option (List PollFlags) → OutfileState
  | none => s
  | some revents => { s with revents := revents ++ s.revents.drop s.prfdsSize }

/-- What `poll` may report of the descriptors. -/
def Allows (s : OutfileState) : Option (List PollFlags) → Prop
  | none => True
  | some revents =>
    revents.length = s.prfdsSize ∧ ∀ p ∈ s.fds.zip revents, (s.pipe p.1).Allows p.2

instance (s : OutfileState) : ∀ revents, Decidable (s.Allows revents)
  | none => inferInstanceAs (Decidable True)
  | some _ => inferInstanceAs (Decidable (_ ∧ _))

/-- What follows the `poll` of the loop when there is an event. -/
def manage (s : OutfileState) : OutfileState :=
  let t := s.managePollfdsStack
  if s.prfdsSize = t.fdTracker.length then { t with pc := .descriptor 0 }
  else {
    t with
    prfdsSize := t.fdTracker.length
    pc := if t.fdTracker.length = 0 then .returned else .outerPoll }

/-- The reading loop of a descriptor is over. -/
def endDescriptor (o : CommandOptions) (s : OutfileState) (i : Nat) (fd : OutputFd)
    (wroteStderr : Bool) (maxOutsiz : Nat) : OutfileState :=
  { s with file := s.file.endMark o fd wroteStderr maxOutsiz, pc := .descriptor (i + 1) }

end OutfileState

inductive OutfileAction where
  /-- The child writes, or closes its end. -/
  | write (fd : OutputFd) (buf : Bytes)
  | close (fd : OutputFd)
  /-- The `poll` of the loop; `none` is an error. -/
  | poll (revents : Option (List PollFlags))
  | next
  | read (res : ReadResult)
  | innerPoll (revents : Option PollFlags)
  deriving DecidableEq, Repr

open OutfileState in
def outfileStep (o : CommandOptions) (s : OutfileState) : OutfileAction → Option OutfileState
  | .write fd buf =>
    let p := s.pipe fd
    if p.closed || p.broken then none
    else some (s.setPipe fd { p with written := p.written ++ buf, unread := p.unread ++ buf })
  | .close fd => some (s.setPipe fd { s.pipe fd with closed := true })
  | .poll revents =>
    if s.pc = .outerPoll ∧ s.Allows revents then
      let s := s.polled revents
      some (if revents.all (·.any PollFlags.event) then s.manage else s)
    else none
  | .next =>
    match s.pc with
    | .descriptor i =>
      if i < s.prfdsSize then
        if (s.revents[i]?).any PollFlags.pollin then some { s with pc := .reading i false 0 }
        else some { s with pc := .descriptor (i + 1) }
      else some { s with pc := .outerPoll }
    | _ => none
  | .read res =>
    match s.pc with
    | .reading i wroteStderr maxOutsiz =>
      match s.fds[i]?, s.fdTracker[i]? with
      | some fd, some tracked =>
        let p := s.pipe fd
        match res with
        | .data n =>
          if 1 ≤ n ∧ n ≤ bsize ∧ n ≤ p.unread.length then
            let new := s.file.writeChunk o tracked wroteStderr (p.unread.take n)
            some {
              s.setPipe fd { p with unread := p.unread.drop n } with
              file := new.1, pc := .innerPoll i new.2.1 new.2.2 }
          else none
        | .eof =>
          if p.closed ∧ p.unread = [] then
            some (s.endDescriptor o i tracked wroteStderr maxOutsiz)
          else none
        | .error => some (s.endDescriptor o i tracked wroteStderr maxOutsiz)
      | _, _ => none
    | _ => none
  | .innerPoll revents =>
    match s.pc with
    | .innerPoll i wroteStderr maxOutsiz =>
      match s.fds[i]?, s.fdTracker[i]? with
      | some fd, some tracked =>
        match revents with
        | none => some (s.endDescriptor o i tracked wroteStderr maxOutsiz)
        | some revents =>
          if (s.pipe fd).Allows revents then
            if revents.event && revents.pollin && !reventsHasErr revents then
              some { s with pc := .reading i wroteStderr maxOutsiz }
            else some (s.endDescriptor o i tracked wroteStderr maxOutsiz)
          else none
      | _, _ => none
    | _ => none

/-! ## What is written -/

namespace Outfile

theorem textOf_append (f : Outfile) (fd : OutputFd) (fd' : Option OutputFd) (buf : Bytes)
    (outSiz : Nat) :
    textOf fd { text := f.text ++ buf.map fun b => (fd', b), outSiz } =
      f.textOf fd ++ if fd' = some fd then buf else [] := by
  by_cases hfd : fd' = some fd
  · simp [textOf, List.filter_map, Function.comp_def, hfd]
  · simp [textOf, List.filter_map, Function.comp_def, hfd]

theorem textOf_fwrite_none (f : Outfile) (fd : OutputFd) (buf : Bytes) (avail : Nat) :
    (f.fwrite none buf avail).textOf fd = f.textOf fd := by
  rw [fwrite, textOf_append, if_neg (by simp), List.append_nil]

theorem textOf_fwrite (f : Outfile) (fd fd' : OutputFd) {buf : Bytes} {avail : Nat}
    (h : buf.length ≤ avail) :
    (f.fwrite (some fd') buf avail).textOf fd = f.textOf fd ++ if fd' = fd then buf else [] := by
  have hall : buf.take (cmpAvailable buf.length avail) = buf := by
    rw [cmpAvailable, if_neg (by omega), List.take_length]
  rw [fwrite, hall, textOf_append]
  simp only [Option.some.injEq]

theorem textOf_endMark (o : CommandOptions) (f : Outfile) (fd tracked : OutputFd)
    (wroteStderr : Bool) (maxOutsiz : Nat) :
    (f.endMark o tracked wroteStderr maxOutsiz).textOf fd = f.textOf fd := by
  rw [endMark]
  split
  · rfl
  · exact textOf_fwrite_none f fd errMarkEnd maxOutsiz

/-- **Without a limit all that was read is written**, to the pipe that it is from. -/
theorem textOf_writeChunk {o : CommandOptions} (hmax : o.sysMaxOutLen = 0) (f : Outfile)
    (fd tracked : OutputFd) (wroteStderr : Bool) {buf : Bytes} (hbuf : buf.length ≤ bsize) :
    (f.writeChunk o tracked wroteStderr buf).1.textOf fd =
      f.textOf fd ++ if tracked = fd then buf else [] := by
  have hmark : (if marks o tracked wroteStderr (f.maxOutsiz o tracked) then
      f.fwrite none errMark (f.maxOutsiz o tracked) else f).textOf fd = f.textOf fd := by
    split
    · exact textOf_fwrite_none f fd errMark _
    · rfl
  have hleft : buf.length ≤ (if marks o tracked wroteStderr (f.maxOutsiz o tracked) then
      f.maxOutsiz o tracked - cmpAvailable errMark.length (f.maxOutsiz o tracked)
      else f.maxOutsiz o tracked) ∧ 0 < (if marks o tracked wroteStderr (f.maxOutsiz o tracked) then
      f.maxOutsiz o tracked - cmpAvailable errMark.length (f.maxOutsiz o tracked)
      else f.maxOutsiz o tracked) := by
    have hpos : 0 < bsize := by decide
    cases tracked with
    | stdout =>
      have havail : f.maxOutsiz o .stdout = bsize := by simp [maxOutsiz, hmax]
      rw [if_neg (by simp [marks]), havail]
      exact ⟨hbuf, hpos⟩
    | stderr =>
      have havail : f.maxOutsiz o .stderr = bsize + (errMark.length + errMarkEnd.length) := by
        simp [maxOutsiz, hmax]
      rw [havail, cmpAvailable, if_neg (by omega : ¬ bsize + (errMark.length + errMarkEnd.length) <
        errMark.length)]
      split <;> omega
  rw [writeChunk]
  simp only [if_pos hleft.2]
  rw [textOf_fwrite _ _ _ hleft.1, hmark]

end Outfile

/-! ## The invariant -/

namespace OutfileState

theorem setPipe_self (s : OutfileState) (fd : OutputFd) (p : OutputPipe) :
    (s.setPipe fd p).pipe fd = p := by
  simp [setPipe]

theorem setPipe_of_ne (s : OutfileState) {fd fd' : OutputFd} (p : OutputPipe) (h : fd' ≠ fd) :
    (s.setPipe fd p).pipe fd' = s.pipe fd' := by
  simp [setPipe, h]

/-- Nothing but read ends is closed. -/
structure ClosedReads (s t : OutfileState) (fds : List OutputFd) : Prop where
  pipe : ∀ fd, t.pipe fd = if fd ∈ fds then { s.pipe fd with broken := true } else s.pipe fd
  file : t.file = s.file
  revents : t.revents = s.revents
  prfdsSize : t.prfdsSize = s.prfdsSize

theorem closedReads_foldl (l : List (OutputFd × Nat)) (s : OutfileState) :
    ClosedReads s (l.foldl (fun s p => s.closeRead p.1) s) (l.map Prod.fst) := by
  induction l generalizing s with
  | nil => exact ⟨fun fd => by simp, rfl, rfl, rfl⟩
  | cons p l ih =>
    obtain ⟨hpipe, hfile, hrevents, hsize⟩ := ih (s.closeRead p.1)
    refine ⟨fun fd => ?_, hfile, hrevents, hsize⟩
    rw [List.foldl_cons, hpipe]
    by_cases hfd : fd = p.1
    · subst hfd
      simp [closeRead, setPipe_self]
    · have hmem : fd ∈ (p :: l).map Prod.fst ↔ fd ∈ l.map Prod.fst := by
        rw [List.map_cons, List.mem_cons]
        exact or_iff_right hfd
      rw [closeRead, setPipe_of_ne s _ hfd]
      simp only [hmem]

/-- **The state of the loop**: the array begins with the tracked descriptors, these are the ones
that are open, and what the child has written is what is in the file and then what is in the
pipe. -/
structure Inv (s : OutfileState) : Prop where
  tracked : s.fds.take s.fdTracker.length = s.fdTracker
  nodup : s.fdTracker.Nodup
  size : s.prfdsSize = s.fdTracker.length
  open_iff : ∀ fd, fd ∈ s.fdTracker ↔ (s.pipe fd).broken = false
  text : ∀ fd, s.file.textOf fd ++ (s.pipe fd).unread = (s.pipe fd).written
  returned : s.pc = .returned → s.fdTracker = []

theorem inv_init (o : CommandOptions) (garbage : List PollFlags) : (init o garbage).Inv := by
  rw [init]
  split
  · exact {
      tracked := rfl
      nodup := by simp [closeRead, setPipe]
      size := rfl
      open_iff fd := by cases fd <;> simp [closeRead, setPipe]
      text fd := by cases fd <;> rfl
      returned h := by cases h }
  · exact {
      tracked := rfl
      nodup := by simp
      size := rfl
      open_iff fd := by cases fd <;> simp
      text fd := rfl
      returned h := by cases h }

section
variable {s : OutfileState}

theorem Inv.fds_length (hi : s.Inv) : s.fdTracker.length ≤ s.fds.length := by
  have hlen := congrArg List.length hi.tracked
  rw [List.length_take] at hlen
  omega

/-- The descriptor's slot has an error bit. -/
def Closes (s : OutfileState) (fd : OutputFd) : Prop :=
  ∃ j, s.fdTracker[j]? = some fd ∧ s.removed j = true

theorem Inv.mem_closed (hi : s.Inv) {fd : OutputFd} :
    fd ∈ ((s.fds.take s.fdTracker.length).zipIdx.filter fun p => s.removed p.2).map Prod.fst ↔
      s.Closes fd := by
  rw [hi.tracked]
  constructor
  · intro h
    obtain ⟨⟨x, j⟩, hx, rfl⟩ := List.mem_map.1 h
    obtain ⟨hmem, hr⟩ := List.mem_filter.1 hx
    exact ⟨j, List.mem_zipIdx_iff_getElem?.1 hmem, hr⟩
  · rintro ⟨j, hj, hr⟩
    exact List.mem_map.2 ⟨(fd, j), List.mem_filter.2 ⟨List.mem_zipIdx_iff_getElem?.2 hj, hr⟩, rfl⟩

/-- **What `manage_pollfds_stack` does**: it closes the descriptors whose slots have an error bit;
the others are in front, and nothing else changes. -/
structure Managed (s t : OutfileState) : Prop where
  tracked : t.fds.take t.fdTracker.length = t.fdTracker
  tracker : t.fdTracker = kept s.removed 0 s.fdTracker
  closed : ∀ fd, s.Closes fd → t.pipe fd = { s.pipe fd with broken := true }
  others : ∀ fd, ¬ s.Closes fd → t.pipe fd = s.pipe fd
  file : t.file = s.file
  prfdsSize : t.prfdsSize = s.prfdsSize

theorem Inv.managePollfdsStack (hi : s.Inv) : Managed s s.managePollfdsStack := by
  obtain ⟨hpipe, hfile, -, hsize⟩ := closedReads_foldl
    ((s.fds.take s.fdTracker.length).zipIdx.filter fun p => s.removed p.2) s
  obtain ⟨junk, hcompact⟩ := @compact_spec _ _ s.removed _ _ hi.fds_length
  rw [hi.tracked] at hcompact
  have hfds : s.managePollfdsStack.fds = kept s.removed 0 s.fdTracker ++ junk := by
    rw [OutfileState.managePollfdsStack, hcompact]
  have htracker : s.managePollfdsStack.fdTracker = kept s.removed 0 s.fdTracker := by
    rw [OutfileState.managePollfdsStack, hcompact]
  exact {
    tracked := by rw [hfds, htracker, List.take_left']; rfl
    tracker := htracker
    closed fd hc := (hpipe fd).trans (if_pos (hi.mem_closed.2 hc))
    others fd hc := (hpipe fd).trans (if_neg fun h => hc (hi.mem_closed.1 h))
    file := hfile
    prfdsSize := hsize }

theorem Closes.mem {fd : OutputFd} (h : s.Closes fd) : fd ∈ s.fdTracker := by
  obtain ⟨j, hj, -⟩ := h
  exact List.mem_of_getElem? hj

/-- A tracked descriptor has one slot, and stays unless that has an error bit. -/
theorem Inv.mem_kept_iff (hi : s.Inv) {fd : OutputFd} :
    fd ∈ kept s.removed 0 s.fdTracker ↔ fd ∈ s.fdTracker ∧ ¬ s.Closes fd := by
  rw [mem_kept]
  constructor
  · rintro ⟨i, hget, hr⟩
    rw [Nat.zero_add] at hr
    refine ⟨List.mem_of_getElem? hget, ?_⟩
    rintro ⟨j, hj, hremoved⟩
    obtain rfl : i = j := (List.getElem?_inj (List.getElem?_eq_some_iff.1 hget).1 hi.nodup).1
      (hget.trans hj.symm)
    rw [hr] at hremoved
    cases hremoved
  · rintro ⟨hmem, hc⟩
    obtain ⟨i, hget⟩ := List.mem_iff_getElem?.1 hmem
    refine ⟨i, hget, ?_⟩
    rw [Nat.zero_add]
    by_contra hr
    exact hc ⟨i, hget, by simpa using hr⟩

/-- A pipe's bytes are where they were. -/
theorem Managed.bytes {t : OutfileState} (hm : Managed s t) (fd : OutputFd) :
    (t.pipe fd).unread = (s.pipe fd).unread ∧ (t.pipe fd).written = (s.pipe fd).written ∧
      ((s.pipe fd).broken = true → (t.pipe fd).broken = true) := by
  by_cases hc : s.Closes fd
  · rw [hm.closed fd hc]
    exact ⟨rfl, rfl, fun _ => rfl⟩
  · rw [hm.others fd hc]
    exact ⟨rfl, rfl, id⟩

theorem Inv.manage (hi : s.Inv) : s.manage.Inv := by
  have hm := hi.managePollfdsStack
  have hnodup : s.managePollfdsStack.fdTracker.Nodup := by
    rw [hm.tracker]
    exact hi.nodup.sublist (kept_sublist 0 _)
  have hopen (fd : OutputFd) : fd ∈ s.managePollfdsStack.fdTracker ↔
      (s.managePollfdsStack.pipe fd).broken = false := by
    rw [hm.tracker, hi.mem_kept_iff]
    by_cases hc : s.Closes fd
    · rw [hm.closed fd hc]
      simp [hc]
    · rw [hm.others fd hc, hi.open_iff]
      simp [hc]
  have htext (fd : OutputFd) : s.managePollfdsStack.file.textOf fd ++
      (s.managePollfdsStack.pipe fd).unread = (s.managePollfdsStack.pipe fd).written := by
    obtain ⟨hunread, hwritten, -⟩ := hm.bytes fd
    rw [hm.file, hunread, hwritten]
    exact hi.text fd
  rw [OutfileState.manage]
  split
  · rename_i hsize
    exact ⟨hm.tracked, hnodup, hm.prfdsSize.trans hsize, hopen, htext, by simp⟩
  · refine ⟨hm.tracked, hnodup, rfl, hopen, htext, fun h => ?_⟩
    by_contra hne
    simp only [List.length_eq_zero_iff] at h
    rw [if_neg hne] at h
    cases h

theorem Inv.polled (hi : s.Inv) (revents : Option (List PollFlags)) : (s.polled revents).Inv := by
  cases revents with
  | none => exact hi
  | some revents => exact ⟨hi.tracked, hi.nodup, hi.size, hi.open_iff, hi.text, hi.returned⟩

@[simp] theorem polled_pipe (s : OutfileState) (revents : Option (List PollFlags)) :
    (s.polled revents).pipe = s.pipe := by
  cases revents <;> rfl

@[simp] theorem manage_pipe (s : OutfileState) : s.manage.pipe = s.managePollfdsStack.pipe := by
  rw [OutfileState.manage]
  split <;> rfl

theorem Inv.tracked_eq (hi : s.Inv) {i : Nat} {fd tracked : OutputFd} (hfd : s.fds[i]? = some fd)
    (ht : s.fdTracker[i]? = some tracked) : fd = tracked := by
  have hlt := (List.getElem?_eq_some_iff.1 ht).1
  rw [← hi.tracked, List.getElem?_take_of_lt hlt, hfd] at ht
  exact Option.some.inj ht

end

end OutfileState

/-! ## What a step does -/

section
variable {o : CommandOptions} {s s' : OutfileState} {a : OutfileAction}

inductive OutfileEffect (o : CommandOptions) (s : OutfileState) (a : OutfileAction)
    (s' : OutfileState) : Prop where
  | write (fd : OutputFd) (buf : Bytes) (unbroken : (s.pipe fd).broken = false)
      (eq : s' = s.setPipe fd { s.pipe fd with
        written := (s.pipe fd).written ++ buf, unread := (s.pipe fd).unread ++ buf })
  | close (fd : OutputFd) (eq : s' = s.setPipe fd { s.pipe fd with closed := true })
  | moved (revents : List PollFlags) (pc : OutfilePc) (stays : pc ≠ .returned)
      (eq : s' = { s with revents, pc })
  | managed (revents : Option (List PollFlags)) (action : a = .poll revents)
      (event : revents.all (·.any PollFlags.event) = true) (eq : s' = (s.polled revents).manage)
  | read (fd : OutputFd) (n : Nat) (wroteStderr : Bool) (pc : OutfilePc) (stays : pc ≠ .returned)
      (mem : fd ∈ s.fdTracker) (size : n ≤ bsize)
      (eq : s' = { s.setPipe fd { s.pipe fd with unread := (s.pipe fd).unread.drop n } with
        file := (s.file.writeChunk o fd wroteStderr ((s.pipe fd).unread.take n)).1, pc })
  | ended (i : Nat) (fd : OutputFd) (wroteStderr : Bool) (maxOutsiz : Nat)
      (eq : s' = s.endDescriptor o i fd wroteStderr maxOutsiz)

/-- **What one step does.** -/
theorem outfileStep_cases (hi : s.Inv) (h : outfileStep o s a = some s') :
    OutfileEffect o s a s' := by
  cases a with
  | write fd buf =>
    simp only [outfileStep] at h
    split at h <;> cases h
    rename_i hopen
    simp only [Bool.or_eq_true, not_or, Bool.not_eq_true] at hopen
    exact .write fd buf hopen.2 rfl
  | close fd =>
    cases h
    exact .close fd rfl
  | poll revents =>
    simp only [outfileStep] at h
    split at h <;> cases h
    rename_i hpc
    split
    · rename_i hevent
      exact .managed revents rfl hevent rfl
    · exact .moved (s.polled revents).revents s.pc (by simp [hpc.1]) (by cases revents <;> rfl)
  | next =>
    simp only [outfileStep] at h
    repeat' split at h
    all_goals cases h
    all_goals exact .moved s.revents _ (by simp) rfl
  | read res =>
    simp only [outfileStep] at h
    split at h <;> try cases h
    split at h <;> try cases h
    rename_i fd tracked hfd ht
    obtain rfl := hi.tracked_eq hfd ht
    cases res with
    | data n =>
      simp only at h
      split at h <;> cases h
      rename_i hn
      exact .read fd n _ _ (by simp) (List.mem_of_getElem? ht) hn.2.1 rfl
    | eof =>
      simp only at h
      split at h <;> cases h
      exact .ended _ fd _ _ rfl
    | error =>
      cases h
      exact .ended _ fd _ _ rfl
  | innerPoll revents =>
    simp only [outfileStep] at h
    split at h <;> try cases h
    split at h <;> try cases h
    cases revents with
    | none =>
      cases h
      exact .ended _ _ _ _ rfl
    | some revents =>
      simp only at h
      split at h <;> try cases h
      split at h <;> cases h
      · exact .moved s.revents _ (by simp) rfl
      · exact .ended _ _ _ _ rfl

/-- One pipe changes, and still has what the child has written. -/
theorem OutfileState.Inv.setPipe (hi : s.Inv) {fd : OutputFd} {p : OutputPipe}
    (hbroken : p.broken = (s.pipe fd).broken)
    (htext : s.file.textOf fd ++ p.unread = p.written) : (s.setPipe fd p).Inv where
  tracked := hi.tracked
  nodup := hi.nodup
  size := hi.size
  open_iff fd' := by
    by_cases hfd : fd' = fd
    · subst hfd
      rw [OutfileState.setPipe_self, hbroken]
      exact hi.open_iff fd'
    · rw [OutfileState.setPipe_of_ne s p hfd]
      exact hi.open_iff fd'
  text fd' := by
    by_cases hfd : fd' = fd
    · subst hfd
      rw [OutfileState.setPipe_self]
      exact htext
    · rw [OutfileState.setPipe_of_ne s p hfd]
      exact hi.text fd'
  returned := hi.returned

theorem OutfileState.Inv.step (hmax : o.sysMaxOutLen = 0) (hi : s.Inv)
    (h : outfileStep o s a = some s') : s'.Inv := by
  cases outfileStep_cases hi h with
  | write fd buf unbroken eq =>
    subst eq
    refine hi.setPipe rfl ?_
    rw [← List.append_assoc, hi.text]
  | close fd eq =>
    subst eq
    exact hi.setPipe rfl (hi.text fd)
  | moved revents pc stays eq =>
    subst eq
    exact ⟨hi.tracked, hi.nodup, hi.size, hi.open_iff, hi.text, fun hr => absurd hr stays⟩
  | managed revents action event eq =>
    subst eq
    exact (hi.polled revents).manage
  | read fd n wroteStderr pc stays mem size eq =>
    subst eq
    have hlen : ((s.pipe fd).unread.take n).length ≤ bsize := by
      rw [List.length_take]
      omega
    refine ⟨hi.tracked, hi.nodup, hi.size, fun fd' => ?_, fun fd' => ?_, fun hr => absurd hr stays⟩
    · refine (hi.open_iff fd').trans ?_
      by_cases hfd : fd' = fd
      · subst hfd
        simp only [OutfileState.setPipe_self]
      · simp only [OutfileState.setPipe_of_ne s _ hfd]
    · simp only [Outfile.textOf_writeChunk hmax s.file fd' fd wroteStderr hlen]
      by_cases hfd : fd' = fd
      · subst hfd
        simp only [OutfileState.setPipe_self, if_true]
        rw [List.append_assoc, List.take_append_drop]
        exact hi.text fd'
      · simp only [OutfileState.setPipe_of_ne s _ hfd, if_neg (Ne.symm hfd), List.append_nil]
        exact hi.text fd'
  | ended i fd wroteStderr maxOutsiz eq =>
    subst eq
    refine ⟨hi.tracked, hi.nodup, hi.size, hi.open_iff, fun fd' => ?_, by simp [endDescriptor]⟩
    simp only [OutfileState.endDescriptor, Outfile.textOf_endMark]
    exact hi.text fd'

/-- **What is in a pipe whose read end is closed stays there.** -/
theorem unread_step (hi : s.Inv) (h : outfileStep o s a = some s') {fd : OutputFd}
    (hbroken : (s.pipe fd).broken = true) :
    (s'.pipe fd).broken = true ∧ (s'.pipe fd).unread = (s.pipe fd).unread := by
  cases outfileStep_cases hi h with
  | write fd' buf unbroken eq =>
    subst eq
    have hfd : fd ≠ fd' := by
      rintro rfl
      rw [hbroken] at unbroken
      cases unbroken
    rw [OutfileState.setPipe_of_ne s _ hfd]
    exact ⟨hbroken, rfl⟩
  | close fd' eq =>
    subst eq
    by_cases hfd : fd = fd'
    · subst hfd
      rw [OutfileState.setPipe_self]
      exact ⟨hbroken, rfl⟩
    · rw [OutfileState.setPipe_of_ne s _ hfd]
      exact ⟨hbroken, rfl⟩
  | moved revents pc stays eq =>
    subst eq
    exact ⟨hbroken, rfl⟩
  | managed revents action event eq =>
    subst eq
    obtain ⟨hunread, -, hkeeps⟩ := (hi.polled revents).managePollfdsStack.bytes fd
    rw [OutfileState.polled_pipe] at hunread hkeeps
    rw [OutfileState.manage_pipe]
    exact ⟨hkeeps hbroken, hunread⟩
  | read fd' n wroteStderr pc stays mem size eq =>
    subst eq
    have hfd : fd ≠ fd' := by
      rintro rfl
      rw [(hi.open_iff fd).1 mem] at hbroken
      cases hbroken
    simp only [OutfileState.setPipe_of_ne s _ hfd]
    exact ⟨hbroken, trivial⟩
  | ended i fd' wroteStderr maxOutsiz eq =>
    subst eq
    exact ⟨hbroken, rfl⟩

/-! ## Hang-ups -/

/-- Where `manage_pollfds_stack` finds an error bit for the descriptor, its pipe is empty. -/
def Drained (fd : OutputFd) (s : OutfileState) : OutfileAction → Prop
  | .poll revents =>
    revents.all (·.any PollFlags.event) = true → (s.polled revents).Closes fd →
      (s.pipe fd).unread = []
  | _ => True

/-- The read end is closed where an error bit is found, and nowhere else. -/
theorem broken_step (hi : s.Inv) (h : outfileStep o s a = some s') {fd : OutputFd}
    (hopen : (s.pipe fd).broken = false) (hbroken : (s'.pipe fd).broken = true) :
    ∃ revents, a = .poll revents ∧ revents.all (·.any PollFlags.event) = true ∧
      (s.polled revents).Closes fd ∧ (s'.pipe fd).unread = (s.pipe fd).unread := by
  cases outfileStep_cases hi h with
  | managed revents action event eq =>
    subst eq
    have hm := (hi.polled revents).managePollfdsStack
    rw [OutfileState.manage_pipe] at hbroken ⊢
    refine ⟨revents, action, event, ?_, ?_⟩
    · by_contra hc
      rw [hm.others fd hc, OutfileState.polled_pipe, hopen] at hbroken
      cases hbroken
    · rw [(hm.bytes fd).1, OutfileState.polled_pipe]
  | write fd' buf unbroken eq | close fd' eq | read fd' n wroteStderr pc stays mem size eq =>
    subst eq
    by_cases hfd : fd = fd'
    · subst hfd
      simp only [OutfileState.setPipe_self, hopen] at hbroken
      cases hbroken
    · simp only [OutfileState.setPipe_of_ne s _ hfd, hopen] at hbroken
      cases hbroken
  | moved revents pc stays eq | ended i fd' wroteStderr maxOutsiz eq =>
    subst eq
    exact absurd (hopen.symm.trans hbroken) Bool.false_ne_true

theorem broken_of_closes (hi : s.Inv) {revents : Option (List PollFlags)}
    (h : outfileStep o s (.poll revents) = some s')
    (hevent : revents.all (·.any PollFlags.event) = true) {fd : OutputFd}
    (hc : (s.polled revents).Closes fd) :
    (s'.pipe fd).broken = true ∧ (s'.pipe fd).unread = (s.pipe fd).unread := by
  simp only [outfileStep, hevent, if_true] at h
  split at h <;> cases h
  have hm := (hi.polled revents).managePollfdsStack
  rw [OutfileState.manage_pipe, hm.closed fd hc, OutfileState.polled_pipe]
  exact ⟨rfl, rfl⟩

/-- Nothing was in the pipe when its read end was closed. -/
def OutfileState.Emptied (fd : OutputFd) (s : OutfileState) : Prop :=
  (s.pipe fd).broken = true → (s.pipe fd).unread = []

theorem emptied_step (hi : s.Inv) {fd : OutputFd} (he : s.Emptied fd) (hd : Drained fd s a)
    (h : outfileStep o s a = some s') : s'.Emptied fd := by
  intro hbroken
  cases hopen : (s.pipe fd).broken with
  | true => exact (unread_step hi h hopen).2.trans (he hopen)
  | false =>
    obtain ⟨revents, rfl, hevent, hc, hunread⟩ := broken_step hi h hopen hbroken
    exact hunread.trans (hd hevent hc)

end

/-! ## Every run -/

section
variable {o : CommandOptions} (hmax : o.sysMaxOutLen = 0) {s t : OutfileState}
include hmax

theorem unread_run (hi : s.Inv) {l : List OutfileAction} (h : run (outfileStep o) s l = some t)
    {fd : OutputFd} (hbroken : (s.pipe fd).broken = true) :
    (t.pipe fd).broken = true ∧ (t.pipe fd).unread = (s.pipe fd).unread := by
  have hstep (u : OutfileState) (a : OutfileAction) (v : OutfileState)
      (hu : u.Inv ∧ (u.pipe fd).broken = true ∧ (u.pipe fd).unread = (s.pipe fd).unread)
      (hs : outfileStep o u a = some v) :
      v.Inv ∧ (v.pipe fd).broken = true ∧ (v.pipe fd).unread = (s.pipe fd).unread := by
    obtain ⟨hv, hsame⟩ := unread_step hu.1 hs hu.2.1
    exact ⟨hu.1.step hmax hs, hv, hsame.trans hu.2.2⟩
  exact (run_invariant hstep ⟨hi, hbroken, rfl⟩ h).2

/-- **Every pipe was emptied before it was closed exactly in the runs along `Drained`.** -/
theorem along_drained_iff {fd : OutputFd} :
    ∀ {l : List OutfileAction} {s : OutfileState}, s.Inv → s.Emptied fd →
      run (outfileStep o) s l = some t →
      (Along (outfileStep o) (Drained fd) s l ↔ t.Emptied fd)
  | [], s, _, he, h => by
    cases h
    exact iff_of_true trivial he
  | a :: l, s, hi, he, h => by
    obtain ⟨s', hs, hr⟩ := run_cons_eq_some.1 h
    have hi' := hi.step hmax hs
    constructor
    · rintro ⟨hd, hrest⟩
      exact (along_drained_iff hi' (emptied_step hi he hd hs) hr).1 (hrest s' hs)
    · intro ht
      have hd : Drained fd s a := by
        cases a with
        | poll revents =>
          intro hevent hc
          obtain ⟨hbroken, hunread⟩ := broken_of_closes hi hs hevent hc
          obtain ⟨hbroken', hunread'⟩ := unread_run hmax hi' hr hbroken
          exact (hunread'.trans hunread).symm.trans (ht hbroken')
        | write fd buf | close fd | next | read res | innerPoll revents => trivial
      refine ⟨hd, fun u hu => ?_⟩
      obtain rfl : s' = u := Option.some.inj (hs.symm.trans hu)
      exact (along_drained_iff hi' (emptied_step hi he hd hs) hr).2 ht

end

/-- **The file has every byte that the child wrote on a pipe, in order, exactly when the pipe was
empty whenever `manage_pollfds_stack` found an error bit for it.** -/
theorem output_kept_iff {o : CommandOptions} (hmax : o.sysMaxOutLen = 0)
    {garbage : List PollFlags} {l : List OutfileAction} {s : OutfileState}
    (h : run (outfileStep o) (.init o garbage) l = some s) (hreturned : s.pc = .returned)
    (fd : OutputFd) :
    s.file.textOf fd = (s.pipe fd).written ↔
      Along (outfileStep o) (Drained fd) (.init o garbage) l := by
  have hinit := OutfileState.inv_init o garbage
  have he : (OutfileState.init o garbage).Emptied fd := by
    intro _
    rw [OutfileState.init]
    split <;> cases fd <;> rfl
  have hi : s.Inv := run_invariant (fun _ _ _ hi hs => OutfileState.Inv.step hmax hi hs) hinit h
  have hbroken : (s.pipe fd).broken = true := by
    have hopen := hi.open_iff fd
    rw [hi.returned hreturned] at hopen
    simpa using hopen
  rw [along_drained_iff hmax hinit he h, OutfileState.Emptied, ← hi.text fd]
  constructor
  · intro htext _
    exact List.self_eq_append_right.1 htext
  · intro hempty
    rw [hempty hbroken, List.append_nil]

def unlimited : CommandOptions := { sysMaxOutLen := 0, sysNoStderr := true }

/-- The child's output is read before it hangs up. -/
def readInTime : List OutfileAction :=
  [.write .stdout [1], .poll (some [{ pollin := true }]), .next, .read (.data 1),
    .innerPoll (some {}), .next, .close .stdout, .poll (some [{ pollhup := true }])]

theorem output_kept_iff_readInTime :
    Along (outfileStep unlimited) (Drained .stdout) (.init unlimited [{}, {}]) readInTime := by
  have hrun : ∃ s, run (outfileStep unlimited) (.init unlimited [{}, {}]) readInTime = some s ∧
      s.pc = .returned ∧ s.file.textOf .stdout = (s.pipe .stdout).written := ⟨_, rfl, rfl, rfl⟩
  obtain ⟨s, hs, hreturned, htext⟩ := hrun
  exact (output_kept_iff rfl hs hreturned .stdout).1 htext

/-- The child writes a byte and exits; `poll` reports both. -/
def writeAndExit : List OutfileAction :=
  [.write .stdout [1], .close .stdout, .poll (some [{ pollin := true, pollhup := true }])]

theorem output_lost : ¬ ∀ (o : CommandOptions) (garbage : List PollFlags)
    (l : List OutfileAction) (s : OutfileState), o.sysMaxOutLen = 0 →
      run (outfileStep o) (.init o garbage) l = some s → s.pc = .returned →
        s.file.textOf .stdout = (s.pipe .stdout).written := by
  intro h
  have htext := h unlimited [{}, {}] writeAndExit _ rfl rfl rfl
  revert htext
  decide

end Musicat.Child
