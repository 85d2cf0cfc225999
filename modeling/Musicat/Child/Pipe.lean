import Musicat.Child.Codec
import Musicat.Lib.Run

/-!
# Records on the pipe

`worker::run` takes what one `read` returns for one command. The pipe is a
first-in first-out stream of bytes; `read` returns some of the bytes in it, `0`
at its end or `-1`, and `poll` returns whatever it likes. `read_size` is a
`size_t`, so `-1` is positive and indexes the buffer at `2 ^ 64 - 1`.
-/

namespace Musicat.Child

open Lib

/-- `revents`, up to the flags that `worker::run` looks at. -/
structure Revents where
  pollin : Bool := false
  pollhup : Bool := false
  pollerr : Bool := false
  deriving DecidableEq, Repr

def Revents.err (r : Revents) : Bool := r.pollhup || r.pollerr

/-- What `read` returns. -/
inductive ReadResult where
  | data (n : Nat)
  | eof
  | error
  deriving DecidableEq, Repr

/-- Where `worker::run` is: at the `poll` of its outer loop, at the `read` of the reading loop, at
the `poll` that ends its body, or out of both loops. -/
inductive LoopPc where
  | outerPoll
  | reading
  | innerPoll
  | exited
  deriving DecidableEq, Repr

structure WorkerLoop where
  /-- The bytes in the pipe, and whether its write end is closed. -/
  stream : Bytes := []
  closed : Bool := false
  /-- The commands written so far. -/
  written : List Bytes := []
  /-- The buffer `cmd`. -/
  cmd : Bytes
  readSize : Nat := 0
  /-- The indexes at which the terminating NUL was stored. -/
  stores : List Nat := []
  /-- What was passed to `handle_command`. -/
  handled : List Bytes := []
  pc : LoopPc := .outerPoll
  deriving DecidableEq, Repr

namespace WorkerLoop

/-- `cmd[read_size] = '\\0'` and `handle_command (cmd)`. -/
def handle (w : WorkerLoop) (readSize : Nat) : WorkerLoop :=
  let cmd := w.cmd.set readSize 0
  { w with
    cmd, readSize, stores := w.stores ++ [readSize], handled := w.handled ++ [cString cmd]
    pc := .innerPoll }

/-- `read (read_fd, cmd, CMD_BUFSIZE)` and what the reading loop does with the result. -/
def read (w : WorkerLoop) : ReadResult → Option WorkerLoop
  | .data n =>
    if 1 ≤ n ∧ n ≤ cmdBufsize ∧ n ≤ w.stream.length then
      let w := { w with stream := w.stream.drop n, cmd := w.stream.take n ++ w.cmd.drop n }
      some (w.handle n)
    else none
  | .eof =>
    if w.closed ∧ w.stream = [] then some { w with readSize := 0, pc := .outerPoll } else none
  | .error => some (w.handle (2 ^ 64 - 1))

/-- What follows a `poll`; `none` when it timed out. -/
def polled (w : WorkerLoop) (outer : Bool) : Option Revents → WorkerLoop
  | none => { w with pc := .outerPoll }
  | some r =>
    if r.err then { w with pc := if outer then .exited else .outerPoll }
    else if r.pollin then { w with pc := .reading }
    else { w with pc := .outerPoll }

end WorkerLoop

inductive PipeAction where
  /-- `write_command` at the other end. -/
  | write (cmd : Bytes)
  | close
  | poll (revents : Option Revents)
  | read (result : ReadResult)
  deriving DecidableEq, Repr

def pipeStep (w : WorkerLoop) : PipeAction → Option WorkerLoop
  | .write cmd =>
    if w.closed then none
    else
      match writeCommand cmd 0 with
      | none => some w
      | some record =>
        some { w with stream := w.stream ++ record, written := w.written ++ [cmd] }
  | .close => some { w with closed := true }
  | .poll revents =>
    match w.pc with
    | .outerPoll => some (w.polled true revents)
    | .innerPoll => some (w.polled false revents)
    | _ => none
  | .read result => if w.pc = .reading then w.read result else none

/-! ## Whole records -/

/-- Every read returns a whole record, none fails, a hang-up or an error is reported to the outer
loop only when there is nothing left to read, and no command holds a NUL. -/
def WholeRecords (w : WorkerLoop) : PipeAction → Prop
  | .write cmd => (0 : UInt8) ∉ cmd
  | .close => True
  | .poll none => True
  | .poll (some r) => w.pc = .outerPoll → r.err = true → w.closed = true ∧ w.stream = []
  | .read (.data n) => n = cmdBufsize
  | .read .eof => True
  | .read .error => False

instance (w : WorkerLoop) : ∀ a, Decidable (WholeRecords w a)
  | .write cmd => inferInstanceAs (Decidable ((0 : UInt8) ∉ cmd))
  | .close | .poll none | .read .eof => isTrue trivial
  | .poll (some _) => inferInstanceAs (Decidable (_ → _ → _ ∧ _))
  | .read (.data n) => inferInstanceAs (Decidable (n = cmdBufsize))
  | .read .error => isFalse id

theorem length_pad {cmd : Bytes} (h : cmd.length ≤ cmdBufsize) :
    (pad cmd).length = cmdBufsize := by
  simp only [pad, List.length_append, List.length_replicate]
  omega

/-- A record in the buffer, terminated behind it. -/
theorem cString_record {cmd rest : Bytes} (h : (0 : UInt8) ∉ cmd) :
    cString (pad cmd ++ 0 :: rest) = cmd := by
  rw [pad, List.append_assoc, cString_append h]
  cases cmdBufsize - cmd.length <;> simp [cString, List.replicate_succ]

/-- Commands as `write_command` writes them. -/
def Fits (cmd : Bytes) : Prop := cmd.length ≤ cmdBufsize ∧ (0 : UInt8) ∉ cmd

/-- What was written is what was handled and whole records in the pipe; every NUL was stored
inside the buffer; and nothing is left behind at the exit. -/
structure PipeInv (w : WorkerLoop) (pending : List Bytes) : Prop where
  stream : w.stream = pending.flatMap pad
  fits : ∀ c ∈ pending, Fits c
  written : w.written = w.handled ++ pending
  stores : ∀ i ∈ w.stores, i ≤ cmdBufsize
  buffer : w.cmd.length = cmdBufsize + 1
  exited : w.pc = .exited → w.closed = true ∧ w.stream = []

section
variable {w w' : WorkerLoop} {pending : List Bytes}

/-- **Reading a whole record handles the oldest command.** -/
theorem pipeInv_read (hi : PipeInv w pending) (h : w.read (.data cmdBufsize) = some w') :
    ∃ c rest, pending = c :: rest ∧ PipeInv w' rest := by
  simp only [WorkerLoop.read] at h
  split at h
  · rename_i hn
    cases h
    cases pending with
    | nil =>
      rw [hi.stream] at hn
      simp [cmdBufsize] at hn
    | cons c rest =>
      obtain ⟨hlen, hnul⟩ := hi.fits c List.mem_cons_self
      have hpad := length_pad hlen
      have hstream : w.stream = pad c ++ rest.flatMap pad := hi.stream
      have htake : w.stream.take cmdBufsize = pad c := by rw [hstream, ← hpad, List.take_left]
      have hdrop : w.stream.drop cmdBufsize = rest.flatMap pad := by
        rw [hstream, ← hpad, List.drop_left]
      obtain ⟨b, hb⟩ : ∃ b, w.cmd.drop cmdBufsize = [b] := by
        rw [← List.length_eq_one_iff, List.length_drop, hi.buffer]
        omega
      have hset : (pad c ++ [b]).set cmdBufsize 0 = pad c ++ [0] := by
        rw [List.set_append_right _ _ (Nat.le_of_eq hpad), hpad, Nat.sub_self]
        rfl
      refine ⟨c, rest, rfl, ?_⟩
      simp only [WorkerLoop.handle, htake, hdrop, hb, hset, cString_record hnul]
      exact {
        stream := rfl
        fits := fun d hd => hi.fits d (List.mem_cons_of_mem c hd)
        written := by rw [hi.written, List.append_assoc, List.singleton_append]
        stores := fun i hi' => by
          rcases List.mem_append.1 hi' with hi' | hi'
          · exact hi.stores i hi'
          · exact Nat.le_of_eq (List.mem_singleton.1 hi')
        buffer := by simp [hpad]
        exited := fun h => by cases h }
  · cases h

/-- A `poll` moves the loop and nothing else; it ends it only in the outer loop, on an error. -/
theorem polled_spec (w : WorkerLoop) (outer : Bool) (revents : Option Revents) :
    ∃ pc, w.polled outer revents = { w with pc } ∧
      (pc = .exited → outer = true ∧ ∃ r, revents = some r ∧ r.err = true) := by
  unfold WorkerLoop.polled
  split
  · exact ⟨_, rfl, fun h => by cases h⟩
  · rename_i r
    split
    · rename_i herr
      refine ⟨_, rfl, fun h => ?_⟩
      cases outer
      · cases h
      · exact ⟨rfl, r, rfl, herr⟩
    · split <;> exact ⟨_, rfl, fun h => by cases h⟩

/-- **A step along whole records keeps the invariant.** -/
theorem pipeInv_step {a : PipeAction} (hi : PipeInv w pending) (hc : WholeRecords w a)
    (h : pipeStep w a = some w') : ∃ pending', PipeInv w' pending' := by
  cases a with
  | write cmd =>
    simp only [pipeStep] at h
    split at h
    · cases h
    rename_i hopen
    unfold writeCommand at h
    split at h
    · cases h
      exact ⟨pending, hi⟩
    · rename_i record hrec
      cases h
      have hlen : cmd.length ≤ cmdBufsize ∧ pad cmd = record := by
        simpa using hrec
      refine ⟨pending ++ [cmd], { hi with stream := ?_, fits := ?_, written := ?_, exited := ?_ }⟩
      · simp [hi.stream, hlen.2]
      · intro c hcm
        rcases List.mem_append.1 hcm with hcm | hcm
        · exact hi.fits c hcm
        · rw [List.mem_singleton.1 hcm]
          exact ⟨hlen.1, hc⟩
      · simp [hi.written]
      · exact fun he => absurd (hi.exited he).1 hopen
  | close =>
    cases h
    exact ⟨pending, { hi with exited := fun he => ⟨rfl, (hi.exited he).2⟩ }⟩
  | poll revents =>
    simp only [pipeStep] at h
    split at h
    · rename_i hpc
      obtain ⟨pc, hp, hexit⟩ := polled_spec w true revents
      rw [hp, Option.some.injEq] at h
      subst h
      refine ⟨pending, { hi with exited := fun he => ?_ }⟩
      obtain ⟨-, r, rfl, herr⟩ := hexit he
      exact hc hpc herr
    · obtain ⟨pc, hp, hexit⟩ := polled_spec w false revents
      rw [hp, Option.some.injEq] at h
      subst h
      exact ⟨pending, { hi with exited := fun he => by cases (hexit he).1 }⟩
    · cases h
  | read result =>
    simp only [pipeStep] at h
    split at h
    · rename_i hpc
      cases result with
      | data n =>
        obtain rfl : n = cmdBufsize := hc
        obtain ⟨c, rest, -, hi'⟩ := pipeInv_read hi h
        exact ⟨rest, hi'⟩
      | eof =>
        simp only [WorkerLoop.read] at h
        split at h <;> cases h
        exact ⟨pending, { hi with exited := fun he => by cases he }⟩
      | error => exact hc.elim
    · cases h

end

/-! ## Runs of the worker -/

/-- The worker before its first `poll`, its buffer as the stack left it. -/
def startWorker (garbage : Bytes) : WorkerLoop := { cmd := garbage }

/-- **The worker handles the commands written, in order and each once**, and stores its NULs in
the buffer, in every run of whole records: what it has handled is what was written but for the
records still in the pipe, nothing is left when it exits, and the end of the stream ends the
reading loop. -/
theorem commands_handled {garbage : Bytes} (hg : garbage.length = cmdBufsize + 1)
    {l : List PipeAction} {w : WorkerLoop}
    (hc : Along pipeStep WholeRecords (startWorker garbage) l)
    (hrun : run pipeStep (startWorker garbage) l = some w) :
    (∃ pending, w.written = w.handled ++ pending ∧ w.stream = pending.flatMap pad) ∧
      (w.pc = .exited → w.handled = w.written) ∧
      (∀ i ∈ w.stores, i ≤ cmdBufsize) ∧
      ∀ w', pipeStep w (.read .eof) = some w' → w'.pc = .outerPoll := by
  have h0 : PipeInv (startWorker garbage) [] :=
    ⟨rfl, by simp, rfl, by simp [startWorker], hg, fun h => by cases h⟩
  obtain ⟨pending, hi⟩ := run_inv (I := fun w => ∃ pending, PipeInv w pending)
    (fun _ _ _ ⟨_, hi⟩ hc hs => pipeInv_step hi hc hs) ⟨[], h0⟩ hc hrun
  refine ⟨⟨pending, hi.written, hi.stream⟩, fun he => ?_, hi.stores, ?_⟩
  · have hnil : pending = [] := by
      cases pending with
      | nil => rfl
      | cons c rest =>
        have hlen := congrArg List.length (hi.stream.symm.trans (hi.exited he).2)
        have hpad := length_pad (hi.fits c List.mem_cons_self).1
        simp only [List.flatMap_cons, List.length_append, hpad, cmdBufsize, List.length_nil] at hlen
        omega
    simp [hi.written, hnil]
  · intro w' h
    simp only [pipeStep, WorkerLoop.read] at h
    split at h
    · split at h <;> cases h
      rfl
    · cases h

/-! ## A whole record and three broken ones -/

theorem pipeStep_read {w : WorkerLoop} {n : Nat} (hpc : w.pc = .reading) (h1 : 1 ≤ n)
    (hn : n ≤ cmdBufsize) (hlen : n ≤ w.stream.length) :
    pipeStep w (.read (.data n)) =
      some (WorkerLoop.handle
        { w with stream := w.stream.drop n, cmd := w.stream.take n ++ w.cmd.drop n } n) := by
  rw [pipeStep, if_pos hpc, WorkerLoop.read, if_pos ⟨h1, hn, hlen⟩]

/-- A buffer of ones. -/
def ones : Bytes := List.replicate (cmdBufsize + 1) 1

def sampleCommand : Bytes := bytes "id=a;cmd=shut;"

def readable : PipeAction := .poll (some { pollin := true })

/-- The worker about to read the sample command. -/
def loaded : WorkerLoop :=
  { startWorker ones with
    stream := pad sampleCommand, written := [sampleCommand], pc := .reading }

theorem run_loaded {n : Nat} (h1 : 1 ≤ n) (hn : n ≤ cmdBufsize) :
    run pipeStep (startWorker ones) [.write sampleCommand, readable, .read (.data n)] =
      some (WorkerLoop.handle
        { loaded with stream := (pad sampleCommand).drop n
                      cmd := (pad sampleCommand).take n ++ ones.drop n } n) := by
  have hload : run pipeStep (startWorker ones) [.write sampleCommand, readable] = some loaded :=
    rfl
  have hlen : (pad sampleCommand).length = cmdBufsize := length_pad (by decide)
  have happ := @run_append _ _ pipeStep [.write sampleCommand, readable] [.read (.data n)]
    (startWorker ones)
  rw [hload, Option.bind_some] at happ
  refine happ.trans ((run_cons (pipeStep_read rfl h1 hn ?_) []).trans rfl)
  exact Nat.le_trans hn (Nat.le_of_eq hlen.symm)

theorem commands_handled_sample :
    ∃ w, run pipeStep (startWorker ones)
        [.write sampleCommand, readable, .read (.data cmdBufsize)] = some w ∧
      (∃ pending, w.written = w.handled ++ pending ∧ w.stream = pending.flatMap pad) ∧
      (w.pc = .exited → w.handled = w.written) ∧
      (∀ i ∈ w.stores, i ≤ cmdBufsize) ∧
      ∀ w', pipeStep w (.read .eof) = some w' → w'.pc = .outerPoll := by
  have hrun := run_loaded (n := cmdBufsize) (by decide) (Nat.le_refl _)
  refine ⟨_, hrun, @commands_handled ones List.length_replicate _ _ ?_ hrun⟩
  exact ⟨by decide, fun _ _ => ⟨fun _ h => (by cases h), fun _ _ => ⟨rfl, fun _ _ => trivial⟩⟩⟩

/-- A read that ends inside a record, a failing read, and a hang-up before the last record is
read. -/
theorem records_broken :
    (∃ w, run pipeStep (startWorker ones)
        [.write sampleCommand, readable, .read (.data 5)] = some w ∧
      w.written = [sampleCommand] ∧ w.handled = [bytes "id=a;"]) ∧
    (∃ w, run pipeStep (startWorker ones) [readable, .read .error] = some w ∧
      w.stores = [2 ^ 64 - 1] ∧ w.handled.length = 1 ∧ w.pc = .innerPoll) ∧
    (∃ w, run pipeStep (startWorker ones)
        [.write sampleCommand, .close, .poll (some { pollin := true, pollhup := true })] = some w ∧
      w.written = [sampleCommand] ∧ w.handled = [] ∧ w.pc = .exited) :=
  ⟨⟨_, run_loaded (by decide) (by decide), rfl, rfl⟩, ⟨_, rfl, rfl, rfl, rfl⟩,
    ⟨_, rfl, rfl, rfl, rfl⟩⟩

end Musicat.Child
