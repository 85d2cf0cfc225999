import Musicat.Audio.ChainFlow
import Musicat.Lib.Run

/-!
# The end of decoding

`run_processor` without a command: it reads what ffmpeg writes, hands it to the
chain of helpers, and leaves its loop when the pipe of ffmpeg has hung up; then
it shuts the chain down and waits for the helpers. ffmpeg writes its output and
ends, the helpers take their steps, and each system call of the processor comes
in between as the scheduler likes. `processor_delivers` is about every run in
which no loop gives up while bytes are left behind it (`Processor.Awaits`).
-/

namespace Musicat.Audio

open Lib

/-- Where `run_processor` is. -/
inductive ProcessorPc where
  /-- At the poll of ffmpeg's output. -/
  | poll
  /-- In the reading loop, at its `read` or at its `poll`. -/
  | read
  | innerPoll
  /-- In the chain, for the `write_stdout` of the reading loop or for the one behind it. -/
  | chain (c : ChainRun) (inner : Bool)
  /-- Behind the loop, at the `waitpid` for ffmpeg. -/
  | waitDecoder
  | shutdown (c : ChainRun)
  /-- At the `waitpid` for the helper `i`. -/
  | reap (i : Nat)
  | returned
  deriving DecidableEq, Repr

structure Processor (σ : Type*) where
  /-- What ffmpeg has still to write. -/
  decoder : List UInt8
  /-- What its pipe holds. -/
  preadfd : List UInt8 := []
  /-- It has closed the pipe and ended. -/
  decoderClosed : Bool := false
  chain : HelperChain σ
  /-- The `current_read` bytes in `out_buffer`. -/
  outBuffer : List UInt8 := []
  pc : ProcessorPc := .poll

inductive ProcessorAction where
  /-- ffmpeg writes so many bytes. -/
  | decode (n : Nat)
  | decoderClose
  | helper (i : Nat) (a : StageAction)
  /-- The processor goes on, and its system calls return this. -/
  | call (call : Syscall)
  deriving DecidableEq, Repr

/-- What a chain of helpers makes of `l`. -/
def chainOutput {σ : Type*} (ts : List (Transducer σ UInt8 UInt8)) (l : List UInt8) : List UInt8 :=
  ts.foldl (fun l t => t.output l) l

namespace Processor

variable {σ : Type*}

/-- A new helper for each transducer, and a decoder that is going to write `input`. -/
def init (ts : List (Transducer σ UInt8 UInt8)) (input : List UInt8) : Processor σ :=
  { decoder := input, chain := { helpers := ts.map Stage.start } }

/-- `write_stdout` behind the chain, with what the chain left of `*size`. -/
def writeFifo (p : Processor σ) (size : Nat) (inner : Bool) : Processor σ :=
  { p with
    chain := { p.chain with writeFifo := p.chain.writeFifo ++ p.outBuffer.take size }
    outBuffer := []
    pc := if inner then .innerPoll else .poll }

/-- `write_stdout (out_buffer, &current_read)`. -/
def writeStdout (p : Processor σ) (inner : Bool) : Processor σ :=
  if p.outBuffer.isEmpty || p.chain.helpers.isEmpty then p.writeFifo p.outBuffer.length inner
  else { p with pc := .chain (.ofBuffer p.outBuffer p.chain.helpers.length) inner }

/-- Behind the reading loop: a last buffer is written. -/
def behindReading (p : Processor σ) : Processor σ :=
  if p.outBuffer.isEmpty then { p with pc := .poll } else p.writeStdout false

/-- `shutdown_chain`, up to the loop of `run_through_chain`. -/
def shutdownChain (p : Processor σ) : Processor σ :=
  if p.chain.helpers.isEmpty then { p with pc := .reap 0 }
  else
    { p with
      chain := p.chain.closeFd (.write 0)
      pc := .shutdown (.ofShutdown p.chain.helpers.length) }

/-- One step of `run_processor`. -/
def call (p : Processor σ) (call : Syscall) : Option (Processor σ) :=
  match p.pc with
  | .poll =>
    match call.revents with
    | [r] =>
      if r.OfPipe p.preadfd p.decoderClosed then
        -- ffmpeg done reading, whatever is left in its pipe
        if r.pollhup then some { p with pc := .waitDecoder }
        else if r.pollin then some { p with pc := .read }
        else some p.behindReading
      else none
    | _ => none
  | .read =>
    (readPipe p.preadfd p.decoderClosed call.size).map fun (outBuffer, preadfd) =>
      if outBuffer.isEmpty then { p with preadfd, outBuffer }.behindReading
      else { p with preadfd, outBuffer }.writeStdout true
  | .innerPoll =>
    match call.revents with
    | [r] =>
      if r.OfPipe p.preadfd p.decoderClosed then
        if r.pollin then some { p with pc := .read } else some p.behindReading
      else none
    | _ => none
  | .chain c inner =>
    if c.pc = .returned then some (p.writeFifo c.size inner)
    else (p.chain.step c call).map fun (chain, c) => { p with chain, pc := .chain c inner }
  | .waitDecoder => if p.decoderClosed then some p.shutdownChain else none
  | .shutdown c =>
    if c.pc = .returned then
      some { p with chain := { p.chain with pendingWrite := [], pendingRead := [] }, pc := .reap 0 }
    else (p.chain.step c call).map fun (chain, c) => { p with chain, pc := .shutdown c }
  | .reap i =>
    match p.chain.helpers[i]? with
    | none => some { p with pc := .returned }
    | some h => if h.outClosed then some { p with pc := .reap (i + 1) } else none
  | .returned => none

end Processor

def processorStep {σ : Type*} (p : Processor σ) : ProcessorAction → Option (Processor σ)
  | .decode n =>
    if 0 < n ∧ n ≤ p.decoder.length ∧ p.decoderClosed = false then
      some { p with decoder := p.decoder.drop n, preadfd := p.preadfd ++ p.decoder.take n }
    else none
  | .decoderClose => if p.decoder.isEmpty then some { p with decoderClosed := true } else none
  | .helper i a =>
    p.chain.helpers[i]?.bind fun h =>
      (h.step a).map fun h =>
        { p with chain := { p.chain with helpers := p.chain.helpers.set i h } }
  | .call call => p.call call

namespace Processor

variable {σ : Type*}

/-- No loop gives up while bytes are left behind it: the hang-up of ffmpeg is seen when its pipe is
empty, and `run_through_chain` does not give up its buffer or its shutdown. -/
def Awaits (p : Processor σ) : ProcessorAction → Prop
  | .call call =>
    match p.pc with
    | .poll => call.revents.any (·.pollhup) → p.preadfd = []
    | .chain c _ | .shutdown c => p.chain.Awaits c call
    | _ => True
  | _ => True

/-! ## The invariant -/

section
variable {p p' : Processor σ} {s s' : HelperChain σ} {up out : List UInt8}

/-- The chain between two calls in the main loop, when `up` is still to come to it. -/
structure Idle (s : HelperChain σ) (up out : List UInt8) : Prop where
  wf : PipeWf s.helpers up
  out : s.writeFifo ++ pipeRest s.helpers up = out
  opened : true ∉ s.helpers.map Stage.inClosed

theorem Idle.flow (hi : Idle s up out) (hf : ChainFlow s s' up) : Idle s' up out := by
  obtain ⟨d, hfifo, hrest⟩ := hf.rest
  refine ⟨hf.wf, ?_, hf.moved.closed ▸ hi.opened⟩
  rw [hfifo, List.append_assoc, ← hrest]
  exact hi.out

/-- What is still to come from ffmpeg. -/
def upstream (p : Processor σ) : List UInt8 := p.preadfd ++ p.decoder

/-- `out` is what is written in the end. -/
def Delivers (p : Processor σ) (out : List UInt8) : Prop :=
  match p.pc with
  | .poll | .read | .innerPoll => p.outBuffer = [] ∧ Idle p.chain p.upstream out
  | .chain c _ => ChainInv p.chain c p.upstream out ∧ c.shutdown = false
  | .waitDecoder => Idle p.chain [] out
  | .shutdown c => ChainInv p.chain c [] out ∧ c.shutdown = true
  | .reap _ | .returned => p.chain.writeFifo = out

structure Inv (p : Processor σ) (out : List UInt8) : Prop where
  closed : p.decoderClosed = true → p.decoder = []
  delivers : p.Delivers out

theorem inv_init (ts : List (Transducer σ UInt8 UInt8)) (input : List UInt8) :
    (init ts input).Inv (chainOutput ts input) := by
  refine ⟨nofun, rfl, pipeWf_start ts _, pipeRest_start ts _, ?_⟩
  simp [init, Stage.start]

theorem delivers_writeStdout (inner : Bool) (hi : Idle p.chain (p.outBuffer ++ p.upstream) out) :
    (p.writeStdout inner).Delivers out := by
  unfold writeStdout
  split
  · rename_i hempty
    have hidle : Idle { p.chain with writeFifo := p.chain.writeFifo ++ p.outBuffer } p.upstream
        out := by
      rcases Bool.or_eq_true_iff.1 hempty with h | h
      · have hnil := List.isEmpty_iff.1 h
        rw [hnil] at hi ⊢
        rw [List.append_nil]
        exact hi
      · have hnil := List.isEmpty_iff.1 h
        refine ⟨by rw [hnil]; trivial, ?_, hi.opened⟩
        have hout := hi.out
        rw [hnil] at hout ⊢
        rw [List.append_assoc]
        exact hout
    unfold writeFifo
    rw [List.take_length]
    cases inner with
    | true => exact ⟨rfl, hidle⟩
    | false => exact ⟨rfl, hidle⟩
  · rename_i hne
    simp only [Bool.or_eq_true, List.isEmpty_iff, not_or] at hne
    have hinv := chainInv_ofBuffer hne.2 hi.wf hi.opened
    rw [hi.out] at hinv
    exact ⟨hinv, rfl⟩

theorem delivers_behindReading (hnil : p.outBuffer = []) (hi : Idle p.chain p.upstream out) :
    p.behindReading.Delivers out := by
  unfold behindReading
  rw [if_pos (List.isEmpty_iff.2 hnil)]
  exact ⟨hnil, hi⟩

theorem delivers_shutdownChain (hi : Idle p.chain [] out) : p.shutdownChain.Delivers out := by
  unfold shutdownChain
  split
  · rename_i hempty
    have hout := hi.out
    rw [List.isEmpty_iff.1 hempty, pipeRest, List.append_nil] at hout
    exact hout
  · rename_i hne
    have hinv := chainInv_ofShutdown (fun h => hne (List.isEmpty_iff.2 h)) hi.wf hi.opened
    rw [hi.out] at hinv
    exact ⟨hinv, rfl⟩

/-- A step in the chain. -/
theorem delivers_chainStep {c : ChainRun} {call : Syscall} {up : List UInt8}
    (pc : ChainRun → ProcessorPc) (hi : ChainInv p.chain c up out) (ha : p.chain.Awaits c call)
    (hpc : ∀ s c', ChainInv s c' up out ∧ c'.shutdown = c.shutdown →
      ({ p with chain := s, pc := pc c' } : Processor σ).Delivers out)
    (h : ((p.chain.step c call).map fun (chain, c) => { p with chain, pc := pc c }) = some p') :
    p'.Delivers out := by
  obtain ⟨⟨s, c'⟩, hstep, rfl⟩ := Option.map_eq_some_iff.1 h
  exact hpc s c' (chainInv_step hi ha hstep)

theorem writeStdout_frame (p : Processor σ) (inner : Bool) :
    (p.writeStdout inner).decoder = p.decoder ∧
      (p.writeStdout inner).decoderClosed = p.decoderClosed := by
  unfold writeStdout
  split <;> exact ⟨rfl, rfl⟩

theorem behindReading_frame (p : Processor σ) :
    p.behindReading.decoder = p.decoder ∧ p.behindReading.decoderClosed = p.decoderClosed := by
  unfold behindReading
  split
  · exact ⟨rfl, rfl⟩
  · exact writeStdout_frame p false

/-- The processor does not touch what ffmpeg has still to write. -/
theorem call_frame {call : Syscall} (h : p.call call = some p') :
    p'.decoder = p.decoder ∧ p'.decoderClosed = p.decoderClosed := by
  unfold Processor.call at h
  split at h
  · split at h
    · obtain ⟨-, h⟩ := Option.ite_none_right_eq_some.1 h
      split at h
      · cases h
        exact ⟨rfl, rfl⟩
      · split at h
        · cases h
          exact ⟨rfl, rfl⟩
        · cases h
          exact behindReading_frame p
    · cases h
  · obtain ⟨⟨d, rest⟩, -, rfl⟩ := Option.map_eq_some_iff.1 h
    dsimp only
    split
    · exact behindReading_frame _
    · exact writeStdout_frame _ true
  · split at h
    · obtain ⟨-, h⟩ := Option.ite_none_right_eq_some.1 h
      split at h
      · cases h
        exact ⟨rfl, rfl⟩
      · cases h
        exact behindReading_frame p
    · cases h
  · split at h
    · cases h
      exact ⟨rfl, rfl⟩
    · obtain ⟨_, -, rfl⟩ := Option.map_eq_some_iff.1 h
      exact ⟨rfl, rfl⟩
  · obtain ⟨-, h⟩ := Option.ite_none_right_eq_some.1 h
    cases h
    unfold shutdownChain
    split <;> exact ⟨rfl, rfl⟩
  · split at h
    · cases h
      exact ⟨rfl, rfl⟩
    · obtain ⟨_, -, rfl⟩ := Option.map_eq_some_iff.1 h
      exact ⟨rfl, rfl⟩
  · split at h
    · cases h
      exact ⟨rfl, rfl⟩
    · obtain ⟨-, h⟩ := Option.ite_none_right_eq_some.1 h
      cases h
      exact ⟨rfl, rfl⟩
  · cases h

/-- Bytes are read from ffmpeg and handed on. -/
theorem delivers_read {size : Nat} (hi : Idle p.chain p.upstream out)
    (h : ((readPipe p.preadfd p.decoderClosed size).map fun (outBuffer, preadfd) =>
      if outBuffer.isEmpty then ({ p with preadfd, outBuffer } : Processor σ).behindReading
      else { p with preadfd, outBuffer }.writeStdout true) = some p') : p'.Delivers out := by
  obtain ⟨⟨d, rest⟩, hread, rfl⟩ := Option.map_eq_some_iff.1 h
  obtain ⟨hheld, -⟩ := readPipe_eq hread
  have hup : p.upstream = d ++ (rest ++ p.decoder) := by
    rw [upstream, hheld, List.append_assoc]
  rw [hup] at hi
  dsimp only
  split
  · rename_i hd
    have hd := List.isEmpty_iff.1 hd
    rw [hd, List.nil_append] at hi
    exact delivers_behindReading hd hi
  · exact delivers_writeStdout true hi

theorem delivers_call {call : Syscall} (hi : p.Inv out) (ha : p.Awaits (.call call))
    (h : p.call call = some p') : p'.Delivers out := by
  have hdel := hi.delivers
  unfold Processor.call at h
  unfold Delivers at hdel
  unfold Awaits at ha
  cases hpc : p.pc with
  | poll =>
    simp only [hpc] at h hdel ha
    split at h
    · rename_i r hr
      obtain ⟨hpipe, h⟩ := Option.ite_none_right_eq_some.1 h
      split at h
      · rename_i hhup
        cases h
        -- ffmpeg has ended, and nothing is left in its pipe
        have hup : p.upstream = [] := by
          rw [upstream, ha (by rw [hr, List.any_cons, hhup, Bool.true_or]),
            hi.closed (hpipe.2.2 hhup).1]
          rfl
        rw [hup] at hdel
        exact hdel.2
      · split at h
        · cases h
          exact hdel
        · cases h
          exact delivers_behindReading hdel.1 hdel.2
    · cases h
  | read =>
    simp only [hpc] at h hdel
    exact delivers_read hdel.2 h
  | innerPoll =>
    simp only [hpc] at h hdel
    split at h
    · obtain ⟨-, h⟩ := Option.ite_none_right_eq_some.1 h
      split at h
      · cases h
        exact hdel
      · cases h
        exact delivers_behindReading hdel.1 hdel.2
    · cases h
  | chain c inner =>
    simp only [hpc] at h hdel ha
    obtain ⟨hinv, hs⟩ := hdel
    split at h
    · rename_i hret
      cases h
      obtain ⟨hsize, hwf, hout, hopen⟩ := hinv.returned hret hs
      have hidle : Idle p.chain p.upstream out := ⟨hwf, hout, hopen⟩
      unfold writeFifo
      rw [hsize, List.take_zero, List.append_nil]
      cases inner with
      | true => exact ⟨rfl, hidle⟩
      | false => exact ⟨rfl, hidle⟩
    · exact delivers_chainStep (fun c => .chain c inner) hinv ha
        (fun s c' hc => ⟨hc.1, hc.2.trans hs⟩) h
  | waitDecoder =>
    simp only [hpc] at h hdel
    obtain ⟨-, h⟩ := Option.ite_none_right_eq_some.1 h
    cases h
    exact delivers_shutdownChain hdel
  | shutdown c =>
    simp only [hpc] at h hdel ha
    obtain ⟨hinv, hs⟩ := hdel
    split at h
    · rename_i hret
      cases h
      exact hinv.delivered hret hs
    · exact delivers_chainStep .shutdown hinv ha (fun s c' hc => ⟨hc.1, hc.2.trans hs⟩) h
  | reap i =>
    simp only [hpc] at h hdel
    split at h
    · cases h
      exact hdel
    · obtain ⟨-, h⟩ := Option.ite_none_right_eq_some.1 h
      cases h
      exact hdel
  | returned =>
    simp only [hpc] at h
    cases h

/-- A helper takes a step. -/
theorem delivers_helper {i : Nat} {x x' : Stage σ UInt8} {a : StageAction} (hi : p.Delivers out)
    (hx : p.chain.helpers[i]? = some x) (hs : x.step a = some x') :
    ({ p with chain := { p.chain with helpers := p.chain.helpers.set i x' } } :
      Processor σ).Delivers out := by
  unfold Delivers at hi ⊢
  cases hpc : p.pc <;> simp only [hpc] at hi ⊢
  case poll | read | innerPoll => exact ⟨hi.1, hi.2.flow (.helper hi.2.wf hx hs)⟩
  case chain c inner => exact ⟨hi.1.helper hx hs, hi.2⟩
  case waitDecoder => exact hi.flow (.helper hi.wf hx hs)
  case shutdown c => exact ⟨hi.1.helper hx hs, hi.2⟩
  case reap i => exact hi
  case returned => exact hi

theorem inv_step {a : ProcessorAction} (hi : p.Inv out) (ha : p.Awaits a)
    (h : processorStep p a = some p') : p'.Inv out := by
  cases a with
  | decode n =>
    obtain ⟨hn, h⟩ := Option.ite_none_right_eq_some.1 h
    cases h
    refine ⟨fun hc => absurd (hn.2.2.symm.trans hc) (by decide), ?_⟩
    have hup : p.preadfd ++ p.decoder.take n ++ p.decoder.drop n = p.upstream := by
      rw [List.append_assoc, List.take_append_drop, upstream]
    have hdel := hi.delivers
    unfold Delivers at hdel ⊢
    rw [← hup] at hdel
    exact hdel
  | decoderClose =>
    obtain ⟨hnil, h⟩ := Option.ite_none_right_eq_some.1 h
    cases h
    exact ⟨fun _ => List.isEmpty_iff.1 hnil, hi.delivers⟩
  | helper i a =>
    obtain ⟨x, hx, h⟩ := Option.bind_eq_some_iff.1 h
    obtain ⟨x', hs, rfl⟩ := Option.map_eq_some_iff.1 h
    exact ⟨hi.closed, delivers_helper hi.delivers hx hs⟩
  | call call =>
    obtain ⟨hdecoder, hclosed⟩ := call_frame h
    exact ⟨fun hc => hdecoder.trans (hi.closed (hclosed.symm.trans hc)), delivers_call hi ha h⟩

/-! ## Every run -/

variable {ts : List (Transducer σ UInt8 UInt8)} {input : List UInt8} {l : List ProcessorAction}

/-- **What `run_processor` delivers**: in every run in which no loop gives up too early, it has
written what the helpers make of all that ffmpeg wrote when it returns. -/
theorem processor_delivers (hawaits : Along processorStep Awaits (init ts input) l)
    (hrun : run processorStep (init ts input) l = some p) (hret : p.pc = .returned) :
    p.chain.writeFifo = chainOutput ts input := by
  have hinv : p.Inv (chainOutput ts input) :=
    run_inv (fun _ _ _ hi ha hs => inv_step hi ha hs) (inv_init ts input) hawaits hrun
  have hdel := hinv.delivers
  unfold Delivers at hdel
  simp only [hret] at hdel
  exact hdel

end

/-! ## Three runs -/

/-- A helper that holds each byte back until the next. -/
def holdOne : Transducer (List UInt8) UInt8 UInt8 where
  init := []
  feed held b := ([b], held)
  flush held := held

/-- Two bytes are decoded and handed to a helper, and ffmpeg ends. -/
def handOver : List ProcessorAction :=
  [.decode 2, .call { revents := [{ pollin := true }] }, .call { size := 2 },
    .call { revents := [{ pollout := true }, {}] }, .call {}, .call {}, .call {}, .call {},
    .call { revents := [{}] }, .decoderClose, .call { revents := [{ pollhup := true }] }, .call {}]

/-- The shutdown reads a byte, and in its next round the last one, and then sees the hang-up. -/
def drain : List ProcessorAction :=
  [.helper 0 (.read 2), .helper 0 (.write 1), .call { revents := [{ pollin := true }] }, .call {},
    .call { size := 1 }, .call { revents := [{}] }, .call {}, .call {},
    .helper 0 .eof, .helper 0 (.write 1), .helper 0 .close,
    .call { revents := [{ pollin := true, pollhup := true }] }, .call {},
    .call { size := 1 }, .call { revents := [{ pollhup := true }] }, .call {}, .call {},
    .call { revents := [{ pollhup := true }] }, .call {}, .call {}, .call {}, .call {}, .call {}]

instance (s : HelperChain σ) (c : ChainRun) (call : Syscall) : Decidable (s.Awaits c call) :=
  match h : c.pc with
  | .poll =>
    decidable_of_iff
      (call.revents.all (· = {}) && s.pendingRead.isEmpty && s.pendingWrite.isEmpty →
        c.size = 0 ∧ (c.shutdown = true → pipeRest s.helpers [] = []))
      (by simp only [HelperChain.Awaits, h])
  | .check =>
    decidable_of_iff
      (c.shutdown && decide (maxShutdownIter ≤ c.iter) && !c.shutdownIsLastHup &&
        !c.currentHasRead → pipeRest s.helpers [] = []) (by simp only [HelperChain.Awaits, h])
  | .visit _ | .firstRead .. | .firstPoll .. | .returned =>
    isTrue (by simp only [HelperChain.Awaits, h])

instance (p : Processor σ) : ∀ a, Decidable (p.Awaits a)
  | .call call =>
    match h : p.pc with
    | .poll =>
      decidable_of_iff (call.revents.any (·.pollhup) → p.preadfd = []) (by simp only [Awaits, h])
    | .chain c _ | .shutdown c =>
      decidable_of_iff (p.chain.Awaits c call) (by simp only [Awaits, h])
    | .read | .innerPoll | .waitDecoder | .reap _ | .returned =>
      isTrue (by simp only [Awaits, h])
  | .decode _ | .decoderClose | .helper .. => isTrue trivial

theorem processor_delivers_two :
    ∃ p, run processorStep (init [holdOne] [1, 2]) (handOver ++ drain) = some p ∧
      p.pc = .returned ∧ p.chain.writeFifo = chainOutput [holdOne] [1, 2] :=
  ⟨_, rfl, rfl, processor_delivers (l := handOver ++ drain) (by decide) rfl rfl⟩

/-- The hang-up of ffmpeg comes together with what it wrote last; the helper of a shutdown takes
more than 10 ms. -/
theorem tail_lost :
    (∃ p : Processor Unit, run processorStep (init [] [1, 2])
        [.decode 2, .decoderClose, .call { revents := [{ pollin := true, pollhup := true }] },
          .call {}, .call {}] = some p ∧
      p.pc = .returned ∧ p.chain.writeFifo ≠ chainOutput ([] : List (Transducer Unit _ _)) [1, 2]) ∧
    ∃ p, run processorStep (init [holdOne] [1, 2])
        (handOver ++ [.call { revents := [{}] }, .call {}, .helper 0 (.read 2), .helper 0 .eof,
          .helper 0 (.write 2), .helper 0 .close, .call {}, .call {}]) = some p ∧
      p.pc = .returned ∧ p.chain.writeFifo ≠ chainOutput [holdOne] [1, 2] :=
  ⟨⟨_, rfl, rfl, by decide⟩, _, rfl, rfl, by decide⟩

end Processor

end Musicat.Audio
