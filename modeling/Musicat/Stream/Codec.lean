import Musicat.Lib.Run
import Musicat.Lib.Transducer

/-!
# From the decoder to the voice client

`stream_ctx::run` with `USING_STREAM_CODEC` defined. One call feeds frames to the
encoder until it has a packet and passes the packet to the voice client and to
the muxer. The encoder is any transducer, received from and sent to as libav
documents it; the decoder has a list of frames and a status to end with. Seeks,
changes of the effect chain, the progress of the track and the log are left out.
-/

namespace Musicat.Stream

open Lib

/-- `AVERROR (EAGAIN)`. -/
def averrorEagain : Int := -11

def averrorEof : Int := -541478725

structure Decoder (φ : Type*) where
  frames : List φ
  /-- What `process_frame` returns when there is no frame left: the end of the file or an error. -/
  status : Int
  neg : status < 0
  /-- It has been returned. -/
  finished : Bool := false
  deriving DecidableEq, Repr

/-- `stream_codec_t`. -/
structure StreamCodec (σ π : Type*) where
  enc : Buffered σ π
  /-- What `write_packet` was called with; `none` is the NULL that signals the end. -/
  muxed : List (Option π) := []
  deriving DecidableEq, Repr

/-- What the loops of `run` work on. -/
structure Locals (σ φ π : Type*) where
  ret : Int
  pkt : Option π := none
  streamc : StreamCodec σ π
  dec : Decoder φ
  deriving DecidableEq, Repr

section
variable {σ φ π : Type*}

def Decoder.processFrame (dec : Decoder φ) : Except Int φ × Decoder φ :=
  match dec.frames with
  | [] => (.error dec.status, { dec with finished := true })
  | frm :: frames => (.ok frm, { dec with frames })

namespace StreamCodec

def getPacket (c : StreamCodec σ π) : Int × Option π × StreamCodec σ π :=
  match c.enc.receive with
  | (.output pkt, enc) => (0, some pkt, { c with enc })
  | (.again, enc) => (averrorEagain, none, { c with enc })
  | (.ended, enc) => (averrorEof, none, { c with enc })

def writePcmFrame (t : Transducer σ φ π) (frame : Option φ) (c : StreamCodec σ π) :
    Int × StreamCodec σ π :=
  match c.enc.send t frame with
  | some enc => (0, { c with enc })
  | none => (averrorEof, c)

def writePacket (pkt : Option π) (c : StreamCodec σ π) : StreamCodec σ π :=
  { c with muxed := c.muxed ++ [pkt] }

end StreamCodec

theorem processFrame_ok {dec dec' : Decoder φ} {frm : φ} (h : dec.processFrame = (.ok frm, dec')) :
    dec.frames = frm :: dec'.frames := by
  unfold Decoder.processFrame at h
  cases hf : dec.frames with
  | nil =>
    rw [hf] at h
    cases h
  | cons f frames =>
    rw [hf] at h
    cases h
    rfl

variable (t : Transducer σ φ π)

/-- The inner loop of `run`; the last `ret` is that of `process_frame` where it breaks. -/
def innerLoop (streamc : StreamCodec σ π) (dec : Decoder φ) : Locals σ φ π :=
  match streamc.getPacket with
  | (ret, pkt, streamc) =>
    if ret = averrorEagain then
      match _h : dec.processFrame with
      | (.error ret, dec) => { ret, pkt, streamc := (streamc.writePcmFrame t none).2, dec }
      | (.ok frm, dec') =>
        match streamc.writePcmFrame t (some frm) with
        | (written, streamc) =>
          if written = averrorEof then { ret := 0, pkt, streamc, dec := dec' }
          else innerLoop streamc dec'
    else { ret, pkt, streamc, dec }
  termination_by dec.frames.length
  decreasing_by
    rw [processFrame_ok _h]
    exact Nat.lt_succ_self _

section
variable {t} {c c' : StreamCodec σ π} {dec dec' : Decoder φ} {ret : Int} {pkt : Option π}

theorem innerLoop_done (hc : c.getPacket = (ret, pkt, c')) (hret : ret ≠ averrorEagain) :
    innerLoop t c dec = { ret, pkt, streamc := c', dec } := by
  rw [innerLoop, hc]
  exact if_neg hret

theorem innerLoop_error (hc : c.getPacket = (averrorEagain, pkt, c'))
    (hd : dec.processFrame = (.error ret, dec')) :
    innerLoop t c dec = { ret, pkt, streamc := (c'.writePcmFrame t none).2, dec := dec' } := by
  rw [innerLoop, hc]
  dsimp only
  rw [if_pos rfl]
  split
  · rename_i h
    rw [hd] at h
    cases h
    rfl
  · rename_i h
    rw [hd] at h
    cases h

theorem innerLoop_frame {frm : φ} {written : Int} {c'' : StreamCodec σ π}
    (hc : c.getPacket = (averrorEagain, pkt, c')) (hd : dec.processFrame = (.ok frm, dec'))
    (hw : c'.writePcmFrame t (some frm) = (written, c'')) :
    innerLoop t c dec =
      if written = averrorEof then { ret := 0, pkt, streamc := c'', dec := dec' }
      else innerLoop t c'' dec' := by
  rw [innerLoop, hc]
  dsimp only
  rw [if_pos rfl]
  split
  · rename_i h
    rw [hd] at h
    cases h
  · rename_i h
    rw [hd] at h
    cases h
    rw [hw]

end

/-- What the inner loop comes back with: a packet, or the end of the frames, or the end of an
encoder that has been flushed before. -/
inductive Drawn (c : StreamCodec σ π) (dec : Decoder φ) (l : Locals σ φ π) : Prop
  | packet (p : π) (ret : l.ret = 0) (pkt : l.pkt = some p)
      (flushed : l.streamc.enc.flushed = c.enc.flushed)
      (owed : c.enc.owed t dec.frames = p :: l.streamc.enc.owed t l.dec.frames)
      (after : t.after l.streamc.enc.state l.dec.frames = t.after c.enc.state dec.frames)
      (finished : l.dec.finished = dec.finished)
  | lastFrame (ret : l.ret < 0) (pkt : l.pkt = none) (flushed : c.enc.flushed = false)
      (owed : c.enc.owed t dec.frames = [])
      (ready : l.streamc.enc.ready = t.flush (t.after c.enc.state dec.frames))
      (finished : l.dec.finished = true)
  | ended (ret : l.ret < 0) (pkt : l.pkt = none) (flushed : c.enc.flushed = true)

section
variable {t} {c c' : StreamCodec σ π} {dec dec' : Decoder φ}

theorem getPacket_cases (c : StreamCodec σ π) :
    (∃ p ready, c.enc.ready = p :: ready ∧
      c.getPacket = (0, some p, { c with enc := { c.enc with ready } })) ∨
        c.enc.ready = [] ∧ (c.enc.flushed = false ∧ c.getPacket = (averrorEagain, none, c) ∨
          c.enc.flushed = true ∧ c.getPacket = (averrorEof, none, c)) := by
  unfold StreamCodec.getPacket
  rcases Buffered.receive_cases c.enc with ⟨p, ready, hready, hr⟩ | ⟨hready, ⟨hf, hr⟩ | ⟨hf, hr⟩⟩
  · rw [hr]
    exact .inl ⟨p, ready, hready, rfl⟩
  · rw [hr]
    exact .inr ⟨hready, .inl ⟨hf, rfl⟩⟩
  · rw [hr]
    exact .inr ⟨hready, .inr ⟨hf, rfl⟩⟩

theorem innerLoop_packet {p : π} {ready : List π} (hready : c.enc.ready = p :: ready)
    (hget : c.getPacket = (0, some p, { c with enc := { c.enc with ready } })) :
    (innerLoop t c dec).streamc.muxed = c.muxed ∧ Drawn t c dec (innerLoop t c dec) := by
  rw [innerLoop_done hget (by decide)]
  exact ⟨rfl, .packet p rfl rfl rfl (Buffered.owed_cons hready dec.frames) rfl rfl⟩

theorem innerLoop_ended (hget : c.getPacket = (averrorEof, none, c)) (hf : c.enc.flushed = true) :
    (innerLoop t c dec).streamc.muxed = c.muxed ∧ Drawn t c dec (innerLoop t c dec) := by
  rw [innerLoop_done hget (by decide)]
  exact ⟨rfl, .ended (show averrorEof < 0 by decide) rfl hf⟩

/-- **The inner loop** gives the next packet owed, and flushes the encoder when there is none. -/
theorem innerLoop_spec (c : StreamCodec σ π) (dec : Decoder φ) :
    (innerLoop t c dec).streamc.muxed = c.muxed ∧ Drawn t c dec (innerLoop t c dec) := by
  obtain ⟨frames, hframes⟩ : ∃ frames, dec.frames = frames := ⟨_, rfl⟩
  induction frames generalizing c dec with
  | nil =>
    rcases getPacket_cases c with ⟨p, ready, hready, hget⟩ | ⟨hready, ⟨hf, hget⟩ | ⟨hf, hget⟩⟩
    · exact innerLoop_packet hready hget
    · have hd : dec.processFrame = (.error dec.status, { dec with finished := true }) := by
        rw [Decoder.processFrame, hframes]
      obtain ⟨enc, hsend, -, hrest⟩ := Buffered.send_none hf (t := t)
      rw [innerLoop_error hget hd, StreamCodec.writePcmFrame, hsend]
      refine ⟨rfl, .lastFrame dec.neg rfl hf ?_ ?_ rfl⟩
      · rw [Buffered.owed, hready, hframes]
        rfl
      · rw [hrest, hready, hframes]
        rfl
    · exact innerLoop_ended hget hf
  | cons frm frames ih =>
    rcases getPacket_cases c with ⟨p, ready, hready, hget⟩ | ⟨hready, ⟨hf, hget⟩ | ⟨hf, hget⟩⟩
    · exact innerLoop_packet hready hget
    · have hd : dec.processFrame = (.ok frm, { dec with frames }) := by
        rw [Decoder.processFrame, hframes]
      obtain ⟨enc, hsend, hflushed, howed, hafter⟩ := Buffered.send_some hf frm frames (t := t)
      have hw : c.writePcmFrame t (some frm) = (0, { c with enc }) := by
        rw [StreamCodec.writePcmFrame, hsend]
      rw [innerLoop_frame hget hd hw, if_neg (by decide)]
      obtain ⟨hmuxed, hdrawn⟩ := ih { c with enc } { dec with frames } rfl
      refine ⟨hmuxed, ?_⟩
      cases hdrawn with
      | packet p hret hpkt hfl ho ha hfin =>
        exact .packet p hret hpkt (by rw [hfl, hflushed, hf]) (by rw [hframes, ← howed, ho])
          (by rw [ha, hframes, hafter]) hfin
      | lastFrame hret hpkt _ ho hready hfin =>
        exact .lastFrame hret hpkt hf (by rw [hframes, ← howed, ho])
          (by rw [hready, hframes, hafter]) hfin
      | ended _ _ hfl =>
        rw [hflushed] at hfl
        cases hfl
    · exact innerLoop_ended hget hf

end

/-- The condition of the outer loop. -/
def Locals.Again (l : Locals σ φ π) : Prop := l.pkt = none ∧ l.ret ≠ averrorEof ∧ 0 ≤ l.ret

instance (l : Locals σ φ π) : Decidable l.Again :=
  decidable_of_iff (l.pkt.isNone ∧ l.ret ≠ averrorEof ∧ 0 ≤ l.ret) (by simp [Locals.Again])

theorem innerLoop_not_again (c : StreamCodec σ π) (dec : Decoder φ) :
    ¬ (innerLoop t c dec).Again := by
  rintro ⟨hpkt, -, hret⟩
  cases (innerLoop_spec c dec).2 with
  | packet p _ h => rw [hpkt] at h; cases h
  | lastFrame h => omega
  | ended h => omega

def outerLoop (l : Locals σ φ π) : Locals σ φ π :=
  if l.Again then outerLoop (innerLoop t l.streamc l.dec) else l
  termination_by if l.Again then 1 else 0
  decreasing_by
    rw [if_neg (innerLoop_not_again t _ _), if_pos ‹_›]
    exact Nat.one_pos

/-- What one call of `run` meets. -/
structure RunEnv where
  /-- What `ret` holds before it is first assigned. -/
  ret : Int
  player : Bool := true
  running : Bool := true
  stopping : Bool := false
  waitingVcReady : Bool := false
  /-- There is a voice client that is not terminating. -/
  voiceClient : Bool := true
  /-- What `send_audio_routine` returns. -/
  sendAudio : Int := 0
  deriving DecidableEq, Repr

/-- The parts of `stream_ctx` that `run` works on. -/
structure StreamRun (σ φ π : Type*) where
  ended : Bool := false
  dec : Decoder φ
  streamc : StreamCodec σ π
  /-- What was passed to `send_audio_opus`. -/
  sent : List π := []
  deriving DecidableEq, Repr

/-- `stream_ctx::run` and what it returns; `none` when it dereferences a null packet. -/
def StreamRun.run (env : RunEnv) (s : StreamRun σ φ π) : Option (Int × StreamRun σ φ π) :=
  if s.ended then some (-1, s)
  else if !env.player then some (-1, s)
  else if !env.running || env.stopping then some (-1, s)
  else if env.waitingVcReady then some (0, s)
  else if !env.voiceClient then some (-1, s)
  else
    let l := outerLoop t { ret := env.ret, streamc := s.streamc, dec := s.dec }
    let s := { s with dec := l.dec, streamc := l.streamc }
    if l.ret = averrorEof ∨ l.ret < 0 then
      some (-1, { s with streamc := s.streamc.writePacket none })
    else
      match l.pkt with
      | none => none
      | some pkt =>
        if env.sendAudio ≠ 0 then some (-1, s)
        else
          some (0, { s with sent := s.sent ++ [pkt], streamc := s.streamc.writePacket (some pkt) })

/-- A call of `run` that returns `0`. -/
def callStep (s : StreamRun σ φ π) (env : RunEnv) : Option (StreamRun σ φ π) :=
  match s.run t env with
  | some (ret, s) => if ret = 0 then some s else none
  | none => none

/-- A stream after `init`. -/
def StreamRun.start (frames : List φ) (status : Int) (neg : status < 0) : StreamRun σ φ π :=
  { dec := { frames, status, neg }, streamc := { enc := { state := t.init } } }

/-- Every packet of the frames has been sent to the voice client and to the muxer, once and in
order, and the decoder has come to its end. -/
structure SendsEverything (frames : List φ) (s : StreamRun σ φ π) : Prop where
  sent : s.sent = t.output frames
  muxed : s.streamc.muxed = (t.output frames).map some ++ [none]
  finished : s.dec.finished = true

/-- The call is not turned away, `ret` starts without an error, and a packet that there is will be
taken. -/
def Proceeds (s : StreamRun σ φ π) (env : RunEnv) : Prop :=
  env.player = true ∧ env.running = true ∧ env.stopping = false ∧
    (env.waitingVcReady = true ∨
      env.voiceClient = true ∧ 0 ≤ env.ret ∧
        (env.sendAudio = 0 ∨ s.streamc.enc.owed t s.dec.frames = []))

/-! ## One call -/

theorem outerLoop_of_neg {ret : Int} (h : ret < 0) (c : StreamCodec σ π) (dec : Decoder φ) :
    outerLoop t { ret, streamc := c, dec } = { ret, streamc := c, dec } := by
  rw [outerLoop, if_neg fun hagain => Int.not_le.2 h hagain.2.2]

theorem outerLoop_of_nonneg {ret : Int} (h : 0 ≤ ret) (c : StreamCodec σ π) (dec : Decoder φ) :
    outerLoop t { ret, streamc := c, dec } = innerLoop t c dec := by
  have hne : ret ≠ averrorEof := by
    rintro rfl
    exact absurd h (by decide)
  rw [outerLoop, if_pos ⟨rfl, hne, h⟩, outerLoop, if_neg (innerLoop_not_again t _ _)]

/-- What one call does, when the encoder has not been flushed. -/
inductive RunSpec (s : StreamRun σ φ π) (env : RunEnv) (ret : Int) (s' : StreamRun σ φ π) : Prop
  | away (ret : ret = -1) (proceeds : ¬ Proceeds t s env)
      (finished : s'.dec.finished = s.dec.finished)
  | waiting (ret : ret = 0) (proceeds : Proceeds t s env) (waiting : env.waitingVcReady = true)
      (eq : s' = s)
  | packet (p : π) (ret : ret = 0) (proceeds : Proceeds t s env)
      (owed : s.streamc.enc.owed t s.dec.frames = p :: s'.streamc.enc.owed t s'.dec.frames)
      (after : t.after s'.streamc.enc.state s'.dec.frames =
        t.after s.streamc.enc.state s.dec.frames)
      (sent : s'.sent = s.sent ++ [p]) (muxed : s'.streamc.muxed = s.streamc.muxed ++ [some p])
      (flushed : s'.streamc.enc.flushed = false) (finished : s'.dec.finished = s.dec.finished)
      (ended : s'.ended = false)
  | lastFrame (ret : ret = -1) (proceeds : Proceeds t s env)
      (owed : s.streamc.enc.owed t s.dec.frames = [])
      (sent : s'.sent = s.sent) (muxed : s'.streamc.muxed = s.streamc.muxed ++ [none])
      (finished : s'.dec.finished = true)

section
variable {t} {s s' : StreamRun σ φ π} {env : RunEnv} {ret : Int}

theorem run_spec (env : RunEnv) (hended : s.ended = false)
    (hflushed : s.streamc.enc.flushed = false) :
    ∃ ret s', s.run t env = some (ret, s') ∧ RunSpec t s env ret s' := by
  unfold StreamRun.run
  rw [if_neg (by simp [hended])]
  split
  · rename_i hplayer
    exact ⟨-1, s, rfl, .away rfl (fun h => by simp [h.1] at hplayer) rfl⟩
  split
  · rename_i hstop
    exact ⟨-1, s, rfl, .away rfl (fun h => by simp [h.2.1, h.2.2.1] at hstop) rfl⟩
  rename_i hplayer hstop
  simp only [Bool.not_eq_true', Bool.not_eq_false, Bool.or_eq_true, not_or, Bool.not_eq_true]
    at hplayer hstop
  split
  · rename_i hwait
    exact ⟨0, s, rfl, .waiting rfl ⟨hplayer, hstop.1, hstop.2, .inl hwait⟩ hwait rfl⟩
  rename_i hwait
  split
  · rename_i hvoice
    refine ⟨-1, s, rfl, .away rfl (fun h => ?_) rfl⟩
    rcases h.2.2.2 with h | h
    · exact hwait h
    · simp [h.1] at hvoice
  rename_i hvoice
  simp only [Bool.not_eq_true', Bool.not_eq_false] at hvoice
  by_cases hret : 0 ≤ env.ret
  case neg =>
    rw [outerLoop_of_neg t (Int.not_le.1 hret), if_pos (.inr (Int.not_le.1 hret))]
    refine ⟨-1, _, rfl, .away rfl (fun h => ?_) rfl⟩
    rcases h.2.2.2 with h | h
    · exact hwait h
    · exact hret h.2.1
  rw [outerLoop_of_nonneg t hret]
  obtain ⟨hmuxed, hdrawn⟩ := innerLoop_spec s.streamc s.dec (t := t)
  cases hdrawn with
  | packet p hzero hpkt hfl howed hafter hfin =>
    rw [if_neg (by rw [hzero]; decide)]
    dsimp only
    rw [hpkt]
    dsimp only
    by_cases hsend : env.sendAudio = 0
    · rw [if_neg (by simp [hsend])]
      exact ⟨0, _, rfl, .packet p rfl
        ⟨hplayer, hstop.1, hstop.2, .inr ⟨hvoice, hret, .inl hsend⟩⟩ howed hafter rfl
        (by rw [← hmuxed]; rfl) (hfl.trans hflushed) hfin hended⟩
    · rw [if_pos hsend]
      refine ⟨-1, _, rfl, .away rfl (fun h => ?_) hfin⟩
      rcases h.2.2.2 with h | ⟨-, -, h | h⟩
      · exact hwait h
      · exact hsend h
      · rw [howed] at h
        cases h
  | lastFrame hneg hpkt _ howed hready hfin =>
    rw [if_pos (.inr hneg)]
    exact ⟨-1, _, rfl, .lastFrame rfl
      ⟨hplayer, hstop.1, hstop.2, .inr ⟨hvoice, hret, .inr howed⟩⟩ howed rfl
      (by rw [← hmuxed]; rfl) hfin⟩
  | ended _ _ hfl =>
    rw [hflushed] at hfl
    cases hfl

/-! ## Calls until the end -/

variable (t) in
/-- What holds before every call until `-1` is returned: what was sent and what is still owed are
the packets of the frames, but for those that come with the flush. -/
structure StreamInv (frames : List φ) (s : StreamRun σ φ π) : Prop where
  ended : s.ended = false
  flushed : s.streamc.enc.flushed = false
  finished : s.dec.finished = false
  owed : s.sent ++ s.streamc.enc.owed t s.dec.frames = t.body t.init frames
  after : t.after s.streamc.enc.state s.dec.frames = t.after t.init frames
  muxed : s.streamc.muxed = s.sent.map some

theorem callStep_eq_some : callStep t s env = some s' ↔ s.run t env = some (0, s') := by
  unfold callStep
  rcases s.run t env with _ | ⟨ret, u⟩
  · simp
  · by_cases h : ret = 0
    · simp [h]
    · simp [h]

theorem streamInv_start (frames : List φ) (status : Int) (neg : status < 0) :
    StreamInv t frames (.start t frames status neg) :=
  ⟨rfl, rfl, rfl, rfl, rfl, rfl⟩

/-- A call that returns `0` proceeds and keeps the invariant; unless it waits, less is owed. -/
theorem streamInv_step {frames : List φ} (hi : StreamInv t frames s)
    (h : callStep t s env = some s') :
    Proceeds t s env ∧ StreamInv t frames s' ∧
      (env.waitingVcReady = false → (s'.streamc.enc.owed t s'.dec.frames).length <
        (s.streamc.enc.owed t s.dec.frames).length) := by
  obtain ⟨ret, u, hrun, hspec⟩ := run_spec env hi.ended hi.flushed (t := t)
  rw [callStep_eq_some, hrun] at h
  cases h
  cases hspec with
  | away h => cases h
  | waiting _ hproceeds hwaiting heq =>
    rw [heq]
    refine ⟨hproceeds, hi, fun hnot => ?_⟩
    rw [hwaiting] at hnot
    cases hnot
  | packet p _ hproceeds howed hafter hsent hmuxed hflushed hfinished hended =>
    refine ⟨hproceeds,
      ⟨hended, hflushed, hfinished.trans hi.finished, ?_, hafter.trans hi.after, ?_⟩, fun _ => ?_⟩
    · rw [hsent, List.append_assoc, List.singleton_append, ← howed, hi.owed]
    · rw [hmuxed, hsent, hi.muxed, List.map_append]
      rfl
    · rw [howed, List.length_cons]
      exact Nat.lt_succ_self _
  | lastFrame h => cases h

/-- **The call that returns `-1`** has sent everything when it proceeds and nothing is flushed. -/
theorem sendsEverything_iff {frames : List φ} (hi : StreamInv t frames s)
    (h : s.run t env = some (-1, s')) :
    SendsEverything t frames s' ↔ Proceeds t s env ∧ t.flush (t.after t.init frames) = [] := by
  obtain ⟨ret, u, hrun, hspec⟩ := run_spec env hi.ended hi.flushed (t := t)
  rw [hrun] at h
  cases h
  cases hspec with
  | away _ hproceeds hfinished =>
    constructor
    · intro hs
      have hdone := hs.finished
      rw [hfinished, hi.finished] at hdone
      cases hdone
    · rintro ⟨hp, -⟩
      exact absurd hp hproceeds
  | waiting h => cases h
  | packet p h => cases h
  | lastFrame _ hproceeds howed hsent hmuxed hfinished =>
    have hbody : s'.sent = t.body t.init frames := by
      rw [hsent, ← hi.owed, howed, List.append_nil]
    constructor
    · intro hs
      have hout := hs.sent
      rw [hbody, Transducer.output, List.self_eq_append_right] at hout
      exact ⟨hproceeds, hout⟩
    · rintro ⟨-, hflush⟩
      have hout : t.output frames = t.body t.init frames := by
        rw [Transducer.output, hflush, List.append_nil]
      exact ⟨hbody.trans hout.symm, by rw [hmuxed, hi.muxed, ← hsent, hbody, hout], hfinished⟩

/-- **Enough calls end the stream**: every call that does not wait for the voice client returns `-1`
or sends a packet. -/
theorem calls_end {frames : List φ} {l : List RunEnv} (hi : StreamInv t frames s)
    (hl : ∀ env ∈ l, env.waitingVcReady = false)
    (hlen : (s.streamc.enc.owed t s.dec.frames).length < l.length) :
    ∃ l' env u u', l' ++ [env] <+: l ∧ run (callStep t) s l' = some u ∧
      u.run t env = some (-1, u') := by
  induction l generalizing s with
  | nil => cases hlen
  | cons env l ih =>
    obtain ⟨ret, s', hrun, hspec⟩ := run_spec env hi.ended hi.flushed (t := t)
    have hret : ret = -1 ∨ ret = 0 := by
      cases hspec with
      | away h => exact .inl h
      | waiting h => exact .inr h
      | packet p h => exact .inr h
      | lastFrame h => exact .inl h
    rcases hret with rfl | rfl
    · exact ⟨[], env, s, s', ⟨l, rfl⟩, rfl, hrun⟩
    · have hstep := callStep_eq_some.2 hrun
      obtain ⟨-, hi', hless⟩ := streamInv_step hi hstep
      have hfewer := hless (hl env List.mem_cons_self)
      obtain ⟨l', last, u, u', hpre, hcalls, hend⟩ :=
        ih hi' (fun e he => hl e (List.mem_cons_of_mem env he)) (by
          rw [List.length_cons] at hlen
          omega)
      refine ⟨env :: l', last, u, u', ?_, by rw [run_cons hstep, hcalls], hend⟩
      rw [List.cons_append]
      exact List.cons_prefix_cons.2 ⟨rfl, hpre⟩

end

variable {t} in
/-- **The end of a stream.** Enough calls of `run` return `-1`, and by then they have sent every
packet of the frames exactly if each call proceeds and the encoder has nothing left to flush. -/
theorem stream_end_sends_everything (frames : List φ) (status : Int) (neg : status < 0) :
    (∀ l env s s', run (callStep t) (.start t frames status neg) l = some s →
      s.run t env = some (-1, s') →
      (SendsEverything t frames s' ↔
        Along (callStep t) (Proceeds t) (.start t frames status neg) (l ++ [env]) ∧
          t.flush (t.after t.init frames) = [])) ∧
      ∀ l : List RunEnv, (∀ env ∈ l, env.waitingVcReady = false) →
        (t.body t.init frames).length < l.length →
          ∃ l' env s s', l' ++ [env] <+: l ∧
            run (callStep t) (.start t frames status neg) l' = some s ∧
              s.run t env = some (-1, s') := by
  have hstart := streamInv_start (t := t) frames status neg
  refine ⟨fun l env s s' hrun hlast => ?_, fun l hl hlen => calls_end hstart hl hlen⟩
  have hi := run_invariant (fun _ _ _ hi h => (streamInv_step hi h).2.1) hstart hrun
  have halong := along_append_singleton (C := Proceeds t) (I := StreamInv t frames) (a := env)
    (fun _ _ _ hi h => ⟨(streamInv_step hi h).1, (streamInv_step hi h).2.1⟩) hstart hrun
  rw [sendsEverything_iff hi hlast, halong]

end

/-! ## An encoder that holds back a frame -/

/-- Two frames make a packet. -/
def pairs : Transducer (Option Nat) Nat (List Nat) where
  init := none
  feed held f :=
    match held with
    | none => (some f, [])
    | some g => (none, [[g, f]])
  flush held := held.toList.map ([·])

/-- After the first packet, with `frames` still to come. -/
def firstSent (frames : List Nat) : StreamRun (Option Nat) Nat (List Nat) :=
  { dec := { frames, status := averrorEof, neg := by decide }
    streamc := { enc := { state := none }, muxed := [some [1, 2]] }
    sent := [[1, 2]] }

/-- Then the frames end and the encoder is flushed, which gives `ready`. -/
def lastReturned (ready : List (List Nat)) : StreamRun (Option Nat) Nat (List Nat) :=
  { dec := { frames := [], status := averrorEof, neg := by decide, finished := true }
    streamc := {
      enc := { state := if ready = [] then none else some 3, ready, flushed := true }
      muxed := [some [1, 2], none] }
    sent := [[1, 2]] }

/-- Two frames: nothing is held back. -/
theorem stream_end_even : SendsEverything pairs [1, 2] (lastReturned []) := by
  have hcall : run (callStep pairs) (.start pairs [1, 2] averrorEof (by decide)) [{ ret := 0 }] =
      some (firstSent []) := by decide +kernel
  have hlast : (firstSent []).run pairs { ret := 7 } = some (-1, lastReturned []) := by
    decide +kernel
  refine ((stream_end_sends_everything [1, 2] averrorEof (by decide)).1 _ _ _ _ hcall hlast).2
    ⟨?_, rfl⟩
  have hproceeds : ∀ (s : StreamRun (Option Nat) Nat (List Nat)) (ret : Int), 0 ≤ ret →
      Proceeds pairs s { ret } := fun s ret h => ⟨rfl, rfl, rfl, .inr ⟨rfl, h, .inl rfl⟩⟩
  exact ⟨hproceeds _ 0 (by decide), fun s' _ => ⟨hproceeds s' 7 (by decide), fun _ _ => trivial⟩⟩

/-- A third frame comes out of the encoder with the flush and is not sent; and a negative `ret` ends
a stream of which nothing has been read. -/
theorem stream_end_loses :
    (run (callStep pairs) (.start pairs [1, 2, 3] averrorEof (by decide)) [{ ret := 0 }] =
        some (firstSent [3]) ∧
      (firstSent [3]).run pairs { ret := 0 } = some (-1, lastReturned [[3]]) ∧
      ¬ SendsEverything pairs [1, 2, 3] (lastReturned [[3]])) ∧
    ∃ s', (StreamRun.start pairs [1, 2] averrorEof (by decide)).run pairs { ret := -1 } =
        some (-1, s') ∧ s'.dec.finished = false ∧ ¬ SendsEverything pairs [1, 2] s' := by
  refine ⟨⟨by decide +kernel, by decide +kernel, fun h => absurd h.sent (by decide)⟩, ?_⟩
  refine ⟨{ dec := { frames := [1, 2], status := averrorEof, neg := by decide }
            streamc := { enc := { state := none }, muxed := [none] } }, by decide +kernel, rfl,
    fun h => absurd h.sent (by decide)⟩

end Musicat.Stream
