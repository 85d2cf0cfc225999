import Mathlib.Algebra.GroupWithZero.Nat
import Musicat.Lib.Run
import Musicat.Lib.Sink
import Musicat.Stream.Codec

/-!
# The decoder

`decoder_t` reads packets, decodes them, feeds the frames to the buffer source of
a filter graph and takes frames of at most `FRAME_SIZE` samples from its sink.
When the input ends it closes the source and takes one more frame; from then on
`got_eof` turns every call away, so the graph is to have no more than that frame
left (`decoder_delivers_iff`).

The graph is any transducer, and the sink any that keeps to what libav says. The
codec is known by what it gives for each packet.
-/

namespace Musicat.Audio

open Lib
open Musicat.Stream (averrorEof averrorEagain)

/-- `FRAME_SIZE`: `FRAME_DURATION * 48`. -/
def frameSize : Nat := 60 * 48

/-- A negative status that is neither the end nor a wish for more. -/
structure AvError where
  code : Int
  neg : code < 0
  ne_eof : code ≠ averrorEof
  ne_again : code ≠ averrorEagain

/-- What `av_read_frame` gives before the end. -/
inductive Demuxed (φ : Type*) where
  | error (e : AvError)
  /-- A packet of another stream. -/
  | other
  /-- One of the audio stream: whether sending it fails, and what is received from then on until
  the codec needs more. -/
  | audio (sent : Option AvError) (received : List (Except AvError φ))

/-- `decoder_t`, with what is behind its contexts. -/
structure DecoderT (φ τ α : Type*) where
  /-- What is still to be read. -/
  input : List (Demuxed φ)
  /-- What `avcodec_receive_frame` gives before it needs a packet. -/
  received : List (Except AvError φ) := []
  graph : τ
  /-- What waits in the sink. -/
  waiting : List α := []
  /-- The source is closed in the same place. -/
  gotEof : Bool := false

namespace DecoderT

section
variable {φ τ α : Type*}

def readFrame (d : DecoderT φ τ α) : Int × DecoderT φ τ α :=
  if d.gotEof then (0, d)
  else
    match d.input with
    | [] => (averrorEof, d)
    | .error e :: input => (e.code, { d with input })
    | .other :: input => (0, { d with input })
    | .audio sent received :: input =>
      ((sent.map (·.code)).getD 0, { d with input, received := d.received ++ received })

theorem readFrame_shorter {d d' : DecoderT φ τ α} {ret : Int} (hgot : ¬ d.gotEof = true)
    (h : d.readFrame = (ret, d')) (hret : ret ≠ averrorEof) : d'.input.length < d.input.length := by
  unfold readFrame at h
  rw [if_neg hgot] at h
  split at h <;> cases h
  · exact absurd rfl hret
  all_goals
    rename_i heq
    rw [heq]
    exact Nat.lt_succ_self _

variable (t : Transducer τ φ α)

/-- `av_buffersrc_add_frame_flags` of a frame. -/
def addFrame (frm : φ) (d : DecoderT φ τ α) : DecoderT φ τ α :=
  { d with graph := (t.feed d.graph frm).1, waiting := d.waiting ++ (t.feed d.graph frm).2 }

/-- `receive_frame`; `got_eof` does not change in its loop. -/
def receiveFrame (d : DecoderT φ τ α) : Int × DecoderT φ τ α :=
  if _hgot : d.gotEof = true then (0, d)
  else
    match d.received with
    | .ok frm :: received => (0, addFrame t frm { d with received })
    | .error e :: received => (e.code, { d with received })
    | [] =>
      match _h : d.readFrame with
      | (ret, d') =>
        if _hret : ret = averrorEof then (ret, d')
        else if ret < 0 then (ret, d')
        else receiveFrame d'
  termination_by d.input.length
  decreasing_by exact readFrame_shorter _hgot _h _hret

/-- `av_buffersrc_add_frame_flags` of `NULL`, with `got_eof` set. -/
def signalEof (d : DecoderT φ τ α) : DecoderT φ τ α :=
  { d with gotEof := true, waiting := d.waiting ++ t.flush d.graph }

/-! ## What is still to come -/

def decoded (l : List (Except AvError φ)) : List φ := l.filterMap Except.toOption

theorem decoded_ok (frm : φ) (l : List (Except AvError φ)) :
    decoded (.ok frm :: l) = frm :: decoded l := rfl

theorem decoded_error (e : AvError) (l : List (Except AvError φ)) :
    decoded (.error e :: l) = decoded l := rfl

theorem decoded_nil : decoded ([] : List (Except AvError φ)) = [] := rfl

def Demuxed.frames : Demuxed φ → List φ
  | .audio _ received => decoded received
  | _ => []

/-- The frames that are still to be decoded. -/
def frames (d : DecoderT φ τ α) : List φ := decoded d.received ++ d.input.flatMap Demuxed.frames

def Demuxed.size : Demuxed φ → Nat
  | .audio _ received => received.length + 1
  | _ => 1

/-- How much there is to read and to receive. -/
def pending (d : DecoderT φ τ α) : Nat := d.received.length + (d.input.map Demuxed.size).sum

/-- What a call of `receive_frame` does while the source is open. -/
inductive Receives (d : DecoderT φ τ α) (ret : Int) (d' : DecoderT φ τ α) : Prop
  | ended (ret : ret = averrorEof) (open' : d'.gotEof = false) (none : d.frames = [])
      (frames : d.frames = d'.frames) (graph : d'.graph = d.graph)
      (waiting : d'.waiting = d.waiting) (pending : d'.pending ≤ d.pending)
  | frame (frm : φ) (ret : ret = 0) (open' : d'.gotEof = false) (frames : d.frames = frm :: d'.frames)
      (graph : d'.graph = (t.feed d.graph frm).1)
      (waiting : d'.waiting = d.waiting ++ (t.feed d.graph frm).2)
      (pending : d'.pending < d.pending)
  | error (e : AvError) (ret : ret = e.code) (open' : d'.gotEof = false)
      (frames : d.frames = d'.frames) (graph : d'.graph = d.graph)
      (waiting : d'.waiting = d.waiting) (pending : d'.pending < d.pending)

variable {t} {d d' : DecoderT φ τ α} {ret : Int}

/-- A packet read: what it is to give is still to be received. -/
theorem readFrame_frames (hopen : d.gotEof = false) (hnone : d.received = [])
    (h : d.readFrame = (ret, d')) :
    d'.gotEof = false ∧ d'.graph = d.graph ∧ d'.waiting = d.waiting ∧ d'.frames = d.frames ∧
      (ret = averrorEof ∧ d.frames = [] ∧ d'.pending = d.pending ∨
        (ret = 0 ∨ ∃ e : AvError, ret = e.code) ∧ d'.pending < d.pending) := by
  unfold readFrame at h
  rw [if_neg (by simp [hopen])] at h
  split at h <;> cases h
  · rename_i heq
    exact ⟨hopen, rfl, rfl, rfl, .inl ⟨rfl, by simp [frames, hnone, heq, decoded], rfl⟩⟩
  · rename_i e input heq
    exact ⟨hopen, rfl, rfl, by simp [frames, heq, Demuxed.frames],
      .inr ⟨.inr ⟨e, rfl⟩, by simp [pending, heq, Demuxed.size]⟩⟩
  · rename_i input heq
    exact ⟨hopen, rfl, rfl, by simp [frames, heq, Demuxed.frames],
      .inr ⟨.inl rfl, by simp [pending, heq, Demuxed.size]⟩⟩
  · rename_i sent received input heq
    refine ⟨hopen, rfl, rfl, by simp [frames, heq, hnone, Demuxed.frames, decoded_nil],
      .inr ⟨?_, by simp [pending, heq, hnone, Demuxed.size]⟩⟩
    cases sent with
    | none => exact .inl rfl
    | some e => exact .inr ⟨e, rfl⟩

theorem receiveFrame_spec (hopen : d.gotEof = false) (h : d.receiveFrame t = (ret, d')) :
    Receives t d ret d' := by
  induction hn : d.input.length using Nat.strongRecOn generalizing d with
  | ind n ih =>
    rw [receiveFrame, dif_neg (by simp [hopen])] at h
    split at h
    · rename_i frm received heq
      cases h
      exact .frame frm rfl hopen (by simp [frames, heq, decoded_ok, addFrame]) rfl rfl
        (by simp [pending, heq, addFrame])
    · rename_i e received heq
      cases h
      exact .error e rfl hopen (by simp [frames, heq, decoded_error]) rfl rfl
        (by simp [pending, heq])
    · rename_i hnone
      split at h
      rename_i ret' u hread
      obtain ⟨hopen', hgraph, hwaiting, hframes, hcase⟩ := readFrame_frames hopen hnone hread
      split at h
      · rename_i heof
        cases h
        rcases hcase with ⟨-, hnil, hsame⟩ | ⟨h0 | ⟨e, he⟩, -⟩
        · exact .ended heof hopen' hnil hframes.symm hgraph hwaiting (Nat.le_of_eq hsame)
        · rw [h0] at heof
          exact absurd heof (by decide)
        · exact absurd (he.symm.trans heof) e.ne_eof
      · rename_i heof
        obtain ⟨hret, hless⟩ := hcase.resolve_left fun h => heof h.1
        split at h
        · rename_i hneg
          cases h
          obtain ⟨e, he⟩ := hret.resolve_left fun h0 => by rw [h0] at hneg; cases hneg
          exact .error e he hopen' hframes.symm hgraph hwaiting hless
        · have hrest := ih u.input.length
            (hn ▸ readFrame_shorter (by simp [hopen]) hread heof) hopen' h rfl
          cases hrest with
          | ended hr ho hnil hf hg hw hp =>
            exact .ended hr ho (hframes ▸ hnil) (hframes ▸ hf) (hg.trans hgraph)
              (hw.trans hwaiting) (Nat.le_trans hp (Nat.le_of_lt hless))
          | frame frm hr ho hf hg hw hp =>
            exact .frame frm hr ho (hframes ▸ hf) (by rw [hg, hgraph]) (by rw [hw, hgraph, hwaiting])
              (Nat.lt_trans hp hless)
          | error e hr ho hf hg hw hp =>
            exact .error e hr ho (hframes ▸ hf) (hg.trans hgraph) (hw.trans hwaiting)
              (Nat.lt_trans hp hless)

/-! ## A call -/

variable (t) in
/-- The start of a round of the loop of `process_frame`. -/
def signalled (ret : Int) (d : DecoderT φ τ α) : DecoderT φ τ α :=
  if ret = averrorEof ∧ d.gotEof = false then signalEof t d else d

/-- Rounds left to the loop, and one to close the source. -/
def rounds (ret : Int) (d : DecoderT φ τ α) : Nat :=
  if d.gotEof then 0 else if ret = averrorEof then 1 else d.pending + 2

/-- A closed sink does not ask for more. -/
theorem open_of_again {c : Chunking α frameSize} {closed : Bool} {w w' : List α}
    (h : c.take closed w = (.again, w')) : closed = false := by
  cases closed with
  | false => rfl
  | true =>
    rcases c.take_closed w with ⟨-, he⟩ | ⟨-, he⟩ <;>
    · rw [he] at h
      cases h

/-- The sink asks for more only before the end of the input has been seen. -/
theorem signalled_of_again {c : Chunking α frameSize} {w : List α}
    (h : c.take (signalled t ret d).gotEof (signalled t ret d).waiting = (.again, w)) :
    signalled t ret d = d ∧ d.gotEof = false ∧ ret ≠ averrorEof := by
  have hopen := open_of_again h
  unfold signalled at hopen ⊢
  split at hopen
  · cases hopen
  · rename_i hno
    exact ⟨if_neg hno, hopen, fun heof => hno ⟨heof, hopen⟩⟩

theorem rounds_lt {c : Chunking α frameSize} {w : List α} {ret' : Int}
    (h : c.take (signalled t ret d).gotEof (signalled t ret d).waiting = (.again, w))
    (hr : receiveFrame t (signalled t ret d) = (ret', d'))
    (hneg : ¬ (ret' ≠ averrorEof ∧ ret' < 0)) : rounds ret' d' < rounds ret d := by
  obtain ⟨hsame, hopen, hret⟩ := signalled_of_again h
  rw [hsame] at hr
  have hold : rounds ret d = d.pending + 2 := by
    rw [rounds, if_neg (by simp [hopen]), if_neg hret]
  rw [hold]
  cases receiveFrame_spec hopen hr with
  | ended heof ho =>
    rw [rounds, if_neg (by simp [ho]), if_pos heof]
    omega
  | frame frm h0 ho _ _ _ hp =>
    rw [rounds, if_neg (by simp [ho]), if_neg (by rw [h0]; decide)]
    omega
  | error e he => exact absurd ⟨he ▸ e.ne_eof, he ▸ e.neg⟩ hneg

section
variable (t) (c : Chunking α frameSize)

/-- The loop of `process_frame`: its status, the frame in `out_frame` if it got one, and the
decoder. A frame that is got ends the loop, so `out_frame` has no samples when the sink ends. -/
def processLoop (ret : Int) (d : DecoderT φ τ α) : Int × Option (List α) × DecoderT φ τ α :=
  match _h : c.take (signalled t ret d).gotEof (signalled t ret d).waiting with
  | (.output chunk, waiting) => (0, some chunk, { signalled t ret d with waiting })
  | (.ended, _) => (averrorEof, none, signalled t ret d)
  | (.again, _) =>
    match _hr : receiveFrame t (signalled t ret d) with
    | (ret', d') =>
      if _hneg : ret' ≠ averrorEof ∧ ret' < 0 then (ret', none, d') else processLoop ret' d'
  termination_by rounds ret d
  decreasing_by exact rounds_lt _h _hr _hneg

def processFrame (d : DecoderT φ τ α) : Int × Option (List α) × DecoderT φ τ α :=
  if d.gotEof then (averrorEof, none, d) else processLoop t c 0 d

/-! ## What the graph puts out -/

/-- All the samples that are still to come out of the graph. -/
def output (d : DecoderT φ τ α) : List α :=
  d.waiting ++ t.body d.graph d.frames ++ t.flush (t.after d.graph d.frames)

/-- Those of them that wait in the sink once the source is closed. -/
def rest (d : DecoderT φ τ α) : List α :=
  c.left t d.graph d.waiting d.frames ++ t.flush (t.after d.graph d.frames)

/-- What a call does before the end of the input has been seen. -/
inductive Processes (d : DecoderT φ τ α) : Int × Option (List α) × DecoderT φ τ α → Prop
  | frame (chunk : List α) (u : DecoderT φ τ α) (open' : u.gotEof = false)
      (pending : u.pending ≤ d.pending) (nonempty : chunk ≠ [])
      (output : output t d = chunk ++ output t u) (rest : rest t c d = rest t c u) :
      Processes d (0, some chunk, u)
  | error (status : Int) (u : DecoderT φ τ α) (open' : u.gotEof = false)
      (other : status ≠ averrorEof) (pending : u.pending < d.pending)
      (output : output t d = output t u) (rest : rest t c d = rest t c u) :
      Processes d (status, none, u)
  | last (u : DecoderT φ τ α) (closed : u.gotEof = true) (output : output t d = rest t c d)
      (nonempty : rest t c d ≠ []) :
      Processes d (0, some ((rest t c d).take (c.size true (rest t c d))), u)
  | ended (u : DecoderT φ τ α) (closed : u.gotEof = true) (output : output t d = [])
      (rest : rest t c d = []) : Processes d (averrorEof, none, u)

variable {t} {c} {r : Int × Option (List α) × DecoderT φ τ α}

/-- What a call does is also what it does after a frame was fed, as the same is still to come. -/
theorem Processes.fed (h : Processes t c d' r) (hpending : d'.pending ≤ d.pending)
    (houtput : output t d = output t d') (hrest : rest t c d = rest t c d') :
    Processes t c d r := by
  cases h with
  | frame chunk u ho hp hne hout hr =>
    exact .frame chunk u ho (Nat.le_trans hp hpending) hne (houtput.trans hout)
      (hrest.trans hr)
  | error status u ho hother hp hout hr =>
    exact .error status u ho hother (Nat.lt_of_lt_of_le hp hpending) (houtput.trans hout) (hrest.trans hr)
  | last u hc hout hr =>
    rw [← hrest] at hout hr ⊢
    exact .last u hc (houtput.trans hout) hr
  | ended u hc hout hr => exact .ended u hc (houtput.trans hout) (hrest.trans hr)

/-- The input has ended: the source is closed, and the sink gives one frame if there is one. -/
theorem processLoop_eof (hopen : d.gotEof = false) (hframes : d.frames = [])
    (hdrained : c.drained d.waiting = d.waiting) :
    Processes t c d (processLoop t c averrorEof d) := by
  have hsig : signalled t averrorEof d = signalEof t d := if_pos ⟨rfl, hopen⟩
  have hwaits : rest t c d = (signalEof t d).waiting := by
    rw [rest, hframes, Chunking.left, hdrained]
    rfl
  have hout : output t d = rest t c d := by
    rw [hwaits, output, hframes, Transducer.body, List.append_nil]
    rfl
  have hclosed : (signalEof t d).gotEof = true := rfl
  rw [processLoop]
  rcases c.take_closed (signalEof t d).waiting with ⟨hnil, htake⟩ | ⟨hne, htake⟩
  · split <;> rename_i heq <;> rw [hsig, hclosed, htake] at heq <;> cases heq
    rw [hsig]
    exact .ended _ hclosed (hout.trans (hwaits.trans hnil)) (hwaits.trans hnil)
  · split <;> rename_i heq <;> rw [hsig, hclosed, htake] at heq <;> cases heq
    rw [hsig]
    rw [← hwaits] at hne ⊢
    exact .last _ hclosed hout hne

theorem processLoop_spec (hopen : d.gotEof = false) (hret : ret ≠ averrorEof) :
    Processes t c d (processLoop t c ret d) := by
  induction hn : d.pending using Nat.strongRecOn generalizing d ret with
  | ind n ih =>
    have hsig : signalled t ret d = d := if_neg fun h => hret h.1
    rw [processLoop]
    rcases c.take_open d.waiting with ⟨chunk, w, hw, hne, htake, hdrained⟩ | ⟨htake, hdrained⟩
    · split <;> rename_i heq <;> rw [hsig, hopen, htake] at heq <;> cases heq
      rw [hsig]
      refine .frame chunk _ hopen (Nat.le_refl _) hne ?_ ?_
      · simp only [output, hw, List.append_assoc]
        rfl
      · exact congrArg (· ++ _) (c.left_congr hdrained d.graph d.frames)
    · split <;> rename_i heq <;> rw [hsig, hopen, htake] at heq <;> cases heq
      split
      rename_i ret' d' hr
      rw [hsig] at hr
      cases receiveFrame_spec hopen hr with
      | ended heof ho hnil hframes hgraph hwaiting hp =>
        rw [dif_neg fun h => h.1 heof, heof]
        refine (processLoop_eof ho (hframes ▸ hnil) (by rw [hwaiting, hdrained])).fed hp ?_ ?_
        · simp only [output, hframes, hgraph, hwaiting]
        · simp only [rest, hframes, hgraph, hwaiting]
      | frame frm h0 ho hframes hgraph hwaiting hp =>
        rw [dif_neg (by rw [h0]; decide)]
        refine (ih d'.pending (hn ▸ hp) ho (by rw [h0]; decide) rfl).fed (Nat.le_of_lt hp) ?_ ?_
        · simp only [output, hframes, hgraph, hwaiting, Transducer.body, Transducer.after,
            List.append_assoc]
        · simp only [rest, hframes, hgraph, hwaiting, Chunking.left, hdrained, Transducer.after]
      | error e he ho hframes hgraph hwaiting hp =>
        rw [dif_pos ⟨he ▸ e.ne_eof, he ▸ e.neg⟩]
        exact .error _ _ ho (he ▸ e.ne_eof) hp (by simp only [output, hframes, hgraph, hwaiting])
          (by simp only [rest, hframes, hgraph, hwaiting])

end

end

end DecoderT

/-! ## Calls until the end -/

open DecoderT

/-- A decoder and the frames that its calls have returned. -/
structure Reader (φ τ α : Type*) where
  dec : DecoderT φ τ α
  frames : List (List α) := []

section
variable {φ τ α : Type*} (t : Transducer τ φ α) (c : Chunking α frameSize)

/-- A call of `process_frame` that does not return `AVERROR_EOF`. -/
def callStep (r : Reader φ τ α) (_ : Unit) : Option (Reader φ τ α) :=
  match r.dec.processFrame t c with
  | (ret, out, dec) => if ret = averrorEof then none else some ⟨dec, r.frames ++ out.toList⟩

/-- A decoder after `open` and `init_filters`. -/
def Reader.start (input : List (Demuxed φ)) : Reader φ τ α := { dec := { input, graph := t.init } }

/-- The calls have returned the frames of `r` by the time the next returns `AVERROR_EOF`. -/
def ReadsTo (s r : Reader φ τ α) : Prop :=
  ∃ n, run (callStep t c) s (List.replicate n ()) = some r ∧
    (r.dec.processFrame t c).1 = averrorEof

/-- The frames that the input is decoded to. -/
def inputFrames (input : List (Demuxed φ)) : List φ := input.flatMap Demuxed.frames

/-- What waits in the sink when the input has ended and the source is closed. -/
def leftAtEnd (input : List (Demuxed φ)) : List α :=
  c.left t t.init [] (inputFrames input) ++ t.flush (t.after t.init (inputFrames input))

/-- What is left at the end makes one frame. -/
def FitsLastFrame (input : List (Demuxed φ)) : Prop :=
  (leftAtEnd t c input).length ≤ c.size true (leftAtEnd t c input)

variable {t} {c}

theorem ReadsTo.call {s s' r : Reader φ τ α} (h : callStep t c s () = some s')
    (hr : ReadsTo t c s' r) : ReadsTo t c s r := by
  obtain ⟨n, hrun, hend⟩ := hr
  exact ⟨n + 1, by rw [List.replicate_succ, run_cons h, hrun], hend⟩

/-- Once `got_eof` is set, every call is turned away. -/
theorem readsTo_of_gotEof {s : Reader φ τ α} (h : s.dec.gotEof = true) : ReadsTo t c s s :=
  ⟨0, rfl, by rw [processFrame, if_pos h]⟩

/-- **The calls come to an end**, and what they have returned then is what the graph puts out but
for what does not fit the last frame. -/
theorem readsTo_spec (s : Reader φ τ α) (hopen : s.dec.gotEof = false) :
    ∃ r, ReadsTo t c s r ∧
      r.frames.flatten ++ (s.dec.rest t c).drop (c.size true (s.dec.rest t c)) =
        s.frames.flatten ++ s.dec.output t := by
  induction hn : s.dec.pending + (s.dec.output t).length using Nat.strongRecOn generalizing s with
  | ind n ih =>
    have hspec : Processes t c s.dec (s.dec.processFrame t c) := by
      rw [processFrame, if_neg (by simp [hopen])]
      exact processLoop_spec hopen (by decide)
    generalize hcall : s.dec.processFrame t c = called at hspec
    have hstep {status : Int} {out : Option (List α)} {u : DecoderT φ τ α}
        (hc : s.dec.processFrame t c = (status, out, u)) (hs : status ≠ averrorEof) :
        callStep t c s () = some ⟨u, s.frames ++ out.toList⟩ := by
      rw [callStep, hc]
      exact if_neg hs
    cases hspec with
    | frame chunk u ho hp hne hout hrest =>
      have hless : u.pending + (u.output t).length < n := by
        have := List.length_pos_iff.2 hne
        rw [← hn, hout, List.length_append]
        omega
      obtain ⟨r, hr, hflat⟩ := ih _ hless ⟨u, s.frames ++ [chunk]⟩ ho rfl
      refine ⟨r, hr.call (hstep hcall (by decide)), ?_⟩
      rw [hrest, hflat, hout]
      simp
    | error status u ho hother hp hout hrest =>
      have hless : u.pending + (u.output t).length < n := by
        rw [← hn, hout]
        omega
      obtain ⟨r, hr, hflat⟩ := ih _ hless ⟨u, s.frames ++ []⟩ ho rfl
      refine ⟨r, hr.call (hstep hcall hother), ?_⟩
      rw [hrest, hflat, hout, List.append_nil]
    | last u hclosed hout hne =>
      refine ⟨_, (readsTo_of_gotEof hclosed).call (hstep hcall (by decide)), ?_⟩
      rw [hout]
      simp
    | ended u hclosed hout hrest =>
      refine ⟨s, ⟨0, rfl, by rw [hcall]⟩, ?_⟩
      rw [hrest, hout, List.drop_nil]

theorem ReadsTo.unique {s r r' : Reader φ τ α} (h : ReadsTo t c s r) (h' : ReadsTo t c s r') :
    r = r' := by
  have hends {u v : Reader φ τ α} (he : (u.dec.processFrame t c).1 = averrorEof) :
      callStep t c u () ≠ some v := by
    rw [callStep]
    dsimp only
    rw [if_pos he]
    exact nofun
  obtain ⟨n, hrun, hend⟩ := h
  obtain ⟨m, hrun', hend'⟩ := h'
  induction n generalizing s m with
  | zero =>
    cases hrun
    cases m with
    | zero => exact Option.some.inj hrun'
    | succ m =>
      obtain ⟨u, hu, -⟩ := run_cons_eq_some.1 hrun'
      exact absurd hu (hends hend)
  | succ n ih =>
    obtain ⟨u, hu, hrest⟩ := run_cons_eq_some.1 hrun
    cases m with
    | zero =>
      cases hrun'
      exact absurd hu (hends hend')
    | succ m =>
      obtain ⟨v, hv, hrest'⟩ := run_cons_eq_some.1 hrun'
      rw [hu] at hv
      cases hv
      exact ih hrest m hrest'

/-- What a new decoder has returned by the end, and what it has lost. -/
theorem readsTo_start {input : List (Demuxed φ)} {r : Reader φ τ α}
    (h : ReadsTo t c (.start t input) r) :
    r.frames.flatten ++ (leftAtEnd t c input).drop (c.size true (leftAtEnd t c input)) =
      t.output (inputFrames input) := by
  obtain ⟨r', hr, hflat⟩ := readsTo_spec (t := t) (c := c) (.start t input) rfl
  rw [h.unique hr]
  exact hflat

/-- **The decoder delivers all that the graph puts out** exactly when what is left at the end of
the input makes one frame. -/
theorem decoder_delivers_iff (t : Transducer τ φ α) (c : Chunking α frameSize)
    (input : List (Demuxed φ)) :
    (∃ r, ReadsTo t c (.start t input) r) ∧
      ∀ r, ReadsTo t c (.start t input) r →
        (r.frames.flatten = t.output (inputFrames input) ↔ FitsLastFrame t c input) := by
  obtain ⟨r, hr, -⟩ := readsTo_spec (t := t) (c := c) (.start t input) rfl
  refine ⟨⟨r, hr⟩, fun r hr => ?_⟩
  rw [← readsTo_start hr, List.self_eq_append_right, List.drop_eq_nil_iff]
  exact Iff.rfl

/-- With full frames: the samples beyond whole frames and those that are flushed make one. -/
theorem fitsLastFrame_full_iff (t : Transducer τ φ α) (input : List (Demuxed φ)) :
    FitsLastFrame t (.full α frameSize (by decide)) input ↔
      (t.body t.init (inputFrames input)).length % frameSize +
        (t.flush (t.after t.init (inputFrames input))).length ≤ frameSize := by
  have hlen : (leftAtEnd t (.full α frameSize (by decide)) input).length =
      (t.body t.init (inputFrames input)).length % frameSize +
        (t.flush (t.after t.init (inputFrames input))).length := by
    rw [leftAtEnd, List.length_append, Chunking.length_left_full, List.length_nil, Nat.zero_add]
  rw [FitsLastFrame, ← hlen]
  simp only [Chunking.full, if_true]
  omega

end

/-- A graph that gives nothing until the source is closed. -/
def holding : Transducer (List Nat) (List Nat) Nat where
  init := []
  feed held frm := (held ++ frm, [])
  flush held := held

/-- One packet, with one sample more than a frame has. -/
def longPacket : List (Demuxed (List Nat)) := [.audio none [.ok (List.replicate (frameSize + 1) 0)]]

/-- The sample that does not fit is lost. -/
theorem second_frame_lost :
    (∃ r, ReadsTo holding (.full Nat frameSize (by decide)) (.start holding longPacket) r) ∧
      ∀ r, ReadsTo holding (.full Nat frameSize (by decide)) (.start holding longPacket) r →
        r.frames.flatten ≠ holding.output (inputFrames longPacket) := by
  obtain ⟨r, hr, -⟩ := readsTo_spec (t := holding) (c := .full Nat frameSize (by decide))
    (.start holding longPacket) rfl
  refine ⟨⟨r, hr⟩, fun r hr h => ?_⟩
  have hstart := readsTo_start hr
  rw [← h, List.append_right_eq_self, List.drop_eq_nil_iff] at hstart
  have hfits := (fitsLastFrame_full_iff holding longPacket).1 hstart
  have hflush : (holding.flush (holding.after holding.init (inputFrames longPacket))).length =
      frameSize + 1 := by
    show ([] ++ List.replicate (frameSize + 1) 0).length = frameSize + 1
    rw [List.nil_append, List.length_replicate]
  omega

end Musicat.Audio
