import Mathlib.Logic.Function.Basic
import Musicat.Player.Marker

/-!
# Stream contexts and the start of a playback

`manager::play` marks the player as processing, then `submit_stream_ctx` builds
the stream context of the guild; `stream_ctx::end`, which the destructor calls,
takes the mark back. What `init` meets outside the program is an `InitEnv`. A
context that sits in `stream_ctxs` has come out of a successful `init`, hence
the subtype `LiveCtx`.
-/

namespace Musicat.Stream

open Player GuildPlayer

/-- `stream_ctx`, as its constructor leaves it. -/
structure StreamCtx where
  guildId : Nat
  handled : Bool := false
  ended : Bool := true
  runningState : Bool := false
  isStopping : Bool := false
  deriving DecidableEq, Repr

/-- A context whose `init` returned. -/
abbrev LiveCtx := { ctx : StreamCtx // ctx.ended = false }

/-- The players (`get_player`) and `stream_ctxs`. -/
structure StreamState where
  player : Nat → Option GuildPlayer
  streamCtxs : List LiveCtx := []

namespace StreamState

def setPlayer (s : StreamState) (guildId : Nat) (p : GuildPlayer) : StreamState :=
  { s with player := Function.update s.player guildId (some p) }

@[simp] theorem setPlayer_self (s : StreamState) (g : Nat) (p : GuildPlayer) :
    (s.setPlayer g p).player g = some p := Function.update_self ..

theorem setPlayer_of_ne {g h : Nat} (hgh : g ≠ h) (s : StreamState) (p : GuildPlayer) :
    (s.setPlayer h p).player g = s.player g := Function.update_of_ne hgh ..

end StreamState

/-- What `stream_ctx::init` meets. -/
structure InitEnv where
  fileExists : Bool := true
  decoderValid : Bool := true
  /-- `dec.open`. -/
  decoderOpen : Int := 0
  /-- `dec.init_filters`. -/
  initFilters : Int := 0
  /-- `streamc.init`. -/
  streamcInit : Int := 0
  /-- Publishing the playback throws a `std::exception`. -/
  publishThrows : Bool := false
  deriving DecidableEq, Repr

/-- What `init` throws: an `int` or a `std::exception`. -/
inductive Thrown where
  | code (e : Int)
  | exception
  deriving DecidableEq, Repr

/-- `init` on the current track: a pending seek is carried out. -/
def seekCurrentTrack (p : GuildPlayer) : GuildPlayer :=
  let track := p.currentTrack.checkForSeekTo
  if track.seekTo.isEmpty then { p with currentTrack := track }
  else
    resetFirstTrackCurrentByte { p with currentTrack := { track with seekTo := "" } }

/-- `stream_ctx::init`. -/
def StreamCtx.init (ctx : StreamCtx) (env : InitEnv) (s : StreamState) :
    StreamState × Except Thrown LiveCtx :=
  match s.player ctx.guildId with
  | none => (s, .error (.code 2))
  | some p =>
    let p := { p with triedContinuing := false }
    let s := s.setPlayer ctx.guildId p
    if !env.fileExists then (s, .error (.code 2))
    else if !env.decoderValid then (s, .error (.code 2))
    else if env.decoderOpen < 0 then (s, .error (.code 2))
    else if env.initFilters < 0 then (s, .error (.code 2))
    else if env.streamcInit ≠ 0 then (s, .error (.code 2))
    else if env.publishThrows then (s, .error .exception)
    else
      (s.setPlayer ctx.guildId (seekCurrentTrack p),
        .ok ⟨{ ctx with
            handled := false, runningState := false, isStopping := false, ended := false }, rfl⟩)

/-- `stream_ctx::end`, called by the destructor; `voiceClient` is whether there is one. -/
def StreamCtx.end' (ctx : StreamCtx) (voiceClient : Bool) (s : StreamState) : StreamState :=
  if ctx.ended then s
  else
    match s.player ctx.guildId with
    | none => s
    | some p =>
      let queue :=
        if ctx.runningState && !ctx.isStopping && !voiceClient then
          p.queue.modifyHead ({ · with currentByte := p.currentTrack.currentByte })
        else p.queue
      s.setPlayer ctx.guildId { p with queue }.doneStreaming

/-- `erase_ctx`: the first context of the guild is deleted. -/
def eraseCtx (guildId : Nat) (voiceClient : Bool) (s : StreamState) : StreamState :=
  match s.streamCtxs.find? (·.1.guildId = guildId) with
  | none => s
  | some ctx =>
    { ctx.1.end' voiceClient s with
      streamCtxs := s.streamCtxs.eraseP (·.1.guildId = guildId) }

/-- `submit_stream_ctx`; a context whose `init` threw is deleted as it was constructed. -/
def submitStreamCtx (guildId : Nat) (env : InitEnv) (s : StreamState) :
    StreamState × Except Int Unit :=
  if s.streamCtxs.any (·.1.guildId = guildId) then (s, .error 3)
  else
    let ctx : StreamCtx := { guildId }
    match ctx.init env s with
    | (s, .ok ctx) => ({ s with streamCtxs := s.streamCtxs ++ [ctx] }, .ok ())
    | (s, .error (.code e)) => (ctx.end' true s, .error e)
    | (s, .error .exception) => (ctx.end' true s, .error 2)

/-- What `manager::play` meets. -/
structure PlayEnv where
  cluster : Bool := true
  voiceClient : Bool := true
  hasSendMsgPerm : Bool := true
  init : InitEnv := {}
  deriving DecidableEq, Repr

/-- The message `play` sends for a thrown code. -/
def startErrorMessage (e : Int) : Option String :=
  if e = 2 then some "`[ERROR]` Error while streaming, can't start playback"
  else if e = 1 then some "`[ERROR]` No connection"
  else none

/-- The task of `manager::play`: the code it caught, if any, and the message it sent. -/
def play (guildId : Nat) (env : PlayEnv) (s : StreamState) :
    StreamState × Option Int × Option String :=
  if !env.cluster then (s, none, none)
  else
    match s.player guildId with
    | none => (s, none, none)
    | some p =>
      if !env.voiceClient then (s, none, none)
      else
        let (p, status) := p.initForStream
        if status ≠ 0 then (s, none, none)
        else
          match submitStreamCtx guildId env.init (s.setPlayer guildId p) with
          | (s, .ok ()) => (s, none, none)
          | (s, .error e) => (s, some e, if env.hasSendMsgPerm then startErrorMessage e else none)

end Musicat.Stream
