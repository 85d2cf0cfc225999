import Musicat.Player.Queue

/-!
# Skipping and the track marker

A track change is split in two. A handler (`manager::skip`, `handle_prev`,
`button_run_prev`) rearranges the queue and stops the stream; when the stream
has ended, `handle_on_track_marker` runs on the marker `"e"`, lets the finished
track go and makes the front the current track. `done_streaming` runs between
the two. What the marker finds outside the player is a `MarkerEnv`.
-/

namespace Musicat.Player

/-- The stored player configuration (`database::player_config`). -/
structure PlayerConfig where
  autoplayState : Bool
  autoplayThreshold : Int
  loopMode : LoopMode

/-- What `handle_on_track_marker` finds outside the player. -/
structure MarkerEnv where
  /-- The bot is running and the voice client is alive. -/
  running : Bool := true
  disconnecting : Bool := false
  shaId : Nat := 0
  /-- The stored queue; `none` when no database is connected. -/
  savedQueue : Option (List MCTrack) := none
  /-- The stored configuration, `none` when there is none. -/
  savedConfig : Option PlayerConfig := none
  fetchInfo : MCTrack → Option (Option String) := fun _ => none
  hasListener : Bool := true
  /-- `get_secs_remaining () < 0.05`. -/
  bufferDrained : Bool := true

/-- The marker is not turned away and there is nothing left to load. -/
structure MarkerEnv.Passes (env : MarkerEnv) (p : GuildPlayer) : Prop where
  running : env.running = true
  connected : env.disconnecting = false
  queueLoaded : p.savedQueueLoaded = true ∨ env.savedQueue = none
  configLoaded : p.savedConfigLoaded = true

namespace GuildPlayer

/-- `load_guild_current_queue`. -/
def loadGuildCurrentQueue (env : MarkerEnv) (p : GuildPlayer) : GuildPlayer :=
  if p.savedQueueLoaded then p
  else
    match env.savedQueue with
    | none => p
    | some tracks =>
      tracks.foldl
        (fun p t => p.addTrack { t with userId := env.shaId } false 0 (env.fetchInfo t))
        { p with savedQueueLoaded := true }

/-- `load_guild_player_config`. -/
def loadGuildPlayerConfig (env : MarkerEnv) (p : GuildPlayer) : GuildPlayer :=
  if p.savedConfigLoaded then p
  else
    let p := { p with savedConfigLoaded := true }
    match env.savedConfig with
    | none => p
    | some conf =>
      { p with
        loopMode := conf.loopMode
        maxHistorySize := (UInt64.ofInt conf.autoplayThreshold).toNat
        autoPlay := conf.autoplayState }

/-- `guild_player_t::current_track_is_first_track`. -/
def currentTrackIsFirstTrack (p : GuildPlayer) : Bool :=
  match p.queue with
  | [] => false
  | front :: _ => p.currentTrack.filename == front.filename

/-- The marker's `switch`: the front leaves, goes to the back, or stays. -/
def popByLoopMode (p : GuildPlayer) : GuildPlayer :=
  match p.queue with
  | [] => p
  | l :: queue =>
    match p.loopMode with
    | .lNone => { p with queue := queue }
    | .lQueue => { p with queue := queue ++ [l] }
    | _ => p

/-- What the marker does with the track that ended: repeat it or let it go. -/
def finishFront (p : GuildPlayer) : GuildPlayer :=
  match p.queue with
  | [] => p
  | front :: queue =>
    let rpt := p.currentTrack.rpt
    if 0 < rpt ∧ 0 < front.rpt then
      { p with
        currentTrack := { p.currentTrack with rpt := rpt - 1 }
        queue := { front with rpt := rpt - 1 } :: queue }
    else p.popByLoopMode

/-- The front becomes the current track; without one the current track is reset. -/
def startFront (p : GuildPlayer) : GuildPlayer :=
  match p.queue with
  | [] => { p with currentTrack := {} }
  | front :: queue =>
    let front := { front with skipVote := [] }
    { p with
      currentTrack := front
      queue := { front with seekTo := "" } :: queue
      stopped := false }

/-- `handle_on_track_marker`: the player, and whether playback goes on. -/
def handleOnTrackMarker (env : MarkerEnv) (trackMeta : String) (p : GuildPlayer) :
    GuildPlayer × Bool :=
  if !env.running then (p, false)
  else if p.processingAudio then (p, false)
  else if env.disconnecting then (p, false)
  else
    let p := p.loadGuildCurrentQueue env
    let p := p.loadGuildPlayerConfig env
    if p.queue.isEmpty then (p, false)
    else
      let p := p.resetShifted.1
      let p :=
        if trackMeta == "e" && !p.stopped && p.currentTrackIsFirstTrack then p.finishFront else p
      if p.queue.isEmpty then (p.startFront, false)
      else (p.startFront, env.hasListener && env.bufferDrained)

/-- `guild_player_t::reset_first_track_current_byte`. -/
def resetFirstTrackCurrentByte (p : GuildPlayer) : GuildPlayer :=
  match p.queue with
  | [] => p
  | front :: queue => { p with queue := { front with currentByte := 0 } :: queue }

/-- `guild_player_t::stop`; `inVoice` is whether the bot is in a voice channel. -/
def stop (p : GuildPlayer) (inVoice : Bool) : GuildPlayer :=
  if !p.processingAudio then p
  else if !inVoice then p
  else
    resetFirstTrackCurrentByte
      { p with stopping := true, currentTrack := { p.currentTrack with currentByte := 0 } }

/-- `guild_player_t::init_for_stream`; the encoder set up here never fails. -/
def initForStream (p : GuildPlayer) : GuildPlayer × Int :=
  ({ p.resetFirstTrackCurrentByte with processingAudio := true }, 0)

/-- `guild_player_t::done_streaming`. -/
def doneStreaming (p : GuildPlayer) : GuildPlayer :=
  { p with stopping := false, processingAudio := false }

/-- The queue part of `manager::skip`: `reset_shifted`, then `skip_queue`. -/
def managerSkipQueue (p : GuildPlayer) (amount : Int) (remove : Bool) :
    GuildPlayer × List MCTrack :=
  p.resetShifted.1.skipQueue amount remove false false

/-- The queue part shared by `handle_prev` and `button_run_prev`: the back of the
queue moves to the front. -/
def prevQueue (p : GuildPlayer) : GuildPlayer :=
  let p := p.resetShifted.1
  let p := p.resetCurrentRepeat
  let queue := resetFrontRepeat p.queue
  match queue.getLast? with
  | none => p
  | some back => { p with queue := (back :: queue).dropLast }

end GuildPlayer

/-! ## The handlers -/

/-- What `manager::skip` finds outside the player; `voiceChannel` is the channel of the
voice connection, `none` when there is no connection. -/
structure SkipEnv where
  voiceChannel : Option Nat
  voiceClient : Bool
  userChannel : Option Nat
  inVoice : Bool

/-- `guild_player_t::skip_playback`: the tracks and the status it returns. -/
def skipPlayback (p : GuildPlayer) (voiceClient inVoice : Bool) :
    GuildPlayer × List MCTrack × Int :=
  if !voiceClient then (p, [], -1) else (p.stop inVoice, [p.currentTrack], 0)

/-- `manager::skip`; an exception is its message and its code. -/
def managerSkip (env : SkipEnv) (p : GuildPlayer) (amount : Int) (remove : Bool) :
    GuildPlayer × Except (String × Int) (List MCTrack × Int) :=
  match env.voiceChannel with
  | none => (p, .ok ([], -1))
  | some channel =>
    match env.userChannel with
    | none => (p.resetShifted.1, .error ("You're not in a voice channel", 1))
    | some user =>
      if user ≠ channel then (p.resetShifted.1, .error ("You're not in my voice channel", 0))
      else
        let (p, removed) := p.managerSkipQueue amount remove
        let (p, _, status) := skipPlayback p env.voiceClient env.inVoice
        (p, .ok (removed, status))

/-- `button_run_prev`; `status` is what `button_seek_zero` returned, 128 when the
playback is less than one seek step in. -/
def buttonRunPrev (p : GuildPlayer) (status : Int) (voiceClient inVoice : Bool) : GuildPlayer :=
  if status = 0 ∨ status ≠ 128 then p
  else
    let q := p.prevQueue
    if q.queue.isEmpty then q else (skipPlayback q voiceClient inVoice).1

end Musicat.Player
