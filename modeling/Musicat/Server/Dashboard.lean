import Musicat.Lib.Run
import Musicat.Player.Marker
import Musicat.Server.Json

/-!
# The dashboard socket

One websocket connection of the dashboard, from `events::upgrade` to its close:
the socket data, what the handlers of `message.cpp` reach through
`sdata->server_id`, and the replies sent. `message` is one client message;
between messages the rest of the bot may do anything to the `World`. JSON
parsing, the snowflake of a string and the payload of a track are parameters.
-/

namespace Musicat.Server

open Lib Player GuildPlayer

/-- `socket_event_e`, as numbered in the protocol. -/
def socketEventError : Int := 0
def socketEventPause : Int := 1
def socketEventPlay : Int := 3
def socketEventSeek : Int := 4
def socketEventStop : Int := 5
def socketEventQueue : Int := 7
def socketEventRegister : Int := 8
def socketEventNext : Int := 9
def socketEventPrev : Int := 10

/-- A call on the voice client. -/
inductive VoiceOp where
  | pauseAudio (paused : Bool)
  | stopAudio
  | insertMarker (trackMeta : String)
  | skipToNextMarker
  deriving DecidableEq, Repr

/-- `discord_voice_client`: whether it is paused, and the calls made on it. -/
structure VoiceClient where
  paused : Bool := false
  ops : List VoiceOp := []
  deriving DecidableEq, Repr

namespace VoiceClient

def pauseAudio (v : VoiceClient) (paused : Bool) : VoiceClient :=
  { paused, ops := v.ops ++ [.pauseAudio paused] }

def call (v : VoiceClient) (op : VoiceOp) : VoiceClient := { v with ops := v.ops ++ [op] }

end VoiceClient

/-- What the handlers reach outside the socket, for the guild `server_id`. -/
structure World where
  /-- `get_player (server_id)`. -/
  player : Option GuildPlayer := none
  voiceClient : Option VoiceClient := none
  /-- `get_voice_from_gid`: the voice channel of each user in one. -/
  voiceStates : List (Nat × Nat) := []
  shaId : Nat := 0
  manuallyPaused : Bool := false
  /-- `get_track_progress (current_track).current_ms`. -/
  progressMs : Int := 0
  deriving DecidableEq, Repr

/-- `SocketData`. -/
structure SocketData where
  serverId : Nat
  userId : Nat := 0
  waved : Bool := false
  deriving DecidableEq, Repr

/-- A message to the client. -/
inductive Sent where
  | text (s : String)
  | event (e : Int) (d : Json)

structure Conn where
  sdata : SocketData
  world : World
  isOpen : Bool := true
  sent : List Sent := []

namespace Conn

def send (c : Conn) (m : Sent) : Conn := { c with sent := c.sent ++ [m] }

def close (c : Conn) : Conn := { c with isOpen := false }

def setPlayer (c : Conn) (p : GuildPlayer) : Conn :=
  { c with world := { c.world with player := some p } }

def setVoice (c : Conn) (v : VoiceClient) : Conn :=
  { c with world := { c.world with voiceClient := some v } }

end Conn

/-! ## Who may control the player -/

/-- `guild_player_t::user_in_the_same_vc`. -/
def userInTheSameVc (w : World) (p : GuildPlayer) (userId : Nat) : Bool :=
  match w.voiceStates.lookup userId with
  | none => false
  | some channel => p.voiceChannelId == channel

/-- `guild_player_t::can_control_dashboard`. -/
def canControlDashboard (w : World) (p : GuildPlayer) (userId : Nat) : Bool :=
  p.dashboardControlRequests.contains userId || userInTheSameVc w p userId

/-- `check_user_voicestate`: the player, or the status of the refusal. -/
def checkUserVoicestate (c : Conn) : Conn × Except Int GuildPlayer :=
  if c.sdata.userId = 0 then (c, .error (-1))
  else
    match c.world.player with
    | none => (c, .error (-1))
    | some p =>
      if !canControlDashboard c.world p c.sdata.userId then
        (c.send (.event socketEventError (.string "You're not in my voice channel")), .error 1)
      else (c, .ok p)

/-- The opening of the control handlers: `body` runs when the check passes. -/
def withControl (body : GuildPlayer → Conn → Conn × Int) (c : Conn) : Conn × Int :=
  match checkUserVoicestate c with
  | (c, .ok p) => body p c
  | (c, .error status) => (c, if status = 1 then 0 else status)

/-! ## Handlers -/

/-- `register_ws_user`. -/
def registerWsUser (c : Conn) (userId : Nat) : Conn :=
  { c with sdata := { c.sdata with userId } }

/-- The string under `"uid"` of a register payload. -/
def uidOf (data : Json) : Option String :=
  match data.find "uid" with
  | some (.string uid) => some uid
  | _ => none

/-- `handle_register`. -/
def handleRegister (toSnowflake : String → Nat) (data : Json) (c : Conn) : Conn × Int :=
  match uidOf data with
  | none => (c, 1)
  | some uid => (registerWsUser c (toSnowflake uid), 0)

/-- `handle_pause`. -/
def handlePause : Conn → Conn × Int :=
  withControl fun _ c =>
    match c.world.voiceClient with
    | some v =>
      if !v.paused then
        let c := c.setVoice (v.pauseAudio true)
        ({ c with world := { c.world with manuallyPaused := true } }, 0)
      else (c.send (.event socketEventPause .null), 0)
    | none => (c.send (.event socketEventPause .null), 0)

/-- `handle_play`. -/
def handlePlay : Conn → Conn × Int :=
  withControl fun p c =>
    match c.world.voiceClient with
    | some v =>
      if v.paused then
        let c := c.setVoice (v.pauseAudio false)
        ({ c with world := { c.world with manuallyPaused := false } }, 0)
      else if !p.processingAudio && !p.queue.isEmpty then
        (c.setVoice ((v.call .stopAudio).call (.insertMarker "c")), 0)
      else (c.send (.event socketEventPlay .null), 0)
    | none => (c.send (.event socketEventPlay .null), 0)

/-- `opus_byte_per_ms`: 48 samples of two channels of two bytes. -/
def opusBytePerMs : Int := 1 * 48 * 2 * 2

/-- `handle_seek`. -/
def handleSeek (data : Json) : Conn → Conn × Int :=
  withControl fun p c =>
    if !p.processingAudio then (c.send (.event socketEventSeek data), 0)
    else
      match data with
      | .unsigned totalMs =>
        (c.setPlayer { p with
          currentTrack := { p.currentTrack with
            currentByte := (opusBytePerMs * totalMs).bmod (2 ^ 64)
            seekTo := "y" } }, 0)
      | _ => (c, -1)

/-- `skip_playback` on a live voice client, from a handler. -/
def Conn.skipPlayback (c : Conn) (p : GuildPlayer) (v : VoiceClient) : Conn :=
  let inVoice := (c.world.voiceStates.lookup c.world.shaId).isSome
  (c.setPlayer (Player.skipPlayback p true inVoice).1).setVoice
    ((v.pauseAudio false).call .skipToNextMarker)

/-- `handle_stop`. -/
def handleStop : Conn → Conn × Int :=
  withControl fun p c =>
    match c.world.voiceClient with
    | none => (c.send (.event socketEventStop .null), 0)
    | some v =>
      let c := c.skipPlayback p v
      let player := c.world.player.map fun p => { p with stopped := true }
      let voiceClient := c.world.voiceClient.map (·.pauseAudio true)
      ({ c with world := { c.world with player, voiceClient, manuallyPaused := true } }, 0)

section
variable (trackData : MCTrack → Json)

/-- The reply with `get_queue_payload`, which resets `shifted_track` on its way. -/
def Conn.sendQueue (c : Conn) (p : GuildPlayer) : Conn :=
  let p := p.resetShifted.1
  (c.setPlayer p).send (.event socketEventQueue (.array (p.queue.map trackData)))

/-- `handle_next`. -/
def handleNext : Conn → Conn × Int :=
  withControl fun p c =>
    match c.world.voiceClient with
    | none => (c.sendQueue trackData p, 0)
    | some v => (c.skipPlayback (p.skipQueue 1 false false false).1 v, 0)

/-- `second_seek_step`: `SECOND_SEEK_STEP` seconds. -/
def secondSeekStep : Int := 15 * 1000

/-- `handle_prev`. -/
def handlePrev : Conn → Conn × Int :=
  withControl fun p c =>
    match c.world.voiceClient with
    | none => (c.sendQueue trackData p, 0)
    | some v =>
      if secondSeekStep ≤ c.world.progressMs then handleSeek (.unsigned 0) c
      else
        let q := p.prevQueue
        if q.queue.isEmpty then ((c.setPlayer q).send (.event socketEventPlay .null), 0)
        else (c.skipPlayback q v, 0)

variable (toSnowflake : String → Nat)

/-- `handle_message`: the handler of the event `e`, on the payload's `"d"`. -/
def handleMessage (e : Int) (payload : Json) (c : Conn) : Conn × Int :=
  let data := (payload.find "d").getD .null
  if e = socketEventPause then handlePause c
  else if e = socketEventPlay then handlePlay c
  else if e = socketEventSeek then handleSeek data c
  else if e = socketEventStop then handleStop c
  else if e = socketEventRegister then handleRegister toSnowflake data c
  else if e = socketEventNext then handleNext trackData c
  else if e = socketEventPrev then handlePrev trackData c
  else (c, 0)

/-- The event number of a payload, in the 32 bits of the enum; `none` when `message`
closes the socket instead. -/
def eventOf (payload : Json) : Option Int :=
  if !payload.isObject then none
  else
    match payload.find "e" with
    | none => none
    | some e => if e.isNumber then some (e.getInt64 % 2 ^ 32) else none

variable (parse : String → Option Json)

/-- `message`; `parse` is `none` where `json::parse` throws. -/
def message (msg : String) (c : Conn) : Conn :=
  if msg = "" then c
  else if msg = "meow!" then
    { c with sdata := { c.sdata with waved := true } }.send (.text "(^v^)")
  else if msg = "0" then c.send (.text "0")
  else
    match parse msg with
    | none => c.close
    | some payload =>
      match eventOf payload with
      | none => c.close
      | some e =>
        let (c, status) := handleMessage trackData toSnowflake e payload c
        if status ≠ 0 then c.close else c

/-! ## A connection -/

/-- The request that opens the socket: what the middlewares and the guild lookup make of it. -/
structure UpgradeRequest where
  corsAccepted : Bool
  /-- `validate_token`: the user of the token, empty when there is none. -/
  tokenUser : String
  serverId : String
  guildFound : Bool

/-- `util::valid_number (s) == 0`. -/
def validNumber (s : String) : Bool := !s.isEmpty && s.toList.all Char.isDigit

/-- `events::upgrade`: the socket data of the connection, `none` when it is refused. -/
def upgrade (req : UpgradeRequest) : Option SocketData :=
  if !req.corsAccepted then none
  else if req.tokenUser.isEmpty then none
  else if req.serverId.isEmpty || !validNumber req.serverId then none
  else if !req.guildFound then none
  else some { serverId := toSnowflake req.serverId }

inductive WsAction where
  /-- A message from the client. -/
  | message (msg : String)
  /-- Anything the rest of the bot does. -/
  | world (w : World)

def wsStep (c : Conn) : WsAction → Option Conn
  | .message msg => if c.isOpen then some (message trackData toSnowflake parse msg c) else none
  | .world w => some { c with world := w }

/-- The uid a message registers, if it is a register message that `handle_register` accepts. -/
def registeredUid (msg : String) : Option String :=
  if msg = "" ∨ msg = "meow!" ∨ msg = "0" then none
  else
    (parse msg).bind fun payload =>
      if eventOf payload = some socketEventRegister then
        uidOf ((payload.find "d").getD .null)
      else none

/-- A register message names `u`, or a string that stands for no user. -/
def RegistersOnly (u : Nat) (_ : Conn) : WsAction → Prop
  | .message msg =>
    ∀ uid ∈ registeredUid parse msg, toSnowflake uid = u ∨ toSnowflake uid = 0
  | .world _ => True

end

end Musicat.Server
