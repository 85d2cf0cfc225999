import Musicat.Lib.Run
import Musicat.Player.Track
import Musicat.Server.Json

/-!
# The now-playing embed

`send_info_embed` and `update_info_embed` decide from the player's cached info
message whether to create a message, to edit one or to answer an interaction,
and put an operation in `embed_q`, which `check_embed_op_queue` runs. The
confirmation of a request comes later, and so do the events of deleted messages.
How a message becomes JSON and back belongs to D++ and is a parameter. Embeds,
emojis and log lines are left out.
-/

namespace Musicat.Player

open Lib Server

/-! ## Messages -/

/-- `dpp::message`; of its components, the rows of their custom ids. -/
structure Message where
  id : Nat := 0
  channelId : Nat := 0
  flags : UInt16 := 0
  components : List (List String) := []
  deriving DecidableEq

/-- `dpp::interaction_create_t`. -/
structure Interaction where
  id : Nat := 0
  token : String := ""
  userId : Nat := 0
  msg : Message := {}
  deriving DecidableEq

/-- What the code takes from D++: a message as a JSON object and back, and its flag of a message
whose source was deleted. -/
structure Dpp where
  toJson : Message → List (String × Json)
  fillFromJson : Json → Message
  sourceMessageDeleted : UInt16
  isSourceMessageDeleted : Message → Bool

/-- Ids and channels survive the way through JSON, and the flags are the number under `"flags"`. -/
structure Dpp.Lawful (d : Dpp) : Prop where
  id_toJson : ∀ m, (d.fillFromJson (.object (d.toJson m))).id = m.id
  channelId_toJson : ∀ m, (d.fillFromJson (.object (d.toJson m))).channelId = m.channelId
  flags_toJson : ∀ m, ((Json.object (d.toJson m)).get "flags").getUInt16 = m.flags
  flags_fill : ∀ fields,
    (d.fillFromJson (.object fields)).flags = ((Json.object fields).get "flags").getUInt16
  id_set : ∀ fields n, (d.fillFromJson ((Json.object fields).set "flags" (.integer n))).id =
    (d.fillFromJson (.object fields)).id
  channelId_set : ∀ fields n,
    (d.fillFromJson ((Json.object fields).set "flags" (.integer n))).channelId =
      (d.fillFromJson (.object fields)).channelId
  isSourceMessageDeleted_eq : ∀ m,
    d.isSourceMessageDeleted m = (m.flags &&& d.sourceMessageDeleted != 0)

/-- D++ on messages without components: the field of each name is a number. -/
def plainDpp : Dpp where
  toJson m := [("id", .unsigned m.id), ("channel_id", .unsigned m.channelId),
    ("flags", .unsigned m.flags.toNat)]
  fillFromJson j :=
    let number (key : String) : Nat :=
      match j.get key with
      | .unsigned n => n
      | _ => 0
    { id := number "id", channelId := number "channel_id", flags := (j.get "flags").getUInt16 }
  sourceMessageDeleted := 8
  isSourceMessageDeleted m := m.flags &&& 8 != 0

theorem plainDpp_lawful : plainDpp.Lawful where
  id_toJson _ := rfl
  channelId_toJson _ := rfl
  flags_toJson _ := UInt16.ofNat_toNat
  flags_fill _ := rfl
  id_set fields n := by
    simp only [plainDpp]
    rw [Json.get_set_of_ne fields (.integer n) (by decide)]
  channelId_set fields n := by
    simp only [plainDpp]
    rw [Json.get_set_of_ne fields (.integer n) (by decide)]
  isSourceMessageDeleted_eq _ := rfl

namespace Ids

def pause := "playnow/p"
def resume := "playnow/r"
def stop := "playnow/s"
def loop := "playnow/l"
def shuffle := "playnow/h"
def expand := "playnow/e"
def unexpand := "playnow/x"
def prev := "playnow/v"
def rewind := "playnow/w"
def autoplay := "playnow/a"
def forward := "playnow/f"
def next := "playnow/n"
def disableNotif := "playnow/d"
def enableNotif := "playnow/b"
def update := "playnow/u"

end Ids

/-- What `get_playing_info_embed` returns: 0, 1 for no player, 2 for no track, -1 for an error. -/
structure PlayingInfo where
  status : Int
  playing : Bool
  notification : Bool

/-- `playing_info_utils::is_button_expanded`. -/
def isButtonExpanded (m : Message) : Bool :=
  match m.components with
  | [] => false
  | row :: _ => row.length == 5 && row.getLast? == some Ids.unexpand

/-- `get_playing_info_message`; `ge`: what `get_playing_info_embed` returned. -/
def getPlayingInfoMessage (ge : PlayingInfo) (buttonExpanded : Bool) (m : Message) :
    Int × Message :=
  if ge.status ≠ 0 then (ge.status, m)
  else
    let toFirstRow :=
      [if ge.playing then Ids.pause else Ids.resume, Ids.stop, Ids.loop, Ids.shuffle,
        if buttonExpanded then Ids.unexpand else Ids.expand]
    let toExpandRow := [Ids.prev, Ids.rewind, Ids.autoplay, Ids.forward, Ids.next]
    let toSecondRow :=
      [if ge.notification then Ids.disableNotif else Ids.enableNotif, Ids.update]
    (0, { m with
      components :=
        toFirstRow :: ((if buttonExpanded then [toExpandRow] else []) ++ [toSecondRow]) })

/-- An edited message stays as expanded as it is asked to be. -/
theorem isButtonExpanded_getPlayingInfoMessage {ge : PlayingInfo} (h : ge.status = 0)
    (expanded : Bool) (m : Message) :
    isButtonExpanded (getPlayingInfoMessage ge expanded m).2 = expanded := by
  rw [getPlayingInfoMessage, if_neg (not_not_intro h)]
  cases expanded <;> simp [isButtonExpanded, Ids.expand, Ids.unexpand]

/-! ## State -/

structure EmbedOp where
  update : Bool
  forcePlayingStatus : Bool
  hasEvent : Bool
  deleteOriginal : Bool
  guildId : Nat
  channelId : Nat
  event : Interaction
  prevMessage : Message
  deriving DecidableEq

/-- The operation makes a new message. -/
def EmbedOp.creates (o : EmbedOp) : Bool := !o.update

/-- The operation answers an interaction: with `delete_original`, it creates a message instead. -/
def EmbedOp.answers (o : EmbedOp) : Bool := o.hasEvent && (o.update || !o.deleteOriginal)

/-- What the bot sends. -/
inductive Request where
  | messageDelete (id channelId : Nat)
  | messageCreate (m : Message)
  | messageEdit (m : Message)
  | reply (event : Interaction) (m : Message)
  | replyText (event : Interaction) (text : String)
  /-- `interaction_response_create` with `ir_update_message`. -/
  | updateMessage (event : Interaction) (m : Message)
  deriving DecidableEq

/-- What a confirmation holds. -/
inductive Confirmation where
  | error
  | message (m : Message)
  | other
  deriving DecidableEq

/-- The fields of `guild_player_t` that the embed is made from; `cached` is the message that
`set_info_message` was last called with. -/
structure EmbedPlayer where
  textChannelId : Nat := 0
  infoMessage : Json := .null
  cached : Option Message := none

/-- An operation that `queue_embed_op` has erased for another one; `editsDeleted`: that one edits a
message that `delete_info_embed` had deleted by then. -/
structure Discard where
  op : EmbedOp
  inFavourOf : EmbedOp
  editsDeleted : Bool
  deriving DecidableEq

structure EmbedState where
  players : Nat → Option EmbedPlayer
  embedQ : List EmbedOp
  requests : List Request
  /-- The guilds and ids of the delete events that have been handled. -/
  deleteEvents : List (Nat × Nat)
  discarded : List Discard

/-- What the bot may do in the text channel (`has_permissions`). -/
structure Perms where
  embed : Bool
  viewHistory : Bool
  deriving DecidableEq

/-! ## The queue -/

def isEmbedOpDuplicate (isThis duplicate : EmbedOp) : Bool :=
  isThis.guildId == duplicate.guildId && isThis.channelId == duplicate.channelId

/-- `str_mention_user`. -/
def strMentionUser (userId : Nat) : String := "<@" ++ toString userId ++ "> "

/-- `get_embed_werr`: the message, or what is sent instead of it. -/
def getEmbedWerr (event : Option Interaction) (ge : PlayingInfo) (expandButton : Bool)
    (m : Message) : Except (List Request) Message :=
  let (status, m) := getPlayingInfoMessage ge expandButton m
  let replyText (text : String) :=
    event.toList.map fun e => .replyText e (strMentionUser e.userId ++ text)
  if status < 0 then
    .error (replyText "`[ERROR]` Something went wrong when getting playback info")
  else if 0 < status then .error (replyText "Nothing is currently playing")
  else .ok m

/-- `run_embed_op`: what it sends. `info guild_id force_playing_status`: what
`get_playing_info_embed` returns. -/
def runEmbedOp (info : Nat → Bool → PlayingInfo) (o : EmbedOp) : List Request :=
  let ge := info o.guildId o.forcePlayingStatus
  let event := if o.hasEvent then some o.event else none
  if !o.update then
    match getEmbedWerr event ge false {} with
    | .error sent => sent
    | .ok m =>
      let m := { m with channelId := o.channelId }
      if o.hasEvent && !o.deleteOriginal then [.reply o.event m] else [.messageCreate m]
  else
    match getEmbedWerr event ge (isButtonExpanded o.prevMessage) o.prevMessage with
    | .error sent => sent
    | .ok pm => if !o.hasEvent then [.messageEdit pm] else [.updateMessage o.event pm]

namespace EmbedState

def init : EmbedState := ⟨fun _ => none, [], [], [], []⟩

/-- `delete_info_embed` has asked for the message to be deleted. -/
def messageDeleted (s : EmbedState) (id : Nat) : Bool :=
  s.requests.any fun
    | .messageDelete mid _ => mid == id
    | _ => false

def queueEmbedOp (o : EmbedOp) (s : EmbedState) : EmbedState :=
  { s with
    embedQ := s.embedQ.eraseP (isEmbedOpDuplicate · o) ++ [o]
    discarded := s.discarded ++ (s.embedQ.find? (isEmbedOpDuplicate · o)).toList.map
      fun old => ⟨old, o, o.update && s.messageDeleted o.prevMessage.id⟩ }

def checkEmbedOpQueue (info : Nat → Bool → PlayingInfo) (s : EmbedState) : EmbedState :=
  { s with
    embedQ := []
    requests := s.requests ++ s.embedQ.flatMap (runEmbedOp info) }

end EmbedState

/-! ## The info message -/

/-- `guild_player_t::get_info_message`. -/
def EmbedPlayer.getInfoMessage (d : Dpp) (p : EmbedPlayer) : Message × Int :=
  if p.infoMessage.isObject then (d.fillFromJson p.infoMessage, 0) else ({}, -1)

/-- `guild_player_t::set_info_message`. -/
def EmbedPlayer.setInfoMessage (d : Dpp) (m : Message) (p : EmbedPlayer) : EmbedPlayer :=
  { p with infoMessage := .object (d.toJson m), cached := some m }

/-- There is a message to edit, and it can be read. -/
def EmbedPlayer.editable (d : Dpp) (perms : Perms) (p : EmbedPlayer) : Bool :=
  (p.getInfoMessage d).2 == 0 && !d.isSourceMessageDeleted (p.getInfoMessage d).1 &&
    perms.viewHistory

/-- `!m.channel_id && !m.id`. -/
def Message.isNull (m : Message) : Bool := m.channelId == 0 && m.id == 0

namespace EmbedState

def setPlayer (guildId : Nat) (p : EmbedPlayer) (s : EmbedState) : EmbedState :=
  { s with players := Function.update s.players guildId (some p) }

def setInfoMessageAsDeleted (d : Dpp) (guildId messageId : Nat) (s : EmbedState) :
    Bool × EmbedState :=
  match s.players guildId with
  | none => (false, s)
  | some p =>
    let pim := p.getInfoMessage d
    if pim.2 != 0 || pim.1.id != messageId then (false, s)
    else
      let flags := (p.infoMessage.get "flags").getUInt16 &&& d.sourceMessageDeleted
      (true, s.setPlayer guildId
        { p with infoMessage := p.infoMessage.set "flags" (.integer flags.toNat) })

def handleOnMessageDelete (d : Dpp) (guildId id : Nat) (s : EmbedState) : EmbedState :=
  let s := (s.setInfoMessageAsDeleted d guildId id).2
  { s with deleteEvents := s.deleteEvents ++ [(guildId, id)] }

/-- One id after the other, as if each had an event of its own. -/
def handleOnMessageDeleteBulk (d : Dpp) (guildId : Nat) (deleted : List Nat) (s : EmbedState) :
    EmbedState :=
  deleted.foldl (fun s id => s.handleOnMessageDelete d guildId id) s

/-- `send_info_embed_cb`. -/
def sendInfoEmbedCb (d : Dpp) (cb : Confirmation) (guildId : Nat) (s : EmbedState) : EmbedState :=
  match cb with
  | .error | .other => s
  | .message m =>
    match s.players guildId with
    | none => s
    | some p => s.setPlayer guildId (p.setInfoMessage d m)

def deleteInfoEmbed (d : Dpp) (guildId : Nat) (s : EmbedState) : Bool × EmbedState :=
  match s.players guildId with
  | none => (false, s)
  | some p =>
    let pim := p.getInfoMessage d
    if pim.2 != 0 || d.isSourceMessageDeleted pim.1 then (false, s)
    else (true, { s with requests := s.requests ++ [.messageDelete pim.1.id pim.1.channelId] })

def sendInfoEmbed (d : Dpp) (guildId : Nat) (update forcePlayingStatus : Bool)
    (event : Option Interaction) (perms : Perms) (s : EmbedState) : Int × EmbedState :=
  match s.players guildId with
  | none => (1, s)
  | some player =>
    let pim := player.getInfoMessage d
    let cantUpdate := event.isNone && pim.2 != 0
    if update && cantUpdate then (0, s)
    else
      let channelId := player.textChannelId
      let deleteOriginal :=
        update && (pim.2 != 0 || d.isSourceMessageDeleted pim.1 || !perms.viewHistory)
      if !update && !perms.embed then (2, s)
      else
        let update := update && !deleteOriginal
        let s := if deleteOriginal then (s.deleteInfoEmbed d guildId).2 else s
        let (mn, hasMsgToUpdate, s) :=
          match update, event with
          | false, _ => (({} : Message), false, s)
          | true, some e =>
            -- an event of the cached message brings it up to date
            (e.msg, true,
              if pim.2 == 0 && pim.1.id == e.msg.id then
                s.setPlayer guildId (player.setInfoMessage d e.msg)
              else s)
          | true, none => if pim.2 == 0 then (pim.1, true, s) else ({}, false, s)
        let invalidUpdate := update && mn.channelId == 0 && mn.id == 0
        if !update || invalidUpdate then
          (0, s.queueEmbedOp ⟨false, forcePlayingStatus, event.isSome, deleteOriginal, guildId,
            channelId, event.getD {}, {}⟩)
        else if !hasMsgToUpdate then (0, s)
        else
          (0, s.queueEmbedOp ⟨true, forcePlayingStatus, event.isSome, deleteOriginal, guildId,
            channelId, event.getD {}, mn⟩)

/-! ## What is queued -/

section
variable {d : Dpp} {s : EmbedState} {p : EmbedPlayer} {g : Nat} {force : Bool}
  {event : Option Interaction} {perms : Perms}

/-- A creation that is asked for. -/
theorem sendInfoEmbed_create (hp : s.players g = some p) (hperm : perms.embed) :
    s.sendInfoEmbed d g false force event perms =
      (0, s.queueEmbedOp ⟨false, force, event.isSome, false, g, p.textChannelId,
        event.getD {}, {}⟩) := by
  simp [sendInfoEmbed, hp, hperm]

/-- A message that cannot be edited is deleted, and another one is created. -/
theorem sendInfoEmbed_recreate (hp : s.players g = some p)
    (hupdate : event.isSome ∨ (p.getInfoMessage d).2 = 0) (he : p.editable d perms = false) :
    s.sendInfoEmbed d g true force event perms =
      (0, (s.deleteInfoEmbed d g).2.queueEmbedOp ⟨false, force, event.isSome, true, g,
        p.textChannelId, event.getD {}, {}⟩) := by
  have hdelete : ((p.getInfoMessage d).2 != 0 || d.isSourceMessageDeleted (p.getInfoMessage d).1 ||
      !perms.viewHistory) = true := by
    rw [← Bool.not_eq_false', ← he, EmbedPlayer.editable, Bool.not_or, Bool.not_or, Bool.not_not,
      bne, Bool.not_not]
  have hcant : (event.isNone && (p.getInfoMessage d).2 != 0) = false := by
    rcases hupdate with h | h
    · simp [Option.isNone_eq_false_iff.2 h]
    · simp [h]
  simp [sendInfoEmbed, hp, hdelete, hcant]

/-- An update edits the message of its event, and without one the cached message. -/
theorem sendInfoEmbed_edit (force : Bool) (event : Option Interaction) (hp : s.players g = some p)
    (he : p.editable d perms) :
    ∃ t : EmbedState, (t = s ∨ ∃ e, event = some e ∧ t = s.setPlayer g (p.setInfoMessage d e.msg)) ∧
      s.sendInfoEmbed d g true force event perms =
        (0, t.queueEmbedOp (
          let mn := (event.map (·.msg)).getD (p.getInfoMessage d).1
          if mn.isNull then
            ⟨false, force, event.isSome, false, g, p.textChannelId, event.getD {}, {}⟩
          else ⟨true, force, event.isSome, false, g, p.textChannelId, event.getD {}, mn⟩)) := by
  obtain ⟨⟨hvalid, hkept⟩, hview⟩ : ((p.getInfoMessage d).2 = 0 ∧
      d.isSourceMessageDeleted (p.getInfoMessage d).1 = false) ∧ perms.viewHistory = true := by
    simpa [EmbedPlayer.editable] using he
  cases event with
  | none =>
    refine ⟨s, .inl rfl, ?_⟩
    cases hn : (p.getInfoMessage d).1.isNull <;> unfold Message.isNull at hn
    · simp [sendInfoEmbed, Message.isNull, hp, hvalid, hkept, hview, hn]
    · simp [sendInfoEmbed, Message.isNull, hp, hvalid, hkept, hview, hn]
  | some e =>
    cases hid : (p.getInfoMessage d).1.id == e.msg.id
    · refine ⟨s, .inl rfl, ?_⟩
      cases hn : e.msg.isNull <;> unfold Message.isNull at hn
      · simp [sendInfoEmbed, Message.isNull, hp, hvalid, hkept, hview, hn, hid]
      · simp [sendInfoEmbed, Message.isNull, hp, hvalid, hkept, hview, hn, hid]
    · refine ⟨_, .inr ⟨e, rfl, rfl⟩, ?_⟩
      cases hn : e.msg.isNull <;> unfold Message.isNull at hn
      · simp [sendInfoEmbed, Message.isNull, hp, hvalid, hkept, hview, hn, hid]
      · simp [sendInfoEmbed, Message.isNull, hp, hvalid, hkept, hview, hn, hid]

end

end EmbedState

/-! ## Steps -/

inductive EmbedAction where
  | createPlayer (guildId : Nat)
  | deletePlayer (guildId : Nat)
  | setChannel (guildId channelId : Nat)
  | sendInfoEmbed (guildId : Nat) (update forcePlayingStatus : Bool) (event : Option Interaction)
      (perms : Perms)
  | deleteInfoEmbed (guildId : Nat)
  | checkEmbedOpQueue (info : Nat → Bool → PlayingInfo)
  /-- The confirmation of a request comes. -/
  | sendInfoEmbedCb (cb : Confirmation) (guildId : Nat)
  | messageDelete (guildId id : Nat)
  | messageDeleteBulk (guildId : Nat) (deleted : List Nat)

/-- `update_info_embed`. -/
def EmbedAction.updateInfoEmbed (guildId : Nat) (forcePlayingStatus : Bool)
    (event : Option Interaction) (perms : Perms) : EmbedAction :=
  .sendInfoEmbed guildId true forcePlayingStatus event perms

/-- What the track marker calls for a new track; `lastMessageId`: of the text channel, when there is
one. -/
def trackMarkerEmbed (d : Dpp) (guildId : Nat) (notification embedPerms : Bool)
    (lastMessageId : Option Nat) (loopMode : LoopMode) (perms : Perms) (p : EmbedPlayer) :
    List EmbedAction :=
  if !notification || !embedPerms then []
  else
    let pim := p.getInfoMessage d
    let shouldUpdateEmbed := lastMessageId.any fun last =>
      pim.2 == 0 && last != 0 && last == pim.1.id
    if shouldUpdateEmbed then
      let notRepeatingSong := loopMode != .lSong && loopMode != .lSongQueue
      if notRepeatingSong then [.updateInfoEmbed guildId true none perms] else []
    else [.deleteInfoEmbed guildId, .sendInfoEmbed guildId false true none perms]

open EmbedState in
def embedStep (d : Dpp) (s : EmbedState) : EmbedAction → Option EmbedState
  | .createPlayer g => some (if (s.players g).isSome then s else s.setPlayer g {})
  | .deletePlayer g => some { s with players := Function.update s.players g none }
  | .setChannel g c => (s.players g).map fun p => s.setPlayer g { p with textChannelId := c }
  | .sendInfoEmbed g update force event perms =>
    some (s.sendInfoEmbed d g update force event perms).2
  | .deleteInfoEmbed g => some (s.deleteInfoEmbed d g).2
  | .checkEmbedOpQueue info => some (s.checkEmbedOpQueue info)
  | .sendInfoEmbedCb cb g => some (s.sendInfoEmbedCb d cb g)
  | .messageDelete g id => some (s.handleOnMessageDelete d g id)
  | .messageDeleteBulk g deleted => some (s.handleOnMessageDeleteBulk d g deleted)

end Musicat.Player
