import Musicat.Player.EmbedQueue

/-!
# Deleted info messages

A delete event of the info message is to mark the cached message, so that the
next update creates another one. `set_info_message_as_deleted` masks the flags
where it should set a flag in them: the flag is there afterwards if it was
before (`matches_run`), and an update edits the message or creates another one
as if there had been no event (`update_creates_iff`).
-/

namespace Musicat.Player

open Lib Server

variable {d : Dpp}

/-! ## The cached message -/

/-- What is left of the cached message in `info_message`: its id, its channel and its flag of a
deleted source. -/
def EmbedPlayer.Matches (d : Dpp) (p : EmbedPlayer) : Prop :=
  match p.cached with
  | none => p.infoMessage.isObject = false
  | some m => ∃ fields, p.infoMessage = .object fields ∧
      (d.fillFromJson (.object fields)).id = m.id ∧
      (d.fillFromJson (.object fields)).channelId = m.channelId ∧
      (p.infoMessage.get "flags").getUInt16 &&& d.sourceMessageDeleted =
        m.flags &&& d.sourceMessageDeleted

theorem EmbedPlayer.matches_setInfoMessage (hd : d.Lawful) (m : Message) (p : EmbedPlayer) :
    (p.setInfoMessage d m).Matches d :=
  ⟨d.toJson m, rfl, hd.id_toJson m, hd.channelId_toJson m,
    congrArg (· &&& d.sourceMessageDeleted) (hd.flags_toJson m)⟩

/-- **Masking the flags leaves the flag of a deleted source as it was.** -/
theorem EmbedPlayer.Matches.mask (hd : d.Lawful) {p : EmbedPlayer} (h : p.Matches d)
    (ho : p.infoMessage.isObject) :
    EmbedPlayer.Matches d { p with
      infoMessage := p.infoMessage.set "flags" (.integer
        ((p.infoMessage.get "flags").getUInt16 &&& d.sourceMessageDeleted).toNat) } := by
  unfold Matches at h ⊢
  simp only
  cases hc : p.cached with
  | none =>
    rw [hc] at h
    rw [h] at ho
    cases ho
  | some m =>
    rw [hc] at h
    obtain ⟨fields, hf, hid, hch, hflags⟩ := h
    rw [hf] at hflags ⊢
    have hset := Json.get_set fields "flags" (.integer
      (((Json.object fields).get "flags").getUInt16 &&& d.sourceMessageDeleted).toNat)
    refine ⟨_, rfl, (hd.id_set fields _).trans hid, (hd.channelId_set fields _).trans hch, ?_⟩
    rw [hset, hflags, Json.getUInt16_integer, UInt16.and_assoc, UInt16.and_self]

/-- What `get_info_message` returns of the cached message. -/
theorem EmbedPlayer.Matches.getInfoMessage (hd : d.Lawful) {p : EmbedPlayer} {m : Message}
    (h : p.Matches d) (hm : p.cached = some m) :
    (p.getInfoMessage d).2 = 0 ∧ (p.getInfoMessage d).1.id = m.id ∧
      (p.getInfoMessage d).1.channelId = m.channelId ∧
      d.isSourceMessageDeleted (p.getInfoMessage d).1 =
        (m.flags &&& d.sourceMessageDeleted != 0) := by
  unfold Matches at h
  rw [hm] at h
  obtain ⟨fields, hf, hid, hch, hflags⟩ := h
  rw [hf] at hflags
  simp only [EmbedPlayer.getInfoMessage, hf, Json.isObject, if_true]
  refine ⟨trivial, hid, hch, ?_⟩
  rw [hd.isSourceMessageDeleted_eq, hd.flags_fill, hflags]

namespace EmbedState

variable {s s' : EmbedState} {g : Nat}

def AllMatch (d : Dpp) (s : EmbedState) : Prop :=
  ∀ g p, s.players g = some p → p.Matches d

theorem allMatch_init : init.AllMatch d := nofun

theorem AllMatch.setPlayer {p : EmbedPlayer} (hi : s.AllMatch d) (hp : p.Matches d) :
    (s.setPlayer g p).AllMatch d := by
  intro g' p' h
  simp only [EmbedState.setPlayer] at h
  by_cases hg : g' = g
  · rw [hg, Function.update_self] at h
    cases h
    exact hp
  · rw [Function.update_of_ne hg] at h
    exact hi g' p' h

theorem AllMatch.handleOnMessageDelete (hd : d.Lawful) (hi : s.AllMatch d) (id : Nat) :
    (s.handleOnMessageDelete d g id).AllMatch d := by
  unfold EmbedState.handleOnMessageDelete setInfoMessageAsDeleted
  cases hp : s.players g with
  | none => exact hi
  | some p =>
    simp only
    split
    · exact hi
    · rename_i hpim
      refine hi.setPlayer ((hi g p hp).mask hd ?_)
      by_contra ho
      simp [EmbedPlayer.getInfoMessage, ho] at hpim

theorem AllMatch.handleOnMessageDeleteBulk (hd : d.Lawful) (ids : List Nat) :
    ∀ {s : EmbedState}, s.AllMatch d → (s.handleOnMessageDeleteBulk d g ids).AllMatch d := by
  induction ids with
  | nil => exact id
  | cons id ids ih =>
    intro s hi
    exact ih (hi.handleOnMessageDelete hd id)

/-- What a call of `send_info_embed` does to the players. -/
theorem players_sendInfoEmbed (update force : Bool) (event : Option Interaction) (perms : Perms) :
    (s.sendInfoEmbed d g update force event perms).2.players = s.players ∨
      ∃ p m, s.players g = some p ∧ (s.sendInfoEmbed d g update force event perms).2.players =
        (s.setPlayer g (p.setInfoMessage d m)).players := by
  cases hp : s.players g with
  | none => exact .inl (by simp [sendInfoEmbed, hp])
  | some p =>
    cases hs : silent d p update event perms with
    | true => exact .inl (by rw [sendInfoEmbed_silent hp hs])
    | false =>
      obtain ⟨t, o, hsend, -, -, hplayers, -⟩ := sendInfoEmbed_queues force hp hs
      rw [hsend]
      rcases hplayers with h | ⟨m, hm⟩
      · exact .inl h
      · exact .inr ⟨p, m, rfl, hm⟩

theorem AllMatch.step (hd : d.Lawful) {a : EmbedAction} (hi : s.AllMatch d)
    (h : embedStep d s a = some s') : s'.AllMatch d := by
  cases a with
  | createPlayer g =>
    cases h
    split
    · exact hi
    · exact hi.setPlayer rfl
  | deletePlayer g =>
    cases h
    intro g' p' hp
    by_cases hg : g' = g
    · simp [hg] at hp
    · exact hi g' p' (by simpa [hg] using hp)
  | setChannel g c =>
    obtain ⟨p, hp, rfl⟩ := Option.map_eq_some_iff.1 h
    exact hi.setPlayer (hi g p hp)
  | sendInfoEmbed g update force event perms =>
    cases h
    rcases players_sendInfoEmbed (d := d) (s := s) (g := g) update force event perms with
      hsend | ⟨p, m, -, hsend⟩
    · exact fun g' p' hp => hi g' p' (hsend ▸ hp)
    · intro g' p' hp
      exact hi.setPlayer (p.matches_setInfoMessage hd m) g' p' (hsend ▸ hp)
  | deleteInfoEmbed g =>
    cases h
    obtain ⟨-, -, hp, -⟩ := deleteInfoEmbed_frame d s g
    exact fun g' p' h => hi g' p' (hp ▸ h)
  | checkEmbedOpQueue info =>
    cases h
    exact hi
  | sendInfoEmbedCb cb g =>
    cases h
    unfold sendInfoEmbedCb
    split
    · exact hi
    · exact hi
    · split
      · exact hi
      · rename_i m _ p _
        exact hi.setPlayer (p.matches_setInfoMessage hd m)
  | messageDelete g id =>
    cases h
    exact hi.handleOnMessageDelete hd id
  | messageDeleteBulk g ids =>
    cases h
    exact AllMatch.handleOnMessageDeleteBulk hd ids hi

theorem matches_run (hd : d.Lawful) {l : List EmbedAction}
    (h : run (embedStep d) init l = some s) : s.AllMatch d :=
  run_invariant (fun _ _ _ hi hs => AllMatch.step hd hi hs) allMatch_init h

/-! ## The next update -/

/-- A delete event for the id of the cached message `m` of guild `g` has been handled. -/
def InfoMessageDeleted (s : EmbedState) (g : Nat) (m : Message) : Prop :=
  ∃ p, s.players g = some p ∧ p.cached = some m ∧ (g, m.id) ∈ s.deleteEvents

/-- The operation queued last is for the guild, and makes a new message. -/
def QueuesCreation (s : EmbedState) (g : Nat) : Prop :=
  ∃ o, s.embedQ.getLast? = some o ∧ o.guildId = g ∧ o.creates

theorem getLast?_queueEmbedOp (s : EmbedState) (o : EmbedOp) :
    (s.queueEmbedOp o).embedQ.getLast? = some o := by
  simp [EmbedState.queueEmbedOp]

/-- **The update after a delete event creates a message** exactly when the flag was in the cached
message from the start, or the message cannot be read, or it is no message. -/
theorem update_creates_iff (hd : d.Lawful) {l : List EmbedAction} {m : Message} {force : Bool}
    {perms : Perms} (h : run (embedStep d) init l = some s) (hm : s.InfoMessageDeleted g m)
    (hs : embedStep d s (.updateInfoEmbed g force none perms) = some s') :
    s'.QueuesCreation g ↔
      m.flags &&& d.sourceMessageDeleted ≠ 0 ∨ perms.viewHistory = false ∨ m.isNull := by
  obtain ⟨p, hp, hc, -⟩ := hm
  obtain ⟨hvalid, hid, hch, hdel⟩ := (matches_run hd h g p hp).getInfoMessage hd hc
  have hnull : (p.getInfoMessage d).1.isNull = m.isNull := by
    rw [Message.isNull, hid, hch, Message.isNull]
  have heditable : p.editable d perms ↔
      m.flags &&& d.sourceMessageDeleted = 0 ∧ perms.viewHistory = true := by
    simp [EmbedPlayer.editable, hvalid, hdel]
  cases hs
  by_cases he : p.editable d perms
  · obtain ⟨t, -, hsend⟩ := sendInfoEmbed_edit force none hp he
    obtain ⟨hflag, hview⟩ := heditable.1 he
    rw [hsend]
    simp only [QueuesCreation, getLast?_queueEmbedOp, Option.map_none, Option.getD_none, hnull]
    cases hn : m.isNull <;> simp [EmbedOp.creates, hflag, hview]
  · rw [sendInfoEmbed_recreate hp (.inr hvalid) (by simpa using he)]
    refine iff_of_true ⟨_, getLast?_queueEmbedOp _ _, rfl, rfl⟩ ?_
    rw [heditable, not_and_or, Bool.not_eq_true] at he
    exact he.imp id .inl

/-- The message is deleted with another one, and the bot may not read the channel any more. -/
theorem update_creates_unreadable :
    ∃ s s', run (embedStep plainDpp) init (firstMessage ++ [.messageDeleteBulk 1 [99, 100]]) =
        some s ∧
      embedStep plainDpp s (.updateInfoEmbed 1 false none ⟨true, false⟩) = some s' ∧
      s'.QueuesCreation 1 :=
  ⟨_, _, rfl, rfl, (update_creates_iff (l := firstMessage ++ [.messageDeleteBulk 1 [99, 100]])
    (m := { id := 100, channelId := 10 }) plainDpp_lawful rfl ⟨_, rfl, rfl, by decide⟩ rfl).2
      (.inr (.inl rfl))⟩

/-- The message is deleted, and the next update edits it. -/
theorem deleted_edited :
    ∃ s s' o, run (embedStep plainDpp) init (firstMessage ++ [.messageDelete 1 100]) = some s ∧
      s.InfoMessageDeleted 1 { id := 100, channelId := 10 } ∧
      embedStep plainDpp s (.updateInfoEmbed 1 false none allPerms) = some s' ∧
      s'.embedQ.getLast? = some o ∧ o.creates = false ∧ o.prevMessage.id = 100 :=
  ⟨_, _, _, rfl, ⟨_, rfl, rfl, by decide⟩, rfl, rfl, rfl, rfl⟩

end EmbedState

end Musicat.Player
