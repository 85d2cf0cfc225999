import Musicat.Lib.Lists
import Musicat.Player.Embed

/-!
# What the embed queue keeps

`queue_embed_op` erases the queued operation of the same guild and channel
whatever it would do, so the queue holds at most one of each
(`onePerChannel_run`), and a creation or an answer is lost when a later call
queues an operation that does less (`queue_keeps`, `sendInfoEmbed_loses`).
-/

namespace Musicat.Player

open Lib Server

namespace EmbedState

variable {d : Dpp} {s s' t : EmbedState} {p : EmbedPlayer} {o : EmbedOp} {g c : Nat}

/-! ## One operation for each channel -/

def key (o : EmbedOp) : Nat × Nat := (o.guildId, o.channelId)

def OnePerChannel (s : EmbedState) : Prop := (s.embedQ.map key).Nodup

theorem isEmbedOpDuplicate_eq (o : EmbedOp) :
    (isEmbedOpDuplicate · o) = fun a => decide (key a = key o) := by
  funext a
  rw [Bool.eq_iff_iff]
  simp [isEmbedOpDuplicate, key]

theorem onePerChannel_init : init.OnePerChannel := List.nodup_nil

theorem OnePerChannel.queueEmbedOp (hi : s.OnePerChannel) (o : EmbedOp) :
    (s.queueEmbedOp o).OnePerChannel := by
  unfold OnePerChannel EmbedState.queueEmbedOp
  rw [isEmbedOpDuplicate_eq, List.map_append, List.nodup_append]
  refine ⟨nodup_map_eraseP hi, List.nodup_singleton _, ?_⟩
  intro k hk k' hk' hkk
  obtain ⟨a, ha, rfl⟩ := List.mem_map.1 hk
  exact key_ne_of_mem_eraseP hi ha (hkk.trans (List.mem_singleton.1 hk'))

/-! ## What a call queues -/

theorem deleteInfoEmbed_frame (d : Dpp) (s : EmbedState) (g : Nat) :
    (s.deleteInfoEmbed d g).2.embedQ = s.embedQ ∧
      (s.deleteInfoEmbed d g).2.discarded = s.discarded ∧
      (s.deleteInfoEmbed d g).2.players = s.players ∧
      (s.deleteInfoEmbed d g).2.deleteEvents = s.deleteEvents := by
  unfold deleteInfoEmbed
  split
  · exact ⟨rfl, rfl, rfl, rfl⟩
  · simp only
    split <;> exact ⟨rfl, rfl, rfl, rfl⟩

/-- The call returns before it queues anything. -/
def silent (d : Dpp) (p : EmbedPlayer) (update : Bool) (event : Option Interaction)
    (perms : Perms) : Bool :=
  if update then event.isNone && (p.getInfoMessage d).2 != 0 else !perms.embed

/-- The call has an interaction to answer, and no deleted message to edit for it. -/
def answersKept (d : Dpp) (p : EmbedPlayer) (update : Bool) (event : Option Interaction)
    (perms : Perms) (s : EmbedState) : Bool :=
  match event with
  | none => false
  | some e => !update || p.editable d perms && (e.msg.isNull || !s.messageDeleted e.msg.id)

theorem sendInfoEmbed_silent {update force : Bool} {event : Option Interaction} {perms : Perms}
    (hp : s.players g = some p) (h : silent d p update event perms) :
    (s.sendInfoEmbed d g update force event perms).2 = s := by
  cases update with
  | true => simp_all [silent, sendInfoEmbed]
  | false => simp_all [silent, sendInfoEmbed]

/-- **A call that is not silent queues one operation** for its guild and channel. -/
theorem sendInfoEmbed_queues {update : Bool} {event : Option Interaction} {perms : Perms}
    (force : Bool) (hp : s.players g = some p) (h : silent d p update event perms = false) :
    ∃ (t : EmbedState) (o : EmbedOp),
      (s.sendInfoEmbed d g update force event perms).2 = t.queueEmbedOp o ∧
      t.embedQ = s.embedQ ∧ t.discarded = s.discarded ∧
      (t.players = s.players ∨
        ∃ m, t.players = (s.setPlayer g (p.setInfoMessage d m)).players) ∧
      o.guildId = g ∧ o.channelId = p.textChannelId ∧
      ((o.answers ∧ (o.update && t.messageDeleted o.prevMessage.id) = false) ↔
        s.answersKept d p update event perms) := by
  cases update with
  | false =>
    rw [sendInfoEmbed_create hp (by simpa [silent] using h)]
    refine ⟨s, _, rfl, rfl, rfl, .inl rfl, rfl, rfl, ?_⟩
    cases event <;> simp [EmbedOp.answers, answersKept]
  | true =>
    have hupdate : event.isSome ∨ (p.getInfoMessage d).2 = 0 := by
      cases event with
      | none => exact .inr (by simpa [silent] using h)
      | some e => exact .inl rfl
    cases he : p.editable d perms with
    | false =>
      rw [sendInfoEmbed_recreate hp hupdate he]
      obtain ⟨hq, hdis, hplayers, -⟩ := deleteInfoEmbed_frame d s g
      refine ⟨_, _, rfl, hq, hdis, .inl hplayers, rfl, rfl, ?_⟩
      cases event <;> simp [EmbedOp.answers, answersKept, he]
    | true =>
      obtain ⟨t, ht, hsend⟩ := sendInfoEmbed_edit force event hp he
      have hframe : t.embedQ = s.embedQ ∧ t.discarded = s.discarded ∧ t.requests = s.requests ∧
          (t.players = s.players ∨
            ∃ m, t.players = (s.setPlayer g (p.setInfoMessage d m)).players) := by
        rcases ht with rfl | ⟨e, -, rfl⟩
        · exact ⟨rfl, rfl, rfl, .inl rfl⟩
        · exact ⟨rfl, rfl, rfl, .inr ⟨_, rfl⟩⟩
      obtain ⟨hq, hdis, hreq, hplayers⟩ := hframe
      have hdel (id : Nat) : t.messageDeleted id = s.messageDeleted id := by
        unfold messageDeleted
        rw [hreq]
      rw [hsend]
      refine ⟨t, _, rfl, hq, hdis, hplayers, ?_⟩
      cases event with
      | none =>
        cases hn : (p.getInfoMessage d).1.isNull <;> simp [EmbedOp.answers, answersKept, hn]
      | some e =>
        cases hn : e.msg.isNull <;> simp [EmbedOp.answers, answersKept, he, hn, hdel]

/-! ## Calls that lose nothing -/

/-- The queued operation of the channel, if there is one, neither creates nor answers. -/
def Replaceable (s : EmbedState) (g c : Nat) : Prop :=
  ∀ o ∈ s.embedQ, o.guildId = g → o.channelId = c → o.creates = false ∧ o.answers = false

instance (s : EmbedState) (g c : Nat) : Decidable (s.Replaceable g c) :=
  inferInstanceAs (Decidable (∀ o ∈ s.embedQ, _))

/-- A call that queues an operation finds none that creates or answers, or has an interaction to
answer itself. -/
def SendKeeps (d : Dpp) (s : EmbedState) : EmbedAction → Prop
  | .sendInfoEmbed g update _ event perms =>
    match s.players g with
    | none => True
    | some p =>
      silent d p update event perms ∨ s.Replaceable g p.textChannelId ∨
        s.answersKept d p update event perms
  | _ => True

instance (d : Dpp) (s : EmbedState) (a : EmbedAction) : Decidable (s.SendKeeps d a) :=
  match a with
  | .sendInfoEmbed g update _ event perms =>
    match h : s.players g with
    | none => isTrue (by simp [SendKeeps, h])
    | some p => decidable_of_iff (silent d p update event perms ∨ s.Replaceable g p.textChannelId ∨
        s.answersKept d p update event perms) (by simp [SendKeeps, h])
  | .createPlayer _ | .deletePlayer _ | .setChannel .. | .deleteInfoEmbed _ | .checkEmbedOpQueue _
  | .sendInfoEmbedCb .. | .messageDelete .. | .messageDeleteBulk .. => isTrue trivial

/-- What was erased did nothing that counts, or gave way to an answer that edits no deleted
message. -/
def Discard.Fine (r : Discard) : Prop :=
  r.op.creates ∨ r.op.answers → r.editsDeleted = false ∧ r.inFavourOf.answers

structure KeepInv (s : EmbedState) : Prop where
  one : s.OnePerChannel
  fine : ∀ r ∈ s.discarded, Discard.Fine r

theorem keepInv_init : init.KeepInv :=
  ⟨onePerChannel_init, fun _ hr => (List.not_mem_nil hr).elim⟩

theorem KeepInv.congr (hi : s.KeepInv) (hq : t.embedQ = s.embedQ)
    (hd : t.discarded = s.discarded) : t.KeepInv :=
  ⟨by unfold OnePerChannel; exact hq ▸ hi.one, hd ▸ hi.fine⟩

theorem mem_discarded_queueEmbedOp {r : Discard} (hr : r ∈ (s.queueEmbedOp o).discarded) :
    r ∈ s.discarded ∨ r.op ∈ s.embedQ ∧ r.op.guildId = o.guildId ∧ r.op.channelId = o.channelId ∧
      r.inFavourOf = o ∧ r.editsDeleted = (o.update && s.messageDeleted o.prevMessage.id) := by
  refine (List.mem_append.1 hr).imp_right fun hr => ?_
  obtain ⟨old, hold, rfl⟩ := List.mem_map.1 hr
  rw [Option.mem_toList] at hold
  have hdup := List.find?_some hold
  rw [isEmbedOpDuplicate, Bool.and_eq_true, beq_iff_eq, beq_iff_eq] at hdup
  exact ⟨List.mem_of_find?_eq_some hold, hdup.1, hdup.2, rfl, rfl⟩

theorem KeepInv.queueEmbedOp (hi : s.KeepInv)
    (h : s.Replaceable o.guildId o.channelId ∨
      o.answers ∧ (o.update && s.messageDeleted o.prevMessage.id) = false) :
    (s.queueEmbedOp o).KeepInv where
  one := hi.one.queueEmbedOp o
  fine r hr hcounts := by
    rcases mem_discarded_queueEmbedOp hr with hr | ⟨hmem, hg, hc, hfav, hedits⟩
    · exact hi.fine r hr hcounts
    · rcases h with h | ⟨hans, hdel⟩
      · obtain ⟨hcreates, hanswers⟩ := h r.op hmem hg hc
        rw [hcreates, hanswers] at hcounts
        rcases hcounts with h | h <;> cases h
      · exact ⟨hedits.trans hdel, hfav ▸ hans⟩

theorem handleOnMessageDelete_frame (d : Dpp) (s : EmbedState) (g id : Nat) :
    (s.handleOnMessageDelete d g id).embedQ = s.embedQ ∧
      (s.handleOnMessageDelete d g id).discarded = s.discarded := by
  unfold handleOnMessageDelete setInfoMessageAsDeleted
  split
  · exact ⟨rfl, rfl⟩
  · simp only
    split <;> exact ⟨rfl, rfl⟩

theorem KeepInv.handleOnMessageDeleteBulk (ids : List Nat) :
    ∀ {s : EmbedState}, s.KeepInv → (s.handleOnMessageDeleteBulk d g ids).KeepInv := by
  induction ids with
  | nil => exact id
  | cons id ids ih =>
    intro s hi
    obtain ⟨hq, hdis⟩ := handleOnMessageDelete_frame d s g id
    exact ih (hi.congr hq hdis)

theorem KeepInv.step {a : EmbedAction} (hi : s.KeepInv) (ha : s.SendKeeps d a)
    (h : embedStep d s a = some s') : s'.KeepInv := by
  cases a with
  | createPlayer g =>
    cases h
    split
    · exact hi
    · exact hi.congr rfl rfl
  | deletePlayer g =>
    cases h
    exact hi.congr rfl rfl
  | setChannel g c =>
    obtain ⟨p, -, rfl⟩ := Option.map_eq_some_iff.1 h
    exact hi.congr rfl rfl
  | sendInfoEmbed g update force event perms =>
    cases h
    cases hp : s.players g with
    | none => simpa [sendInfoEmbed, hp] using hi
    | some p =>
      cases hs : silent d p update event perms with
      | true => rwa [sendInfoEmbed_silent hp hs]
      | false =>
        obtain ⟨t, o, hsend, hq, hdis, -, hg, hc, hiff⟩ := sendInfoEmbed_queues force hp hs
        simp only [SendKeeps, hp, hs, Bool.false_eq_true, false_or] at ha
        rw [hsend]
        refine (hi.congr hq hdis).queueEmbedOp (ha.imp (fun ha => ?_) hiff.2)
        unfold Replaceable
        rw [hq, hg, hc]
        exact ha
  | deleteInfoEmbed g =>
    cases h
    obtain ⟨hq, hdis, -, -⟩ := deleteInfoEmbed_frame d s g
    exact hi.congr hq hdis
  | checkEmbedOpQueue info =>
    cases h
    exact ⟨List.nodup_nil, hi.fine⟩
  | sendInfoEmbedCb cb g =>
    cases h
    unfold sendInfoEmbedCb
    split
    · exact hi
    · exact hi
    · split
      · exact hi
      · exact hi.congr rfl rfl
  | messageDelete g id =>
    cases h
    obtain ⟨hq, hdis⟩ := handleOnMessageDelete_frame d s g id
    exact hi.congr hq hdis
  | messageDeleteBulk g ids =>
    cases h
    exact hi.handleOnMessageDeleteBulk ids

/-- **The queue has at most one operation for a guild and channel, and no creation and no answer is
discarded** for an edit of a message that `delete_info_embed` has deleted or for an operation that
answers nothing, in a run whose calls keep what is queued. -/
theorem queue_keeps {l : List EmbedAction} (hl : Along (embedStep d) (SendKeeps d) init l)
    (h : run (embedStep d) init l = some s) :
    s.OnePerChannel ∧ ∀ r ∈ s.discarded, Discard.Fine r :=
  have hi := run_inv (fun _ _ _ hi ha hs => KeepInv.step hi ha hs) keepInv_init hl h
  ⟨hi.one, hi.fine⟩

/-- The bot may send to the channel and read it. -/
def allPerms : Perms := ⟨true, true⟩

/-- The first message of guild 1 has been created and confirmed. -/
def firstMessage : List EmbedAction :=
  [.createPlayer 1, .setChannel 1 10, .sendInfoEmbed 1 false true none allPerms,
    .checkEmbedOpQueue fun _ _ => ⟨0, true, true⟩,
    .sendInfoEmbedCb (.message { id := 100, channelId := 10 }) 1]

/-- A button of the message that is pressed. -/
def pressButton (id : Nat) : EmbedAction :=
  .updateInfoEmbed 1 false (some { id := id, userId := 7, msg := { id := 100, channelId := 10 } })
    allPerms

/-- Two buttons are pressed before the queue is checked. -/
theorem queue_keeps_pressButton :
    ∃ s, run (embedStep plainDpp) init (firstMessage ++ [pressButton 1, pressButton 2]) = some s ∧
      s.OnePerChannel ∧ ∀ r ∈ s.discarded, Discard.Fine r :=
  ⟨_, rfl, queue_keeps (d := plainDpp) (l := firstMessage ++ [pressButton 1, pressButton 2])
    (by decide) rfl⟩

/-! ## Calls that lose something -/

/-- The marker of the next track deletes the message and queues the creation of another one, and a
call without an event edits the deleted message in its place. -/
theorem creation_lost :
    ∃ s p s', run (embedStep plainDpp) init firstMessage = some s ∧ s.players 1 = some p ∧
      run (embedStep plainDpp) s
        (trackMarkerEmbed plainDpp 1 true true (some 101) .lNone allPerms p ++
          [.updateInfoEmbed 1 false none allPerms]) = some s' ∧
      ∃ r ∈ s'.discarded, r.op.creates ∧ r.editsDeleted ∧ r.inFavourOf.answers = false :=
  ⟨_, _, _, rfl, rfl, rfl, _, List.mem_singleton_self _, rfl, rfl, rfl⟩

/-- **The condition is exact**: every other call discards a creation or an answer for an edit of a
deleted message or for an operation that answers nothing. -/
theorem sendInfoEmbed_loses (hi : s.OnePerChannel) {a : EmbedAction} (ha : ¬ s.SendKeeps d a)
    (h : embedStep d s a = some s') : ∃ r ∈ s'.discarded, ¬ Discard.Fine r := by
  cases a with
  | sendInfoEmbed g update force event perms =>
    cases h
    cases hp : s.players g with
    | none => simp [SendKeeps, hp] at ha
    | some p =>
      simp only [SendKeeps, hp, not_or, Bool.not_eq_true] at ha
      obtain ⟨hs, hrep, hans⟩ := ha
      obtain ⟨t, o, hsend, hq, hdis, -, hg, hc, hiff⟩ := sendInfoEmbed_queues force hp hs
      simp only [Replaceable, not_forall] at hrep
      obtain ⟨old, hold, hog, hoc, hcounts⟩ := hrep
      have hkey : key old = key o := by rw [key, key, hog, hoc, hg, hc]
      have hfind : t.embedQ.find? (isEmbedOpDuplicate · o) = some old := by
        rw [isEmbedOpDuplicate_eq, ← hkey, hq]
        exact find?_key hi hold
      rw [hsend]
      refine ⟨⟨old, o, o.update && t.messageDeleted o.prevMessage.id⟩,
        List.mem_append_right _ (by simp [hfind]), fun hfine => ?_⟩
      rw [not_and_or, Bool.not_eq_false, Bool.not_eq_false] at hcounts
      obtain ⟨hedits, hanswers⟩ := hfine hcounts
      rw [hiff.1 ⟨hanswers, hedits⟩] at hans
      cases hans
  | _ => exact absurd trivial ha

end EmbedState

end Musicat.Player
