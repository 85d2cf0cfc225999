import Musicat.Server.Dashboard

/-!
# Whose authority a socket acts with

`upgrade` reads the user of the token and keeps nothing of it: the identity that
`check_user_voicestate` looks at is the one the client registers itself. A run
whose register messages name the token's own user acts with its authority only;
a single register message of another name is enough to act as somebody else.
-/

namespace Musicat.Server

open Lib Player GuildPlayer

/-! ## What a handler can change -/

section
variable (trackData : MCTrack → Json)

@[simp] theorem send_sdata (c : Conn) (m : Sent) : (c.send m).sdata = c.sdata := rfl

@[simp] theorem setPlayer_sdata (c : Conn) (p : GuildPlayer) :
    (c.setPlayer p).sdata = c.sdata := rfl

@[simp] theorem setVoice_sdata (c : Conn) (v : VoiceClient) : (c.setVoice v).sdata = c.sdata := rfl

@[simp] theorem skipPlayback_sdata (c : Conn) (p : GuildPlayer) (v : VoiceClient) :
    (c.skipPlayback p v).sdata = c.sdata := rfl

@[simp] theorem sendQueue_sdata (c : Conn) (p : GuildPlayer) :
    (c.sendQueue trackData p).sdata = c.sdata := rfl

/-- The registered user of `c` is known and may control the player. -/
def MayControl (c : Conn) : Prop :=
  c.sdata.userId ≠ 0 ∧
    ∃ p, c.world.player = some p ∧ canControlDashboard c.world p c.sdata.userId = true

/-- The check passes for a user who may control the player, and touches no state otherwise. -/
theorem checkUserVoicestate_cases (c : Conn) :
    (MayControl c ∧ ∃ p, checkUserVoicestate c = (c, .ok p)) ∨
      ∃ c' status, checkUserVoicestate c = (c', .error status) ∧
        c'.sdata = c.sdata ∧ c'.world = c.world := by
  unfold checkUserVoicestate
  split
  · exact .inr ⟨_, _, rfl, rfl, rfl⟩
  · rename_i hu
    split
    · exact .inr ⟨_, _, rfl, rfl, rfl⟩
    · rename_i p hp
      split
      · exact .inr ⟨_, _, rfl, rfl, rfl⟩
      · rename_i hc
        exact .inl ⟨⟨hu, p, hp, by simpa using hc⟩, p, rfl⟩

/-- A control handler acts only for a user who may control the player. -/
theorem withControl_world {body : GuildPlayer → Conn → Conn × Int} {c : Conn}
    (h : (withControl body c).1.world ≠ c.world) : MayControl c := by
  rcases checkUserVoicestate_cases c with ⟨hc, -⟩ | ⟨c', status, hs, -, hw⟩
  · exact hc
  · simp only [withControl, hs] at h
    exact absurd hw h

theorem withControl_sdata {body : GuildPlayer → Conn → Conn × Int}
    (hb : ∀ p c, (body p c).1.sdata = c.sdata) (c : Conn) :
    (withControl body c).1.sdata = c.sdata := by
  rcases checkUserVoicestate_cases c with ⟨-, p, hp⟩ | ⟨c', status, hs, hd, -⟩
  · simp only [withControl, hp, hb]
  · simp only [withControl, hs, hd]

theorem handlePause_sdata (c : Conn) : (handlePause c).1.sdata = c.sdata := by
  refine withControl_sdata (fun p c => ?_) c
  split
  · split <;> simp
  · simp

theorem handlePlay_sdata (c : Conn) : (handlePlay c).1.sdata = c.sdata := by
  refine withControl_sdata (fun p c => ?_) c
  split
  · split
    · simp
    · split <;> simp
  · simp

theorem handleSeek_sdata (data : Json) (c : Conn) : (handleSeek data c).1.sdata = c.sdata := by
  refine withControl_sdata (fun p c => ?_) c
  split
  · simp
  · split <;> simp

theorem handleStop_sdata (c : Conn) : (handleStop c).1.sdata = c.sdata := by
  refine withControl_sdata (fun p c => ?_) c
  split <;> simp

theorem handleNext_sdata (c : Conn) : (handleNext trackData c).1.sdata = c.sdata := by
  refine withControl_sdata (fun p c => ?_) c
  split <;> simp

theorem handlePrev_sdata (c : Conn) : (handlePrev trackData c).1.sdata = c.sdata := by
  refine withControl_sdata (fun p c => ?_) c
  split
  · simp
  · split
    · exact handleSeek_sdata _ c
    · dsimp only
      split <;> simp

/-- **A message handler either registers a user or keeps the socket's data**, and it changes
the world only for a registered user who may control the player. -/
theorem handleMessage_cases (toSnowflake : String → Nat) (e : Int) (payload : Json) (c : Conn) :
    let data := (payload.find "d").getD .null
    let c' := (handleMessage trackData toSnowflake e payload c).1
    (c'.world ≠ c.world → MayControl c) ∧
      (c'.sdata = c.sdata ∨
        e = socketEventRegister ∧ ∃ uid, uidOf data = some uid ∧
          c'.sdata = { c.sdata with userId := toSnowflake uid }) := by
  unfold handleMessage
  split
  · exact ⟨withControl_world, .inl (handlePause_sdata c)⟩
  split
  · exact ⟨withControl_world, .inl (handlePlay_sdata c)⟩
  split
  · exact ⟨withControl_world, .inl (handleSeek_sdata _ c)⟩
  split
  · exact ⟨withControl_world, .inl (handleStop_sdata c)⟩
  split
  · rename_i he
    simp only [handleRegister]
    split
    · exact ⟨fun h => absurd rfl h, .inl rfl⟩
    · rename_i uid hd
      exact ⟨fun h => absurd rfl h, .inr ⟨he, uid, hd, rfl⟩⟩
  split
  · exact ⟨withControl_world, .inl (handleNext_sdata trackData c)⟩
  split
  · exact ⟨withControl_world, .inl (handlePrev_sdata trackData c)⟩
  · exact ⟨fun h => absurd rfl h, .inl rfl⟩

/-! ## What a message can change -/

variable (toSnowflake : String → Nat) (parse : String → Option Json)

/-- **What one client message does to the identity and to the world.** -/
theorem message_cases (msg : String) (c : Conn) :
    let c' := message trackData toSnowflake parse msg c
    (c'.world ≠ c.world → MayControl c) ∧
      (c'.sdata.userId = c.sdata.userId ∨
        ∃ uid ∈ registeredUid parse msg, c'.sdata.userId = toSnowflake uid) := by
  simp only [message]
  split
  · exact ⟨fun h => absurd rfl h, .inl rfl⟩
  split
  · exact ⟨fun h => absurd rfl h, .inl rfl⟩
  split
  · exact ⟨fun h => absurd rfl h, .inl rfl⟩
  rename_i h0 h1 h2
  split
  · exact ⟨fun h => absurd rfl h, .inl rfl⟩
  rename_i payload hp
  split
  · exact ⟨fun h => absurd rfl h, .inl rfl⟩
  rename_i e he
  obtain ⟨hw, hd⟩ := handleMessage_cases trackData toSnowflake e payload c
  have hid : (handleMessage trackData toSnowflake e payload c).1.sdata.userId = c.sdata.userId ∨
      ∃ uid ∈ registeredUid parse msg,
        (handleMessage trackData toSnowflake e payload c).1.sdata.userId = toSnowflake uid := by
    rcases hd with hd | ⟨rfl, uid, hu, hd⟩
    · exact .inl (by rw [hd])
    · exact .inr ⟨uid, by simp [registeredUid, h0, h1, h2, hp, he, hu], by rw [hd]⟩
  split <;> exact ⟨hw, hid⟩

/-! ## Runs of a connection -/

/-- The socket acts as `u`, or as nobody yet. -/
def ActsAs (u : Nat) (c : Conn) : Prop := c.sdata.userId = u ∨ c.sdata.userId = 0

/-- **One step keeps the identity**, unless it registers another one. -/
theorem actsAs_step {u : Nat} {c c' : Conn} {a : WsAction} (hi : ActsAs u c)
    (ha : RegistersOnly toSnowflake parse u c a)
    (hs : wsStep trackData toSnowflake parse c a = some c') : ActsAs u c' := by
  cases a with
  | world w =>
    cases hs
    exact hi
  | message msg =>
    simp only [wsStep] at hs
    split at hs <;> cases hs
    obtain ⟨-, hd | ⟨uid, hm, hd⟩⟩ := message_cases trackData toSnowflake parse msg c
    · simpa only [ActsAs, hd] using hi
    · simpa only [ActsAs, hd] using ha uid hm

/-- A socket opens without an identity, whoever's token opened it. -/
theorem upgrade_userId {req : UpgradeRequest} {sdata : SocketData}
    (h : upgrade toSnowflake req = some sdata) : sdata.userId = 0 := by
  unfold upgrade at h
  split at h
  · cases h
  split at h
  · cases h
  split at h
  · cases h
  split at h <;> cases h
  rfl

/-- **A dashboard socket acts as its authenticated user**, in every run whose register
messages name that user: a message that changes the player, or anything else of the guild,
comes while that user may control the player. -/
theorem acts_as_token_user {req : UpgradeRequest} {sdata : SocketData} {w : World}
    {l : List WsAction} {c c' : Conn} {msg : String}
    (hup : upgrade toSnowflake req = some sdata)
    (hreg : Along (wsStep trackData toSnowflake parse)
      (RegistersOnly toSnowflake parse (toSnowflake req.tokenUser)) ⟨sdata, w, true, []⟩ l)
    (hrun : run (wsStep trackData toSnowflake parse) ⟨sdata, w, true, []⟩ l = some c)
    (hmsg : wsStep trackData toSnowflake parse c (.message msg) = some c')
    (hne : c'.world ≠ c.world) :
    ∃ p, c.world.player = some p ∧
      canControlDashboard c.world p (toSnowflake req.tokenUser) = true := by
  have h0 : ActsAs (toSnowflake req.tokenUser) ⟨sdata, w, true, []⟩ :=
    .inr (upgrade_userId toSnowflake hup)
  have hu := run_inv (fun _ _ _ => actsAs_step trackData toSnowflake parse) h0 hreg hrun
  simp only [wsStep] at hmsg
  split at hmsg <;> cases hmsg
  obtain ⟨hne0, p, hp, hc⟩ := (message_cases trackData toSnowflake parse msg c).1 hne
  rcases hu with hu | hu
  · exact ⟨p, hp, hu ▸ hc⟩
  · exact absurd hu hne0

end

/-! ## A socket under another name -/

/-- The snowflakes of the strings used below. -/
def sampleSnowflake : String → Nat
  | "1" => 1
  | "2" => 2
  | "9" => 9
  | _ => 0

/-- A client says that it is user 1. -/
def registerText : String := "\x7b\"e\":8,\"d\":\x7b\"uid\":\"1\"\x7d\x7d"

def pauseText : String := "\x7b\"e\":1\x7d"

/-- `json::parse` on these two messages. -/
def sampleParse (text : String) : Option Json :=
  if text = registerText then
    some (.object [("d", .object [("uid", .string "1")]), ("e", .unsigned 8)])
  else if text = pauseText then some (.object [("e", .unsigned 1)])
  else none

def sampleStep : Conn → WsAction → Option Conn :=
  wsStep (fun _ => .null) sampleSnowflake sampleParse

/-- The player sits with user 1 in channel 5; user 2 is in no channel. -/
def sampleWorld : World where
  player := some { voiceChannelId := 5 }
  voiceClient := some {}
  voiceStates := [(1, 5)]

def sampleRequest (tokenUser : String) : UpgradeRequest := ⟨true, tokenUser, "9", true⟩

/-- User 1 pauses the player under its own name. -/
theorem acts_as_token_user_pause :
    ∃ p, sampleWorld.player = some p ∧ canControlDashboard sampleWorld p 1 = true :=
  @acts_as_token_user (fun _ => .null) sampleSnowflake sampleParse (sampleRequest "1")
    ⟨9, 0, false⟩ sampleWorld [.message registerText] ⟨⟨9, 1, false⟩, sampleWorld, true, []⟩ _
    pauseText (by decide)
    ⟨fun uid h => .inl (by cases (h : some "1" = some uid); rfl), fun _ _ => trivial⟩
    rfl rfl (by decide)

/-- User 2, whose token says so, registers as user 1 and pauses a player it may not control. -/
theorem registers_as_another :
    upgrade sampleSnowflake (sampleRequest "2") = some ⟨9, 0, false⟩ ∧
      ∃ c c' p, run sampleStep ⟨⟨9, 0, false⟩, sampleWorld, true, []⟩ [.message registerText] =
          some c ∧
        sampleStep c (.message pauseText) = some c' ∧ c'.world ≠ c.world ∧
        c.world.player = some p ∧
        canControlDashboard c.world p (sampleSnowflake (sampleRequest "2").tokenUser) = false :=
  ⟨by decide, _, _, _, rfl, rfl, by decide, rfl, by decide⟩

end Musicat.Server
