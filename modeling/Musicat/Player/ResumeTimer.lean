import Mathlib.Algebra.Ring.Int.Defs
import Mathlib.Logic.Function.Basic
import Musicat.Lib.Ghost

/-!
# Pausing and resuming by timer

The player of a guild is paused by a command, which marks the guild as manually
paused, or when nobody listens. A user who joins the bot's channel then gets a
resume timer; `check_resume_timers` unpauses when the timer is due and its user
is still there. The voice states and the voice clients are part of the state,
and so is the clock.
-/

namespace Musicat.Player

open Lib

/-! ## State -/

/-- `resume_timer_t`. -/
structure ResumeTimer where
  ts : Int
  uid : Nat
  svid : Nat
  vcid : Nat
  svcid : Nat
  minDelay : Int
  deriving DecidableEq

/-- A voice connection with a voice client. -/
structure VoiceClient where
  channelId : Nat
  paused : Bool
  deriving DecidableEq

/-- A call of `unpause` in `check_resume_timers`: the guild, and whether it was marked. -/
structure Resumed where
  guild : Nat
  manually : Bool
  deriving DecidableEq

structure ResumeState where
  now : Int
  running : Bool
  rtV : List ResumeTimer
  manuallyPaused : List Nat
  /-- The guilds with a player. -/
  players : Nat → Bool
  voice : Nat → Option VoiceClient
  /-- The channel that `get_voice_from_gid` finds for a guild and a user. -/
  voiceOf : Nat → Nat → Option Nat
  /-- What `check_resume_timers` has unpaused so far. -/
  resumed : List Resumed

namespace ResumeState

def isManuallyPaused (guildId : Nat) (s : ResumeState) : Bool := s.manuallyPaused.contains guildId

def setManuallyPaused (guildId : Nat) (s : ResumeState) : ResumeState :=
  if s.isManuallyPaused guildId then s
  else { s with manuallyPaused := s.manuallyPaused ++ [guildId] }

def clearManuallyPaused (guildId : Nat) (s : ResumeState) : ResumeState :=
  { s with manuallyPaused := s.manuallyPaused.erase guildId }

/-- `pause_audio` of the voice client of the guild. -/
def pauseAudio (guildId : Nat) (paused : Bool) (s : ResumeState) : ResumeState :=
  { s with
    voice := Function.update s.voice guildId ((s.voice guildId).map fun v => { v with paused }) }

/-- `guild_player_t::pause` succeeds. -/
def canPause (guildId : Nat) (s : ResumeState) : Bool :=
  s.players guildId && (s.voice guildId).any fun v => !v.paused

/-- `manager::pause`. -/
def pause (guildId : Nat) (s : ResumeState) : Bool × ResumeState :=
  if s.canPause guildId then (true, (s.pauseAudio guildId true).setManuallyPaused guildId)
  else (false, s)

/-- `manager::unpause`. -/
def unpause (guildId : Nat) (s : ResumeState) : ResumeState :=
  (s.clearManuallyPaused guildId).pauseAudio guildId false

/-- The stop command and the stop buttons, once they have found the player and its voice client. -/
def stop (guildId : Nat) (s : ResumeState) : ResumeState :=
  if s.players guildId && (s.voice guildId).isSome then
    (s.pauseAudio guildId true).setManuallyPaused guildId
  else s

/-- `set_autopause`; `listening` says whether a user who listens was looked for and found. -/
def setAutopause (guildId : Nat) (listening : Bool) (s : ResumeState) : Int × ResumeState :=
  if s.voice guildId = none then (1, s)
  else if s.isManuallyPaused guildId then (-1, s)
  else if listening then (-1, s)
  else (0, s.pauseAudio guildId true)

end ResumeState

/-! ## Timers -/

def isRtDuplicate (rtV : List ResumeTimer) (rt : ResumeTimer) : Bool :=
  rtV.any fun i => i.svid = rt.svid && i.svcid = rt.svcid && i.vcid = rt.vcid

/-- The `min_delay` of a join. -/
def resumeDelay : Int := 1500000000

namespace ResumeState

/-- `create_resume_timer` for the voice client of the guild. -/
def createResumeTimer (userId userVoiceChannelId guildId : Nat) (minDelay : Int)
    (s : ResumeState) : Int × ResumeState :=
  match s.voice guildId with
  | none => (1, s)
  | some vc =>
    if s.isManuallyPaused guildId then (2, s)
    else
      let rt : ResumeTimer :=
        ⟨s.now, userId, guildId, vc.channelId, userVoiceChannelId, minDelay⟩
      if isRtDuplicate s.rtV rt then (2, s) else (0, { s with rtV := s.rtV ++ [rt] })

/-- The timer has waited for its `min_delay`. -/
def due (s : ResumeState) (t : ResumeTimer) : Bool := decide (t.minDelay ≤ s.now - t.ts)

/-- The user of the timer is in the channel the timer was made for. -/
def stays (s : ResumeState) (t : ResumeTimer) : Bool := s.voiceOf t.svid t.uid = some t.svcid

/-- The loop of `check_resume_timers`: the timers that are kept, and the state. -/
def checkLoop : List ResumeTimer → ResumeState → List ResumeTimer × ResumeState
  | [], s => ([], s)
  | t :: l, s =>
    if !s.running then checkLoop l s
    else if !s.due t then (t :: (checkLoop l s).1, (checkLoop l s).2)
    else if !s.stays t then checkLoop l s
    else if s.players t.svid then
      checkLoop l { s.unpause t.svid with
        resumed := s.resumed ++ [⟨t.svid, s.isManuallyPaused t.svid⟩] }
    else checkLoop l s

def checkResumeTimers (s : ResumeState) : ResumeState :=
  { (checkLoop s.rtV s).2 with rtV := (checkLoop s.rtV s).1 }

end ResumeState

/-! ## Voice states -/

/-- `dpp::voice_state_update_t` for a user other than the bot, and what the handler reads of the
voice client and of the users. -/
structure VoiceStateEvent where
  userId : Nat
  channelId : Option Nat
  guildId : Nat
  terminating : Bool
  /-- `get_secs_remaining () > 0.05f`. -/
  playingAudio : Bool
  playing : Bool
  /-- A user who is no bot is in the channel of the bot. -/
  listening : Bool

/-- `handle_non_sha_voice_state_update`, with the voice state of the event in the cache. A bot that
follows a user into another channel does so in steps of its own. -/
def handleNonShaVoiceStateUpdate (e : VoiceStateEvent) (s : ResumeState) : ResumeState :=
  match s.voice e.guildId with
  | none => s
  | some v =>
    if v.channelId = 0 ∨ e.terminating ∨ !e.playingAudio then s
    else
      let hasVoiceSession := e.channelId = some v.channelId
      let shouldPause := ¬ hasVoiceSession ∧ !v.paused
      let shouldUnpause := hasVoiceSession ∧ (v.paused ∨ !e.playing)
      if ¬ shouldPause ∧ ¬ shouldUnpause then s
      else if s.isManuallyPaused e.guildId then s
      else if shouldPause then (s.setAutopause e.guildId e.listening).2
      else (s.createResumeTimer e.userId v.channelId e.guildId resumeDelay).2

inductive ResumeAction where
  /-- Time passes. -/
  | tick (d : Nat)
  | voiceState (e : VoiceStateEvent)
  /-- A voice state of the bot gets into the cache. -/
  | cached (userId guildId : Nat) (channelId : Option Nat)
  /-- `check_autopause`: the bot is muted by the server, or is not any more. -/
  | muted (guildId : Nat)
  | unmuted (shaId channelId guildId : Nat)
  /-- The bot joins a channel, moves or leaves. -/
  | connect (guildId : Nat) (v : Option VoiceClient)
  | player (guildId : Nat) (present : Bool)
  | pause (guildId : Nat)
  | unpause (guildId : Nat)
  | stop (guildId : Nat)
  /-- `handle_on_track_marker` clears the mark. -/
  | trackMarker (guildId : Nat)
  | check
  | exit

namespace ResumeState

/-- A voice state gets into the cache. -/
def cacheVoice (guildId userId : Nat) (channelId : Option Nat) (s : ResumeState) : ResumeState :=
  { s with
    voiceOf := Function.update s.voiceOf guildId
      (Function.update (s.voiceOf guildId) userId channelId) }

end ResumeState

def resumeStep (s : ResumeState) : ResumeAction → Option ResumeState
  | .tick d => some { s with now := s.now + d }
  | .voiceState e =>
    some (handleNonShaVoiceStateUpdate e (s.cacheVoice e.guildId e.userId e.channelId))
  | .cached userId guildId channelId => some (s.cacheVoice guildId userId channelId)
  | .muted guildId => some (s.setAutopause guildId false).2
  | .unmuted shaId channelId guildId => some (s.createResumeTimer shaId channelId guildId 0).2
  | .connect guildId v => some { s with voice := Function.update s.voice guildId v }
  | .player guildId present => some { s with players := Function.update s.players guildId present }
  | .pause guildId => some (s.pause guildId).2
  | .unpause guildId => some (s.unpause guildId)
  | .stop guildId => some (s.stop guildId)
  | .trackMarker guildId => some (s.clearManuallyPaused guildId)
  | .check => some s.checkResumeTimers
  | .exit => some { s with running := false }

/-- A state without timers and marks. -/
def ResumeState.start (now : Int) (players : Nat → Bool) (voice : Nat → Option VoiceClient)
    (voiceOf : Nat → Nat → Option Nat) : ResumeState :=
  ⟨now, true, [], [], players, voice, voiceOf, []⟩

namespace ResumeState

variable {s s' : ResumeState}

/-! ## What the functions do -/

theorem createResumeTimer_cases (s : ResumeState) (uid channel guildId : Nat) (delay : Int) :
    (s.createResumeTimer uid channel guildId delay).2 = s ∨
      ∃ vc, s.voice guildId = some vc ∧ s.isManuallyPaused guildId = false ∧
        (s.createResumeTimer uid channel guildId delay).2 =
          { s with rtV := s.rtV ++ [⟨s.now, uid, guildId, vc.channelId, channel, delay⟩] } := by
  unfold createResumeTimer
  split
  · exact .inl rfl
  · rename_i vc hvc
    split
    · exact .inl rfl
    · rename_i hmark
      dsimp only
      split
      · exact .inl rfl
      · exact .inr ⟨vc, hvc, by simpa using hmark, rfl⟩

theorem setAutopause_cases (s : ResumeState) (guildId : Nat) (listening : Bool) :
    (s.setAutopause guildId listening).2 = s ∨
      (s.setAutopause guildId listening).2 = s.pauseAudio guildId true := by
  unfold setAutopause
  split
  · exact .inl rfl
  split
  · exact .inl rfl
  split
  · exact .inl rfl
  · exact .inr rfl

/-- The handler leaves the state, pauses, or makes a timer. -/
theorem handle_cases (e : VoiceStateEvent) (s : ResumeState) :
    handleNonShaVoiceStateUpdate e s = s ∨
      (∃ listening,
        handleNonShaVoiceStateUpdate e s = (s.setAutopause e.guildId listening).2) ∨
      ∃ channel, handleNonShaVoiceStateUpdate e s =
        (s.createResumeTimer e.userId channel e.guildId resumeDelay).2 := by
  unfold handleNonShaVoiceStateUpdate
  split
  · exact .inl rfl
  split
  · exact .inl rfl
  dsimp only
  split
  · exact .inl rfl
  split
  · exact .inl rfl
  split
  · exact .inr (.inl ⟨_, rfl⟩)
  · exact .inr (.inr ⟨_, rfl⟩)

/-! ## Marks and timers -/

/-- A guild is marked only while it has no resume timer. -/
def MarksWithoutTimer (s : ResumeState) : ResumeAction → Prop
  | .pause guildId => s.canPause guildId → ∀ t ∈ s.rtV, t.svid ≠ guildId
  | .stop guildId =>
    s.players guildId && (s.voice guildId).isSome → ∀ t ∈ s.rtV, t.svid ≠ guildId
  | _ => True

instance (s : ResumeState) (a : ResumeAction) : Decidable (s.MarksWithoutTimer a) :=
  match a with
  | .pause _ => inferInstanceAs (Decidable (_ → _))
  | .stop _ => inferInstanceAs (Decidable (_ → _))
  | .tick _ | .voiceState _ | .cached .. | .muted _ | .unmuted .. | .connect .. | .player ..
  | .unpause _ | .trackMarker _ | .check | .exit => isTrue trivial

/-- No timer belongs to a marked guild, and no marked guild has been unpaused. -/
structure MarkInv (s : ResumeState) : Prop where
  timers : ∀ t ∈ s.rtV, t.svid ∉ s.manuallyPaused
  resumed : ∀ r ∈ s.resumed, r.manually = false

theorem markInv_start (now : Int) (players : Nat → Bool) (voice : Nat → Option VoiceClient)
    (voiceOf : Nat → Nat → Option Nat) : MarkInv (start now players voice voiceOf) :=
  ⟨nofun, nofun⟩

/-- The invariant reads the timers, the marks and the record. -/
theorem MarkInv.congr (hi : s.MarkInv) (ht : s'.rtV = s.rtV)
    (hm : s'.manuallyPaused ⊆ s.manuallyPaused) (hr : s'.resumed = s.resumed) : s'.MarkInv where
  timers t htm hmem := hi.timers t (ht ▸ htm) (hm hmem)
  resumed := hr ▸ hi.resumed

theorem MarkInv.setManuallyPaused (hi : s.MarkInv) {guildId : Nat}
    (h : ∀ t ∈ s.rtV, t.svid ≠ guildId) : (s.setManuallyPaused guildId).MarkInv := by
  unfold ResumeState.setManuallyPaused
  split
  · exact hi
  · refine ⟨fun t ht hmem => ?_, hi.resumed⟩
    rcases List.mem_append.1 hmem with hmem | hmem
    · exact hi.timers t ht hmem
    · exact h t ht (List.mem_singleton.1 hmem)

theorem MarkInv.createResumeTimer (hi : s.MarkInv) (uid channel guildId : Nat) (delay : Int) :
    (s.createResumeTimer uid channel guildId delay).2.MarkInv := by
  rcases createResumeTimer_cases s uid channel guildId delay with h | ⟨vc, -, hmark, h⟩
  · rw [h]
    exact hi
  · rw [h]
    refine ⟨fun t ht => ?_, hi.resumed⟩
    rcases List.mem_append.1 ht with ht | ht
    · exact hi.timers t ht
    · rw [List.mem_singleton.1 ht]
      simpa [isManuallyPaused] using hmark

theorem MarkInv.setAutopause (hi : s.MarkInv) (guildId : Nat) (listening : Bool) :
    (s.setAutopause guildId listening).2.MarkInv := by
  rcases setAutopause_cases s guildId listening with h | h
  · rw [h]
    exact hi
  · rw [h]
    exact hi.congr rfl (List.Subset.refl _) rfl

theorem MarkInv.handle (hi : s.MarkInv) (e : VoiceStateEvent) :
    (handleNonShaVoiceStateUpdate e s).MarkInv := by
  rcases handle_cases e s with h | ⟨listening, h⟩ | ⟨channel, h⟩
  · rw [h]
    exact hi
  · rw [h]
    exact hi.setAutopause _ _
  · rw [h]
    exact hi.createResumeTimer _ _ _ _

/-- What the loop of `check_resume_timers` does with a timer. -/
inductive Turn (t : ResumeTimer) (l : List ResumeTimer) (s : ResumeState) : Prop where
  | keeps (hr : s.running = true) (hd : s.due t = false)
      (h : checkLoop (t :: l) s = (t :: (checkLoop l s).1, (checkLoop l s).2))
  | drops (hd : s.running = true → s.due t = true)
      (hs : s.running = true → s.stays t = true → s.players t.svid = false)
      (h : checkLoop (t :: l) s = checkLoop l s)
  | resumes (hr : s.running = true) (hd : s.due t = true)
      (h : checkLoop (t :: l) s = checkLoop l { s.unpause t.svid with
        resumed := s.resumed ++ [⟨t.svid, s.isManuallyPaused t.svid⟩] })

theorem checkLoop_turn (t : ResumeTimer) (l : List ResumeTimer) (s : ResumeState) : Turn t l s := by
  cases hr : s.running with
  | false => exact .drops (by simp [hr]) (by simp [hr]) (by simp [checkLoop, hr])
  | true =>
    cases hd : s.due t with
    | false => exact .keeps hr hd (by simp [checkLoop, hr, hd])
    | true =>
      cases hs : s.stays t with
      | false => exact .drops (fun _ => hd) (by simp [hs]) (by simp [checkLoop, hr, hd, hs])
      | true =>
        cases hp : s.players t.svid with
        | false => exact .drops (fun _ => hd) (fun _ _ => hp) (by simp [checkLoop, hr, hd, hs, hp])
        | true => exact .resumes hr hd (by simp [checkLoop, hr, hd, hs, hp])

theorem checkLoop_subset (l : List ResumeTimer) : ∀ s : ResumeState, (checkLoop l s).1 ⊆ l := by
  induction l with
  | nil => exact fun _ => List.Subset.refl _
  | cons t l ih =>
    intro s
    cases checkLoop_turn t l s with
    | keeps _ _ h =>
      rw [h]
      exact List.cons_subset_cons t (ih s)
    | drops _ _ h | resumes _ _ h =>
      rw [h]
      exact List.subset_cons_of_subset t (ih _)

theorem checkLoop_manuallyPaused (l : List ResumeTimer) : ∀ s : ResumeState,
    (checkLoop l s).2.manuallyPaused ⊆ s.manuallyPaused := by
  induction l with
  | nil => exact fun _ => List.Subset.refl _
  | cons t l ih =>
    intro s
    cases checkLoop_turn t l s with
    | keeps _ _ h | drops _ _ h =>
      rw [h]
      exact ih s
    | resumes _ _ h =>
      have herase : (s.unpause t.svid).manuallyPaused ⊆ s.manuallyPaused := List.erase_subset
      rw [h]
      exact List.Subset.trans (ih _) herase

/-- **The loop of `check_resume_timers`** unpauses only guilds of the timers it runs over. -/
theorem checkLoop_resumed {l : List ResumeTimer} :
    ∀ {s : ResumeState}, (∀ t ∈ l, t.svid ∉ s.manuallyPaused) →
      (∀ r ∈ s.resumed, r.manually = false) →
      ∀ r ∈ (checkLoop l s).2.resumed, r.manually = false := by
  induction l with
  | nil => exact fun _ hr => hr
  | cons t l ih =>
    intro s ht hr
    obtain ⟨htm, hl⟩ := List.forall_mem_cons.1 ht
    cases checkLoop_turn t l s with
    | keeps _ _ h | drops _ _ h =>
      rw [h]
      exact ih hl hr
    | resumes _ _ h =>
      rw [h]
      refine ih (fun u hu hmem => hl u hu (List.erase_subset hmem)) fun r hmem => ?_
      rcases List.mem_append.1 hmem with hmem | hmem
      · exact hr r hmem
      · rw [List.mem_singleton.1 hmem]
        simpa [isManuallyPaused] using htm

theorem MarkInv.step {a : ResumeAction} (hi : s.MarkInv) (ha : s.MarksWithoutTimer a)
    (h : resumeStep s a = some s') : s'.MarkInv := by
  cases a with
  | tick | cached | connect | player | exit =>
    cases h
    exact hi.congr rfl (List.Subset.refl _) rfl
  | voiceState e =>
    cases h
    have hi : (s.cacheVoice e.guildId e.userId e.channelId).MarkInv :=
      hi.congr rfl (List.Subset.refl _) rfl
    exact hi.handle e
  | muted guildId =>
    cases h
    exact hi.setAutopause guildId false
  | unmuted shaId channelId guildId =>
    cases h
    exact hi.createResumeTimer shaId channelId guildId 0
  | pause guildId =>
    cases h
    unfold ResumeState.pause
    split
    · rename_i hc
      have hi : (s.pauseAudio guildId true).MarkInv := hi.congr rfl (List.Subset.refl _) rfl
      exact hi.setManuallyPaused (ha hc)
    · exact hi
  | unpause guildId =>
    cases h
    exact hi.congr rfl List.erase_subset rfl
  | stop guildId =>
    cases h
    unfold ResumeState.stop
    split
    · rename_i hc
      have hi : (s.pauseAudio guildId true).MarkInv := hi.congr rfl (List.Subset.refl _) rfl
      exact hi.setManuallyPaused (ha hc)
    · exact hi
  | trackMarker guildId =>
    cases h
    exact hi.congr rfl List.erase_subset rfl
  | check =>
    cases h
    exact ⟨fun t ht hmem => hi.timers t (checkLoop_subset s.rtV s ht)
      (checkLoop_manuallyPaused s.rtV s hmem), checkLoop_resumed hi.timers hi.resumed⟩

/-- **`check_resume_timers` never unpauses a marked guild** in a run in which a guild is marked
only while it has no timer. -/
theorem resumes_unmarked {now : Int} {players : Nat → Bool} {voice : Nat → Option VoiceClient}
    {voiceOf : Nat → Nat → Option Nat} {l : List ResumeAction}
    (hl : Along resumeStep MarksWithoutTimer (start now players voice voiceOf) l)
    (h : run resumeStep (start now players voice voiceOf) l = some s) :
    ∀ r ∈ s.resumed, r.manually = false :=
  (run_inv (fun _ _ _ hi ha hs => MarkInv.step hi ha hs)
    (markInv_start now players voice voiceOf) hl h).resumed

/-- User 8 leaves guild 1 and user 7 joins. -/
def sampleLeave : ResumeAction := .voiceState ⟨8, none, 1, false, true, true, false⟩
def sampleJoin : ResumeAction := .voiceState ⟨7, some 5, 1, false, true, false, true⟩

/-- A bot in channel 5. -/
def sampleStart : ResumeState := start 0 (fun _ => true) (fun _ => some ⟨5, false⟩) fun _ _ => none

theorem resumes_unmarked_pausedAfter :
    ∃ s, run resumeStep sampleStart
        [sampleLeave, sampleJoin, .tick 1500000000, .check, .pause 1, .check] = some s ∧
      ∀ r ∈ s.resumed, r.manually = false :=
  ⟨_, rfl, resumes_unmarked (l :=
    [sampleLeave, sampleJoin, .tick 1500000000, .check, .pause 1, .check]) (by decide) rfl⟩

/-- The player is unpaused and paused by command before the timer is due. -/
theorem resumes_marked :
    ∃ s, run resumeStep sampleStart
        [sampleLeave, sampleJoin, .unpause 1, .pause 1, .tick 1500000000, .check] = some s ∧
      ⟨1, true⟩ ∈ s.resumed :=
  ⟨_, rfl, by decide⟩

end ResumeState

end Musicat.Player
