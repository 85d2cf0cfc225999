import Mathlib.Logic.Function.Basic
import Musicat.Lib.Run

/-!
# Voice states and their timeouts

`connecting`, `disconnecting` and `waiting_vc_ready` hold an entry for a guild
while it connects to or leaves a voice channel. Functions that set or wait for
an entry arm a timer with `task::run_once` that clears it; nothing cancels a
timer. An attempt to connect may start at any time, and is numbered per guild:
entries and timers carry the number of the attempt they belong to.
-/

namespace Musicat.Player

open Lib

/-! ## State -/

inductive VoiceMap where
  | connecting
  | disconnecting
  | waitingVcReady
  deriving DecidableEq

/-- What a timer runs; the one of `set_vc_ready_timeout` also sends a message. The cluster that it
looks for is there while the bot runs. -/
inductive TimeoutFn where
  | clearDisconnecting
  | clearConnecting
  | clearWaitVcReady
  | vcReadyTimeout
  deriving DecidableEq

/-- The maps a timer clears: `clear_wait_vc_ready` clears `connecting` as well. -/
def TimeoutFn.clears : TimeoutFn → VoiceMap → Bool
  | clearDisconnecting, .disconnecting => true
  | clearConnecting, .connecting => true
  | clearWaitVcReady, .connecting | clearWaitVcReady, .waitingVcReady => true
  | vcReadyTimeout, .connecting | vcReadyTimeout, .waitingVcReady => true
  | _, _ => false

/-- An armed `run_once`, and the attempt it was armed in. -/
structure Timeout where
  fn : TimeoutFn
  guildId : Nat
  attempt : Nat
  deriving DecidableEq

/-- An entry of a map, and the attempt that set it. -/
structure Entry (α : Type) where
  value : α
  attempt : Nat
  deriving DecidableEq

/-- An entry that a timer has erased: the attempts of both. -/
structure Erasure where
  guildId : Nat
  timer : Nat
  entry : Nat
  deriving DecidableEq

/-- Where a call of `reconnect` waits. -/
inductive ReconnectPC where
  /-- For the guild to be disconnected, if it was disconnecting. -/
  | disconnecting (guildId : Nat) (fromDc : Bool)
  | connecting (guildId : Nat)
  | done

structure VoiceStates where
  connecting : Nat → Option (Entry Nat)
  disconnecting : Nat → Option (Entry Nat)
  waitingVcReady : Nat → Option (Entry String)
  timers : List Timeout
  reconnects : List ReconnectPC
  /-- The calls of `connect_voice`. -/
  connects : List (Nat × Nat)
  /-- The number of the running attempt of a guild. -/
  attempt : Nat → Nat
  erased : List Erasure

namespace VoiceStates

def init : VoiceStates :=
  ⟨fun _ => none, fun _ => none, fun _ => none, [], [], [], fun _ => 0, []⟩

/-- The attempt of an entry. -/
def entry (s : VoiceStates) : VoiceMap → Nat → Option Nat
  | .connecting, g => (s.connecting g).map (·.attempt)
  | .disconnecting, g => (s.disconnecting g).map (·.attempt)
  | .waitingVcReady, g => (s.waitingVcReady g).map (·.attempt)

/-- `task::run_once`. -/
def runOnce (fn : TimeoutFn) (guildId : Nat) (s : VoiceStates) : VoiceStates :=
  { s with timers := s.timers ++ [⟨fn, guildId, s.attempt guildId⟩] }

def setConnecting (guildId channelId : Nat) (s : VoiceStates) : VoiceStates :=
  { s with
    connecting := Function.update s.connecting guildId (some ⟨channelId, s.attempt guildId⟩) }

/-- `hasVoice`: the guild, its client and a voice connection were found. -/
def setDisconnecting (guildId channelId : Nat) (hasVoice : Bool) (s : VoiceStates) : VoiceStates :=
  if hasVoice then
    { s with
      disconnecting :=
        Function.update s.disconnecting guildId (some ⟨channelId, s.attempt guildId⟩) }
  else s

/-- `ready`: there is a voice client that is ready. -/
def setWaitingVcReady (guildId : Nat) (second : String) (ready : Bool) (s : VoiceStates) :
    VoiceStates :=
  if ready then s
  else
    let s := { s with
      waitingVcReady :=
        Function.update s.waitingVcReady guildId (some ⟨second, s.attempt guildId⟩) }
    s.runOnce .vcReadyTimeout guildId

def clearDisconnecting (guildId : Nat) (s : VoiceStates) : VoiceStates :=
  { s with disconnecting := Function.update s.disconnecting guildId none }

def clearConnecting (guildId : Nat) (s : VoiceStates) : Int × VoiceStates :=
  (if (s.connecting guildId).isSome then 1 else 0,
    { s with connecting := Function.update s.connecting guildId none })

def clearWaitVcReady (guildId : Nat) (s : VoiceStates) : Int × VoiceStates :=
  let (err, s) := s.clearConnecting guildId
  if (s.waitingVcReady guildId).isSome then
    (2, { s with waitingVcReady := Function.update s.waitingVcReady guildId none })
  else (err, s)

/-- `reconnect` up to its first wait. -/
def reconnect (guildId : Nat) (s : VoiceStates) : VoiceStates :=
  if (s.disconnecting guildId).isSome then
    let s := s.runOnce .clearDisconnecting guildId
    { s with reconnects := s.reconnects ++ [.disconnecting guildId true] }
  else { s with reconnects := s.reconnects ++ [.disconnecting guildId false] }

/-- `reconnect` from its first wait to its second; `client`: the discord client was found. -/
def reconnectConnect (i guildId : Nat) (client : Bool) (s : VoiceStates) : VoiceStates :=
  match s.connecting guildId with
  | none => { s with reconnects := s.reconnects.set i .done }
  | some e =>
    if client then
      let s := s.runOnce .clearConnecting guildId
      { s with
        connects := s.connects ++ [(guildId, e.value)]
        reconnects := s.reconnects.set i (.connecting guildId) }
    else { s with reconnects := s.reconnects.set i .done }

/-- `wait_for_vc_ready` up to its wait. -/
def waitForVcReady (guildId : Nat) (s : VoiceStates) : Int × VoiceStates :=
  if (s.waitingVcReady guildId).isSome then (0, s.runOnce .clearWaitVcReady guildId) else (1, s)

/-- `wait_for_disconnecting` up to its wait. -/
def waitForDisconnecting (guildId : Nat) (s : VoiceStates) : Int × VoiceStates :=
  if (s.disconnecting guildId).isSome then (0, s.runOnce .clearDisconnecting guildId) else (1, s)

/-- The function of a timer. -/
def runTimeout (t : Timeout) (s : VoiceStates) : VoiceStates :=
  match t.fn with
  | .clearDisconnecting => s.clearDisconnecting t.guildId
  | .clearConnecting => (s.clearConnecting t.guildId).2
  | .clearWaitVcReady | .vcReadyTimeout => (s.clearWaitVcReady t.guildId).2

/-- The entries of `s` that are gone in `s'`. -/
def erasures (t : Timeout) (s s' : VoiceStates) : List Erasure :=
  [VoiceMap.connecting, .disconnecting, .waitingVcReady].filterMap fun m =>
    match s.entry m t.guildId, s'.entry m t.guildId with
    | some e, none => some ⟨t.guildId, t.attempt, e⟩
    | _, _ => none

end VoiceStates

inductive VoiceAction where
  /-- The next attempt of the guild starts. -/
  | attempt (guildId : Nat)
  | setConnecting (guildId channelId : Nat)
  | setDisconnecting (guildId channelId : Nat) (hasVoice : Bool)
  | setWaitingVcReady (guildId : Nat) (second : String) (ready : Bool)
  | reconnect (guildId : Nat)
  /-- A call of `reconnect` goes on behind its first or its second wait. -/
  | reconnectGo (i : Nat) (client : Bool)
  | waitForVcReady (guildId : Nat)
  | waitForDisconnecting (guildId : Nat)
  /-- `handle_on_voice_ready`, and a voice state of the bot whose voice client is ready. -/
  | voiceReady (guildId : Nat)
  /-- `handle_sha_voice_state_update`: the bot has joined, or left, a channel. -/
  | botJoined (guildId : Nat)
  | botLeft (guildId : Nat)
  /-- Timer `i` runs. -/
  | fire (i : Nat)

open VoiceStates in
def voiceStep (s : VoiceStates) : VoiceAction → Option VoiceStates
  | .attempt g => some { s with attempt := Function.update s.attempt g (s.attempt g + 1) }
  | .setConnecting g channelId => some (s.setConnecting g channelId)
  | .setDisconnecting g channelId hasVoice => some (s.setDisconnecting g channelId hasVoice)
  | .setWaitingVcReady g second ready => some (s.setWaitingVcReady g second ready)
  | .reconnect g => some (s.reconnect g)
  | .reconnectGo i client =>
    match s.reconnects[i]? with
    | some (.disconnecting g fromDc) =>
      if fromDc && (s.disconnecting g).isSome then none else some (s.reconnectConnect i g client)
    | some (.connecting g) =>
      if (s.connecting g).isSome then none
      else some { s with reconnects := s.reconnects.set i .done }
    | _ => none
  | .waitForVcReady g => some (s.waitForVcReady g).2
  | .waitForDisconnecting g => some (s.waitForDisconnecting g).2
  | .voiceReady g => some (s.clearWaitVcReady g).2
  | .botJoined g => some (s.clearConnecting g).2
  | .botLeft g => some (s.clearDisconnecting g)
  | .fire i =>
    match s.timers[i]? with
    | none => none
    | some t =>
      let s' := { s with timers := s.timers.eraseIdx i }.runTimeout t
      some { s' with erased := s.erased ++ erasures t s s' }

namespace VoiceStates

variable {s s' : VoiceStates}

/-! ## Attempts that set entries -/

/-- Every timer that would clear entry `m` of the guild was armed in the running attempt. -/
def Unthreatened (s : VoiceStates) (m : VoiceMap) (g : Nat) : Prop :=
  ∀ t ∈ s.timers, t.guildId = g → t.fn.clears m → t.attempt = s.attempt g

/-- An entry is set only when no earlier attempt has left a timer that clears it. -/
def SetsUnthreatened (s : VoiceStates) : VoiceAction → Prop
  | .setConnecting g _ => s.Unthreatened .connecting g
  | .setDisconnecting g _ hasVoice => hasVoice → s.Unthreatened .disconnecting g
  | .setWaitingVcReady g _ ready => ready = false → s.Unthreatened .waitingVcReady g
  | _ => True

instance (s : VoiceStates) (m : VoiceMap) (g : Nat) : Decidable (s.Unthreatened m g) :=
  inferInstanceAs (Decidable (∀ t ∈ s.timers, _))

instance (s : VoiceStates) (a : VoiceAction) : Decidable (s.SetsUnthreatened a) :=
  match a with
  | .setConnecting g _ => inferInstanceAs (Decidable (s.Unthreatened .connecting g))
  | .setDisconnecting .. => inferInstanceAs (Decidable (_ → _))
  | .setWaitingVcReady .. => inferInstanceAs (Decidable (_ → _))
  | .attempt _ | .reconnect _ | .reconnectGo .. | .waitForVcReady _ | .waitForDisconnecting _
  | .voiceReady _ | .botJoined _ | .botLeft _ | .fire _ => isTrue trivial

/-- No entry and no timer belongs to an attempt after the running one, no entry to one after that of
a timer that clears it, and no timer has erased an entry of a later attempt. -/
structure AttemptInv (s : VoiceStates) : Prop where
  entries : ∀ m g e, s.entry m g = some e → e ≤ s.attempt g
  armed : ∀ t ∈ s.timers, t.attempt ≤ s.attempt t.guildId
  timers : ∀ t ∈ s.timers, ∀ m e, t.fn.clears m → s.entry m t.guildId = some e → e ≤ t.attempt
  erased : ∀ r ∈ s.erased, r.entry ≤ r.timer

theorem attemptInv_init : AttemptInv init where
  entries m _ _ h := by cases m <;> cases h
  armed := nofun
  timers := nofun
  erased := nofun

/-- **One step that runs no timer**: its entries are old or set in the running attempt, with no
timer of another attempt to clear them, and its timers are old or armed in the running attempt. -/
theorem AttemptInv.next (hi : s.AttemptInv)
    (hentries : ∀ m g e, s'.entry m g = some e →
      s.entry m g = some e ∨ e = s.attempt g ∧ s.Unthreatened m g)
    (htimers : ∀ t ∈ s'.timers, t ∈ s.timers ∨ t.attempt = s.attempt t.guildId)
    (hattempt : ∀ g, s.attempt g ≤ s'.attempt g) (herased : s'.erased = s.erased) :
    s'.AttemptInv where
  entries m g e h := by
    have hg := hattempt g
    rcases hentries m g e h with h | ⟨h, -⟩
    · have := hi.entries m g e h
      omega
    · omega
  armed t ht := by
    have hg := hattempt t.guildId
    rcases htimers t ht with ht | ht
    · have := hi.armed t ht
      omega
    · omega
  timers t ht m e hc h := by
    rcases htimers t ht with ht | ht <;> rcases hentries m t.guildId e h with h | ⟨h, hu⟩
    · exact hi.timers t ht m e hc h
    · have := hu t ht rfl hc
      omega
    · rw [ht]
      exact hi.entries m t.guildId e h
    · omega
  erased := herased ▸ hi.erased

/-- A step that sets nothing. -/
theorem AttemptInv.keep (hi : s.AttemptInv)
    (hentries : ∀ m g e, s'.entry m g = some e → s.entry m g = some e)
    (htimers : ∀ t ∈ s'.timers, t ∈ s.timers ∨ t.attempt = s.attempt t.guildId)
    (hattempt : s'.attempt = s.attempt) (herased : s'.erased = s.erased) : s'.AttemptInv :=
  hi.next (fun m g e h => .inl (hentries m g e h)) htimers
    (fun g => Nat.le_of_eq (congrFun hattempt g).symm) herased

/-! ## Setting and clearing -/

theorem attempt_update {α : Type} {f : Nat → Option (Entry α)} {n : Option (Entry α)} {g g' e : Nat}
    (h : (Function.update f g n g').map (·.attempt) = some e) :
    (f g').map (·.attempt) = some e ∨ g' = g ∧ n.map (·.attempt) = some e := by
  by_cases hg : g' = g
  · subst hg
    rw [Function.update_self] at h
    exact .inr ⟨rfl, h⟩
  · rw [Function.update_of_ne hg] at h
    exact .inl h

theorem entry_setConnecting {m : VoiceMap} {g g' channelId e : Nat}
    (h : (s.setConnecting g channelId).entry m g' = some e) :
    s.entry m g' = some e ∨ m = .connecting ∧ g' = g ∧ e = s.attempt g := by
  cases m with
  | connecting => exact (attempt_update h).imp_right fun h => ⟨rfl, h.1, (Option.some.inj h.2).symm⟩
  | disconnecting => exact .inl h
  | waitingVcReady => exact .inl h

theorem entry_setDisconnecting {m : VoiceMap} {g g' channelId e : Nat} {hasVoice : Bool}
    (h : (s.setDisconnecting g channelId hasVoice).entry m g' = some e) :
    s.entry m g' = some e ∨ m = .disconnecting ∧ g' = g ∧ e = s.attempt g ∧ hasVoice := by
  unfold setDisconnecting at h
  split at h
  · rename_i hv
    cases m with
    | disconnecting =>
      exact (attempt_update h).imp_right fun h => ⟨rfl, h.1, (Option.some.inj h.2).symm, hv⟩
    | connecting => exact .inl h
    | waitingVcReady => exact .inl h
  · exact .inl h

theorem entry_setWaitingVcReady {m : VoiceMap} {g g' e : Nat} {second : String} {ready : Bool}
    (h : (s.setWaitingVcReady g second ready).entry m g' = some e) :
    s.entry m g' = some e ∨ m = .waitingVcReady ∧ g' = g ∧ e = s.attempt g ∧ ready = false := by
  unfold setWaitingVcReady at h
  split at h
  · exact .inl h
  · rename_i hr
    cases m with
    | waitingVcReady =>
      exact (attempt_update h).imp_right fun h =>
        ⟨rfl, h.1, (Option.some.inj h.2).symm, by simpa using hr⟩
    | connecting => exact .inl h
    | disconnecting => exact .inl h

/-- What setting does not touch. -/
theorem setDisconnecting_frame (g channelId : Nat) (hasVoice : Bool) :
    (s.setDisconnecting g channelId hasVoice).timers = s.timers ∧
      (s.setDisconnecting g channelId hasVoice).attempt = s.attempt ∧
      (s.setDisconnecting g channelId hasVoice).erased = s.erased := by
  unfold setDisconnecting
  split <;> exact ⟨rfl, rfl, rfl⟩

theorem setWaitingVcReady_frame (g : Nat) (second : String) (ready : Bool) :
    (s.setWaitingVcReady g second ready).attempt = s.attempt ∧
      (s.setWaitingVcReady g second ready).erased = s.erased := by
  unfold setWaitingVcReady
  split <;> exact ⟨rfl, rfl⟩

theorem mem_timers_setWaitingVcReady {g : Nat} {second : String} {ready : Bool} {t : Timeout}
    (h : t ∈ (s.setWaitingVcReady g second ready).timers) :
    t ∈ s.timers ∨ t.attempt = s.attempt t.guildId := by
  unfold setWaitingVcReady at h
  split at h
  · exact .inl h
  · rcases List.mem_append.1 h with h | h
    · exact .inl h
    · rw [List.mem_singleton.1 h]
      exact .inr rfl

/-- Clearing leaves entries or takes them. -/
theorem attempt_clear {α : Type} {f : Nat → Option (Entry α)} {g g' e : Nat}
    (h : (Function.update f g none g').map (·.attempt) = some e) :
    (f g').map (·.attempt) = some e :=
  (attempt_update h).elim id fun h => by cases h.2

theorem entry_clearDisconnecting {m : VoiceMap} {g g' e : Nat}
    (h : (s.clearDisconnecting g).entry m g' = some e) : s.entry m g' = some e := by
  cases m with
  | disconnecting => exact attempt_clear h
  | connecting => exact h
  | waitingVcReady => exact h

theorem entry_clearConnecting {m : VoiceMap} {g g' e : Nat}
    (h : (s.clearConnecting g).2.entry m g' = some e) : s.entry m g' = some e := by
  cases m with
  | connecting => exact attempt_clear h
  | disconnecting => exact h
  | waitingVcReady => exact h

theorem entry_clearWaitVcReady {m : VoiceMap} {g g' e : Nat}
    (h : (s.clearWaitVcReady g).2.entry m g' = some e) : s.entry m g' = some e := by
  simp only [clearWaitVcReady] at h
  split at h
  · refine entry_clearConnecting (g := g) ?_
    cases m with
    | waitingVcReady => exact attempt_clear h
    | connecting => exact h
    | disconnecting => exact h
  · exact entry_clearConnecting h

/-- What clearing does not touch. -/
theorem clearWaitVcReady_frame (g : Nat) :
    (s.clearWaitVcReady g).2.timers = s.timers ∧ (s.clearWaitVcReady g).2.attempt = s.attempt ∧
      (s.clearWaitVcReady g).2.erased = s.erased ∧
      (s.clearWaitVcReady g).2.disconnecting = s.disconnecting := by
  simp only [clearWaitVcReady]
  split <;> exact ⟨rfl, rfl, rfl, rfl⟩

theorem entry_runTimeout {t : Timeout} {m : VoiceMap} {g e : Nat}
    (h : (s.runTimeout t).entry m g = some e) : s.entry m g = some e := by
  unfold runTimeout at h
  split at h
  · exact entry_clearDisconnecting h
  · exact entry_clearConnecting h
  · exact entry_clearWaitVcReady h
  · exact entry_clearWaitVcReady h

theorem runTimeout_frame (t : Timeout) :
    (s.runTimeout t).timers = s.timers ∧ (s.runTimeout t).attempt = s.attempt ∧
      (s.runTimeout t).erased = s.erased := by
  unfold runTimeout
  obtain ⟨ht, ha, he, -⟩ := clearWaitVcReady_frame (s := s) t.guildId
  split
  · exact ⟨rfl, rfl, rfl⟩
  · exact ⟨rfl, rfl, rfl⟩
  · exact ⟨ht, ha, he⟩
  · exact ⟨ht, ha, he⟩

/-- A timer leaves the maps that it does not clear. -/
theorem entry_runTimeout_of_not_clears {t : Timeout} {m : VoiceMap} (h : t.fn.clears m = false)
    (g : Nat) : (s.runTimeout t).entry m g = s.entry m g := by
  have hwait : (s.clearWaitVcReady t.guildId).2.entry .disconnecting g = s.entry .disconnecting g :=
    congrArg (fun f => (f g).map (·.attempt)) (clearWaitVcReady_frame t.guildId).2.2.2
  unfold runTimeout
  cases hfn : t.fn <;> rw [hfn] at h <;> cases m <;>
    first | rfl | exact hwait | cases h

/-- What a timer erases belongs to a map that it clears. -/
theorem mem_erasures {t : Timeout} {r : Erasure} (h : r ∈ erasures t s (s.runTimeout t)) :
    r.timer = t.attempt ∧ ∃ m, t.fn.clears m ∧ s.entry m t.guildId = some r.entry := by
  obtain ⟨m, -, hm⟩ := List.mem_filterMap.1 h
  split at hm
  · rename_i e he hnone
    cases hm
    refine ⟨rfl, m, ?_, he⟩
    rw [← Bool.not_eq_false]
    intro hc
    rw [entry_runTimeout_of_not_clears hc, he] at hnone
    cases hnone
  · cases hm

/-! ## Along attempts that set entries unthreatened -/

theorem AttemptInv.runOnce {fn : TimeoutFn} {g : Nat} (hi : s.AttemptInv) :
    (s.runOnce fn g).AttemptInv := by
  refine hi.keep (fun m _ _ h => by cases m <;> exact h) (fun t ht => ?_) rfl rfl
  rcases List.mem_append.1 ht with ht | ht
  · exact .inl ht
  · rw [List.mem_singleton.1 ht]
    exact .inr rfl

/-- The invariant does not read the calls of `reconnect`. -/
theorem AttemptInv.congr (hi : s.AttemptInv) (he : ∀ m g, s'.entry m g = s.entry m g)
    (ht : s'.timers = s.timers) (ha : s'.attempt = s.attempt) (hr : s'.erased = s.erased) :
    s'.AttemptInv :=
  hi.keep (fun m g _ h => he m g ▸ h) (fun _ h => .inl (ht ▸ h)) ha hr

theorem AttemptInv.fire {t : Timeout} {i : Nat} (hi : s.AttemptInv) (ht : s.timers[i]? = some t)
    (h : voiceStep s (.fire i) = some s') : s'.AttemptInv := by
  simp only [voiceStep, ht] at h
  cases h
  obtain ⟨htimers, hattempt, herased⟩ :=
    runTimeout_frame (s := { s with timers := s.timers.eraseIdx i }) t
  refine ⟨fun m g _ he => ?_, fun t' ht' => ?_, fun t' ht' m e hc he => ?_, fun r hr => ?_⟩
  · have he := entry_runTimeout (m := m) (by cases m <;> exact he)
    exact (congrFun hattempt g).symm ▸ hi.entries m g _ (by cases m <;> exact he)
  · exact (congrFun hattempt t'.guildId).symm ▸
      hi.armed t' (List.mem_of_mem_eraseIdx (htimers ▸ ht'))
  · have he := entry_runTimeout (m := m) (by cases m <;> exact he)
    exact hi.timers t' (List.mem_of_mem_eraseIdx (htimers ▸ ht')) m e hc (by cases m <;> exact he)
  · rcases List.mem_append.1 hr with hr | hr
    · exact hi.erased r (herased ▸ hr)
    · obtain ⟨hrt, m, hc, he⟩ := mem_erasures
        (s := { s with timers := s.timers.eraseIdx i }) (t := t) hr
      rw [hrt]
      exact hi.timers t (List.mem_of_getElem? ht) m r.entry hc (by cases m <;> exact he)

theorem AttemptInv.step {a : VoiceAction} (hi : s.AttemptInv) (ha : s.SetsUnthreatened a)
    (h : voiceStep s a = some s') : s'.AttemptInv := by
  cases a with
  | attempt g =>
    cases h
    refine hi.next (fun m _ _ he => .inl (by cases m <;> exact he)) (fun _ ht => .inl ht)
      (fun g' => ?_) rfl
    by_cases hg : g' = g
    · simp [hg]
    · simp [hg]
  | setConnecting g channelId =>
    cases h
    refine hi.next (fun m g' e he => ?_) (fun _ ht => .inl ht) (fun _ => Nat.le_refl _) rfl
    exact (entry_setConnecting he).imp_right fun ⟨hm, hg, he⟩ => ⟨hg ▸ he, hm ▸ hg ▸ ha⟩
  | setDisconnecting g channelId hasVoice =>
    cases h
    obtain ⟨ht, hn, he⟩ := setDisconnecting_frame (s := s) g channelId hasVoice
    refine hi.next (fun m g' e hm => ?_) (fun _ h => .inl (ht ▸ h))
      (fun g' => Nat.le_of_eq (congrFun hn g').symm) he
    exact (entry_setDisconnecting hm).imp_right fun ⟨hm, hg, he, hv⟩ => ⟨hg ▸ he, hm ▸ hg ▸ ha hv⟩
  | setWaitingVcReady g second ready =>
    cases h
    obtain ⟨hn, he⟩ := setWaitingVcReady_frame (s := s) g second ready
    refine hi.next (fun m g' e hm => ?_) (fun _ => mem_timers_setWaitingVcReady)
      (fun g' => Nat.le_of_eq (congrFun hn g').symm) he
    exact (entry_setWaitingVcReady hm).imp_right fun ⟨hm, hg, he, hr⟩ => ⟨hg ▸ he, hm ▸ hg ▸ ha hr⟩
  | reconnect g =>
    cases h
    unfold VoiceStates.reconnect
    split
    · exact hi.runOnce.congr (fun m _ => by cases m <;> rfl) rfl rfl rfl
    · exact hi.congr (fun m _ => by cases m <;> rfl) rfl rfl rfl
  | reconnectGo i client =>
    simp only [voiceStep] at h
    split at h
    · split at h
      · cases h
      · cases h
        unfold reconnectConnect
        split
        · exact hi.congr (fun m _ => by cases m <;> rfl) rfl rfl rfl
        split
        · exact hi.runOnce.congr (fun m _ => by cases m <;> rfl) rfl rfl rfl
        · exact hi.congr (fun m _ => by cases m <;> rfl) rfl rfl rfl
    · split at h
      · cases h
      · cases h
        exact hi.congr (fun m _ => by cases m <;> rfl) rfl rfl rfl
    · cases h
  | waitForVcReady g =>
    cases h
    unfold VoiceStates.waitForVcReady
    split
    · exact hi.runOnce
    · exact hi
  | waitForDisconnecting g =>
    cases h
    unfold VoiceStates.waitForDisconnecting
    split
    · exact hi.runOnce
    · exact hi
  | voiceReady g =>
    cases h
    obtain ⟨ht, ha, he, -⟩ := clearWaitVcReady_frame (s := s) g
    exact hi.keep (fun _ _ _ => entry_clearWaitVcReady) (fun _ h => .inl (ht ▸ h)) ha he
  | botJoined g =>
    cases h
    exact hi.keep (fun _ _ _ => entry_clearConnecting) (fun _ h => .inl h) rfl rfl
  | botLeft g =>
    cases h
    exact hi.keep (fun _ _ _ => entry_clearDisconnecting) (fun _ h => .inl h) rfl rfl
  | fire i =>
    cases ht : s.timers[i]? with
    | none => simp [voiceStep, ht] at h
    | some t => exact hi.fire ht h

theorem attemptInv_run {l : List VoiceAction} (hl : Along voiceStep SetsUnthreatened init l)
    (h : run voiceStep init l = some s) : s.AttemptInv :=
  run_inv (fun _ _ _ hi ha hs => hi.step ha hs) attemptInv_init hl h

/-- The first attempt is ready and its timer has run when the second begins. -/
def slowAttempts : List VoiceAction :=
  [.attempt 1, .setConnecting 1 10, .setWaitingVcReady 1 "2" false, .voiceReady 1, .fire 0,
    .attempt 1, .setConnecting 1 11, .setWaitingVcReady 1 "2" false, .fire 0]

/-- The second attempt begins while the timer of the first is still armed. -/
def quickAttempts : List VoiceAction :=
  [.attempt 1, .setConnecting 1 10, .setWaitingVcReady 1 "2" false, .voiceReady 1,
    .attempt 1, .setConnecting 1 11, .setWaitingVcReady 1 "2" false, .fire 0]

theorem entry_runTimeout_of_clears {t : Timeout} {m : VoiceMap} (h : t.fn.clears m) :
    (s.runTimeout t).entry m t.guildId = none := by
  have hconnecting : (s.clearWaitVcReady t.guildId).2.entry .connecting t.guildId = none := by
    simp only [clearWaitVcReady]
    split <;> simp [entry, clearConnecting]
  have hwaiting : (s.clearWaitVcReady t.guildId).2.entry .waitingVcReady t.guildId = none := by
    simp only [clearWaitVcReady]
    split
    · simp [entry]
    · rename_i hn
      simpa [entry] using hn
  unfold runTimeout
  cases hfn : t.fn <;> rw [hfn] at h <;> cases m <;>
    first
    | exact hconnecting
    | exact hwaiting
    | cases h; done
    | simp [entry, clearDisconnecting, clearConnecting]

/-- A timer records the entry that it erases. -/
theorem fire_erases {t : Timeout} {m : VoiceMap} {e : Nat} (ht : t ∈ s.timers)
    (hc : t.fn.clears m) (he : s.entry m t.guildId = some e) :
    ∃ i s', voiceStep s (.fire i) = some s' ∧ ⟨t.guildId, t.attempt, e⟩ ∈ s'.erased := by
  obtain ⟨i, hi⟩ := List.getElem?_of_mem ht
  let s₀ : VoiceStates := { s with timers := s.timers.eraseIdx i }
  have hgone := entry_runTimeout_of_clears (s := s₀) hc
  refine ⟨i, { s₀.runTimeout t with erased := s.erased ++ erasures t s (s₀.runTimeout t) },
    by simp only [voiceStep, hi, s₀], List.mem_append_right _ ?_⟩
  refine List.mem_filterMap.2 ⟨m, by cases m <;> simp, ?_⟩
  rw [he, hgone]

/-- **The condition is needed**: after a step that sets a threatened entry, a timer may erase the
entry of an attempt later than its own at once. -/
theorem threatened_erased (hi : s.AttemptInv) {a : VoiceAction} (ha : ¬ s.SetsUnthreatened a)
    (h : voiceStep s a = some s') :
    ∃ i s'', voiceStep s' (.fire i) = some s'' ∧ ∃ r ∈ s''.erased, r.timer < r.entry := by
  -- the entry is there with the number of the running attempt, and so is the timer
  suffices hset : ∀ m g, ¬ s.Unthreatened m g → s'.entry m g = some (s.attempt g) →
      s.timers ⊆ s'.timers →
      ∃ i s'', voiceStep s' (.fire i) = some s'' ∧ ∃ r ∈ s''.erased, r.timer < r.entry by
    cases a with
    | setConnecting g channelId =>
      cases h
      exact hset .connecting g ha (by simp [entry, VoiceStates.setConnecting])
        (List.Subset.refl _)
    | setDisconnecting g channelId hasVoice =>
      cases h
      obtain ⟨hv, hu⟩ := Classical.not_imp.1 ha
      unfold VoiceStates.setDisconnecting at hset ⊢
      rw [if_pos hv] at hset ⊢
      exact hset .disconnecting g hu (by simp [entry]) (List.Subset.refl _)
    | setWaitingVcReady g second ready =>
      cases h
      obtain ⟨hr, hu⟩ := Classical.not_imp.1 ha
      unfold VoiceStates.setWaitingVcReady at hset ⊢
      rw [if_neg (by simp [hr])] at hset ⊢
      exact hset .waitingVcReady g hu (by simp [entry, VoiceStates.runOnce])
        (List.subset_append_left _ _)
    | _ => exact absurd trivial ha
  intro m g hu he hsub
  simp only [Unthreatened, not_forall] at hu
  obtain ⟨t, ht, rfl, hc, hne⟩ := hu
  obtain ⟨i, s'', hfire, hr⟩ := fire_erases (hsub ht) hc he
  have hle := hi.armed t ht
  exact ⟨i, s'', hfire, _, hr, by show t.attempt < s.attempt t.guildId; omega⟩

end VoiceStates

end Musicat.Player
