import Mathlib.Algebra.Order.BigOperators.Group.List
import Musicat.Lib.Lists
import Musicat.Lib.Weigh
import Musicat.Player.VoiceTimeout

/-!
# Threads that wait for a voice state

`reconnect`, `wait_for_vc_ready` and `wait_for_disconnecting` sleep on the
condition variable of a map until the entry of their guild is gone, and arm a
timer for it before. Whoever erases an entry notifies all threads of the map,
each of which looks again for the entry of its own guild.

A set of `waiting_vc_ready` arms a timer too, a set of the other two maps does
not: when such a set comes after the entry was erased and before a woken thread
has looked, the thread sleeps on without a timer (`Overtakes`). Otherwise every
thread that sleeps has its entry and a timer to erase it (`voice_waits_watched`),
and all waits end (`voice_waits_end`).
-/

namespace Musicat.Player

open Lib

/-- Where a thread is in one of the functions that wait. -/
inductive WaitPC where
  | idle
  /-- `wait_for_…` has seen the entry. -/
  | arming (m : VoiceMap) (guildId : Nat)
  /-- About to look at the entry; behind the wait, `reconnect` has more to do. -/
  | checking (m : VoiceMap) (guildId : Nat) (more : Bool)
  | asleep (m : VoiceMap) (guildId : Nat) (more : Bool)
  /-- `reconnect` behind its first block. -/
  | connect (guildId : Nat)
  deriving DecidableEq

/-- What `notify_all` of a map does to a thread. -/
def WaitPC.notified (m : VoiceMap) : WaitPC → WaitPC
  | .asleep m' g more => if m' = m then .checking m' g more else .asleep m' g more
  | p => p

/-- A timer, or what is left to do of `clear_wait_vc_ready` behind its `clear_connecting`. -/
inductive Pending where
  | timer (fn : TimeoutFn) (guildId : Nat)
  | half (guildId : Nat)
  deriving DecidableEq

/-- It will erase the entry, unless something else does before. -/
def Pending.clears : Pending → VoiceMap → Nat → Bool
  | .timer fn g, m, guildId => fn.clears m && g == guildId
  | .half g, m, guildId => m == .waitingVcReady && g == guildId

/-- The three maps, and the threads `τ` that call the functions. -/
structure VoiceWaits (τ : Type*) where
  connecting : Nat → Option Nat := fun _ => none
  disconnecting : Nat → Option Nat := fun _ => none
  waitingVcReady : Nat → Option String := fun _ => none
  pending : List Pending := []
  pc : τ → WaitPC := fun _ => .idle
  /-- The calls of `connect_voice`. -/
  connects : List (Nat × Nat) := []

/-- The function that a thread arms before it waits for an entry of the map. -/
def VoiceMap.timeoutFn : VoiceMap → TimeoutFn
  | .connecting => .clearConnecting
  | .disconnecting => .clearDisconnecting
  | .waitingVcReady => .clearWaitVcReady

namespace VoiceWaits

section
variable {τ : Type*}

def has (s : VoiceWaits τ) : VoiceMap → Nat → Bool
  | .connecting, g => (s.connecting g).isSome
  | .disconnecting, g => (s.disconnecting g).isSome
  | .waitingVcReady, g => (s.waitingVcReady g).isSome

def runOnce (fn : TimeoutFn) (guildId : Nat) (s : VoiceWaits τ) : VoiceWaits τ :=
  { s with pending := s.pending ++ [.timer fn guildId] }

/-- `cv.notify_all` of the map. -/
def notifyAll (m : VoiceMap) (s : VoiceWaits τ) : VoiceWaits τ :=
  { s with pc := fun t => (s.pc t).notified m }

/-- The entry is erased. -/
def erase (guildId : Nat) (s : VoiceWaits τ) : VoiceMap → VoiceWaits τ
  | .connecting => { s with connecting := Function.update s.connecting guildId none }
  | .disconnecting => { s with disconnecting := Function.update s.disconnecting guildId none }
  | .waitingVcReady => { s with waitingVcReady := Function.update s.waitingVcReady guildId none }

/-- `clear_connecting`, `clear_disconnecting`, and the block of `clear_wait_vc_ready` that holds
the mutex of `waiting_vc_ready`. -/
def clear (m : VoiceMap) (guildId : Nat) (s : VoiceWaits τ) : VoiceWaits τ :=
  if s.has m guildId then (s.erase guildId m).notifyAll m else s

def setConnecting (guildId channelId : Nat) (s : VoiceWaits τ) : VoiceWaits τ :=
  { s with connecting := Function.update s.connecting guildId (some channelId) }

/-- `hasVoice`: the guild, its client and a voice connection were found. -/
def setDisconnecting (guildId channelId : Nat) (hasVoice : Bool) (s : VoiceWaits τ) :
    VoiceWaits τ :=
  if hasVoice then
    { s with disconnecting := Function.update s.disconnecting guildId (some channelId) }
  else s

/-- `ready`: there is a voice client that is ready. -/
def setWaitingVcReady (guildId : Nat) (second : String) (ready : Bool) (s : VoiceWaits τ) :
    VoiceWaits τ :=
  if ready then s
  else
    let s := { s with waitingVcReady := Function.update s.waitingVcReady guildId (some second) }
    s.runOnce .vcReadyTimeout guildId

variable [DecidableEq τ]

def goto (s : VoiceWaits τ) (t : τ) (p : WaitPC) : VoiceWaits τ :=
  { s with pc := Function.update s.pc t p }

/-- `wait_for_vc_ready` and `wait_for_disconnecting`, up to the first look at the map. -/
def waitFor (t : τ) (m : VoiceMap) (guildId : Nat) (s : VoiceWaits τ) : VoiceWaits τ :=
  if s.has m guildId then s.goto t (.arming m guildId) else s

/-- `reconnect`, its first block up to the wait. -/
def reconnect (t : τ) (guildId : Nat) (s : VoiceWaits τ) : VoiceWaits τ :=
  if s.has .disconnecting guildId then
    (s.runOnce .clearDisconnecting guildId).goto t (.asleep .disconnecting guildId true)
  else s.goto t (.connect guildId)

/-- `reconnect`, its second block up to the wait; `client`: the discord client was found. -/
def connectVoice (t : τ) (guildId : Nat) (client : Bool) (s : VoiceWaits τ) : VoiceWaits τ :=
  match s.connecting guildId with
  | none => s.goto t .idle
  | some channelId =>
    if client then
      let s := { s with connects := s.connects ++ [(guildId, channelId)] }
      (s.runOnce .clearConnecting guildId).goto t (.asleep .connecting guildId false)
    else s.goto t .idle

/-- Behind a wait. -/
def afterWait (guildId : Nat) (more : Bool) : WaitPC := if more then .connect guildId else .idle

/-- The predicate of a wait, with the mutex. -/
def check (t : τ) (m : VoiceMap) (guildId : Nat) (more : Bool) (s : VoiceWaits τ) : VoiceWaits τ :=
  if s.has m guildId then s.goto t (.asleep m guildId more)
  else s.goto t (afterWait guildId more)

/-- A timer goes off, or the rest of its function is run. -/
def fire (s : VoiceWaits τ) (rest : List Pending) : Pending → VoiceWaits τ
  | .timer .clearDisconnecting g => { s with pending := rest }.clear .disconnecting g
  | .timer .clearConnecting g => { s with pending := rest }.clear .connecting g
  | .timer .clearWaitVcReady g | .timer .vcReadyTimeout g =>
    { s with pending := rest ++ [Pending.half g] }.clear .connecting g
  | .half g => { s with pending := rest }.clear .waitingVcReady g

end

inductive Action (τ : Type*) where
  | setConnecting (guildId channelId : Nat)
  | setDisconnecting (guildId channelId : Nat) (hasVoice : Bool)
  | setWaitingVcReady (guildId : Nat) (second : String) (ready : Bool)
  /-- A handler of an event erases an entry. -/
  | clear (m : VoiceMap) (guildId : Nat)
  | reconnect (t : τ) (guildId : Nat)
  | waitForVcReady (t : τ) (guildId : Nat)
  | waitForDisconnecting (t : τ) (guildId : Nat)
  /-- The thread takes its next step. -/
  | go (t : τ) (client : Bool)
  /-- A wait wakes for no reason. -/
  | wake (t : τ)
  /-- What is pending at `i` runs. -/
  | fire (i : Nat)
  deriving DecidableEq

section
variable {τ : Type*} [DecidableEq τ]

def step (s : VoiceWaits τ) : Action τ → Option (VoiceWaits τ)
  | .setConnecting g channelId => some (s.setConnecting g channelId)
  | .setDisconnecting g channelId hasVoice => some (s.setDisconnecting g channelId hasVoice)
  | .setWaitingVcReady g second ready => some (s.setWaitingVcReady g second ready)
  | .clear m g => some (s.clear m g)
  | .reconnect t g => if s.pc t = .idle then some (s.reconnect t g) else none
  | .waitForVcReady t g => if s.pc t = .idle then some (s.waitFor t .waitingVcReady g) else none
  | .waitForDisconnecting t g =>
    if s.pc t = .idle then some (s.waitFor t .disconnecting g) else none
  | .go t client =>
    match s.pc t with
    | .arming m g => some ((s.runOnce m.timeoutFn g).goto t (.checking m g false))
    | .checking m g more => some (s.check t m g more)
    | .connect g => some (s.connectVoice t g client)
    | .idle | .asleep .. => none
  | .wake t =>
    match s.pc t with
    | .asleep m g more => some (s.goto t (.checking m g more))
    | _ => none
  | .fire i => (s.pending[i]?).map (s.fire (s.pending.eraseIdx i))

/-- An entry is set between the erasure of the one before and the look of a thread at it. -/
def Overtakes (s : VoiceWaits τ) : Action τ → Prop
  | .setConnecting g _ =>
    s.has .connecting g = false ∧ ∃ t more, s.pc t = .checking .connecting g more
  | .setDisconnecting g _ hasVoice =>
    hasVoice = true ∧ s.has .disconnecting g = false ∧
      ∃ t more, s.pc t = .checking .disconnecting g more
  | _ => False

instance [Fintype τ] (s : VoiceWaits τ) (a : Action τ) : Decidable (Overtakes s a) :=
  match a with
  | .setConnecting .. => inferInstanceAs (Decidable (_ ∧ _))
  | .setDisconnecting .. => inferInstanceAs (Decidable (_ ∧ _ ∧ _))
  | .setWaitingVcReady .. | .clear .. | .reconnect .. | .waitForVcReady ..
  | .waitForDisconnecting .. | .go .. | .wake _ | .fire _ => isFalse id

end

/-! ## What the operations do to the entries and the timers -/

section
variable {τ : Type*} {s s' : VoiceWaits τ} {m m' : VoiceMap} {g g' : Nat}

/-- Something is pending that erases the entry. -/
def Timed (s : VoiceWaits τ) (m : VoiceMap) (g : Nat) : Prop :=
  ∃ p ∈ s.pending, p.clears m g = true

@[simp] theorem has_runOnce (fn : TimeoutFn) : (s.runOnce fn g').has m g = s.has m g := by
  cases m <;> rfl

@[simp] theorem has_notifyAll : (s.notifyAll m').has m g = s.has m g := by
  cases m <;> rfl

@[simp] theorem has_pending (pending : List Pending) :
    { s with pending }.has m g = s.has m g := by
  cases m <;> rfl

theorem has_erase :
    (s.erase g' m').has m g = if m = m' ∧ g = g' then false else s.has m g := by
  by_cases hg : g = g' <;> cases m <;> cases m' <;> simp [erase, has, hg]

theorem has_clear :
    (s.clear m' g').has m g = if m = m' ∧ g = g' then false else s.has m g := by
  unfold clear
  split
  · rw [has_notifyAll, has_erase]
  · split
    · rename_i h h'
      obtain ⟨rfl, rfl⟩ := h'
      simpa using h
    · rfl

@[simp] theorem clear_pending : (s.clear m g).pending = s.pending := by
  unfold clear
  split
  · cases m <;> rfl
  · rfl

theorem has_setConnecting {channelId : Nat} (h : (s.setConnecting g' channelId).has m g = true) :
    s.has m g = true ∨ m = .connecting ∧ g = g' := by
  by_cases hg : g = g' <;> cases m <;> simp_all [setConnecting, has]

theorem has_setDisconnecting {channelId : Nat} {hasVoice : Bool}
    (h : (s.setDisconnecting g' channelId hasVoice).has m g = true) :
    s.has m g = true ∨ m = .disconnecting ∧ g = g' ∧ hasVoice = true := by
  unfold setDisconnecting at h
  split at h
  · by_cases hg : g = g' <;> cases m <;> simp_all [has]
  · exact .inl h

theorem Timed.runOnce (h : s.Timed m g) (fn : TimeoutFn) : (s.runOnce fn g').Timed m g := by
  obtain ⟨p, hp, hc⟩ := h
  exact ⟨p, List.mem_append_left _ hp, hc⟩

theorem timed_runOnce {fn : TimeoutFn} (h : fn.clears m = true) : (s.runOnce fn g).Timed m g :=
  ⟨.timer fn g, by simp [VoiceWaits.runOnce], by simp [Pending.clears, h]⟩

theorem clears_timeoutFn (m : VoiceMap) : m.timeoutFn.clears m = true := by
  cases m <;> rfl

theorem has_setWaitingVcReady {second : String} {ready : Bool}
    (h : (s.setWaitingVcReady g' second ready).has m g = true) :
    s.has m g = true ∨ (s.setWaitingVcReady g' second ready).Timed m g := by
  unfold setWaitingVcReady at h ⊢
  split at h
  · exact .inl h
  · rename_i hr
    rw [if_neg hr]
    by_cases hg : m = .waitingVcReady ∧ g = g'
    · obtain ⟨rfl, rfl⟩ := hg
      exact .inr (timed_runOnce rfl)
    · refine .inl ?_
      by_cases hg' : g = g' <;> cases m <;> simp_all [has, VoiceWaits.runOnce]

/-- What was pending is still there, or it is what runs and the entry is gone. -/
theorem Timed.fire {i : Nat} {p : Pending} (h : s.Timed m g) (hp : s.pending[i]? = some p)
    (hhas : (s.fire (s.pending.eraseIdx i) p).has m g = true) :
    (s.fire (s.pending.eraseIdx i) p).Timed m g := by
  obtain ⟨q, hq, hc⟩ := h
  rcases eq_or_mem_eraseIdx hp hq with rfl | hrest
  · cases q with
    | timer fn g₀ =>
      obtain ⟨hm, rfl⟩ : fn.clears m = true ∧ g₀ = g := by simpa [Pending.clears] using hc
      cases fn <;> cases m <;> simp_all [VoiceWaits.fire, TimeoutFn.clears, has_clear]
      all_goals exact ⟨.half g₀, by simp, by simp [Pending.clears]⟩
    | half g₀ =>
      obtain ⟨rfl, rfl⟩ : m = .waitingVcReady ∧ g₀ = g := by simpa [Pending.clears] using hc
      simp [VoiceWaits.fire, has_clear] at hhas
  · refine ⟨q, ?_, hc⟩
    unfold VoiceWaits.fire
    split <;> simp [hrest]

/-! ## What a step does -/

/-- The thread waits for the entry, or is about to look whether it has to. -/
def WaitsFor (s : VoiceWaits τ) (t : τ) (m : VoiceMap) (g : Nat) : Prop :=
  ∃ more, s.pc t = .checking m g more ∨ s.pc t = .asleep m g more

/-- The entry that every sleeping thread waits for is there. -/
def Present (s : VoiceWaits τ) : Prop :=
  ∀ t m g more, s.pc t = .asleep m g more → s.has m g = true

/-- The action sets the entry and arms nothing. -/
def Sets (m : VoiceMap) (g : Nat) : Action τ → Prop
  | .setConnecting g' _ => m = .connecting ∧ g = g'
  | .setDisconnecting g' _ hasVoice => m = .disconnecting ∧ g = g' ∧ hasVoice = true
  | _ => False

theorem notified_eq_asleep {p : WaitPC} {more : Bool} (h : p.notified m' = .asleep m g more) :
    p = .asleep m g more ∧ m ≠ m' := by
  cases p with
  | asleep m₀ g₀ more₀ =>
    simp only [WaitPC.notified] at h
    split at h
    · cases h
    · rename_i hne
      cases h
      exact ⟨rfl, hne⟩
  | _ => cases h

theorem notified_waits {p : WaitPC} {more : Bool}
    (h : p.notified m' = .checking m g more ∨ p.notified m' = .asleep m g more) :
    p = .checking m g more ∨ p = .asleep m g more := by
  cases p with
  | asleep m₀ g₀ more₀ =>
    simp only [WaitPC.notified] at h
    split at h <;> simp_all
  | checking => exact h
  | idle | arming | connect => simp [WaitPC.notified] at h

theorem pc_clear (t : τ) : (s.clear m g).pc t =
    if s.has m g then (s.pc t).notified m else s.pc t := by
  unfold clear
  split
  · cases m <;> rfl
  · rfl

theorem Present.clear (hp : s.Present) (m' : VoiceMap) (g' : Nat) : (s.clear m' g').Present := by
  intro t m g more h
  rw [pc_clear] at h
  rw [has_clear]
  split at h
  · obtain ⟨h, hne⟩ := notified_eq_asleep h
    rw [if_neg fun he => hne he.1]
    exact hp t m g more h
  · rename_i hno
    have hhas := hp t m g more h
    rw [if_neg]
    · exact hhas
    · rintro ⟨rfl, rfl⟩
      exact hno hhas

theorem waitsFor_clear {t : τ} (h : (s.clear m' g').WaitsFor t m g) : s.WaitsFor t m g := by
  obtain ⟨more, h⟩ := h
  rw [pc_clear] at h
  split at h
  · exact ⟨more, notified_waits h⟩
  · exact ⟨more, h⟩

/-- What runs from `pending` is a clear of one entry. -/
theorem fire_eq (rest : List Pending) (p : Pending) :
    ∃ pending m g, s.fire rest p = { s with pending }.clear m g := by
  cases p with
  | timer fn g => cases fn <;> exact ⟨_, _, g, rfl⟩
  | half g => exact ⟨_, _, g, rfl⟩

variable [DecidableEq τ] {t : τ} {p : WaitPC} {a : Action τ}

@[simp] theorem has_goto : (s.goto t p).has m g = s.has m g := by
  cases m <;> rfl

theorem Timed.goto (h : s.Timed m g) : (s.goto t p).Timed m g := h

theorem Present.goto (hp : s.Present)
    (h : ∀ m g more, p = .asleep m g more → s.has m g = true) : (s.goto t p).Present := by
  intro u m g more hu
  rw [has_goto]
  by_cases hut : u = t
  · subst hut
    exact h m g more (by simpa [VoiceWaits.goto] using hu)
  · exact hp u m g more (by simpa [VoiceWaits.goto, hut] using hu)

/-- A thread that is moved waits where it is moved to. -/
theorem waitsFor_goto {u : τ} (h : (s.goto t p).WaitsFor u m g) :
    s.WaitsFor u m g ∨ u = t ∧ ∃ more, p = .checking m g more ∨ p = .asleep m g more := by
  obtain ⟨more, h⟩ := h
  by_cases hut : u = t
  · subst hut
    exact .inr ⟨rfl, more, by simpa [VoiceWaits.goto] using h⟩
  · exact .inl ⟨more, by simpa [VoiceWaits.goto, hut] using h⟩

/-- **What a step does.** A thread that is moved to a wait was in it before, or arms its timer. -/
inductive Effect (s : VoiceWaits τ) : Action τ → VoiceWaits τ → Prop
  | setConnecting (g channelId : Nat) :
      Effect s (.setConnecting g channelId) (s.setConnecting g channelId)
  | setDisconnecting (g channelId : Nat) (hasVoice : Bool) :
      Effect s (.setDisconnecting g channelId hasVoice) (s.setDisconnecting g channelId hasVoice)
  | setWaitingVcReady (g : Nat) (second : String) (ready : Bool) :
      Effect s (.setWaitingVcReady g second ready) (s.setWaitingVcReady g second ready)
  | clear {a : Action τ} (m : VoiceMap) (g : Nat) : Effect s a (s.clear m g)
  | stay {a : Action τ} : Effect s a s
  | move {a : Action τ} {t : τ} {p : WaitPC}
      (hw : ∀ m g more, p = .checking m g more ∨ p = .asleep m g more → s.WaitsFor t m g)
      (ha : ∀ m g more, p = .asleep m g more → s.has m g = true) : Effect s a (s.goto t p)
  | arm {a : Action τ} {t : τ} {m : VoiceMap} {g : Nat} {p : WaitPC} (connects : List (Nat × Nat))
      (hp : ∃ more, p = .checking m g more ∨ p = .asleep m g more ∧ s.has m g = true) :
      Effect s a ((({ s with connects } : VoiceWaits τ).runOnce m.timeoutFn g).goto t p)
  | fire {i : Nat} {p : Pending} (hp : s.pending[i]? = some p) :
      Effect s (.fire i) (s.fire (s.pending.eraseIdx i) p)

theorem effect_waitFor (t : τ) (m : VoiceMap) (g : Nat) : Effect s a (s.waitFor t m g) := by
  unfold waitFor
  split
  · exact .move (by simp) (by simp)
  · exact .stay

/-- **A thread's own step.** -/
inductive Goes (s : VoiceWaits τ) (t : τ) : VoiceWaits τ → Prop
  | arm {m : VoiceMap} {g : Nat} (h : s.pc t = .arming m g) :
      Goes s t ((s.runOnce m.timeoutFn g).goto t (.checking m g false))
  | sleep {m : VoiceMap} {g : Nat} {more : Bool} (h : s.pc t = .checking m g more)
      (hm : s.has m g = true) : Goes s t (s.goto t (.asleep m g more))
  | pass {m : VoiceMap} {g : Nat} {more : Bool} (h : s.pc t = .checking m g more) :
      Goes s t (s.goto t (afterWait g more))
  | skip {g : Nat} (h : s.pc t = .connect g) : Goes s t (s.goto t .idle)
  | connect {g channelId : Nat} (h : s.pc t = .connect g) (hc : s.connecting g = some channelId) :
      Goes s t ((({ s with connects := s.connects ++ [(g, channelId)] } : VoiceWaits τ).runOnce
        .clearConnecting g).goto t (.asleep .connecting g false))

theorem go_cases {client : Bool} (h : s.step (.go t client) = some s') : s.Goes t s' := by
  simp only [step] at h
  split at h
  · cases h
    exact .arm ‹_›
  · cases h
    unfold check
    split
    · exact .sleep ‹_› ‹_›
    · exact .pass ‹_›
  · cases h
    unfold connectVoice
    split
    · exact .skip ‹_›
    · cases client with
      | true => exact .connect ‹_› ‹_›
      | false => exact .skip ‹_›
  · cases h
  · cases h

theorem Goes.effect (h : s.Goes t s') : Effect s a s' := by
  cases h with
  | arm hpc => exact .arm s.connects ⟨false, .inl rfl⟩
  | @sleep m g more hpc hm =>
    refine .move (fun m' g' more' hp => ?_) fun m' g' more' hp => ?_
    · obtain ⟨rfl, rfl, rfl⟩ : m = m' ∧ g = g' ∧ more = more' := by simpa using hp
      exact ⟨more, .inl hpc⟩
    · cases hp
      exact hm
  | @pass m g more hpc => cases more <;> exact .move (by simp [afterWait]) (by simp [afterWait])
  | skip hpc => exact .move (by simp) (by simp)
  | @connect g channelId hpc hc =>
    exact .arm (m := .connecting) (g := g) _ ⟨false, .inr ⟨rfl, by simp [has, hc]⟩⟩

theorem step_effect (h : s.step a = some s') : Effect s a s' := by
  cases a with
  | setConnecting g channelId =>
    cases h
    exact .setConnecting g channelId
  | setDisconnecting g channelId hasVoice =>
    cases h
    exact .setDisconnecting g channelId hasVoice
  | setWaitingVcReady g second ready =>
    cases h
    exact .setWaitingVcReady g second ready
  | clear m g =>
    cases h
    exact .clear m g
  | reconnect t g =>
    obtain ⟨-, h⟩ := Option.ite_none_right_eq_some.1 h
    cases h
    unfold reconnect
    split
    · rename_i hhas
      exact .arm (m := .disconnecting) s.connects ⟨true, .inr ⟨rfl, hhas⟩⟩
    · exact .move (by simp) (by simp)
  | waitForVcReady t g =>
    obtain ⟨-, h⟩ := Option.ite_none_right_eq_some.1 h
    cases h
    exact effect_waitFor t _ g
  | waitForDisconnecting t g =>
    obtain ⟨-, h⟩ := Option.ite_none_right_eq_some.1 h
    cases h
    exact effect_waitFor t _ g
  | go t client => exact (go_cases h).effect
  | wake t =>
    simp only [step] at h
    split at h
    · rename_i m g more hpc
      cases h
      refine .move (fun m' g' more' hp => ?_) (by simp)
      obtain ⟨rfl, rfl, rfl⟩ : m = m' ∧ g = g' ∧ more = more' := by simpa using hp
      exact ⟨more, .inr hpc⟩
    · cases h
  | fire i =>
    obtain ⟨p, hp, rfl⟩ := Option.map_eq_some_iff.1 h
    exact .fire hp

/-! ## What every step keeps -/

/-- Once something is pending for an entry, it is until the entry is gone. -/
theorem Timed.step (ht : s.Timed m g) (h : Effect s a s') (hhas : s'.has m g = true) :
    s'.Timed m g := by
  cases h with
  | setConnecting g' channelId => exact ht
  | setDisconnecting g' channelId hasVoice =>
    unfold setDisconnecting
    split <;> exact ht
  | setWaitingVcReady g' second ready =>
    unfold setWaitingVcReady
    split
    · exact ht
    · exact Timed.runOnce (s := { s with waitingVcReady := _ }) ht _
  | clear m' g' =>
    obtain ⟨q, hq, hc⟩ := ht
    exact ⟨q, by simpa using hq, hc⟩
  | stay => exact ht
  | move => exact ht
  | arm connects hp => exact Timed.runOnce (s := { s with connects }) ht _
  | fire hp => exact ht.fire hp hhas

/-- An entry is an old one, or it is set and something is armed for it, or nothing is. -/
theorem has_step (h : Effect s a s') (hhas : s'.has m g = true) :
    s.has m g = true ∨ s'.Timed m g ∨ Sets m g a := by
  cases h with
  | setConnecting g' channelId => exact (has_setConnecting hhas).imp_right .inr
  | setDisconnecting g' channelId hasVoice => exact (has_setDisconnecting hhas).imp_right .inr
  | setWaitingVcReady g' second ready => exact (has_setWaitingVcReady hhas).imp_right .inl
  | clear m' g' =>
    rw [has_clear] at hhas
    split at hhas
    · cases hhas
    · exact .inl hhas
  | stay => exact .inl hhas
  | move => exact .inl (by simpa using hhas)
  | arm connects hp =>
    rw [has_goto, has_runOnce] at hhas
    exact .inl (by cases m <;> exact hhas)
  | @fire i p hp =>
    obtain ⟨pending, m', g', he⟩ := fire_eq (s := s) (s.pending.eraseIdx i) p
    rw [he, has_clear] at hhas
    split at hhas
    · cases hhas
    · exact .inl (by simpa using hhas)

/-- A thread that waits did so before, or has armed its timer in this step. -/
theorem waitsFor_step (h : Effect s a s') (hw : s'.WaitsFor t m g) :
    s.WaitsFor t m g ∨ s'.Timed m g := by
  cases h with
  | setConnecting g' channelId => exact .inl hw
  | setDisconnecting g' channelId hasVoice =>
    unfold setDisconnecting at hw
    split at hw <;> exact .inl hw
  | setWaitingVcReady g' second ready =>
    unfold setWaitingVcReady at hw
    split at hw <;> exact .inl hw
  | clear m' g' => exact .inl (waitsFor_clear hw)
  | stay => exact .inl hw
  | move hwait ha =>
    rcases waitsFor_goto hw with hw | ⟨rfl, more, hp⟩
    · exact .inl hw
    · exact .inl (hwait m g more hp)
  | @arm _ t' m' g' p connects hp =>
    rcases waitsFor_goto hw with hw | ⟨rfl, more, hp'⟩
    · exact .inl hw
    · obtain ⟨more', hp⟩ := hp
      obtain ⟨rfl, rfl⟩ : m = m' ∧ g = g' := by
        rcases hp with rfl | ⟨rfl, -⟩ <;> rcases hp' with he | he <;> cases he <;> exact ⟨rfl, rfl⟩
      exact .inr (timed_runOnce (clears_timeoutFn m))
  | @fire i p hp =>
    obtain ⟨pending, m', g', he⟩ := fire_eq (s := s) (s.pending.eraseIdx i) p
    rw [he] at hw
    exact .inl (waitsFor_clear (s := { s with pending }) hw)

theorem Present.step (hp : s.Present) (h : Effect s a s') : s'.Present := by
  cases h with
  | setConnecting g' channelId =>
    intro t m g more ht
    have hhas := hp t m g more ht
    by_cases hg : g = g' <;> cases m <;> simp_all [VoiceWaits.setConnecting, has]
  | setDisconnecting g' channelId hasVoice =>
    intro t m g more ht
    unfold VoiceWaits.setDisconnecting at ht ⊢
    split at ht
    · rename_i hv
      have hhas := hp t m g more ht
      rw [if_pos hv]
      by_cases hg : g = g' <;> cases m <;> simp_all [has]
    · rename_i hv
      rw [if_neg hv]
      exact hp t m g more ht
  | setWaitingVcReady g' second ready =>
    intro t m g more ht
    unfold VoiceWaits.setWaitingVcReady at ht ⊢
    split at ht
    · rename_i hv
      rw [if_pos hv]
      exact hp t m g more ht
    · rename_i hv
      have hhas := hp t m g more ht
      rw [if_neg hv, has_runOnce]
      by_cases hg : g = g' <;> cases m <;> simp_all [has]
  | clear m' g' => exact hp.clear m' g'
  | stay => exact hp
  | move hw ha => exact hp.goto ha
  | @arm _ t' m' g' p connects hp' =>
    obtain ⟨more', hp'⟩ := hp'
    refine Present.goto (s := ({ s with connects } : VoiceWaits τ).runOnce m'.timeoutFn g')
      (fun t m g more ht => ?_) fun m g more he => ?_
    · rw [has_runOnce]
      cases m <;> exact hp t _ g more ht
    · rcases hp' with rfl | ⟨rfl, hhas⟩
      · cases he
      · cases he
        rw [has_runOnce]
        cases m' <;> exact hhas
  | @fire i p hp' =>
    obtain ⟨pending, m', g', he⟩ := fire_eq (s := s) (s.pending.eraseIdx i) p
    rw [he]
    refine Present.clear (s := { s with pending }) (fun t m g more ht => ?_) m' g'
    rw [has_pending]
    exact hp t m g more ht

/-- Every set entry of `waiting_vc_ready` has its timer. -/
def VcReadyTimed (s : VoiceWaits τ) : Prop :=
  ∀ g, s.has .waitingVcReady g = true → s.Timed .waitingVcReady g

theorem VcReadyTimed.step (ht : s.VcReadyTimed) (h : Effect s a s') : s'.VcReadyTimed := by
  intro g hhas
  rcases has_step h hhas with hold | htimed | hsets
  · exact (ht g hold).step h hhas
  · exact htimed
  · cases a with
    | setConnecting => cases hsets.1
    | setDisconnecting => cases hsets.1
    | _ => exact hsets.elim

/-- A thread that waits for an entry that is there has something pending that erases it. -/
def Watched (s : VoiceWaits τ) : Prop :=
  ∀ t m g, s.WaitsFor t m g → s.has m g = true → s.Timed m g

theorem Watched.step (hw : s.Watched) (hp : s.Present) (ha : ¬ Overtakes s a)
    (h : Effect s a s') : s'.Watched := by
  intro t m g hwait hhas
  rcases waitsFor_step h hwait with hwait | htimed
  · cases hm : s.has m g with
    | true => exact (hw t m g hwait hm).step h hhas
    | false =>
      rcases has_step h hhas with hold | htimed | hsets
      · simp [hm] at hold
      · exact htimed
      · -- the entry was gone, so that the thread is awake
        obtain ⟨more, hpc | hpc⟩ := hwait
        · cases a with
          | setConnecting g' channelId =>
            obtain ⟨rfl, rfl⟩ := hsets
            exact absurd ⟨hm, t, more, hpc⟩ ha
          | setDisconnecting g' channelId hasVoice =>
            obtain ⟨rfl, rfl, hv⟩ := hsets
            exact absurd ⟨hv, hm, t, more, hpc⟩ ha
          | _ => exact hsets.elim
        · simp [hp t m g more hpc] at hm
  · exact htimed

/-! ## Runs -/

theorem run_present {l : List (Action τ)} (h : run VoiceWaits.step {} l = some s) :
    s.Present ∧ s.VcReadyTimed :=
  run_invariant (I := fun s => s.Present ∧ s.VcReadyTimed)
    (fun _ _ _ hi hs => ⟨hi.1.step (step_effect hs), hi.2.step (step_effect hs)⟩)
    ⟨nofun, nofun⟩ h

theorem run_watched {l : List (Action τ)} {s₀ : VoiceWaits τ} (hp : s₀.Present) (hw : s₀.Watched)
    (hc : Along VoiceWaits.step (fun s a => ¬ Overtakes s a) s₀ l)
    (h : run VoiceWaits.step s₀ l = some s) : s.Present ∧ s.Watched :=
  run_inv (I := fun s => s.Present ∧ s.Watched)
    (fun _ _ _ hi ha hs => ⟨hi.1.step (step_effect hs), hi.2.step hi.1 ha (step_effect hs)⟩)
    ⟨hp, hw⟩ hc h

/-- **Nobody sleeps without somebody to wake it**: in every run the entry of a sleeping thread is
there, and a thread that waits to be ready has something pending that erases its entry; where no
set overtakes a woken thread, so have those that wait for the other maps. -/
theorem voice_waits_watched {l : List (Action τ)} (h : run VoiceWaits.step {} l = some s) :
    (∀ t m g more, s.pc t = .asleep m g more → s.has m g = true) ∧
    (∀ g, s.has .waitingVcReady g = true → s.Timed .waitingVcReady g) ∧
    (Along VoiceWaits.step (fun s a => ¬ Overtakes s a) {} l →
      ∀ t m g more, s.pc t = .asleep m g more → s.Timed m g) := by
  obtain ⟨hp, hv⟩ := run_present h
  refine ⟨hp, hv, fun hc t m g more hpc => ?_⟩
  have hinit : ({} : VoiceWaits τ).Watched := fun t m g hw => by
    obtain ⟨more, hpc | hpc⟩ := hw <;> cases hpc
  exact (run_watched nofun hinit hc h).2 t m g ⟨more, .inr hpc⟩ (hp t m g more hpc)

end

/-! ## The end of the waits -/

/-- The steps that are left to the threads that wait, and to what is pending. -/
def IsOwn {τ : Type*} : Action τ → Prop
  | .go .. | .fire _ => True
  | _ => False

/-- How many timers a thread may still arm, and blocks it has to go through. -/
def blocksLeft : WaitPC → Nat
  | .idle => 0
  | .arming .. => 3
  | .checking _ _ more | .asleep _ _ more => if more then 3 else 0
  | .connect _ => 2

def isChecking : WaitPC → Nat
  | .checking .. => 1
  | _ => 0

/-- `clear_wait_vc_ready` has two blocks. -/
def blocksOf : Pending → Nat
  | .timer fn _ => if fn.clears .waitingVcReady then 2 else 1
  | .half _ => 1

section
variable {τ : Type*} {s s' : VoiceWaits τ} {t : τ} {a : Action τ}

theorem blocks_runOnce (fn : TimeoutFn) (g : Nat) :
    ((s.runOnce fn g).pending.map blocksOf).sum =
      (s.pending.map blocksOf).sum + blocksOf (.timer fn g) := by
  simp [runOnce]

/-- Where nothing is left to do, nobody waits. -/
theorem idle_of_stuck [DecidableEq τ] (hp : s.Present) (hw : s.Watched)
    (h : ∀ a, IsOwn a → s.step a = none) (t : τ) : s.pc t = .idle := by
  have hnone : s.pending = [] := by
    refine List.eq_nil_iff_forall_not_mem.2 fun p hm => ?_
    obtain ⟨i, hi⟩ := List.mem_iff_getElem?.1 hm
    have hfire := h (.fire i) trivial
    simp [step, hi] at hfire
  cases hpc : s.pc t with
  | idle => rfl
  | arming m g => simpa [step, hpc] using h (.go t true) trivial
  | checking m g more => simpa [step, hpc] using h (.go t true) trivial
  | connect g => simpa [step, hpc] using h (.go t true) trivial
  | asleep m g more =>
    obtain ⟨p, hm, -⟩ := hw t m g ⟨more, .inr hpc⟩ (hp t m g more hpc)
    simp [hnone] at hm

variable [Fintype τ]

def blocks (s : VoiceWaits τ) : Nat :=
  weigh blocksLeft s.pc + (s.pending.map blocksOf).sum

def checkers (s : VoiceWaits τ) : Nat := weigh isChecking s.pc

/-- A block may wake all threads, each of which has to look at its entry. -/
def toGo (s : VoiceWaits τ) : Nat := s.blocks * (Fintype.card τ + 1) + s.checkers

theorem checkers_le (s : VoiceWaits τ) : s.checkers ≤ Fintype.card τ := by
  have h : weigh isChecking s.pc ≤ 1 * Fintype.card τ := weigh_le_mul fun p => by
    cases p <;> simp [isChecking]
  rwa [Nat.one_mul] at h

theorem toGo_lt (h : s'.blocks < s.blocks ∨ s'.blocks = s.blocks ∧ s'.checkers < s.checkers) :
    s'.toGo < s.toGo := by
  unfold toGo
  rcases h with h | ⟨h, hc⟩
  · have hle := checkers_le s'
    have hmul := Nat.mul_le_mul_right (Fintype.card τ + 1) (Nat.succ_le_of_lt h)
    rw [Nat.succ_mul] at hmul
    omega
  · rw [h]
    omega

theorem blocksLeft_notified (m : VoiceMap) (p : WaitPC) :
    blocksLeft (p.notified m) = blocksLeft p := by
  cases p with
  | asleep m' g more =>
    simp only [WaitPC.notified]
    split <;> rfl
  | _ => rfl

theorem weigh_clear (m : VoiceMap) (g : Nat) :
    weigh blocksLeft (s.clear m g).pc = weigh blocksLeft s.pc := by
  refine Finset.sum_congr rfl fun t _ => ?_
  rw [pc_clear]
  split
  · exact blocksLeft_notified m _
  · rfl

/-- A block of what is pending is done. -/
theorem blocks_fire {i : Nat} {p : Pending} (hp : s.pending[i]? = some p) :
    (s.fire (s.pending.eraseIdx i) p).blocks + 1 = s.blocks := by
  obtain ⟨hi, rfl⟩ := List.getElem?_eq_some_iff.1 hp
  have hsum := ((List.getElem_cons_eraseIdx_perm hi).map blocksOf).sum_eq
  rw [List.map_cons, List.sum_cons] at hsum
  unfold blocks
  cases hq : s.pending[i] with
  | timer fn g =>
    rw [hq] at hsum
    cases fn <;>
      simp [VoiceWaits.fire, weigh_clear, blocksOf, TimeoutFn.clears] at hsum ⊢ <;> omega
  | half g =>
    rw [hq] at hsum
    simp [VoiceWaits.fire, weigh_clear, blocksOf] at hsum ⊢
    omega

variable [DecidableEq τ]

theorem weigh_goto (w : WaitPC → Nat) {p : WaitPC} (h : s.pc t = p) (q : WaitPC) :
    weigh w (s.goto t q).pc + w p = weigh w s.pc + w q :=
  h ▸ weigh_update t q

theorem step_toGo (ha : IsOwn a) (h : s.step a = some s') : s'.toGo < s.toGo := by
  refine toGo_lt ?_
  cases a with
  | go t client =>
    unfold blocks checkers
    cases go_cases h with
    | @arm m g hpc =>
      have hb := weigh_goto (s := s.runOnce m.timeoutFn g) blocksLeft hpc (.checking m g false)
      have hsum := blocks_runOnce (s := s) m.timeoutFn g
      have htwo : blocksOf (.timer m.timeoutFn g) ≤ 2 := by
        cases m <;> simp [blocksOf, VoiceMap.timeoutFn, TimeoutFn.clears]
      simp only [blocksLeft] at hb
      exact .inl (by simp [goto, runOnce] at hb hsum ⊢; omega)
    | @sleep m g more hpc hm =>
      have hb := weigh_goto blocksLeft hpc (.asleep m g more)
      have hc := weigh_goto isChecking hpc (.asleep m g more)
      exact .inr (by simp [goto, blocksLeft, isChecking] at hb hc ⊢; omega)
    | @pass m g more hpc =>
      have hb := weigh_goto blocksLeft hpc (afterWait g more)
      have hc := weigh_goto isChecking hpc (afterWait g more)
      cases more with
      | true => exact .inl (by simp [goto, blocksLeft, afterWait] at hb ⊢; omega)
      | false => exact .inr (by simp [goto, blocksLeft, afterWait, isChecking] at hb hc ⊢; omega)
    | @skip g hpc =>
      have hb := weigh_goto blocksLeft hpc .idle
      exact .inl (by simp [goto, blocksLeft] at hb ⊢; omega)
    | @connect g channelId hpc hc =>
      have hb := weigh_goto blocksLeft hpc (.asleep .connecting g false)
      have hone : blocksOf (.timer .clearConnecting g) = 1 := rfl
      exact .inl (by simp [goto, runOnce, blocksLeft, hone] at hb ⊢; omega)
  | fire i =>
    obtain ⟨p, hp, rfl⟩ := Option.map_eq_some_iff.1 h
    have hb := blocks_fire hp
    exact .inl (by omega)
  | _ => exact ha.elim

/-- **Every wait ends**: after a run in which no set overtakes a woken thread, the timers and the
threads that wait come to an end by themselves, and then no thread waits. -/
theorem voice_waits_end {l l' : List (Action τ)}
    (hc : Along step (fun s a => ¬ Overtakes s a) {} l) (h : run step {} l = some s)
    (hl : ∀ a ∈ l', IsOwn a) (h' : run step s l' = some s') :
    l'.length ≤ s.toGo ∧ ((∀ a, IsOwn a → s'.step a = none) → ∀ t, s'.pc t = .idle) := by
  refine ⟨run_length_le IsOwn toGo (fun _ _ _ => step_toGo) hl h', fun hstuck t => ?_⟩
  have hinit : ({} : VoiceWaits τ).Watched := fun t m g hw => by
    obtain ⟨more, hpc | hpc⟩ := hw <;> cases hpc
  obtain ⟨hp, hw⟩ := run_watched nofun hinit hc h
  have hown : Along step (fun s a => ¬ Overtakes s a) s l' :=
    along_of_mem s fun a ha s hov => by
      cases a with
      | go | fire => exact hov
      | _ => exact hl _ ha
  obtain ⟨hp', hw'⟩ := run_watched hp hw hown h'
  exact idle_of_stuck hp' hw' hstuck t

end

/-- `reconnect` waits for the guild to be left, and then to be joined; another thread waits with it
for the first. -/
def leaveAndJoin : List (Action (Fin 2)) :=
  [.setDisconnecting 1 5 true, .setConnecting 1 6, .reconnect 0 1, .waitForDisconnecting 1 1,
    .go 1 true, .go 1 true, .fire 0, .go 0 true, .go 0 true]

/-- The other thread looks again, and the timers run. -/
def allLeft : List (Action (Fin 2)) :=
  [.go 1 true, .fire 1, .fire 0, .go 0 true]

theorem leaveAndJoin_calm :
    Along step (fun s a => ¬ Overtakes s a) ({} : VoiceWaits (Fin 2)) leaveAndJoin := by
  decide +kernel

theorem voice_waits_watched_leaveAndJoin :
    ∃ s, run step {} leaveAndJoin = some s ∧ s.pc 0 = .asleep .connecting 1 false ∧
      (∀ t m g more, s.pc t = .asleep m g more → s.has m g = true) ∧
      (∀ g, s.has .waitingVcReady g = true → s.Timed .waitingVcReady g) ∧
      (Along step (fun s a => ¬ Overtakes s a) {} leaveAndJoin →
        ∀ t m g more, s.pc t = .asleep m g more → s.Timed m g) := by
  have h : run step {} leaveAndJoin = some _ := rfl
  exact ⟨_, h, rfl, voice_waits_watched h⟩

theorem voice_waits_end_leaveAndJoin :
    ∃ s s', run step {} leaveAndJoin = some s ∧ run step s allLeft = some s' ∧
      allLeft.length ≤ s.toGo ∧ ((∀ a, IsOwn a → s'.step a = none) → ∀ t, s'.pc t = .idle) := by
  have h : run step {} leaveAndJoin = some _ := rfl
  refine ⟨_, _, h, rfl, ?_⟩
  exact voice_waits_end leaveAndJoin_calm h (by simp [allLeft, IsOwn]) rfl

/-- The guild is to be left again before the woken thread has looked: it sleeps on, and nothing is
pending. -/
theorem overtaken_sleeps :
    ∃ s, run step {} ([.setDisconnecting 1 5 true, .reconnect 0 1, .fire 0,
        .setDisconnecting 1 5 true, .go 0 true] : List (Action (Fin 1))) = some s ∧
      s.pc 0 = .asleep .disconnecting 1 true ∧ s.pending = [] :=
  ⟨_, rfl, rfl, rfl⟩

end VoiceWaits

end Musicat.Player
