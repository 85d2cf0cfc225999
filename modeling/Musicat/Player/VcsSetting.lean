import Mathlib.Logic.Function.Basic

/-!
# The settings of connected voice channels

`_connected_vcs_setting` keeps the channel and the voice state of the voice
channels that the bot is in. The event of a disconnection has no channel, so
that the handler looks for the channel `0` and erases nothing; a move is the
event of the new channel only. An entry stays for good once it is there
(`isSome_handleAll`), and the cache is in step with the voice states of a guild
exactly until the bot leaves or moves (`in_step_iff`).
-/

namespace Musicat.Player

/-! ## Channels -/

/-- `dpp::channel_type`. -/
inductive ChannelType where
  | text
  | dm
  | voice
  | groupDm
  | category
  | announcement
  | announcementThread
  | publicThread
  | privateThread
  | stage
  | directory
  | forum
  | media
  deriving DecidableEq, Repr

/-- What is used of a `dpp::channel`. -/
structure VoiceChannel where
  id : Nat
  type : ChannelType
  deriving DecidableEq, Repr

/-- What is used of a `dpp::voicestate`. -/
structure VoiceState where
  userId : Nat
  guildId : Nat
  channelId : Nat
  deriving DecidableEq, Repr

/-- `is_voice_channel`. -/
def isVoiceChannel (type : ChannelType) : Bool := type = .voice || type = .stage

/-- The channels that `dpp::find_channel` finds: a channel under its own id, and none under `0`. -/
structure ChannelCache where
  find : Nat → Option VoiceChannel
  find_id : ∀ id channel, find id = some channel → channel.id = id
  find_zero : find 0 = none

/-! ## The settings -/

/-- `_connected_vcs_setting`. -/
abbrev VcsSetting := Nat → Option (VoiceChannel × VoiceState)

/-- `vcs_setting_handle_connected`. -/
def vcsSettingHandleConnected (m : VcsSetting) (channel : Option VoiceChannel)
    (state : Option VoiceState) : VcsSetting × Int :=
  match channel, state with
  | some channel, some state =>
    if isVoiceChannel channel.type then
      (Function.update m channel.id (some (channel, state)), 0)
    else (m, -1)
  | _, _ => (m, -1)

/-- `vcs_setting_handle_disconnected`. -/
def vcsSettingHandleDisconnected (m : VcsSetting) (channel : Option VoiceChannel) :
    VcsSetting × Int :=
  match channel with
  | none => (m, -1)
  | some channel =>
    if !isVoiceChannel channel.type then (m, -1)
    else if (m channel.id).isSome then (Function.update m channel.id none, 0)
    else (m, 1)

/-- `vcs_setting_get_cache`. -/
def vcsSettingGetCache (m : VcsSetting) (channelId : Nat) : Option (VoiceChannel × VoiceState) :=
  m channelId

/-- A voice state event of the bot itself, and the channels known when it comes. -/
structure ShaVoiceStateUpdate where
  state : VoiceState
  cache : ChannelCache

namespace ShaVoiceStateUpdate

def channelId (e : ShaVoiceStateUpdate) : Nat := e.state.channelId

/-- Its channel is known, and a voice channel. -/
def found (e : ShaVoiceStateUpdate) : Bool :=
  (e.cache.find e.channelId).any fun channel => isVoiceChannel channel.type

end ShaVoiceStateUpdate

/-- What `handle_sha_voice_state_update` does to the settings. -/
def handleShaVoiceStateUpdate (m : VcsSetting) (e : ShaVoiceStateUpdate) : VcsSetting :=
  if e.channelId = 0 then (vcsSettingHandleDisconnected m (e.cache.find e.channelId)).1
  else (vcsSettingHandleConnected m (e.cache.find e.channelId) (some e.state)).1

def handleAll (m : VcsSetting) (es : List ShaVoiceStateUpdate) : VcsSetting :=
  es.foldl handleShaVoiceStateUpdate m

/-- After `e`, the last one of `es`: the channel that the bot is in has an entry, and no channel
that it has left. -/
structure InStep (m : VcsSetting) (es : List ShaVoiceStateUpdate) (e : ShaVoiceStateUpdate) :
    Prop where
  connected : e.channelId ≠ 0 → (vcsSettingGetCache m e.channelId).isSome = true
  left : ∀ e' ∈ es, e'.channelId ≠ 0 → e'.channelId ≠ e.channelId →
    vcsSettingGetCache m e'.channelId = none

/-- The first channel that the bot joins is known then, and the bot stays in it. -/
def Settled : List ShaVoiceStateUpdate → Prop
  | [] => True
  | e :: es =>
    if e.channelId = 0 then Settled es
    else e.found = true ∧ ∀ e' ∈ es, e'.channelId = e.channelId

/-! ## What an event does -/

section
variable {m : VcsSetting} {e : ShaVoiceStateUpdate} {es : List ShaVoiceStateUpdate} {c : Nat}

/-- **A disconnection erases nothing.** -/
theorem handle_left (h : e.channelId = 0) : handleShaVoiceStateUpdate m e = m := by
  rw [handleShaVoiceStateUpdate, if_pos h, h, e.cache.find_zero, vcsSettingHandleDisconnected]

theorem isSome_handle (h : e.channelId ≠ 0) :
    (handleShaVoiceStateUpdate m e c).isSome = true ↔
      (m c).isSome = true ∨ e.channelId = c ∧ e.found = true := by
  rw [handleShaVoiceStateUpdate, if_neg h, ShaVoiceStateUpdate.found]
  cases hfind : e.cache.find e.channelId with
  | none => simp [vcsSettingHandleConnected]
  | some channel =>
    have hid := e.cache.find_id _ _ hfind
    by_cases hvoice : isVoiceChannel channel.type = true
    · simp only [vcsSettingHandleConnected, hvoice, if_true, hid, Option.any_some, and_true]
      by_cases hc : c = e.channelId
      · subst hc
        simp
      · rw [Function.update_of_ne hc]
        simp [Ne.symm hc]
    · simp [vcsSettingHandleConnected, hvoice]

/-- **An entry is there exactly when an event has found its channel.** -/
theorem isSome_handleAll : (handleAll m es c).isSome = true ↔
    (m c).isSome = true ∨ ∃ e ∈ es, e.channelId ≠ 0 ∧ e.channelId = c ∧ e.found = true := by
  induction es generalizing m with
  | nil => simp [handleAll]
  | cons e es ih =>
    have hcons : handleAll m (e :: es) = handleAll (handleShaVoiceStateUpdate m e) es := rfl
    rw [hcons, ih]
    by_cases he : e.channelId = 0
    · rw [handle_left he]
      simp [he]
    · rw [isSome_handle he]
      simp [he, or_assoc]

/-! ## Every sequence of events -/

theorem handleAll_cons : handleAll m (e :: es) = handleAll (handleShaVoiceStateUpdate m e) es := rfl

/-- Until the bot joins a channel there is nothing to keep in step. -/
theorem in_step_cons_left (he : e.channelId = 0) :
    (∀ pre f, pre ++ [f] <+: e :: es → InStep (handleAll m (pre ++ [f])) (pre ++ [f]) f) ↔
      ∀ pre f, pre ++ [f] <+: es → InStep (handleAll m (pre ++ [f])) (pre ++ [f]) f := by
  have hskip (pre : List ShaVoiceStateUpdate) (f : ShaVoiceStateUpdate) :
      InStep (handleAll m (e :: pre ++ [f])) (e :: pre ++ [f]) f ↔
        InStep (handleAll m (pre ++ [f])) (pre ++ [f]) f := by
    rw [List.cons_append, handleAll_cons, handle_left he]
    refine ⟨fun h => ⟨h.connected, fun e' he' => h.left e' (List.mem_cons_of_mem _ he')⟩,
      fun h => ⟨h.connected, fun e' he' hne => ?_⟩⟩
    rcases List.mem_cons.1 he' with rfl | he'
    · exact absurd he hne
    · exact h.left e' he' hne
  constructor
  · intro h pre f hpre
    exact (hskip pre f).1 (h (e :: pre) f (List.cons_prefix_cons.2 ⟨rfl, hpre⟩))
  · intro h pre f hpre
    cases pre with
    | nil =>
      obtain ⟨rfl, -⟩ := List.cons_prefix_cons.1 hpre
      refine ⟨fun hne => absurd he hne, fun e' he' hne => ?_⟩
      rw [List.mem_singleton.1 he'] at hne
      exact absurd he hne
    | cons e' pre =>
      obtain ⟨rfl, hrest⟩ := List.cons_prefix_cons.1 hpre
      exact (hskip pre f).2 (h pre f hrest)

/-- After the bot has joined a channel, the cache is in step as long as it stays there. -/
theorem in_step_cons_joined (he : e.channelId ≠ 0) (hm : m e.channelId = none) :
    (∀ pre f, pre ++ [f] <+: e :: es → InStep (handleAll m (pre ++ [f])) (pre ++ [f]) f) ↔
      e.found = true ∧ ∀ e' ∈ es, e'.channelId = e.channelId := by
  have hentry (hfound : e.found = true) (rest : List ShaVoiceStateUpdate) :
      (handleAll m (e :: rest) e.channelId).isSome = true :=
    isSome_handleAll.2 (.inr ⟨e, List.mem_cons_self, he, rfl, hfound⟩)
  constructor
  · intro h
    have hfound : e.found = true := by
      have hfirst := (h [] e (List.cons_prefix_cons.2 ⟨rfl, List.nil_prefix⟩)).connected he
      rcases isSome_handleAll.1 hfirst with hm' | ⟨e', he', -, -, hfound⟩
      · rw [hm] at hm'
        cases hm'
      · exact List.mem_singleton.1 he' ▸ hfound
    refine ⟨hfound, fun e' he' => ?_⟩
    obtain ⟨a, b, rfl⟩ := List.append_of_mem he'
    by_contra hne
    have hpre : (e :: a) ++ [e'] <+: e :: (a ++ e' :: b) :=
      List.cons_prefix_cons.2 ⟨rfl, ⟨b, by simp⟩⟩
    have hnone := (h (e :: a) e' hpre).left e List.mem_cons_self he (Ne.symm hne)
    have hsome := hentry hfound (a ++ [e'])
    rw [vcsSettingGetCache, List.cons_append] at hnone
    rw [hnone] at hsome
    cases hsome
  · rintro ⟨hfound, hsame⟩ pre f hpre
    have hchannel : ∀ e' ∈ pre ++ [f], e'.channelId = e.channelId := by
      intro e' he'
      rcases List.mem_cons.1 (hpre.subset he') with rfl | he'
      · rfl
      · exact hsame e' he'
    have hf := hchannel f (List.mem_append_right _ (List.mem_singleton_self f))
    refine ⟨fun _ => ?_, fun e' he' _ hne => absurd ((hchannel e' he').trans hf.symm) hne⟩
    rw [hf, vcsSettingGetCache]
    cases pre with
    | nil =>
      obtain ⟨rfl, -⟩ := List.cons_prefix_cons.1 hpre
      exact hentry hfound []
    | cons e' pre =>
      obtain ⟨rfl, -⟩ := List.cons_prefix_cons.1 hpre
      exact hentry hfound (pre ++ [f])

/-- **The cache is in step exactly when the bot joins one channel, which is known, and stays in
it.** -/
theorem in_step_iff (hm : ∀ e ∈ es, m e.channelId = none) :
    (∀ pre e, pre ++ [e] <+: es → InStep (handleAll m (pre ++ [e])) (pre ++ [e]) e) ↔
      Settled es := by
  induction es with
  | nil => simp [Settled]
  | cons e es ih =>
    rw [List.forall_mem_cons] at hm
    rw [Settled]
    split
    · rename_i he
      exact (in_step_cons_left he).trans (ih hm.2)
    · rename_i he
      exact in_step_cons_joined he hm.1

end

/-! ## A channel joined and left -/

/-- The voice channel `5`, which is all that is known. -/
def lounge : ChannelCache where
  find id := if id = 5 then some ⟨5, .voice⟩ else none
  find_id id channel h := by
    split at h
    · rename_i hid
      cases h
      exact hid.symm
    · cases h
  find_zero := rfl

def joined : ShaVoiceStateUpdate := ⟨⟨1, 2, 5⟩, lounge⟩

def disconnected : ShaVoiceStateUpdate := ⟨⟨1, 2, 0⟩, lounge⟩

theorem in_step_iff_joined :
    (∀ pre e, pre ++ [e] <+: [disconnected, joined, joined] →
      InStep (handleAll (fun _ => none) (pre ++ [e])) (pre ++ [e]) e) ↔
        Settled [disconnected, joined, joined] :=
  in_step_iff fun _ _ => rfl

/-- The bot leaves, and the entry stays. -/
theorem left_entry_stays : ¬ ∀ (m : VcsSetting) (es : List ShaVoiceStateUpdate),
    (∀ e ∈ es, m e.channelId = none) → ∀ pre e, pre ++ [e] <+: es →
      InStep (handleAll m (pre ++ [e])) (pre ++ [e]) e := by
  intro h
  have hstep := h (fun _ => none) [joined, disconnected] (fun _ _ => rfl) [joined] disconnected
    List.prefix_rfl
  have hnone := hstep.left joined List.mem_cons_self (by decide) (by decide)
  cases hnone

end Musicat.Player
