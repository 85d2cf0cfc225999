import Musicat.Player.ResumeTimer

/-!
# Users who join a paused player

A join makes a resume timer only when there is none like it, whoever it is for,
and `check_resume_timers` drops a due timer whose user has left. So a user who
joined and stays may wait for nothing; the player is unpaused in time when no
timer is dropped while such a user is there (`resumes_for_joined`).
-/

namespace Musicat.Player

open Lib

namespace ResumeState

/-! ## Users who join -/

/-- The player of the guild has been paused in channel `c`, and not by a command. -/
structure AutoPaused (s : ResumeState) (g c : Nat) : Prop where
  running : s.running = true
  player : s.players g = true
  voice : s.voice g = some ⟨c, true⟩
  channel : c ≠ 0
  unmarked : s.isManuallyPaused g = false

end ResumeState

/-- A user joins or leaves a channel of the guild while it plays, time passes, or the timers are
checked. -/
def ResumeAction.JoinsOrLeaves (g : Nat) : ResumeAction → Prop
  | .voiceState e => e.guildId = g ∧ e.terminating = false ∧ e.playingAudio = true
  | .tick _ | .check => True
  | _ => False

instance (g : Nat) (a : ResumeAction) : Decidable (a.JoinsOrLeaves g) :=
  match a with
  | .voiceState _ => inferInstanceAs (Decidable (_ ∧ _))
  | .tick _ | .check => isTrue trivial
  | .cached .. | .muted _ | .unmuted .. | .connect .. | .player .. | .pause _ | .stop _
  | .unpause _ | .trackMarker _ | .exit => isFalse id

/-- The users who joined channel `c` of guild `g` and are still there, when the last one joined, and
whether the player has been seen unpaused. -/
structure JoinRecord where
  joined : List Nat := []
  last : Int := 0
  unpaused : Bool := false

def noteJoin (g c : Nat) (s : ResumeState) (a : ResumeAction) (s' : ResumeState)
    (r : JoinRecord) : JoinRecord :=
  let unpaused := r.unpaused || (s'.voice g).any fun v => !v.paused
  match a with
  | .voiceState e =>
    if e.guildId ≠ g then { r with unpaused }
    else if e.channelId = some c then ⟨e.userId :: r.joined, s.now, unpaused⟩
    else { r with joined := r.joined.filter (· ≠ e.userId), unpaused }
  | _ => { r with unpaused }

/-- When `check_resume_timers` drops a timer of the channel because its user has left, no user who
joined is there. -/
def DropsForNobody (g c : Nat) (p : ResumeState × JoinRecord) : ResumeAction → Prop
  | .check => ∀ t ∈ p.1.rtV, t.svid = g → t.svcid = c → p.1.due t → p.1.stays t = false →
      p.2.joined = []
  | _ => True

instance (g c : Nat) (p : ResumeState × JoinRecord) (a : ResumeAction) :
    Decidable (DropsForNobody g c p a) :=
  match a with
  | .check => inferInstanceAs (Decidable (∀ t ∈ p.1.rtV, _))
  | .tick _ | .voiceState _ | .cached .. | .muted _ | .unmuted .. | .connect .. | .player ..
  | .pause _ | .stop _ | .unpause _ | .trackMarker _ | .exit => isTrue trivial

namespace ResumeState

variable {s s' : ResumeState} {g c : Nat}

/-! ## The loop of `check_resume_timers` -/

/-- What the loop does not touch. -/
theorem checkLoop_frame (l : List ResumeTimer) : ∀ s : ResumeState,
    (checkLoop l s).2.now = s.now ∧ (checkLoop l s).2.running = s.running ∧
      (checkLoop l s).2.players = s.players ∧ (checkLoop l s).2.voiceOf = s.voiceOf := by
  induction l with
  | nil => exact fun _ => ⟨rfl, rfl, rfl, rfl⟩
  | cons t l ih =>
    intro s
    cases checkLoop_turn t l s with
    | keeps _ _ h | drops _ _ h | resumes _ _ h =>
      rw [h]
      exact ih _

/-- The loop keeps the timers that are not due, and no other. -/
theorem mem_checkLoop {l : List ResumeTimer} {t : ResumeTimer} :
    ∀ {s : ResumeState}, s.running = true →
      (t ∈ (checkLoop l s).1 ↔ t ∈ l ∧ s.due t = false) := by
  induction l with
  | nil => simp [checkLoop]
  | cons t₀ l ih =>
    intro s hr
    -- a timer that is due goes, and the rest of the loop reads the same clock
    have hgo : s.due t₀ = true → ∀ {u : ResumeState}, u.running = true → u.now = s.now →
        (t ∈ (checkLoop l u).1 ↔ t ∈ t₀ :: l ∧ s.due t = false) := by
      intro hd u hu hnow
      rw [ih hu, show u.due t = s.due t by simp only [due, hnow], List.mem_cons]
      refine ⟨fun h => ⟨.inr h.1, h.2⟩, fun h => ⟨h.1.resolve_left ?_, h.2⟩⟩
      rintro rfl
      simp [h.2] at hd
    cases checkLoop_turn t₀ l s with
    | keeps _ hd h =>
      rw [h, List.mem_cons, List.mem_cons, ih hr]
      refine ⟨fun h => ?_, fun h => h.1.imp_right fun hm => ⟨hm, h.2⟩⟩
      rcases h with rfl | h
      · exact ⟨.inl rfl, hd⟩
      · exact ⟨.inr h.1, h.2⟩
    | drops hd _ h =>
      rw [h]
      exact hgo (hd hr) hr rfl
    | resumes _ hd h =>
      rw [h]
      exact hgo hd hr rfl

/-- The voice client of a guild, unpaused. -/
def unpaused (v : Option VoiceClient) : Option VoiceClient :=
  v.map fun v => { v with paused := false }

theorem unpaused_unpaused (v : Option VoiceClient) : unpaused (unpaused v) = unpaused v := by
  cases v <;> rfl

theorem unpause_voice (s : ResumeState) (g' : Nat) :
    (s.unpause g').voice g = if g = g' then unpaused (s.voice g) else s.voice g := by
  unfold unpause pauseAudio
  by_cases h : g = g'
  · subst h
    simp [unpaused, clearManuallyPaused]
  · simp [h, clearManuallyPaused]

/-- The loop leaves the voice client of a guild or unpauses it, and a timer that is due with its
user in the channel makes it unpause. -/
theorem checkLoop_voice {l : List ResumeTimer} :
    ∀ {s : ResumeState}, s.running = true → s.players g = true →
      ((checkLoop l s).2.voice g = s.voice g ∨
        (checkLoop l s).2.voice g = unpaused (s.voice g)) ∧
      ∀ t ∈ l, t.svid = g → s.due t = true → s.stays t = true →
        (checkLoop l s).2.voice g = unpaused (s.voice g) := by
  induction l with
  | nil => exact fun _ _ => ⟨.inl rfl, nofun⟩
  | cons t₀ l ih =>
    intro s hr hp
    cases checkLoop_turn t₀ l s with
    | keeps _ hd h =>
      obtain ⟨hv, hall⟩ := ih hr hp
      rw [h]
      refine ⟨hv, fun t ht hg hdue hs => ?_⟩
      rcases List.mem_cons.1 ht with rfl | ht
      · simp [hdue] at hd
      · exact hall t ht hg hdue hs
    | drops _ hs₀ h =>
      obtain ⟨hv, hall⟩ := ih hr hp
      rw [h]
      refine ⟨hv, fun t ht hg hdue hs => ?_⟩
      rcases List.mem_cons.1 ht with rfl | ht
      · have hno := hs₀ hr hs
        rw [hg, hp] at hno
        cases hno
      · exact hall t ht hg hdue hs
    | resumes _ _ h =>
      obtain ⟨hv, hall⟩ := ih (s := { s.unpause t₀.svid with
        resumed := s.resumed ++ [⟨t₀.svid, s.isManuallyPaused t₀.svid⟩] }) hr hp
      dsimp only at hv hall
      rw [unpause_voice] at hv hall
      rw [h]
      by_cases hg₀ : g = t₀.svid
      · rw [if_pos hg₀] at hv hall
        rw [unpaused_unpaused, or_self] at hv
        exact ⟨.inr hv, fun _ _ _ _ _ => hv⟩
      · rw [if_neg hg₀] at hv hall
        refine ⟨hv, fun t ht hg hdue hs => ?_⟩
        rcases List.mem_cons.1 ht with rfl | ht
        · exact absurd hg.symm hg₀
        · exact hall t ht hg hdue hs

/-! ## Clocks of the timers -/

/-- No timer is from the future, and none waits longer than the delay of a join. -/
def ClockInv (s : ResumeState) : Prop := ∀ t ∈ s.rtV, t.ts ≤ s.now ∧ t.minDelay ≤ resumeDelay

/-- The invariant reads the clock and the timers. -/
theorem ClockInv.congr (hi : s.ClockInv) (hn : s'.now = s.now) (ht : s'.rtV = s.rtV) :
    s'.ClockInv := by
  intro t htm
  rw [hn]
  exact hi t (ht ▸ htm)

theorem ClockInv.createResumeTimer (hi : s.ClockInv) (uid channel guildId : Nat) {delay : Int}
    (hd : delay ≤ resumeDelay) : (s.createResumeTimer uid channel guildId delay).2.ClockInv := by
  rcases createResumeTimer_cases s uid channel guildId delay with h | ⟨vc, -, -, h⟩
  · rw [h]
    exact hi
  · rw [h]
    intro t ht
    rcases List.mem_append.1 ht with ht | ht
    · exact hi t ht
    · rw [List.mem_singleton.1 ht]
      exact ⟨Int.le_refl _, hd⟩

theorem ClockInv.setAutopause (hi : s.ClockInv) (guildId : Nat) (listening : Bool) :
    (s.setAutopause guildId listening).2.ClockInv := by
  rcases setAutopause_cases s guildId listening with h | h
  · rw [h]
    exact hi
  · rw [h]
    exact hi.congr rfl rfl

theorem ClockInv.handle (hi : s.ClockInv) (e : VoiceStateEvent) :
    (handleNonShaVoiceStateUpdate e s).ClockInv := by
  rcases handle_cases e s with h | ⟨listening, h⟩ | ⟨channel, h⟩
  · rw [h]
    exact hi
  · rw [h]
    exact hi.setAutopause _ _
  · rw [h]
    exact hi.createResumeTimer _ _ _ (Int.le_refl _)

theorem ClockInv.step {a : ResumeAction} (hi : s.ClockInv) (h : resumeStep s a = some s') :
    s'.ClockInv := by
  cases a with
  | tick d =>
    cases h
    intro t ht
    obtain ⟨hts, hd⟩ := hi t ht
    exact ⟨by show t.ts ≤ s.now + d; omega, hd⟩
  | cached | connect | player | exit | trackMarker | unpause =>
    cases h
    exact hi.congr rfl rfl
  | voiceState e =>
    cases h
    have hi : (s.cacheVoice e.guildId e.userId e.channelId).ClockInv := hi.congr rfl rfl
    exact hi.handle e
  | muted guildId =>
    cases h
    exact hi.setAutopause guildId false
  | unmuted shaId channelId guildId =>
    cases h
    exact hi.createResumeTimer shaId channelId guildId (by decide)
  | pause guildId =>
    cases h
    unfold ResumeState.pause setManuallyPaused
    split
    · dsimp only
      split
      · exact hi.congr rfl rfl
      · exact hi.congr rfl rfl
    · exact hi
  | stop guildId =>
    cases h
    unfold ResumeState.stop setManuallyPaused
    split
    · split
      · exact hi.congr rfl rfl
      · exact hi.congr rfl rfl
    · exact hi
  | check =>
    cases h
    intro t ht
    show t.ts ≤ (checkLoop s.rtV s).2.now ∧ _
    rw [(checkLoop_frame s.rtV s).1]
    exact hi t (checkLoop_subset s.rtV s ht)

theorem clockInv_run {l : List ResumeAction} {now : Int} {players : Nat → Bool}
    {voice : Nat → Option VoiceClient} {voiceOf : Nat → Nat → Option Nat}
    (h : run resumeStep (start now players voice voiceOf) l = some s) : s.ClockInv :=
  run_invariant (I := ClockInv) (fun _ _ _ hi hs => ClockInv.step hi hs) (fun _ ht => by cases ht) h

/-! ## No lost resume -/

/-- The player is paused, the users of the record are in the channel, and there is a timer of the
channel since the last of them joined, if there is one. -/
structure Waiting (g c : Nat) (s : ResumeState) (r : JoinRecord) : Prop where
  auto : s.AutoPaused g c
  clock : s.ClockInv
  here : ∀ u ∈ r.joined, s.voiceOf g u = some c
  timer : r.joined ≠ [] → ∃ t ∈ s.rtV, t.svid = g ∧ t.svcid = c ∧ t.ts ≤ r.last

/-- A join makes a timer of the channel, or there is one. -/
theorem exists_timer_of_create {vc : VoiceClient} (hv : s.voice g = some vc)
    (hm : s.isManuallyPaused g = false) (hc : s.ClockInv) (uid channel : Nat) (delay : Int) :
    ∃ t ∈ (s.createResumeTimer uid channel g delay).2.rtV,
      t.svid = g ∧ t.svcid = channel ∧ t.ts ≤ s.now := by
  simp only [createResumeTimer, hv, hm, Bool.false_eq_true, if_false]
  split
  · rename_i hdup
    obtain ⟨t, ht, hk⟩ := List.any_eq_true.1 hdup
    simp only [Bool.and_eq_true, decide_eq_true_eq] at hk
    exact ⟨t, ht, hk.1.1, hk.1.2, (hc t ht).1⟩
  · exact ⟨_, List.mem_append_right _ (List.mem_singleton_self _), rfl, rfl, Int.le_refl _⟩

/-- What the handler does for a join or a leave while the player is paused. -/
theorem handle_autoPaused (h : s.AutoPaused g c) {e : VoiceStateEvent} (hg : e.guildId = g)
    (ht : e.terminating = false) (hp : e.playingAudio = true) :
    handleNonShaVoiceStateUpdate e s =
      if e.channelId = some c then (s.createResumeTimer e.userId c g resumeDelay).2 else s := by
  unfold handleNonShaVoiceStateUpdate
  rw [hg, h.voice]
  simp only [ht, hp, h.channel, h.unmarked]
  by_cases hch : e.channelId = some c <;> simp [hch]

theorem createResumeTimer_frame (s : ResumeState) (uid channel guildId : Nat) (delay : Int) :
    ∃ l, (s.createResumeTimer uid channel guildId delay).2 = { s with rtV := l } := by
  rcases createResumeTimer_cases s uid channel guildId delay with h | ⟨vc, -, -, h⟩
  · exact ⟨s.rtV, h⟩
  · exact ⟨_, h⟩

theorem Waiting.voiceState {r : JoinRecord} (hi : Waiting g c s r) {e : VoiceStateEvent}
    (he : (ResumeAction.voiceState e).JoinsOrLeaves g)
    (h : resumeStep s (.voiceState e) = some s') :
    Waiting g c s' (noteJoin g c s (.voiceState e) s' r) := by
  obtain ⟨hg, ht, hp⟩ := he
  cases h
  have hauto : (s.cacheVoice e.guildId e.userId e.channelId).AutoPaused g c :=
    ⟨hi.auto.running, hi.auto.player, hi.auto.voice, hi.auto.channel, hi.auto.unmarked⟩
  have hvoice : ∀ u, (s.cacheVoice e.guildId e.userId e.channelId).voiceOf g u =
      if u = e.userId then e.channelId else s.voiceOf g u := by
    intro u
    simp only [cacheVoice, hg, Function.update_self, Function.update_apply]
  rw [handle_autoPaused hauto hg ht hp]
  by_cases hch : e.channelId = some c
  · rw [if_pos hch]
    have htimer := exists_timer_of_create hauto.voice hauto.unmarked (hi.clock.congr rfl rfl)
      e.userId c resumeDelay
    have hcached : (s.cacheVoice e.guildId e.userId e.channelId).ClockInv := hi.clock.congr rfl rfl
    have hclock := hcached.createResumeTimer e.userId c g (Int.le_refl resumeDelay)
    obtain ⟨l, hl⟩ := createResumeTimer_frame (s.cacheVoice e.guildId e.userId e.channelId)
      e.userId c g resumeDelay
    rw [hl] at htimer hclock ⊢
    refine ⟨⟨hi.auto.running, hi.auto.player, hi.auto.voice, hi.auto.channel, hi.auto.unmarked⟩,
      hclock, fun u hu => ?_, fun _ => ?_⟩
    · simp only [noteJoin, hg, hch, ne_eq, not_true_eq_false, if_false, if_true,
        List.mem_cons] at hu
      show (s.cacheVoice e.guildId e.userId e.channelId).voiceOf g u = some c
      rw [hvoice]
      by_cases hue : u = e.userId
      · rw [if_pos hue, hch]
      · rw [if_neg hue]
        exact hi.here u (hu.resolve_left hue)
    · simp only [noteJoin, hg, hch, ne_eq, not_true_eq_false, if_false, if_true]
      exact htimer
  · rw [if_neg hch]
    refine ⟨hauto, hi.clock.congr rfl rfl, fun u hu => ?_, fun hne => ?_⟩
    · simp only [noteJoin, hg, hch, ne_eq, not_true_eq_false, if_false, List.mem_filter,
        decide_eq_true_eq] at hu
      rw [hvoice, if_neg hu.2]
      exact hi.here u hu.1
    · simp only [noteJoin, hg, hch, ne_eq, not_true_eq_false, if_false] at hne ⊢
      exact hi.timer fun hnil => hne (by rw [hnil]; rfl)

theorem any_unpaused {v : Option VoiceClient} (h : v.isSome) :
    (unpaused v).any (fun v => !v.paused) = true := by
  cases v with
  | none => cases h
  | some v => rfl

/-- `check_resume_timers` unpauses the player, or keeps a timer of the channel. -/
theorem Waiting.check {r : JoinRecord} (hi : Waiting g c s r)
    (hd : DropsForNobody g c (s, r) .check) (h : resumeStep s .check = some s') :
    (noteJoin g c s .check s' r).unpaused ∨ Waiting g c s' (noteJoin g c s .check s' r) := by
  cases h
  obtain ⟨hnow, hrun, hplayers, hof⟩ := checkLoop_frame s.rtV s
  obtain ⟨hv, hall⟩ := checkLoop_voice (l := s.rtV) hi.auto.running hi.auto.player
  have hunpaused : s.checkResumeTimers.voice g = unpaused (s.voice g) →
      (noteJoin g c s .check s.checkResumeTimers r).unpaused := by
    intro hu
    simp only [noteJoin, Bool.or_eq_true]
    right
    rw [hu]
    exact any_unpaused (by rw [hi.auto.voice]; rfl)
  rcases hv with hv | hv
  · by_cases hu : unpaused (s.voice g) = s.voice g
    · exact .inl (hunpaused (hv.trans hu.symm))
    · refine .inr ⟨⟨hrun.trans hi.auto.running, ?_, hv.trans hi.auto.voice, hi.auto.channel, ?_⟩,
        ?_, fun u hmem => ?_, fun hne => ?_⟩
      · show (checkLoop s.rtV s).2.players g = true
        rw [hplayers]
        exact hi.auto.player
      · show (checkLoop s.rtV s).2.isManuallyPaused g = false
        have hm : g ∉ s.manuallyPaused := by simpa [isManuallyPaused] using hi.auto.unmarked
        simpa [isManuallyPaused] using fun hmem => hm (checkLoop_manuallyPaused s.rtV s hmem)
      · exact ClockInv.step hi.clock (a := .check) rfl
      · show (checkLoop s.rtV s).2.voiceOf g u = some c
        rw [hof]
        exact hi.here u hmem
      · obtain ⟨t, ht, hg, hc, hts⟩ := hi.timer hne
        refine ⟨t, (mem_checkLoop hi.auto.running).2 ⟨ht, ?_⟩, hg, hc, hts⟩
        rw [← Bool.not_eq_true]
        intro hdue
        cases hst : s.stays t with
        | false => exact hne (hd t ht hg hc hdue hst)
        | true => exact hu ((hall t ht hg hdue hst).symm.trans hv)
  · exact .inl (hunpaused hv)

theorem Waiting.step {r : JoinRecord} {a : ResumeAction} (hi : r.unpaused ∨ Waiting g c s r)
    (ha : a.JoinsOrLeaves g ∧ DropsForNobody g c (s, r) a) (h : resumeStep s a = some s') :
    (noteJoin g c s a s' r).unpaused ∨ Waiting g c s' (noteJoin g c s a s' r) := by
  rcases hi with hu | hi
  · refine .inl ?_
    cases a with
    | voiceState e =>
      simp only [noteJoin, hu, Bool.true_or]
      split
      · rfl
      split <;> rfl
    | _ => simp only [noteJoin, hu, Bool.true_or]
  cases a with
  | voiceState e => exact .inr (hi.voiceState ha.1 h)
  | check => exact hi.check ha.2 h
  | tick d =>
    cases h
    refine .inr ⟨⟨hi.auto.running, hi.auto.player, hi.auto.voice, hi.auto.channel,
      hi.auto.unmarked⟩, ClockInv.step hi.clock (a := .tick d) rfl, hi.here, hi.timer⟩
  | _ => exact ha.1.elim

/-- **No resume is lost**: from any reachable state in which the player has been paused, after users
join and leave and the timers are checked along `DropsForNobody`, a check that runs `resumeDelay`
after the last join, with a user who joined still there, finds or leaves the player unpaused. -/
theorem resumes_for_joined {now : Int} {players : Nat → Bool} {voice : Nat → Option VoiceClient}
    {voiceOf : Nat → Nat → Option Nat} {l₀ l : List ResumeAction} {s₀ : ResumeState}
    {r : JoinRecord} {u : Nat} (h₀ : run resumeStep (start now players voice voiceOf) l₀ = some s₀)
    (hauto : s₀.AutoPaused g c)
    (hl : Along (noted resumeStep (noteJoin g c))
      (fun p a => a.JoinsOrLeaves g ∧ DropsForNobody g c p a) (s₀, {}) (l ++ [.check]))
    (h : run (noted resumeStep (noteJoin g c)) (s₀, {}) (l ++ [.check]) = some (s, r))
    (hu : u ∈ r.joined) (hlast : r.last + resumeDelay ≤ s.now) : r.unpaused = true := by
  have hi : r.unpaused ∨ Waiting g c s r := by
    refine run_inv (I := fun p : ResumeState × JoinRecord => p.2.unpaused ∨ Waiting g c p.1 p.2)
      (fun p a p' hi ha hs => ?_) (.inr ⟨hauto, clockInv_run h₀,
        fun _ hm => (List.not_mem_nil hm).elim, fun hn => absurd rfl hn⟩) hl h
    obtain ⟨hs, hn⟩ := noted_eq_some.1 hs
    exact hn ▸ Waiting.step hi ha hs
  refine hi.resolve_right fun hw => ?_
  -- the timer of the channel is due, but the last check kept it
  obtain ⟨t, ht, -, -, hts⟩ := hw.timer (List.ne_nil_of_mem hu)
  rw [run_append] at h
  obtain ⟨⟨s₁, r₁⟩, -, h₂⟩ := Option.bind_eq_some_iff.1 h
  obtain ⟨⟨s₂, r₂⟩, hs, hr⟩ := run_cons_eq_some.1 h₂
  cases hr
  have hcheck : s₁.checkResumeTimers = s := Option.some.inj (noted_eq_some.1 hs).1
  subst hcheck
  obtain ⟨hnow, hrun, -, -⟩ := checkLoop_frame s₁.rtV s₁
  have hkept := ((mem_checkLoop (hrun.symm.trans hw.auto.running)).1 ht).2
  have hdelay := (hw.clock t ht).2
  have hnow : s₁.checkResumeTimers.now = s₁.now := hnow
  rw [hnow] at hlast
  simp only [due, decide_eq_false_iff_not] at hkept
  omega

/-- User `u` joins channel 5, or leaves it. -/
def join (u : Nat) : ResumeAction := .voiceState ⟨u, some 5, 1, false, true, false, true⟩
def leave (u : Nat) : ResumeAction := .voiceState ⟨u, none, 1, false, true, false, false⟩

/-- The second of two users leaves. -/
theorem resumes_for_joined_first :
    ∃ s₀ s r, run resumeStep sampleStart [sampleLeave] = some s₀ ∧
      run (noted resumeStep (noteJoin 1 5)) (s₀, {})
        ([join 7, join 9, leave 9, .tick 1500000000] ++ [.check]) = some (s, r) ∧
      r.unpaused = true :=
  ⟨_, _, _, rfl, rfl, @resumes_for_joined _ 1 5 _ _ _ _ [sampleLeave]
    [join 7, join 9, leave 9, .tick 1500000000] _ _ 7 rfl ⟨rfl, rfl, rfl, by decide, rfl⟩
    (by decide) rfl (by decide) (by decide)⟩

/-- The first of two users leaves, and with it the only timer. -/
theorem resume_lost :
    ∃ s₀ s r, run resumeStep sampleStart [sampleLeave] = some s₀ ∧ s₀.AutoPaused 1 5 ∧
      (∀ a ∈ [join 7, join 9, leave 7, .tick 1500000000], a.JoinsOrLeaves 1) ∧
      run (noted resumeStep (noteJoin 1 5)) (s₀, {})
        ([join 7, join 9, leave 7, .tick 1500000000] ++ [.check]) = some (s, r) ∧
      9 ∈ r.joined ∧ r.last + resumeDelay ≤ s.now ∧ r.unpaused = false :=
  ⟨_, _, _, rfl, ⟨rfl, rfl, rfl, by decide, rfl⟩, by decide, rfl, by decide, by decide, rfl⟩

end ResumeState

end Musicat.Player
