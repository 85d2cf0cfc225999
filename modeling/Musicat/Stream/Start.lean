import Musicat.Lib.Run
import Musicat.Stream.Context

/-!
# A start that fails

`play` marks the player before the context exists, and only the end of a live
context takes the mark back: a context whose `init` threw is still `ended`, so
its destructor does nothing. After a failed start the player is startable
exactly when a context of the guild was there before, that is for the code 3
alone; otherwise every later marker finds it already playing.
-/

namespace Musicat.Stream

open Lib Player GuildPlayer

/-- A context of the guild is in `stream_ctxs`. -/
def HasCtx (guildId : Nat) (s : StreamState) : Prop :=
  ∃ ctx ∈ s.streamCtxs, ctx.1.guildId = guildId

/-- The marker's already-playing branch is taken. -/
def AlreadyPlaying (guildId : Nat) (s : StreamState) : Prop :=
  ∃ p, s.player guildId = some p ∧ p.processingAudio = true

/-- A processing player has a context that will end. -/
def Startable (guildId : Nat) (s : StreamState) : Prop :=
  AlreadyPlaying guildId s → HasCtx guildId s

/-- A start that throws. -/
def failedStart (s : StreamState) (a : Nat × PlayEnv) : Option StreamState :=
  match play a.1 a.2 s with
  | (s', some _, _) => some s'
  | (_, none, _) => none

/-- What comes after a failed start. -/
inductive LaterAction where
  | marker (guildId : Nat) (env : MarkerEnv) (trackMeta : String)
  | streamEnd (guildId : Nat) (voiceClient : Bool)
  | failedStart (guildId : Nat) (env : PlayEnv)

def laterStep (s : StreamState) : LaterAction → Option StreamState
  | .marker g env trackMeta =>
    (s.player g).map fun p => s.setPlayer g (p.handleOnTrackMarker env trackMeta).1
  | .streamEnd g voiceClient => some (eraseCtx g voiceClient s)
  | .failedStart g env => failedStart s (g, env)

/-- Every later marker returns early, whatever markers come and streams end. -/
def TurnedAway (guildId : Nat) (s : StreamState) : Prop :=
  ∀ l t, run laterStep s l = some t → AlreadyPlaying guildId t

/-! ## One start -/

/-- `init` that throws leaves the contexts, the other players, and the processing mark. -/
theorem init_error {ctx : StreamCtx} {env : InitEnv} {s s' : StreamState} {e : Thrown}
    (h : ctx.init env s = (s', .error e)) :
    s'.streamCtxs = s.streamCtxs ∧
      ∀ g, (s'.player g).map (·.processingAudio) = (s.player g).map (·.processingAudio) := by
  have key : s' = s ∨ ∃ p, s.player ctx.guildId = some p ∧
      s' = s.setPlayer ctx.guildId { p with triedContinuing := false } := by
    unfold StreamCtx.init at h
    split at h
    · cases h; exact .inl rfl
    · rename_i p hp
      refine .inr ⟨p, hp, ?_⟩
      repeat' split at h
      all_goals cases h
      all_goals rfl
  rcases key with rfl | ⟨p, hp, rfl⟩
  · exact ⟨rfl, fun _ => rfl⟩
  · refine ⟨rfl, fun g => ?_⟩
    by_cases hg : g = ctx.guildId
    · subst hg; simp [hp]
    · rw [StreamState.setPlayer_of_ne hg]

/-- A submit that throws leaves the contexts and every processing mark. -/
theorem submitStreamCtx_error {g : Nat} {env : InitEnv} {s s' : StreamState} {e : Int}
    (h : submitStreamCtx g env s = (s', .error e)) :
    s'.streamCtxs = s.streamCtxs ∧
      ∀ k, (s'.player k).map (·.processingAudio) = (s.player k).map (·.processingAudio) := by
  simp only [submitStreamCtx] at h
  split at h
  · cases h; exact ⟨rfl, fun _ => rfl⟩
  · split at h
    · cases h
    · rename_i hi
      cases h
      exact init_error hi
    · rename_i hi
      cases h
      exact init_error hi

/-- **A failed start leaves `stream_ctxs` as it was and its player processing**; the marks of
the other players stay. -/
theorem failedStart_spec {s s' : StreamState} {g : Nat} {env : PlayEnv}
    (h : failedStart s (g, env) = some s') :
    s'.streamCtxs = s.streamCtxs ∧ AlreadyPlaying g s' ∧
      ∀ k, AlreadyPlaying k s → AlreadyPlaying k s' := by
  unfold failedStart at h
  split at h
  · rename_i e _ hp
    cases h
    unfold play at hp
    split at hp
    · cases hp
    split at hp
    · cases hp
    split at hp
    · cases hp
    rename_i p hplayer _
    simp only [initForStream, ne_eq, not_true_eq_false, if_false] at hp
    split at hp
    · cases hp
    rename_i hsub
    cases hp
    obtain ⟨hc, hm⟩ := submitStreamCtx_error hsub
    have hg : AlreadyPlaying g s' := by
      have := hm g
      simp only [StreamState.setPlayer_self, Option.map_some, Option.map_eq_some_iff] at this
      exact this
    refine ⟨hc, hg, fun k hk => ?_⟩
    by_cases hkg : k = g
    · exact hkg ▸ hg
    · obtain ⟨q, hq, hqp⟩ := hk
      have := hm k
      rw [StreamState.setPlayer_of_ne hkg, hq, Option.map_some, hqp, Option.map_eq_some_iff] at this
      exact this
  · cases h

theorem hasCtx_of_streamCtxs_eq {g : Nat} {s s' : StreamState}
    (h : s'.streamCtxs = s.streamCtxs) : HasCtx g s' ↔ HasCtx g s := by
  simp only [HasCtx, h]

/-- A non-empty sequence of failed starts of a guild. -/
theorem failedStarts_spec {g : Nat} :
    ∀ {l : List PlayEnv} {s s' : StreamState}, l ≠ [] →
      run failedStart s (l.map (g, ·)) = some s' →
      s'.streamCtxs = s.streamCtxs ∧ AlreadyPlaying g s'
  | [env], s, s', _, h => by
    obtain ⟨t, ht, h⟩ := run_cons_eq_some.1 h
    cases h
    obtain ⟨hc, hp, -⟩ := failedStart_spec ht
    exact ⟨hc, hp⟩
  | env :: env' :: l, s, s', _, h => by
    obtain ⟨t, ht, h⟩ := run_cons_eq_some.1 h
    obtain ⟨hc, -, -⟩ := failedStart_spec ht
    obtain ⟨hc', hp⟩ := failedStarts_spec (l := env' :: l) (List.cons_ne_nil _ _) h
    exact ⟨hc'.trans hc, hp⟩

/-! ## What comes after -/

/-- The marker turns a processing player away. -/
theorem handleOnTrackMarker_processing {p : GuildPlayer} (h : p.processingAudio = true)
    (env : MarkerEnv) (trackMeta : String) :
    p.handleOnTrackMarker env trackMeta = (p, false) := by
  simp [handleOnTrackMarker, h]

/-- **A processing player without a context is stuck**, step by step. -/
theorem stuck_step {g : Nat} {s s' : StreamState} {a : LaterAction}
    (hi : AlreadyPlaying g s ∧ ¬ HasCtx g s) (h : laterStep s a = some s') :
    AlreadyPlaying g s' ∧ ¬ HasCtx g s' := by
  obtain ⟨⟨p, hp, hproc⟩, hctx⟩ := hi
  cases a with
  | marker k env trackMeta =>
    simp only [laterStep, Option.map_eq_some_iff] at h
    obtain ⟨q, hq, rfl⟩ := h
    refine ⟨?_, hctx⟩
    by_cases hk : g = k
    · subst hk
      rw [hp, Option.some.injEq] at hq
      subst hq
      exact ⟨p, by simp [handleOnTrackMarker_processing hproc], hproc⟩
    · exact ⟨p, by rw [StreamState.setPlayer_of_ne hk, hp], hproc⟩
  | streamEnd k voiceClient =>
    cases h
    unfold eraseCtx
    split
    · exact ⟨⟨p, hp, hproc⟩, hctx⟩
    · rename_i ctx hfind
      have hmem := List.mem_of_find?_eq_some hfind
      have hgk : g ≠ ctx.1.guildId := fun hg => hctx ⟨ctx, hmem, hg.symm⟩
      refine ⟨⟨p, ?_, hproc⟩, fun ⟨c, hc, hcg⟩ => hctx ⟨c, List.mem_of_mem_eraseP hc, hcg⟩⟩
      unfold StreamCtx.end'
      split
      · exact hp
      · split
        · exact hp
        · exact (StreamState.setPlayer_of_ne hgk ..).trans hp
  | failedStart k env =>
    obtain ⟨hc, -, hm⟩ := failedStart_spec h
    exact ⟨hm g ⟨p, hp, hproc⟩, fun hg => hctx ((hasCtx_of_streamCtxs_eq hc).1 hg)⟩

theorem stuck_turnedAway {g : Nat} {s : StreamState} (h : AlreadyPlaying g s)
    (hctx : ¬ HasCtx g s) : TurnedAway g s := fun _ _ hrun =>
  (run_invariant (fun _ _ _ => stuck_step) ⟨h, hctx⟩ hrun).1

/-- The end of the guild's stream takes the mark back. -/
theorem not_turnedAway {g : Nat} {s : StreamState} (hctx : HasCtx g s) : ¬ TurnedAway g s := by
  intro h
  obtain ⟨p, hp, hproc⟩ := h [.streamEnd g true] _ rfl
  unfold eraseCtx at hp
  split at hp
  · rename_i hnone
    obtain ⟨c, hc, hcg⟩ := hctx
    simpa [hcg] using List.find?_eq_none.1 hnone c hc
  · rename_i ctx hfind
    have hg : ctx.1.guildId = g := by simpa using List.find?_some hfind
    obtain ⟨q, hq, hqproc⟩ := h [] s rfl
    simp only [StreamCtx.end', ctx.2, hg, hq, Bool.false_eq_true, if_false,
      StreamState.setPlayer_self, Option.some.injEq] at hp
    subst hp
    cases hproc

/-- **Failed starts leave the player startable exactly when a context of the guild existed
before them**: a processing player then has a context, and not every later marker is turned
away. -/
theorem failed_starts_startable_iff {g : Nat} {l : List PlayEnv} {s s' : StreamState}
    (hl : l ≠ []) (hrun : run failedStart s (l.map (g, ·)) = some s') :
    Startable g s' ∧ ¬ TurnedAway g s' ↔ HasCtx g s := by
  obtain ⟨hc, hp⟩ := failedStarts_spec hl hrun
  rw [← hasCtx_of_streamCtxs_eq hc]
  constructor
  · rintro ⟨hs, -⟩
    exact hs hp
  · intro h
    exact ⟨fun _ => h, not_turnedAway h⟩

/-! ## A missing file -/

/-- Guild 7 with three tracks loaded and nothing playing. -/
def idleGuild : StreamState where
  player := fun g => if g = 7 then some threeTracks else none

def missingFile : PlayEnv := { init := { fileExists := false } }

theorem failed_starts_startable_iff_missing :
    let s := (play 7 {} idleGuild).1
    Startable 7 (play 7 missingFile s).1 ∧ ¬ TurnedAway 7 (play 7 missingFile s).1 ↔ HasCtx 7 s :=
  failed_starts_startable_iff (l := [missingFile]) (List.cons_ne_nil _ _) rfl

/-- The file of the first track is missing: the player processes without a context, and every
later marker is turned away. -/
theorem missing_file_stuck :
    ∃ s, run failedStart idleGuild [(7, missingFile)] = some s ∧
      ¬ Startable 7 s ∧ TurnedAway 7 s := by
  have hp : AlreadyPlaying 7 (play 7 missingFile idleGuild).1 := ⟨_, rfl, rfl⟩
  have hc : ¬ HasCtx 7 (play 7 missingFile idleGuild).1 := fun ⟨_, h, _⟩ => List.not_mem_nil h
  exact ⟨_, rfl, fun h => hc (h hp), stuck_turnedAway hp hc⟩

end Musicat.Stream
