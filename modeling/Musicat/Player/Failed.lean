import Musicat.Player.QueueCommand

/-!
# A playback that fails

The marker makes the front the current track and queues a worker. The worker
takes the player lock later; when the audio file of the current track is missing
it pops whatever is in front by then. The handlers that take the lock are one
step each: the marker, the worker, `manager::skip` and the queue commands.
-/

namespace Musicat.Player

open GuildPlayer Lib

/-! ## The steps -/

/-- What the task of `spawn_handle_track_marker_worker` meets. -/
structure WorkerEnv where
  fileExists : Bool := true
  terminating : Bool := false
  /-- `get_track_failed_playback_count`. -/
  failedPlayback : Nat := 0
  deriving DecidableEq, Repr

/-- The worker, but for the playback it starts. -/
def trackMarkerWorker (env : WorkerEnv) (p : GuildPlayer) : GuildPlayer :=
  if env.fileExists || env.terminating then p
  else
    let p := (p.skipQueue 1 true true false).1
    if 3 ≤ env.failedPlayback then p else { p with stopped := true }

structure FailState where
  player : GuildPlayer
  /-- The workers that have been queued and have not run. -/
  pending : Nat := 0

inductive FailAction where
  | marker (env : MarkerEnv) (trackMeta : String)
  | worker (env : WorkerEnv)
  | skip (env : SkipEnv) (amount : Int) (remove : Bool)
  | op (op : QueueOp)
  | clear (siz : Nat)
  | reverse (siz : Nat)
  /-- A playback starts. -/
  | play
  /-- It ends. -/
  | doneStreaming

section
variable (getTitle : MCTrack → String)

def failStep (s : FailState) : FailAction → Option FailState
  | .marker env trackMeta =>
    let (player, spawns) := handleOnTrackMarker env trackMeta s.player
    some { player, pending := if spawns then s.pending + 1 else s.pending }
  | .worker env =>
    if s.pending = 0 then none
    else some { player := trackMarkerWorker env s.player, pending := s.pending - 1 }
  | .skip env amount remove => some { s with player := (managerSkip env s.player amount remove).1 }
  | .op op => some { s with player := op.apply getTitle s.player }
  | .clear siz => some { s with player := clearAll siz s.player }
  | .reverse siz => some { s with player := reverseAll siz s.player }
  | .play => some { s with player := s.player.initForStream.1 }
  | .doneStreaming => some { s with player := s.player.doneStreaming }

end

/-- How many tracks `manager::skip` pops. -/
def skipPops (p : GuildPlayer) (amount : Int) : Nat :=
  (clampSkip amount -
    if p.loopMode == .lSong || p.loopMode == .lSongQueue then 0 else 1).toNat

/-- `manager::skip` is turned away, or pops nothing, or everything, or puts it all back in order. -/
def SkipKeeps (p : GuildPlayer) (env : SkipEnv) (amount : Int) (remove : Bool) : Prop :=
  env.voiceChannel = none ∨ env.userChannel ≠ env.voiceChannel ∨
    if pushesBack p.loopMode remove then p.queue.length ∣ skipPops p amount
    else skipPops p amount = 0 ∨ p.queue.length ≤ skipPops p amount

/-- The operation puts no track in front of the current one. -/
def OpKeeps (p : GuildPlayer) (op : QueueOp) : Prop :=
  KeepsShifted p op ∧
    match op with
    | .addTrack track _ _ fetched => trackToAdd track fetched = none ∨ p.queue ≠ []
    | _ => True

/-- While a worker is queued, the current track stays in front. -/
def StaysInFront (s : FailState) (a : FailAction) : Prop :=
  s.pending = 0 ∨
    match a with
    | .worker env => env.fileExists ∨ env.terminating ∨ s.pending ≤ 1 ∨ s.player.queue.length ≤ 1
    | .skip env amount remove => s.player.queue = [] ∨ SkipKeeps s.player env amount remove
    | .op op => OpKeeps s.player op
    | _ => True

instance (p : GuildPlayer) (env : SkipEnv) (amount : Int) (remove : Bool) :
    Decidable (SkipKeeps p env amount remove) := by
  unfold SkipKeeps
  infer_instance

instance (p : GuildPlayer) : (op : QueueOp) → Decidable (OpKeeps p op)
  | .addTrack .. => inferInstanceAs (Decidable (_ ∧ (_ ∨ _)))
  | .move .. | .remove .. | .clearUser _ | .shuffle _ | .publish =>
    inferInstanceAs (Decidable (_ ∧ True))

instance (s : FailState) : (a : FailAction) → Decidable (StaysInFront s a)
  | .worker _ => inferInstanceAs (Decidable (_ ∨ _ ∨ _ ∨ _ ∨ _))
  | .skip .. => inferInstanceAs (Decidable (_ ∨ _ ∨ SkipKeeps ..))
  | .op op => inferInstanceAs (Decidable (_ ∨ OpKeeps s.player op))
  | .marker .. | .clear _ | .reverse _ | .play | .doneStreaming => isTrue (.inr trivial)

/-- The worker that finds no file removes the current track, if any, and nothing else. -/
def RemovesCurrent (p : GuildPlayer) : Prop :=
  let (q, removed) := p.skipQueue 1 true true false
  (∀ t ∈ removed, t.song = p.currentTrack.song) ∧
    ((removed ++ q.queue).map MCTrack.song).Perm (p.queue.map MCTrack.song)

/-- The current track is where `reset_shifted` looks for the playing one, or the queue is empty. -/
def CurrentFront (p : GuildPlayer) : Prop :=
  p.queue = [] ∨ (p.queue.map MCTrack.song)[p.shiftedTrack]? = some p.currentTrack.song

/-! ## The worker -/

section
variable {p q : GuildPlayer}

theorem currentFront_iff :
    CurrentFront p ↔ p.queue = [] ∨ ∃ t, Playing p t ∧ t.song = p.currentTrack.song := by
  unfold CurrentFront Playing
  rw [List.getElem?_map, Option.map_eq_some_iff]

theorem CurrentFront.congr (h : CurrentFront p)
    (hqueue : q.queue.map MCTrack.song = p.queue.map MCTrack.song)
    (hshifted : q.shiftedTrack = p.shiftedTrack)
    (hcurrent : q.currentTrack.song = p.currentTrack.song) : CurrentFront q := by
  unfold CurrentFront at h ⊢
  rw [hqueue, hshifted, hcurrent]
  exact h.imp_left fun hnil => by simpa [hnil] using hqueue

@[simp] theorem resetShifted_currentTrack (p : GuildPlayer) :
    p.resetShifted.1.currentTrack = p.currentTrack := by
  unfold resetShifted
  repeat' split
  all_goals rfl

@[simp] theorem publishQueue_currentTrack (p : GuildPlayer) :
    p.publishQueue.currentTrack = p.currentTrack := resetShifted_currentTrack p

@[simp] theorem resetCurrentRepeat_song (p : GuildPlayer) :
    p.resetCurrentRepeat.currentTrack.song = p.currentTrack.song := by
  unfold resetCurrentRepeat
  split <;> rfl

@[simp] theorem map_song_resetFrontRepeat (queue : List MCTrack) :
    (resetFrontRepeat queue).map MCTrack.song = queue.map MCTrack.song := by
  cases queue <;> rfl

/-- After `reset_shifted` the current track is the front. -/
theorem CurrentFront.resetShifted (h : CurrentFront p) :
    CurrentFront p.resetShifted.1 ∧ p.resetShifted.1.shiftedTrack = 0 := by
  obtain ⟨hshifted, hperm, hfront⟩ := resetShifted_spec p
  refine ⟨?_, hshifted⟩
  rw [currentFront_iff] at h ⊢
  rcases h with hnil | ⟨t, ht, hsong⟩
  · rw [hnil] at hperm
    exact .inl hperm.eq_nil
  · exact .inr ⟨t, ht.resetShifted_playing, by rw [resetShifted_currentTrack, hsong]⟩

theorem skipQueue_one (p : GuildPlayer) :
    p.skipQueue 1 true true false =
      ({ p.resetShifted.1.resetCurrentRepeat with
          queue := (resetFrontRepeat p.resetShifted.1.queue).tail },
        (resetFrontRepeat p.resetShifted.1.queue).head?.toList) := by
  unfold skipQueue
  simp only [resetCurrentRepeat_queue]
  cases resetFrontRepeat p.resetShifted.1.queue <;> rfl

/-- **The worker pops the current track** when it is in front. -/
theorem CurrentFront.removes (h : CurrentFront p) : RemovesCurrent p := by
  obtain ⟨hfront, hshifted⟩ := h.resetShifted
  have hperm := (resetShifted_spec p).2.1.map MCTrack.song
  unfold RemovesCurrent CurrentFront at *
  rw [hshifted, resetShifted_currentTrack] at hfront
  rw [skipQueue_one]
  dsimp only
  rw [← map_song_resetFrontRepeat] at hfront hperm
  cases hq : resetFrontRepeat p.resetShifted.1.queue with
  | nil =>
    rw [hq] at hperm
    simpa using hperm
  | cons t queue =>
    rw [hq] at hfront hperm
    refine ⟨fun u hu => ?_, hperm⟩
    rw [List.head?_cons, Option.toList_some, List.mem_singleton] at hu
    rcases hfront with hnil | hsong
    · rw [hnil] at hq
      cases hq
    · rw [hu]
      simpa using hsong

/-! ## The skips -/

theorem map_song_skipPop (push : Bool) (k : Nat) (queue removed : List MCTrack) :
    ((skipPop push)^[k] (queue, removed)).1.map MCTrack.song =
      if push then (queue.map MCTrack.song).rotate k else (queue.map MCTrack.song).drop k := by
  cases push with
  | false => rw [skipPop_take, List.map_drop, if_neg Bool.false_ne_true]
  | true =>
    rw [if_pos rfl]
    induction k generalizing queue removed with
    | zero => simp
    | succ k ih =>
      rw [Function.iterate_succ_apply]
      cases queue with
      | nil => simp [skipPop, ih]
      | cons t queue => simp [skipPop, ih, List.rotate_cons_succ]

/-- `skip_queue` as `manager::skip` calls it, but for the repeat counts. -/
theorem managerSkipQueue_songs (p : GuildPlayer) (amount : Int) (remove : Bool) :
    (p.managerSkipQueue amount remove).1.queue.map MCTrack.song =
        (if pushesBack p.loopMode remove then
          (p.resetShifted.1.queue.map MCTrack.song).rotate (skipPops p amount)
        else (p.resetShifted.1.queue.map MCTrack.song).drop (skipPops p amount)) ∧
      (p.managerSkipQueue amount remove).1.shiftedTrack = 0 ∧
      (p.managerSkipQueue amount remove).1.currentTrack.song = p.currentTrack.song := by
  have hshifted := (resetShifted_spec p).1
  have hmode : p.resetShifted.1.loopMode = p.loopMode := by
    unfold resetShifted
    repeat' split
    all_goals rfl
  have hpush : (!remove && (false || p.loopMode == .lSongQueue || p.loopMode == .lQueue)) =
      pushesBack p.loopMode remove := by
    simp [pushesBack]
  unfold managerSkipQueue skipQueue
  rw [resetShifted_of_zero hshifted]
  dsimp only
  refine ⟨?_, ?_, ?_⟩
  · rw [map_song_skipPop, map_song_resetFrontRepeat]
    simp only [resetCurrentRepeat_queue, hmode, Bool.false_or]
    rfl
  · rw [resetCurrentRepeat_shiftedTrack, hshifted]
  · rw [resetCurrentRepeat_song, resetShifted_currentTrack]

/-- `reset_first_track_current_byte` changes a byte count and nothing else. -/
theorem resetFirst_songs (p : GuildPlayer) :
    p.resetFirstTrackCurrentByte.queue.map MCTrack.song = p.queue.map MCTrack.song ∧
      p.resetFirstTrackCurrentByte.shiftedTrack = p.shiftedTrack ∧
      p.resetFirstTrackCurrentByte.currentTrack = p.currentTrack := by
  unfold resetFirstTrackCurrentByte
  split
  · exact ⟨rfl, rfl, rfl⟩
  · rename_i hq
    rw [hq]
    exact ⟨rfl, rfl, rfl⟩

theorem stop_songs (p : GuildPlayer) (inVoice : Bool) :
    (p.stop inVoice).queue.map MCTrack.song = p.queue.map MCTrack.song ∧
      (p.stop inVoice).shiftedTrack = p.shiftedTrack ∧
      (p.stop inVoice).currentTrack.song = p.currentTrack.song := by
  unfold stop
  split
  · exact ⟨rfl, rfl, rfl⟩
  · split
    · exact ⟨rfl, rfl, rfl⟩
    · obtain ⟨hqueue, hshifted, hcurrent⟩ := resetFirst_songs
        { p with stopping := true, currentTrack := { p.currentTrack with currentByte := 0 } }
      exact ⟨hqueue, hshifted, by rw [hcurrent]; rfl⟩

theorem CurrentFront.stop (h : CurrentFront p) (inVoice : Bool) :
    CurrentFront (p.stop inVoice) := by
  obtain ⟨hqueue, hshifted, hcurrent⟩ := stop_songs p inVoice
  exact h.congr hqueue hshifted hcurrent

/-- What a skip that keeps the front leaves of the songs: all of them, or none. -/
theorem skipped_songs {songs : List MCTrack} {amount : Int} {remove : Bool}
    (hlen : songs.length = p.queue.length)
    (hk : p.queue = [] ∨
      if pushesBack p.loopMode remove then p.queue.length ∣ skipPops p amount
      else skipPops p amount = 0 ∨ p.queue.length ≤ skipPops p amount) :
    (if pushesBack p.loopMode remove then songs.rotate (skipPops p amount)
      else songs.drop (skipPops p amount)) = songs ∨
    (if pushesBack p.loopMode remove then songs.rotate (skipPops p amount)
      else songs.drop (skipPops p amount)) = [] := by
  rcases hk with hnil | hk
  · have : songs = [] := List.eq_nil_of_length_eq_zero (hlen.trans (by rw [hnil]; rfl))
    rw [this]
    simp
  · split at hk
    · rename_i hpush
      rw [if_pos hpush, ← List.rotate_mod, hlen, Nat.mod_eq_zero_of_dvd hk, List.rotate_zero]
      exact .inl rfl
    · rename_i hpush
      rw [if_neg hpush]
      rcases hk with h0 | hle
      · rw [h0]
        exact .inl rfl
      · exact .inr (List.drop_eq_nil_of_le (hlen.trans_le hle))

/-- **A skip keeps the current track in front** when it pops nothing, everything or full turns. -/
theorem CurrentFront.skip (h : CurrentFront p) {env : SkipEnv} {amount : Int} {remove : Bool}
    (hk : p.queue = [] ∨ SkipKeeps p env amount remove) :
    CurrentFront (managerSkip env p amount remove).1 := by
  obtain ⟨hfront, hshifted⟩ := h.resetShifted
  have hperm := (resetShifted_spec p).2.1
  unfold managerSkip
  split
  · exact h
  · rename_i channel hchannel
    split
    · exact hfront
    · rename_i user huser
      split
      · exact hfront
      · rename_i heq
        have hsame : env.userChannel = env.voiceChannel := by
          rw [huser, hchannel, not_not.1 heq]
        obtain ⟨hsongs, hzero, hcurrent⟩ := managerSkipQueue_songs p amount remove
        have hlen : (p.resetShifted.1.queue.map MCTrack.song).length = p.queue.length := by
          rw [List.length_map, hperm.length_eq]
        have hkept : CurrentFront (p.managerSkipQueue amount remove).1 := by
          rcases skipped_songs hlen (hk.imp_right fun hk =>
            (hk.resolve_left (by simp [hchannel])).resolve_left (by simp [hsame])) with hS | hS
          · exact hfront.congr (hsongs.trans hS) (hzero.trans hshifted.symm)
              (hcurrent.trans (by rw [resetShifted_currentTrack]))
          · exact .inl (List.map_eq_nil_iff.1 (hsongs.trans hS))
        dsimp only [skipPlayback]
        split
        · exact hkept
        · exact hkept.stop _

/-! ## The queue commands -/

theorem removeTrack_currentTrack (p : GuildPlayer) (pos amount toPos : UInt64) :
    (p.removeTrack pos amount toPos).1.currentTrack = p.currentTrack := by
  unfold GuildPlayer.removeTrack
  dsimp only
  repeat' split
  all_goals simp

theorem op_currentTrack (getTitle : MCTrack → String) (p : GuildPlayer) (op : QueueOp) :
    (op.apply getTitle p).currentTrack = p.currentTrack := by
  cases op with
  | addTrack track top argSlip fetched =>
    simp only [QueueOp.apply, addTrack]
    repeat' split
    all_goals rfl
  | move fr toPos =>
    simp only [QueueOp.apply, moveSlashRun]
    repeat' split
    all_goals simp
  | remove fr amount toPos =>
    simp only [QueueOp.apply, removeSlashRun]
    repeat' split
    all_goals simp [removeTrack_currentTrack]
  | clearUser userId =>
    simp only [QueueOp.apply, clearUser, removeTrackByUser]
    repeat' split
    all_goals simp
  | shuffle rand =>
    simp only [QueueOp.apply, shuffle]
    repeat' split
    all_goals simp
  | publish => exact publishQueue_currentTrack p

theorem op_queue_nil (getTitle : MCTrack → String) (hq : p.queue = []) {op : QueueOp}
    (hop : OpKeeps p op) : (op.apply getTitle p).queue = [] := by
  have hreset : p.resetShifted.1.queue = [] := by
    have hperm := (resetShifted_spec p).2.1
    rw [hq] at hperm
    exact hperm.eq_nil
  cases op with
  | addTrack track top argSlip fetched =>
    have hnone := hop.2.resolve_right (not_not.2 hq)
    simp only [QueueOp.apply, addTrack, hnone, hq]
  | move fr toPos => simp [QueueOp.apply, moveSlashRun, hq]
  | remove fr amount toPos =>
    simp only [QueueOp.apply, removeSlashRun]
    rw [if_pos (by simp [hreset])]
    exact hreset
  | clearUser userId =>
    simp only [QueueOp.apply, clearUser, removeTrackByUser]
    split
    · exact hreset
    · rw [hreset]
      exact hreset
  | shuffle rand => simp [QueueOp.apply, shuffle, hq]
  | publish => exact hreset

theorem CurrentFront.op (h : CurrentFront p) (getTitle : MCTrack → String) {op : QueueOp}
    (hop : OpKeeps p op) : CurrentFront (op.apply getTitle p) := by
  rw [currentFront_iff] at h ⊢
  rcases h with hq | ⟨t, ht, hsong⟩
  · exact .inl (op_queue_nil getTitle hq hop)
  · exact .inr ⟨t, playing_step getTitle ht hop.1 rfl, by rw [op_currentTrack, hsong]⟩

/-- A command that keeps the front of the reset queue keeps the current track there. -/
theorem CurrentFront.of_front (h : CurrentFront p) {queue : List MCTrack}
    (hq : queue.head? = p.resetShifted.1.queue.head?) :
    CurrentFront { p.resetShifted.1 with queue } := by
  obtain ⟨hfront, hshifted⟩ := h.resetShifted
  unfold CurrentFront at hfront ⊢
  dsimp only
  rw [hshifted] at hfront ⊢
  rw [← List.head?_eq_getElem?, List.head?_map] at hfront ⊢
  rw [hq]
  exact hfront.imp_left fun hnil => List.head?_eq_none_iff.1 (by rw [hq, hnil]; rfl)

theorem CurrentFront.publishQueue (h : CurrentFront p) : CurrentFront p.publishQueue :=
  h.resetShifted.1

theorem CurrentFront.clearAll (h : CurrentFront p) (siz : Nat) :
    CurrentFront (clearAll siz p) := by
  unfold Player.clearAll
  dsimp only
  split
  · exact h.resetShifted.1
  · split
    · exact h.resetShifted.1
    · rename_i t queue hq
      refine CurrentFront.publishQueue (h.of_front ?_)
      rw [hq]
      rfl

theorem CurrentFront.reverseAll (h : CurrentFront p) (siz : Nat) :
    CurrentFront (reverseAll siz p) := by
  unfold Player.reverseAll
  dsimp only
  split
  · exact h.resetShifted.1
  · split
    · exact h.resetShifted.1
    · rename_i t queue hq
      split
      · refine CurrentFront.publishQueue (h.of_front ?_)
        rw [hq]
        rfl
      · exact h.resetShifted.1

/-! ## The marker -/

theorem currentFront_startFront (hs : p.shiftedTrack = 0) : CurrentFront p.startFront := by
  unfold startFront
  split
  · rename_i hq
    exact .inl hq
  · right
    dsimp only
    rw [hs]
    rfl

/-- **The marker puts the current track in front**, unless it is turned away. -/
theorem marker_currentFront (env : MarkerEnv) (trackMeta : String) (p : GuildPlayer) :
    CurrentFront (handleOnTrackMarker env trackMeta p).1 ∨
      handleOnTrackMarker env trackMeta p = (p, false) := by
  unfold handleOnTrackMarker
  split
  · exact .inr rfl
  · split
    · exact .inr rfl
    · split
      · exact .inr rfl
      · left
        dsimp only
        split
        · rename_i hnil
          exact .inl (List.isEmpty_iff.1 hnil)
        · have hs := (resetShifted_spec ((p.loadGuildCurrentQueue env).loadGuildPlayerConfig env)).1
          split
          · split <;> exact currentFront_startFront ((finishFront_frame _).1.trans hs)
          · split <;> exact currentFront_startFront hs

/-! ## Runs -/

section
variable (getTitle : MCTrack → String) {s s' : FailState}

/-- **Every step that meets the condition keeps the current track in front** for the workers. -/
theorem currentFront_step {a : FailAction} (hi : s.pending = 0 ∨ CurrentFront s.player)
    (hc : StaysInFront s a) (hs : failStep getTitle s a = some s') :
    s'.pending = 0 ∨ CurrentFront s'.player := by
  cases a with
  | marker env trackMeta =>
    simp only [failStep] at hs
    cases hs
    rcases marker_currentFront env trackMeta s.player with hm | hm
    · exact .inr hm
    · rw [hm]
      exact hi
  | worker env =>
    simp only [failStep] at hs
    split at hs
    · cases hs
    · rename_i hpending
      cases hs
      have hf := hi.resolve_left hpending
      have hc := hc.resolve_left hpending
      dsimp only at hc ⊢
      unfold trackMarkerWorker
      split
      · exact .inr hf
      · rename_i hmissing
        simp only [Bool.or_eq_true, not_or] at hmissing
        rcases (hc.resolve_left hmissing.1).resolve_left hmissing.2 with hone | hshort
        · left
          omega
        · right
          left
          have hlen : (resetFrontRepeat s.player.resetShifted.1.queue).tail = [] := by
            have h1 := congrArg List.length
              (map_song_resetFrontRepeat s.player.resetShifted.1.queue)
            have h2 := (resetShifted_spec s.player).2.1.length_eq
            rw [List.length_map, List.length_map] at h1
            apply List.eq_nil_of_length_eq_zero
            rw [List.length_tail]
            omega
          rw [skipQueue_one]
          dsimp only
          split <;> exact hlen
  | skip env amount remove =>
    cases hs
    rcases hc with h0 | hc
    · exact .inl h0
    · exact hi.imp_right fun hf => hf.skip hc
  | op op =>
    cases hs
    rcases hc with h0 | hc
    · exact .inl h0
    · exact hi.imp_right fun hf => hf.op getTitle hc
  | clear siz =>
    cases hs
    exact hi.imp_right fun hf => hf.clearAll siz
  | reverse siz =>
    cases hs
    exact hi.imp_right fun hf => hf.reverseAll siz
  | play =>
    cases hs
    obtain ⟨hqueue, hshifted, hcurrent⟩ := resetFirst_songs s.player
    exact hi.imp_right fun hf => hf.congr hqueue hshifted (congrArg MCTrack.song hcurrent)
  | doneStreaming =>
    cases hs
    exact hi.imp_right fun hf => hf.congr rfl rfl rfl

/-- **A failed playback removes only the failed track**, in every run in which the current track
stays in front while a worker is queued. -/
theorem failed_removes_current {l : List FailAction}
    (hc : Along (failStep getTitle) StaysInFront { player := p } l)
    (hrun : run (failStep getTitle) { player := p } l = some s) (hpending : 0 < s.pending)
    {env : WorkerEnv} (hmissing : env.fileExists = false) (halive : env.terminating = false) :
    RemovesCurrent s.player ∧
      ∃ s', failStep getTitle s (.worker env) = some s' ∧
        s'.player.queue = (s.player.skipQueue 1 true true false).1.queue := by
  have hi : s.pending = 0 ∨ CurrentFront s.player :=
    run_inv (I := fun s => s.pending = 0 ∨ CurrentFront s.player)
      (fun _ _ _ hi hc hs => currentFront_step getTitle hi hc hs) (.inl rfl) hc hrun
  have hne : s.pending ≠ 0 := by omega
  refine ⟨(hi.resolve_left hne).removes, _, if_neg hne, ?_⟩
  unfold trackMarkerWorker
  rw [hmissing, halive]
  dsimp only
  split
  · contradiction
  · split <;> rfl

end

end

/-! ## Two skips -/

/-- Someone in the bot's channel skips. -/
def listener : SkipEnv := ⟨some 1, true, some 1, true⟩

/-- A track ends; before the worker of the next one a track is added on top and moved, and one skip
counts what is playing. -/
def skipOneRun : List FailAction :=
  [.marker {} "e", .op (.addTrack (cachedTrack "x") true 0 none), .op .publish, .op (.move 1 2),
    .skip listener 1 false]

theorem failed_removes_current_skip :
    ∃ s, run (failStep (·.raw)) { player := threeTracks } skipOneRun = some s ∧
      s.player.queue.map (·.filename) = ["a", "b", "x"] ∧ RemovesCurrent s.player :=
  ⟨_, rfl, by decide, (failed_removes_current (·.raw) (p := threeTracks) (l := skipOneRun)
    (by decide) rfl (by decide)
    (show ({ fileExists := false } : WorkerEnv).fileExists = false from rfl) rfl).1⟩

/-- A skip of two pops the current track, and the worker removes the one behind it. -/
theorem failed_removes_next :
    ∃ s, run (failStep (·.raw)) { player := threeTracks }
        [.marker {} "e", .skip listener 2 false] = some s ∧
      s.pending = 1 ∧ s.player.currentTrack.filename = "a" ∧
      (s.player.skipQueue 1 true true false).2.map (·.filename) = ["b"] ∧
      ¬ RemovesCurrent s.player := by
  refine ⟨_, rfl, rfl, rfl, by decide, fun h => ?_⟩
  exact absurd (h.1 _ List.mem_cons_self) (by decide)

end Musicat.Player
