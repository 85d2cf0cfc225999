import Musicat.Lib.Kept
import Musicat.Player.Failed
import Musicat.Player.Rearranged

/-!
# Where the tracks of a queue come from

All handlers of a player together: the marker, the worker, the skips, going
back, the queue commands. What autoplay finds comes in by a step of `addTrack`
like any other track. A track is followed by its song, which the handlers
leave alone. What is in the queue was in it before or was added, no more often
(`queue_provenance`), and it all stays while no step gives a track up.
-/

namespace Musicat.Player

open GuildPlayer Lib

/-- A step of a handler. -/
inductive PlayerAction where
  /-- One of those around a playback. -/
  | playback (a : FailAction)
  /-- `button_run_prev`. -/
  | prev (status : Int) (voiceClient inVoice : Bool)

section
variable (getTitle : MCTrack → String)

def playerStep (s : FailState) : PlayerAction → Option FailState
  | .playback a => failStep getTitle s a
  | .prev status voiceClient inVoice =>
    some { s with player := buttonRunPrev s.player status voiceClient inVoice }

end

/-- What the queue holds, but for repeat counts, votes and how far a track was played. -/
def songs (p : GuildPlayer) : List MCTrack := p.queue.map MCTrack.song

/-- The marker goes on to load the saved queue. -/
def loadsQueue (env : MarkerEnv) (p : GuildPlayer) : Bool :=
  env.running && !p.processingAudio && !env.disconnecting && !p.savedQueueLoaded

/-- The tracks of the saved queue that `load_guild_current_queue` adds. -/
def savedTracks (env : MarkerEnv) : List MCTrack :=
  (env.savedQueue.getD []).filterMap fun t =>
    trackToAdd { t with userId := env.shaId } (env.fetchInfo t)

/-- What a step puts into the queue. -/
def entered (s : FailState) : PlayerAction → List MCTrack
  | .playback (.marker env _) =>
    if loadsQueue env s.player then (savedTracks env).map MCTrack.song else []
  | .playback (.op (.addTrack track _ _ fetched)) =>
    (trackToAdd track fetched).toList.map MCTrack.song
  | _ => []

/-- The player as the marker finds it after the two loads. -/
def loaded (env : MarkerEnv) (p : GuildPlayer) : GuildPlayer :=
  (p.loadGuildCurrentQueue env).loadGuildPlayerConfig env

/-- A step that gives no track up: a marker in a loop mode, a worker that finds its file or is too
late, a skip that pushes back or pops nothing, an `add_track`, a move, a publish of the queue, a
shuffle whose draws are indices, a clear of less than two, a reverse by the size of the queue, going
back. Others may happen to remove nothing, and do not count. -/
def GivesUpNone (s : FailState) : PlayerAction → Prop
  | .playback (.marker env _) => (loaded env s.player).loopMode ≠ .lNone
  | .playback (.worker env) => env.fileExists ∨ env.terminating
  | .playback (.skip _ amount remove) =>
    pushesBack s.player.loopMode remove ∨ skipPops s.player amount = 0
  | .playback (.op op) =>
    match op with
    | .addTrack .. | .move .. | .publish => True
    | .remove .. | .clearUser _ => False
    | .shuffle rand => DrawsInt rand (s.player.queue.length - 1)
  | .playback (.clear siz) => siz < 2
  | .playback (.reverse siz) => siz = s.player.queue.length
  | .playback .play | .playback .doneStreaming | .prev .. => True

/-! ## One method -/

section
variable {p : GuildPlayer} {keep : Prop}

theorem resetShifted_kept (p : GuildPlayer) : Kept keep (songs p.resetShifted.1) (songs p) :=
  .of_perm ((resetShifted_spec p).2.1.map _)

theorem publishQueue_kept (p : GuildPlayer) : Kept keep (songs p.publishQueue) (songs p) :=
  resetShifted_kept p

theorem addTrack_kept (p : GuildPlayer) (track : MCTrack) (top : Bool) (argSlip : Int)
    (fetched : Option (Option String)) :
    Kept keep (songs (p.addTrack track top argSlip fetched))
      (songs p ++ (trackToAdd track fetched).toList.map MCTrack.song) := by
  rw [songs, songs, ← List.map_append]
  exact .of_perm ((addTrack_perm p track top argSlip fetched).map _)

theorem move_kept (getTitle : MCTrack → String) (p : GuildPlayer) (fr toPos : Int) :
    Kept keep (songs (moveSlashRun getTitle p fr toPos).1) (songs p) := by
  unfold moveSlashRun
  dsimp only
  split
  · exact .refl _
  · rename_i h2
    split
    · exact .refl _
    · rename_i t ht
      split
      · obtain ⟨hlt, rfl⟩ := List.getElem?_eq_some_iff.1 ht
        have hto : (clampMove toPos ((p.queue.length : Int) - 1)).toNat ≤
            (p.queue.eraseIdx (clampMove fr ((p.queue.length : Int) - 1)).toNat).length := by
          rw [List.length_eraseIdx_of_lt hlt]
          unfold clampMove
          dsimp only
          omega
        refine (publishQueue_kept _).trans ?_
        exact .of_perm (((List.perm_insertIdx _ _ hto).trans
          (List.getElem_cons_eraseIdx_perm hlt)).map _)
      · exact .refl _

theorem eraseFrom_sublist (b : Nat) :
    ∀ (amount : Nat) (queue : List MCTrack), (eraseFrom b amount queue).Sublist queue
  | 0, _ => .refl _
  | amount + 1, queue => by
    rw [eraseFrom]
    split
    · exact (eraseFrom_sublist b amount _).trans (List.eraseIdx_sublist ..)
    · exact .refl _

theorem removeTrack_kept (p : GuildPlayer) (pos amount toPos : UInt64) :
    Kept False (songs (p.removeTrack pos amount toPos).1) (songs p) := by
  unfold removeTrack
  split
  · exact .refl _
  · dsimp only
    split
    · exact resetShifted_kept p
    · exact (Kept.of_sublist ((eraseFrom_sublist _ _ _).map _) False.elim).trans
        (resetShifted_kept p)

theorem remove_kept (p : GuildPlayer) (fr amount toPos : Int) :
    Kept False (songs (removeSlashRun p fr amount toPos).1) (songs p) := by
  unfold removeSlashRun
  dsimp only
  split
  · exact resetShifted_kept p
  · split
    · exact resetShifted_kept p
    · have hremoved (amount : Int) : Kept False (songs (p.resetShifted.1.removeTrack
          (UInt64.ofInt fr) (UInt64.ofInt amount) (UInt64.ofInt toPos)).1) (songs p) :=
        (removeTrack_kept ..).trans (resetShifted_kept p)
      repeat' split
      all_goals exact hremoved _

theorem clearUser_kept (p : GuildPlayer) (userId : Nat) :
    Kept False (songs (Player.clearUser p userId).1) (songs p) := by
  refine Kept.trans ?_ (resetShifted_kept p)
  unfold Player.clearUser removeTrackByUser
  split
  · exact .refl _
  · split
    · exact .refl _
    · rename_i t queue hq
      rw [songs, songs, hq]
      exact .of_sublist ((List.filter_sublist.cons_cons t).map _) False.elim

/-- Whatever is drawn, no index is drawn twice. -/
theorem drawIndexes_subperm (rand : Nat → UInt64) :
    ∀ (n i : Nat) (ori : List Nat), (drawIndexes rand n i ori).Subperm ori
  | 0, _, ori => List.nil_subperm
  | n + 1, i, ori => by
    rw [drawIndexes]
    split
    · exact List.nil_subperm
    · split
      · rename_i d hd
        obtain ⟨hlt, rfl⟩ := List.getElem?_eq_some_iff.1 hd
        have hrest := drawIndexes_subperm rand n (i + 1)
          (ori.eraseIdx (drawIndex (rand i) ori.length).toNat)
        exact ((List.subperm_cons _).2 hrest).trans
          (List.getElem_cons_eraseIdx_perm hlt).subperm
      · exact List.nil_subperm

theorem shuffle_kept (p : GuildPlayer) (rand : Nat → UInt64) :
    Kept (DrawsInt rand (p.queue.length - 1)) (songs (p.shuffle rand).1) (songs p) := by
  unfold GuildPlayer.shuffle
  split
  · exact .refl _
  · refine Kept.trans ?_ (resetShifted_kept p)
    have hlen := (resetShifted_spec p).2.1.length_eq
    dsimp only
    split
    · exact .refl _
    · rename_i os rest hq
      rw [hq, List.length_cons] at hlen
      have hsub : (shuffleIndexes rand rest.length).Subperm (List.range rest.length) :=
        drawIndexes_subperm rand _ _ _
      rw [← hlen, Nat.add_sub_cancel]
      have hkept : Kept (DrawsInt rand rest.length)
          ((shuffleIndexes rand rest.length).filterMap (rest[·]?)) rest := by
        obtain ⟨l, hperm, hl⟩ := hsub
        have hall := filterMap_range_getElem? rest
        refine ⟨⟨l.filterMap (rest[·]?), hperm.filterMap _, ?_⟩, fun hdraws => ?_⟩
        · have := hl.filterMap (rest[·]?)
          rwa [hall] at this
        · have := (shuffleIndexes_perm hdraws).filterMap (rest[·]?)
          rwa [hall] at this
      rw [songs, songs, hq]
      exact (hkept.cons os).map _

/-- `manager::skip` turns the queue, or drops from its front. -/
theorem managerSkip_kept (env : SkipEnv) (p : GuildPlayer) (amount : Int) (remove : Bool) :
    Kept (pushesBack p.loopMode remove ∨ skipPops p amount = 0)
      (songs (managerSkip env p amount remove).1) (songs p) := by
  unfold managerSkip
  split
  · exact .refl _
  · split
    · exact resetShifted_kept p
    · split
      · exact resetShifted_kept p
      · have hqueue : Kept (pushesBack p.loopMode remove ∨ skipPops p amount = 0)
            (songs (p.managerSkipQueue amount remove).1) (songs p) := by
          refine Kept.trans ?_ (resetShifted_kept p)
          rw [songs, (managerSkipQueue_songs p amount remove).1]
          split
          · exact .of_perm (List.rotate_perm ..)
          · rename_i hpush
            refine .of_sublist (List.drop_sublist ..) fun h => ?_
            rw [h.resolve_left hpush]
            exact .refl _
        dsimp only [skipPlayback]
        split
        · exact hqueue
        · rw [songs, (stop_songs _ _).1]
          exact hqueue

theorem buttonRunPrev_kept (p : GuildPlayer) (status : Int) (voiceClient inVoice : Bool) :
    Kept keep (songs (buttonRunPrev p status voiceClient inVoice)) (songs p) := by
  unfold buttonRunPrev
  split
  · exact .refl _
  · have hprev : Kept keep (songs p.prevQueue) (songs p) := by
      refine Kept.trans ?_ (resetShifted_kept p)
      unfold prevQueue
      dsimp only
      split
      · rw [songs, resetCurrentRepeat_queue]
        exact .refl _
      · rename_i back hback
        rw [resetCurrentRepeat_queue] at hback ⊢
        obtain ⟨front, hfront⟩ := List.getLast?_eq_some_iff.1 hback
        have hsongs : songs p.resetShifted.1 = (front ++ [back]).map MCTrack.song := by
          rw [← hfront, map_song_resetFrontRepeat]
          rfl
        rw [songs, hsongs, hfront]
        dsimp only
        rw [← List.cons_append, List.dropLast_concat]
        exact .of_perm ((List.perm_append_singleton back front).symm.map _)
    dsimp only [skipPlayback]
    split
    · exact hprev
    · split
      · exact hprev
      · rw [songs, (stop_songs _ _).1]
        exact hprev

theorem worker_kept (env : WorkerEnv) (p : GuildPlayer) :
    Kept (env.fileExists ∨ env.terminating) (songs (trackMarkerWorker env p)) (songs p) := by
  unfold trackMarkerWorker
  split
  · exact .refl _
  · rename_i hnot
    have hpop : Kept (env.fileExists ∨ env.terminating) (songs (p.skipQueue 1 true true false).1)
        (songs p) := by
      refine Kept.trans ?_ (resetShifted_kept p)
      rw [skipQueue_one, songs, songs, ← map_song_resetFrontRepeat p.resetShifted.1.queue]
      refine .of_sublist ((List.tail_sublist _).map _) fun h => absurd h ?_
      simpa using hnot
    dsimp only
    split <;> exact hpop

theorem clearAll_kept (siz : Nat) (p : GuildPlayer) :
    Kept (siz < 2) (songs (clearAll siz p)) (songs p) := by
  refine Kept.trans ?_ (resetShifted_kept p)
  unfold clearAll
  dsimp only
  split
  · exact .refl _
  · rename_i hsiz
    split
    · exact .refl _
    · rename_i t queue hq
      refine (publishQueue_kept _).trans ?_
      rw [songs, songs, hq]
      exact .of_sublist ((List.nil_sublist queue).cons_cons t |>.map _) fun h => absurd h hsiz

theorem reverseAll_kept (siz : Nat) (p : GuildPlayer) :
    Kept (siz = p.queue.length) (songs (reverseAll siz p)) (songs p) := by
  have hlen := (resetShifted_spec p).2.1.length_eq
  refine Kept.trans ?_ (resetShifted_kept p)
  unfold reverseAll
  dsimp only
  split
  · exact .refl _
  · split
    · exact .refl _
    · rename_i t queue hq
      rw [hq, List.length_cons] at hlen
      split
      · refine (publishQueue_kept _).trans ?_
        rw [songs, songs, hq]
        refine Kept.map _ (Kept.cons t (Kept.trans (.of_perm (List.reverse_perm _)) ?_))
        refine .of_sublist (List.take_sublist ..) fun h => ?_
        rw [List.take_of_length_le (by omega)]
      · exact .refl _

/-! ## The marker -/

theorem loadGuildCurrentQueue_kept (keep : Prop) (env : MarkerEnv) (p : GuildPlayer) :
    Kept keep (songs (p.loadGuildCurrentQueue env))
      (songs p ++ if p.savedQueueLoaded then [] else (savedTracks env).map MCTrack.song) := by
  have hfold (tracks : List MCTrack) (p : GuildPlayer) :
      Kept keep (songs (tracks.foldl (fun p t =>
          p.addTrack { t with userId := env.shaId } false 0 (env.fetchInfo t)) p))
        (songs p ++ (tracks.filterMap fun t =>
          trackToAdd { t with userId := env.shaId } (env.fetchInfo t)).map MCTrack.song) := by
    induction tracks generalizing p with
    | nil => exact .of_eq (by simp)
    | cons t tracks ih =>
      refine (ih _).trans (.trans ((addTrack_kept ..).append_right _) (.of_eq ?_))
      rw [List.append_assoc, ← List.map_append]
      cases h : trackToAdd { t with userId := env.shaId } (env.fetchInfo t) <;> simp [h]
  unfold loadGuildCurrentQueue
  split
  · exact .of_eq (by simp)
  · unfold savedTracks
    cases env.savedQueue with
    | none => exact .of_eq (by simp)
    | some tracks => exact hfold tracks _

theorem loadGuildPlayerConfig_queue (env : MarkerEnv) (p : GuildPlayer) :
    (p.loadGuildPlayerConfig env).queue = p.queue := by
  unfold loadGuildPlayerConfig
  dsimp only
  repeat' split
  all_goals rfl

/-- The track that ended goes to the back or stays, unless there is no loop. -/
theorem finishFront_kept (p : GuildPlayer) :
    Kept (p.loopMode ≠ .lNone) (songs p.finishFront) (songs p) := by
  unfold finishFront
  split
  · exact .refl _
  · rename_i front queue hq
    dsimp only
    split
    · exact .of_eq (by rw [songs, songs, hq]; rfl)
    · unfold popByLoopMode
      rw [songs, songs, hq]
      dsimp only
      split
      · rename_i hmode
        exact .of_sublist ((List.sublist_cons_self _ _).map _) fun h => absurd hmode h
      · exact .of_perm ((List.perm_append_singleton front queue).map _)
      · exact .of_eq (by rw [hq])

theorem startFront_songs (p : GuildPlayer) : songs p.startFront = songs p := by
  unfold startFront songs
  split
  · rfl
  · rename_i hq
    rw [hq]
    rfl

theorem marker_kept (env : MarkerEnv) (trackMeta : String) (p : GuildPlayer) :
    Kept ((loaded env p).loopMode ≠ .lNone) (songs (handleOnTrackMarker env trackMeta p).1)
      (songs p ++ if loadsQueue env p then (savedTracks env).map MCTrack.song else []) := by
  unfold handleOnTrackMarker loadsQueue
  by_cases hrun : env.running
  swap
  · exact .of_eq (by simp [hrun])
  by_cases hproc : p.processingAudio
  · exact .of_eq (by simp [hrun, hproc])
  by_cases hdis : env.disconnecting
  · exact .of_eq (by simp [hrun, hproc, hdis])
  simp only [hrun, hproc, hdis, Bool.not_true, Bool.false_eq_true, if_false, Bool.not_false,
    Bool.true_and, Bool.not_eq_true']
  have hload : Kept ((loaded env p).loopMode ≠ .lNone) (songs (loaded env p))
      (songs p ++
        if p.savedQueueLoaded = false then (savedTracks env).map MCTrack.song else []) := by
    have h := loadGuildCurrentQueue_kept ((loaded env p).loopMode ≠ .lNone) env p
    rw [show songs (loaded env p) = songs (p.loadGuildCurrentQueue env) by
      rw [songs, songs, loaded, loadGuildPlayerConfig_queue]]
    cases hl : p.savedQueueLoaded <;> simpa [hl] using h
  refine Kept.trans ?_ hload
  change Kept _ (songs (if (loaded env p).queue.isEmpty then _ else _ : GuildPlayer × Bool).1) _
  split
  · exact .refl _
  · have hmode : (loaded env p).resetShifted.1.loopMode = (loaded env p).loopMode :=
      resetShifted_loopMode _
    refine Kept.trans ?_ (resetShifted_kept _)
    split
    · split <;> (rw [startFront_songs]; exact hmode ▸ finishFront_kept _)
    · split <;> exact .of_eq (startFront_songs _)

/-! ## Runs -/

variable {getTitle : MCTrack → String} {s s' : FailState}

theorem playerStep_kept {a : PlayerAction} (h : playerStep getTitle s a = some s') :
    Kept (GivesUpNone s a) (songs s'.player) (songs s.player ++ entered s a) := by
  cases a with
  | prev status voiceClient inVoice =>
    cases h
    exact (buttonRunPrev_kept ..).trans (.nothing_entered _)
  | playback a =>
    cases a with
    | marker env trackMeta =>
      cases h
      exact marker_kept env trackMeta s.player
    | worker env =>
      simp only [playerStep, failStep] at h
      split at h <;> cases h
      exact (worker_kept env _).trans (.nothing_entered _)
    | skip env amount remove =>
      cases h
      exact (managerSkip_kept ..).trans (.nothing_entered _)
    | op op =>
      cases h
      cases op with
      | addTrack track top argSlip fetched => exact addTrack_kept ..
      | move fr toPos => exact (move_kept ..).trans (.nothing_entered _)
      | remove fr amount toPos => exact (remove_kept ..).trans (.nothing_entered _)
      | clearUser userId => exact (clearUser_kept ..).trans (.nothing_entered _)
      | shuffle rand => exact (shuffle_kept ..).trans (.nothing_entered _)
      | publish => exact (publishQueue_kept _).trans (.nothing_entered _)
    | clear siz =>
      cases h
      exact (clearAll_kept ..).trans (.nothing_entered _)
    | reverse siz =>
      cases h
      exact (reverseAll_kept ..).trans (.nothing_entered _)
    | play =>
      cases h
      exact (Kept.of_eq (resetFirst_songs _).1).trans (.nothing_entered _)
    | doneStreaming =>
      cases h
      exact .nothing_entered _

/-- **Every track in the queue was in it or was added, no more often, and while no step gives a
track up they all are there.** -/
theorem queue_provenance {l : List PlayerAction} {added : List MCTrack}
    (h : run (noted (playerStep getTitle) (noteEntered entered)) (s, []) l = some (s', added)) :
    (songs s'.player).Subperm (songs s.player ++ added) ∧
      (Along (playerStep getTitle) GivesUpNone s l →
        (songs s'.player).Perm (songs s.player ++ added)) := by
  obtain ⟨new, rfl, hkept⟩ := Kept.run (fun s : FailState => songs s.player)
    (fun _ _ _ hs => playerStep_kept hs) h
  exact hkept

/-- A track added behind the playing one, a skip in a loop over the queue, the marker that follows,
and back again. -/
def loopedAround : List PlayerAction :=
  [.playback (.op (.addTrack { filename := "c", infoRaw := some "null" } false 0 none)),
    .playback .play, .playback (.skip ⟨some 1, true, some 1, true⟩ 2 false),
    .playback .doneStreaming, .playback (.marker {} "e"),
    .prev 128 true true]

theorem queue_provenance_loopedAround :
    ∃ s' added, run (noted (playerStep MCTrack.filename) (noteEntered entered))
        ({ player := { threeTracks with loopMode := .lQueue } }, []) loopedAround =
        some (s', added) ∧
      (songs s'.player).Subperm
          (songs { threeTracks with loopMode := .lQueue } ++ added) ∧
        (Along (playerStep MCTrack.filename) GivesUpNone
            { player := { threeTracks with loopMode := .lQueue } } loopedAround →
          (songs s'.player).Perm (songs { threeTracks with loopMode := .lQueue } ++ added)) := by
  obtain ⟨⟨s', added⟩, h⟩ := Option.isSome_iff_exists.1 (by decide :
    (run (noted (playerStep MCTrack.filename) (noteEntered entered))
      ({ player := { threeTracks with loopMode := .lQueue } }, []) loopedAround).isSome)
  exact ⟨s', added, h, queue_provenance h⟩

end

end Musicat.Player
