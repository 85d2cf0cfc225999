import Musicat.Lib.Playlist
import Musicat.Player.Skip
import Musicat.Stream.Context

/-!
# Track after track

A playback of the current track and the marker `"e"` at its end, over and over.
The repeat count is kept twice, in `current_track` and in the front of the
queue, and both copies go down together. `playlist` forgets what the playbacks
change; on it a marker is an `advance`, and the loop mode says what becomes of a
track whose repeats are used up.
-/

namespace Musicat.Stream

open Player GuildPlayer Lib
open Player.MCTrack (song)

/-- A playback that starts and ends; `byte` is where `current_byte` has got to. -/
def playback (byte : Int) (p : GuildPlayer) : GuildPlayer :=
  let p := seekCurrentTrack { p.initForStream.1 with triedContinuing := false }
  { p with currentTrack := { p.currentTrack with currentByte := byte } }.doneStreaming

/-- What a playback and the marker after it meet. -/
structure Round where
  env : MarkerEnv := {}
  byte : Int := 0

def nextTrack (r : Round) (p : GuildPlayer) : GuildPlayer :=
  (handleOnTrackMarker r.env "e" (playback r.byte p)).1

def playAll (rounds : List Round) (p : GuildPlayer) : GuildPlayer :=
  rounds.foldl (fun p r => nextTrack r p) p

/-- The songs of a queue with their repeat counts. -/
def playlist (queue : List MCTrack) : List (MCTrack × Int) := queue.map fun t => (song t, t.rpt)

/-- What a loop mode does with a track whose repeats are used up. -/
def finish : LoopMode → Finish
  | .lNone => .leave
  | .lQueue => .toBack
  | .lSong | .lSongQueue => .stay

/-- The front of the queue is the current track. -/
structure OnFront (p : GuildPlayer) : Prop where
  shifted : p.shiftedTrack = 0
  running : p.stopped = false
  current : (playlist p.queue).head? = some (song p.currentTrack, p.currentTrack.rpt)

/-- What `rounds` playbacks make of the player `p`: the playlist `l`, from its front. -/
structure PlayedTo (p q : GuildPlayer) (l : List (MCTrack × Int)) : Prop where
  playlist : playlist q.queue = l
  loopMode : q.loopMode = p.loopMode
  queueLoaded : q.savedQueueLoaded = p.savedQueueLoaded
  configLoaded : q.savedConfigLoaded = p.savedConfigLoaded
  onFront : l ≠ [] → OnFront q
  reset : l = [] → q.currentTrack = {}

/-! ## One playback -/

section
variable {p : GuildPlayer} {r : Round}

@[simp] theorem playlist_nil : playlist [] = [] := rfl

@[simp] theorem playlist_cons (t : MCTrack) (queue : List MCTrack) :
    playlist (t :: queue) = (song t, t.rpt) :: playlist queue := rfl

theorem playlist_eq_nil {queue : List MCTrack} : playlist queue = [] ↔ queue = [] :=
  List.map_eq_nil_iff

/-- What a playback leaves as it is: all that the marker goes by. -/
structure Untouched (p q : GuildPlayer) : Prop where
  shifted : q.shiftedTrack = p.shiftedTrack
  stopped : q.stopped = p.stopped
  loopMode : q.loopMode = p.loopMode
  queueLoaded : q.savedQueueLoaded = p.savedQueueLoaded
  configLoaded : q.savedConfigLoaded = p.savedConfigLoaded
  playlist : playlist q.queue = playlist p.queue
  song : song q.currentTrack = song p.currentTrack
  rpt : q.currentTrack.rpt = p.currentTrack.rpt

theorem Untouched.trans {p q r : GuildPlayer} (h₁ : Untouched p q) (h₂ : Untouched q r) :
    Untouched p r where
  shifted := h₂.shifted.trans h₁.shifted
  stopped := h₂.stopped.trans h₁.stopped
  loopMode := h₂.loopMode.trans h₁.loopMode
  queueLoaded := h₂.queueLoaded.trans h₁.queueLoaded
  configLoaded := h₂.configLoaded.trans h₁.configLoaded
  playlist := h₂.playlist.trans h₁.playlist
  song := h₂.song.trans h₁.song
  rpt := h₂.rpt.trans h₁.rpt

theorem untouched_resetFirst (p : GuildPlayer) : Untouched p p.resetFirstTrackCurrentByte := by
  unfold resetFirstTrackCurrentByte
  cases hq : p.queue <;> constructor <;> simp [hq, MCTrack.song, MCTrack.entry]

theorem untouched_seekCurrentTrack (p : GuildPlayer) : Untouched p (seekCurrentTrack p) := by
  have hcheck (t : MCTrack) : song t.checkForSeekTo = song t ∧ t.checkForSeekTo.rpt = t.rpt := by
    unfold MCTrack.checkForSeekTo
    split <;> exact ⟨rfl, rfl⟩
  obtain ⟨hsong, hrpt⟩ := hcheck p.currentTrack
  unfold seekCurrentTrack
  dsimp only
  split
  · exact ⟨rfl, rfl, rfl, rfl, rfl, rfl, hsong, hrpt⟩
  · refine Untouched.trans ?_ (untouched_resetFirst _)
    exact ⟨rfl, rfl, rfl, rfl, rfl, rfl, hsong, hrpt⟩

theorem untouched_playback (byte : Int) (p : GuildPlayer) : Untouched p (playback byte p) := by
  have hstart (q : GuildPlayer) :
      Untouched q { q with processingAudio := true, triedContinuing := false } :=
    ⟨rfl, rfl, rfl, rfl, rfl, rfl, rfl, rfl⟩
  have hdone (q : GuildPlayer) :
      Untouched q { q with
        currentTrack := { q.currentTrack with currentByte := byte } }.doneStreaming :=
    ⟨rfl, rfl, rfl, rfl, rfl, rfl, rfl, rfl⟩
  have hinit := (untouched_resetFirst p).trans (hstart _)
  exact (hinit.trans (untouched_seekCurrentTrack _)).trans (hdone _)

/-! ## One marker -/

theorem playlist_popByLoopMode {t : MCTrack} {queue : List MCTrack} (hq : p.queue = t :: queue)
    (hr : ¬ 0 < t.rpt) :
    playlist p.popByLoopMode.queue = advance (finish p.loopMode) (playlist p.queue) := by
  unfold popByLoopMode
  rw [hq, playlist_cons, advance_cons, if_neg hr]
  cases p.loopMode <;> simp [finish, playlist, hq]

/-- **The two copies of the repeat count go down together**, or the loop mode takes over. -/
theorem playlist_finishFront {t : MCTrack} {queue : List MCTrack} (hq : p.queue = t :: queue)
    (hr : t.rpt = p.currentTrack.rpt) :
    playlist p.finishFront.queue = advance (finish p.loopMode) (playlist p.queue) := by
  by_cases hpos : 0 < t.rpt
  · unfold finishFront
    rw [hq, playlist_cons, advance_cons, if_pos hpos]
    dsimp only
    rw [if_pos ⟨hr ▸ hpos, hpos⟩, ← hr]
    rfl
  · have hpop : p.finishFront = p.popByLoopMode := by
      unfold finishFront
      rw [hq]
      dsimp only
      rw [if_neg fun h => hpos h.2]
    rw [hpop, playlist_popByLoopMode hq hpos]

theorem playlist_startFront (p : GuildPlayer) :
    playlist p.startFront.queue = playlist p.queue := by
  unfold startFront
  cases hq : p.queue <;> simp [song, MCTrack.entry]

theorem startFront_onFront (hs : p.shiftedTrack = 0) (hne : p.queue ≠ []) :
    OnFront p.startFront := by
  unfold startFront
  cases hq : p.queue with
  | nil => exact absurd hq hne
  | cons t queue => exact ⟨hs, rfl, rfl⟩

theorem startFront_currentTrack_of_nil (hq : p.queue = []) : p.startFront.currentTrack = {} := by
  unfold startFront
  rw [hq]

/-- **A playback and its marker advance the playlist.** -/
theorem nextTrack_spec (h : OnFront p) (henv : r.env.Passes p) :
    PlayedTo p (nextTrack r p) (advance (finish p.loopMode) (playlist p.queue)) := by
  have hu := untouched_playback r.byte p
  set q := playback r.byte p with hqdef
  have hcurrent : (playlist q.queue).head? = some (song q.currentTrack, q.currentTrack.rpt) := by
    rw [hu.playlist, h.current, hu.song, hu.rpt]
  cases hq : q.queue with
  | nil => simp [hq] at hcurrent
  | cons t queue =>
    simp only [hq, playlist_cons, List.head?_cons, Option.some.injEq, Prod.mk.injEq] at hcurrent
    have hmarker : nextTrack r p = q.finishFront.startFront := by
      unfold nextTrack
      rw [← hqdef, marker_e (henv.congr hu.queueLoaded hu.configLoaded) rfl
        (hu.stopped.trans h.running) (hu.shifted.trans h.shifted) hq,
        if_pos (MCTrack.filename_of_song hcurrent.1).symm]
    have hfin : playlist q.finishFront.queue = advance (finish p.loopMode) (playlist p.queue) := by
      rw [playlist_finishFront hq hcurrent.2, hu.playlist, hu.loopMode]
    obtain ⟨hshifted, hmode, hqueue, hconf⟩ := finishFront_frame q
    obtain ⟨hmode', hqueue', hconf'⟩ := startFront_frame q.finishFront
    rw [hmarker, ← hfin]
    refine ⟨playlist_startFront _, hmode'.trans (hmode.trans hu.loopMode),
      hqueue'.trans (hqueue.trans hu.queueLoaded), hconf'.trans (hconf.trans hu.configLoaded),
      fun hne => startFront_onFront (hshifted.trans (hu.shifted.trans h.shifted)) fun hnil => ?_,
      fun hnil => startFront_currentTrack_of_nil (playlist_eq_nil.1 hnil)⟩
    exact hne (playlist_eq_nil.2 hnil)

/-! ## Any number of them -/

theorem OnFront.ne_nil (h : OnFront p) : playlist p.queue ≠ [] := by
  intro hnil
  have := h.current
  simp [hnil] at this

theorem playAll_concat (rounds : List Round) (r : Round) (p : GuildPlayer) :
    playAll (rounds ++ [r]) p = nextTrack r (playAll rounds p) :=
  List.foldl_concat ..

/-- **Every playback and its marker advance the playlist**, until it is empty. -/
theorem playAll_spec (h : OnFront p) {rounds : List Round} (henv : ∀ r ∈ rounds, r.env.Passes p)
    (hne : ∀ k < rounds.length, (advance (finish p.loopMode))^[k] (playlist p.queue) ≠ []) :
    PlayedTo p (playAll rounds p)
      ((advance (finish p.loopMode))^[rounds.length] (playlist p.queue)) := by
  induction rounds using List.reverseRecOn with
  | nil => exact ⟨rfl, rfl, rfl, rfl, fun _ => h, fun hnil => absurd hnil h.ne_nil⟩
  | append_singleton rounds r ih =>
    have hp := ih (fun r hr => henv r (List.mem_append_left _ hr)) fun k hk =>
      hne k (by rw [List.length_append]; omega)
    have hq := nextTrack_spec (hp.onFront (hne rounds.length (by simp)))
      ((henv r (by simp)).congr hp.queueLoaded hp.configLoaded)
    rw [hp.playlist, hp.loopMode] at hq
    rw [playAll_concat, List.length_append, List.length_singleton,
      Function.iterate_succ_apply']
    exact ⟨hq.playlist, hq.loopMode.trans hp.loopMode, hq.queueLoaded.trans hp.queueLoaded,
      hq.configLoaded.trans hp.configLoaded, hq.onFront, hq.reset⟩

theorem PlayedTo.current {q : GuildPlayer} {l : List (MCTrack × Int)} (h : PlayedTo p q l)
    (hne : l ≠ []) : some (song q.currentTrack) = l.head?.map Prod.fst := by
  have := (h.onFront hne).current
  rw [h.playlist] at this
  rw [this]
  rfl

/-- Without a loop mode the entries are played in order, each once more than it is repeated. -/
theorem playAll_lNone (h : OnFront p) {rounds : List Round} (henv : ∀ r ∈ rounds, r.env.Passes p)
    (hmode : p.loopMode = .lNone) (hlen : rounds.length ≤ (plays (playlist p.queue)).length) :
    PlayedTo p (playAll rounds p) ((advance .leave)^[rounds.length] (playlist p.queue)) := by
  have hspec := playAll_spec h henv
  rw [hmode] at hspec
  apply hspec
  intro k hk hnil
  have hdrop := plays_iterate k (playlist p.queue)
  rw [show (advance .leave)^[k] (playlist p.queue) = [] from hnil] at hdrop
  have := congrArg List.length hdrop
  simp only [plays, List.flatMap_nil, List.length_nil, List.length_drop] at this hlen
  omega

theorem iterate_ne_nil {f : List (MCTrack × Int) → List (MCTrack × Int)}
    (hf : ∀ l, l ≠ [] → f l ≠ []) (k : Nat) {l : List (MCTrack × Int)} (h : l ≠ []) :
    f^[k] l ≠ [] := by
  induction k with
  | zero => exact h
  | succ k ih =>
    rw [Function.iterate_succ_apply']
    exact hf _ ih

/-- A loop mode that keeps every entry never empties the queue. -/
theorem playAll_loop (h : OnFront p) {rounds : List Round} (henv : ∀ r ∈ rounds, r.env.Passes p)
    (hmode : p.loopMode ≠ .lNone) :
    PlayedTo p (playAll rounds p)
        ((advance (finish p.loopMode))^[rounds.length] (playlist p.queue)) ∧
      (advance (finish p.loopMode))^[rounds.length] (playlist p.queue) ≠ [] := by
  have hf : ∀ l : List (MCTrack × Int), l ≠ [] → advance (finish p.loopMode) l ≠ [] := by
    intro l hl
    cases l with
    | nil => exact absurd rfl hl
    | cons e l =>
      rw [advance_cons]
      cases hm : p.loopMode <;> simp_all [finish] <;> split <;> simp
  exact ⟨playAll_spec h henv fun k _ => iterate_ne_nil hf k h.ne_nil,
    iterate_ne_nil hf _ h.ne_nil⟩

/-- **The run of a queue whose front is the current track.** Without a loop mode each entry is
played once more than it is repeated, in order, and then the queue is empty and the current track
reset; looping the queue rotates it; looping a song keeps it. -/
theorem end_of_track_law (h : OnFront p) {rounds : List Round}
    (henv : ∀ r ∈ rounds, r.env.Passes p) :
    (p.loopMode = .lNone →
      (∀ t, (plays (playlist p.queue))[rounds.length]? = some t →
        song (playAll rounds p).currentTrack = t ∧
          plays (playlist (playAll rounds p).queue) =
            (plays (playlist p.queue)).drop rounds.length) ∧
      (rounds.length = (plays (playlist p.queue)).length →
        (playAll rounds p).queue = [] ∧ (playAll rounds p).currentTrack = {})) ∧
    (p.loopMode = .lQueue → (∀ t ∈ p.queue, t.rpt = 0) →
      (playAll rounds p).queue.map song = (p.queue.map song).rotate rounds.length ∧
        some (song (playAll rounds p).currentTrack) =
          ((p.queue.map song).rotate rounds.length).head?) ∧
    (p.loopMode = .lSong ∨ p.loopMode = .lSongQueue →
      playlist (playAll rounds p).queue =
          (song p.currentTrack,
            p.currentTrack.rpt - min rounds.length p.currentTrack.rpt.toNat) ::
            (playlist p.queue).tail ∧
        song (playAll rounds p).currentTrack = song p.currentTrack) := by
  have hsongs (queue : List MCTrack) : queue.map song = (playlist queue).map Prod.fst := by
    unfold playlist
    rw [List.map_map]
    rfl
  refine ⟨fun hmode => ⟨fun t ht => ?_, fun hlen => ?_⟩, fun hmode hzero => ?_, fun hmode => ?_⟩
  · have hlt : rounds.length < (plays (playlist p.queue)).length :=
      (List.getElem?_eq_some_iff.1 ht).1
    have hp := playAll_lNone h henv hmode hlt.le
    have hplays := plays_iterate rounds.length (playlist p.queue)
    have hhead : (plays ((advance .leave)^[rounds.length] (playlist p.queue))).head? = some t := by
      rw [hplays, List.head?_drop, ht]
    rw [head?_plays] at hhead
    refine ⟨?_, by rw [hp.playlist, hplays]⟩
    have hne : (advance .leave)^[rounds.length] (playlist p.queue) ≠ [] := fun hnil => by
      simp [hnil] at hhead
    exact Option.some.inj ((hp.current hne).trans hhead)
  · have hp := playAll_lNone h henv hmode hlen.le
    have hnil : (advance .leave)^[rounds.length] (playlist p.queue) = [] := by
      rw [← plays_eq_nil, plays_iterate, hlen, List.drop_length]
    exact ⟨playlist_eq_nil.1 (hp.playlist.trans hnil), hp.reset hnil⟩
  · obtain ⟨hp, hne⟩ := playAll_loop h henv (by simp [hmode])
    have hzero' : ∀ e ∈ playlist p.queue, e.2 ≤ 0 := by
      intro e he
      obtain ⟨t, ht, rfl⟩ := List.mem_map.1 he
      exact (hzero t ht).le
    have hrotate := advance_toBack_iterate hzero' rounds.length
    rw [hmode] at hp hne
    rw [hsongs, hp.playlist, hsongs p.queue, hp.current hne]
    simp only [finish, hrotate, List.map_rotate, ← List.head?_map, and_self]
  · have hstay : finish p.loopMode = .stay := by
      rcases hmode with hm | hm <;> rw [hm] <;> rfl
    obtain ⟨hp, hne⟩ := playAll_loop h henv (by rcases hmode with hm | hm <;> simp [hm])
    rw [hstay] at hp hne
    have hcons : playlist p.queue =
        (song p.currentTrack, p.currentTrack.rpt) :: (playlist p.queue).tail := by
      rw [← List.cons_head?_tail (Option.mem_def.2 h.current), List.tail_cons]
    have hiter := advance_stay_iterate rounds.length (song p.currentTrack) p.currentTrack.rpt
      (playlist p.queue).tail
    rw [← hcons] at hiter
    refine ⟨hp.playlist.trans hiter, Option.some.inj ?_⟩
    rw [hp.current hne, hiter]
    rfl

end

/-! ## Setting the repeat count -/

/-- `guild_player_t::set_loop_mode`. -/
def setLoopMode (mode : Int) (p : GuildPlayer) : GuildPlayer :=
  { p with
    loopMode :=
      if mode = 0 then .lNone
      else if mode = 1 then .lSong
      else if mode = 2 then .lQueue
      else if mode = 3 then .lSongQueue
      else p.loopMode }

/-- `loop_mode_t` as the number it is. -/
def modeVal : LoopMode → Int
  | .lNone => 0
  | .lSong => 1
  | .lQueue => 2
  | .lSongQueue => 3

/-- `MIN_VAL`. -/
def minVal : Int := 0

/-- `loop_message`. -/
def loopMessage : LoopMode → String
  | .lNone => "Turned off repeat mode"
  | .lSong => "Set to repeat a song"
  | .lQueue => "Set to repeat queue"
  | .lSongQueue => "Set to repeat a song and not to remove skipped song"

/-- What `loop::run` replies to a repeat count. -/
def repeatReply (title : String) (amount : Int) : String :=
  (if amount = 0 then "Won't" else "Will") ++ " repeat `" ++ title ++ "` " ++
    (if amount = 0 then "anymore"
    else "for " ++ toString amount ++ " more time" ++ if amount ≠ 1 then "s" else "")

/-- `loop::run`, once it has checked the voice channels: the player, the status and the reply. -/
def loopRun (getTitle : MCTrack → String) (mode amount : Int) (p : GuildPlayer) :
    GuildPlayer × Int × String :=
  if mode < 0 ∨ 3 < mode then (p, 1, "Invalid mode")
  else
    let p := p.resetShifted.1
    if !p.currentTrack.isEmpty && minVal ≤ amount && mode = 1 then
      let p := { p with currentTrack := { p.currentTrack with rpt := amount } }
      let queue := if p.queue.isEmpty then [p.currentTrack] else p.queue
      ({ p with queue := queue.modifyHead ({ · with rpt := amount }) }, 1,
        repeatReply (getTitle p.currentTrack) amount)
    else if modeVal p.loopMode = mode then (p, 1, "Already set to that mode")
    else
      let p := setLoopMode mode p
      (p, 1, loopMessage p.loopMode)

/-- **A repeat count is set in both places**, and the rest of the queue stays. -/
theorem loopRun_onFront {p : GuildPlayer} (h : OnFront p) (getTitle : MCTrack → String)
    (mode amount : Int) :
    OnFront (loopRun getTitle mode amount p).1 ∧
      (playlist (loopRun getTitle mode amount p).1.queue).tail = (playlist p.queue).tail := by
  unfold loopRun
  rw [resetShifted_of_zero h.shifted]
  split
  · exact ⟨h, rfl⟩
  · dsimp only
    split
    · obtain ⟨t, queue, hq⟩ := List.exists_cons_of_ne_nil (mt playlist_eq_nil.2 h.ne_nil)
      have hcurrent := h.current
      rw [hq, playlist_cons, List.head?_cons, Option.some.injEq, Prod.mk.injEq] at hcurrent
      simp only [hq, List.isEmpty_cons, Bool.false_eq_true, if_false, List.modifyHead_cons,
        playlist_cons, List.tail_cons, and_true]
      refine ⟨h.shifted, h.running, ?_⟩
      have hsong (u : MCTrack) : song { u with rpt := amount } = song u := rfl
      rw [playlist_cons, List.head?_cons, hsong, hsong, hcurrent.1]
    · split
      · exact ⟨h, rfl⟩
      · exact ⟨⟨h.shifted, h.running, h.current⟩, rfl⟩

/-! ## Two entries of one file -/

/-- The front is to be repeated twice, and comes again at the end. -/
def repeated : GuildPlayer :=
  { threeTracks with
    queue := [{ filename := "p", rpt := 2 }, { filename := "a" }, { filename := "p" }]
    currentTrack := { filename := "p", rpt := 2 } }

theorem end_of_track_law_repeated :
    ((playAll (List.replicate 3 {}) repeated).currentTrack.filename = "a") ∧
      (playAll (List.replicate 5 {}) repeated).queue = [] := by
  have henv : ∀ n, ∀ r ∈ List.replicate n ({} : Round), r.env.Passes repeated := fun n r hr => by
    rw [List.eq_of_mem_replicate hr]
    exact ⟨rfl, rfl, .inl rfl, rfl⟩
  have hfront : OnFront repeated := ⟨rfl, rfl, rfl⟩
  constructor
  · have := ((end_of_track_law hfront (henv 3)).1 rfl).1 { filename := "a" } rfl
    exact congrArg MCTrack.filename this.1
  · exact (((end_of_track_law hfront (henv 5)).1 rfl).2 rfl).1

end Musicat.Stream
