/-!
# Tracks and the guild player

The data of `mctrack.h` and `player.h` that the queue, the track marker and the
dashboard read or write. `std::deque<MCTrack>` is a list with its front first,
a snowflake is a natural number, and a JSON document is kept as its text.
`int64_t` counts are integers, sizes are natural numbers.
-/

namespace Musicat.Player

/-- `loop_mode_t`. -/
inductive LoopMode where
  | lNone
  | lSong
  | lQueue
  | lSongQueue
  deriving DecidableEq, Repr

/-- `MCTrack`; `rpt` is its `repeat`, `infoRaw = none` a null `info.raw`. -/
structure MCTrack where
  raw : String := "null"
  filename : String := ""
  userId : Nat := 0
  skipVote : List Nat := []
  infoRaw : Option String := none
  seekable : Bool := false
  rpt : Int := 0
  seekTo : String := ""
  currentByte : Int := 0
  deriving DecidableEq, Repr

namespace MCTrack

/-- `MCTrack::is_empty`. -/
def isEmpty (t : MCTrack) : Bool := t.filename.isEmpty

/-- `MCTrack::check_for_seek_to`. -/
def checkForSeekTo (t : MCTrack) : MCTrack :=
  if t.currentByte < 1 then { t with seekTo := "" } else { t with seekTo := "y" }

/-- The track with its repeat count reset. -/
def resetRepeat (t : MCTrack) : MCTrack := { t with rpt := 0 }

/-- The entry behind a track: what is left once the playback marks that skipping
and the track marker reset (repeat count, skip votes, pending seek) are cleared. -/
def entry (t : MCTrack) : MCTrack := { t with rpt := 0, skipVote := [], seekTo := "" }

/-- The entry without how far it has been played. -/
def song (t : MCTrack) : MCTrack := { t.entry with currentByte := 0 }

@[simp] theorem resetRepeat_filename (t : MCTrack) : t.resetRepeat.filename = t.filename := rfl
@[simp] theorem resetRepeat_rpt (t : MCTrack) : t.resetRepeat.rpt = 0 := rfl
@[simp] theorem entry_resetRepeat (t : MCTrack) : t.resetRepeat.entry = t.entry := rfl
@[simp] theorem song_resetRepeat (t : MCTrack) : t.resetRepeat.song = t.song := rfl
@[simp] theorem entry_filename (t : MCTrack) : t.entry.filename = t.filename := rfl

theorem filename_eq_of_entry_eq {t u : MCTrack} (h : t.entry = u.entry) :
    t.filename = u.filename := by
  simpa using congrArg MCTrack.filename h

theorem filename_of_song {t u : MCTrack} (h : t.song = u.song) : t.filename = u.filename := by
  have := congrArg MCTrack.filename h
  exact this

end MCTrack

/-- `guild_player_t`. -/
structure GuildPlayer where
  guildId : Nat := 0
  voiceChannelId : Nat := 0
  maxHistorySize : Nat := 1000
  shiftedTrack : Nat := 0
  queue : List MCTrack := []
  currentTrack : MCTrack := {}
  dashboardControlRequests : List Nat := []
  loopMode : LoopMode := .lNone
  autoPlay : Bool := true
  savedQueueLoaded : Bool := false
  savedConfigLoaded : Bool := false
  triedContinuing : Bool := false
  processingAudio : Bool := false
  stopping : Bool := false
  stopped : Bool := false
  deriving DecidableEq, Repr

/-- A loaded queue of three, its front playing. -/
def threeTracks : GuildPlayer :=
  { queue := [{ filename := "p" }, { filename := "a" }, { filename := "b" }]
    currentTrack := { filename := "p" }
    savedQueueLoaded := true
    savedConfigLoaded := true }

end Musicat.Player
