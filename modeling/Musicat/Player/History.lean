import Musicat.Lib.Lists
import Musicat.Player.Config

/-!
# The history of a player

Every playback that starts is recorded in the history, which is then cut to its
limit, but not when the limit is zero: then nothing is recorded and nothing is
cut, whatever the history has from before (`history_bounded`). The limit changes
with the command and with the stored configuration.
-/

namespace Musicat.Player

open Lib

/-- The player with its `history`. -/
structure Playback where
  player : GuildPlayer := {}
  history : List String := []

namespace Playback

/-- `max_history_size`. -/
def limit (s : Playback) : Nat := s.player.maxHistorySize

/-- The history update of `spawn_handle_track_marker_worker`. -/
def recordStart (trackId : String) (s : Playback) : Playback :=
  if 0 < s.limit then
    let history := s.history ++ [trackId]
    let curHs := history.length
    if s.limit < curHs then { s with history := history.drop (curHs - s.limit) }
    else { s with history }
  else s

end Playback

inductive PlaybackAction where
  /-- A playback starts. -/
  | start (trackId : String)
  | setMaxHistorySize (siz : Nat)
  /-- `load_guild_player_config`. -/
  | loadConfig (env : MarkerEnv)

def playbackStep (s : Playback) : PlaybackAction → Option Playback
  | .start trackId => some (s.recordStart trackId)
  | .setMaxHistorySize siz => some { s with player := (s.player.setMaxHistorySize siz).1 }
  | .loadConfig env => some { s with player := s.player.loadGuildPlayerConfig env }

/-- The ids of the tracks that the actions start. -/
def starts (l : List PlaybackAction) : List String :=
  l.filterMap fun
    | .start trackId => some trackId
    | _ => none

/-- The history is within its limit. -/
def Bounded (s : Playback) : Prop := s.history.length ≤ s.limit

/-- There is a limit, or nothing to cut. -/
def Trims (s : Playback) : Prop := 0 < s.limit ∨ s.history = []

/-- A start leaves the history within its limit. -/
def BoundedAfter (s : Playback) : PlaybackAction → Prop
  | .start trackId => ∀ s' ∈ playbackStep s (.start trackId), Bounded s'
  | _ => True

/-- A start finds a limit, or nothing to cut. -/
def StartTrims (s : Playback) : PlaybackAction → Prop
  | .start _ => Trims s
  | _ => True

/-- The action leaves the limit `m`. -/
def KeepsLimit (m : Nat) (s : Playback) (a : PlaybackAction) : Prop :=
  ∀ s' ∈ playbackStep s a, s'.limit = m

instance (s : Playback) : Decidable (Bounded s) := inferInstanceAs (Decidable (_ ≤ _))

instance (s : Playback) : (a : PlaybackAction) → Decidable (BoundedAfter s a)
  | .start trackId => inferInstanceAs (Decidable (∀ s' ∈ playbackStep s (.start trackId), Bounded s'))
  | .setMaxHistorySize _ => isTrue trivial
  | .loadConfig _ => isTrue trivial

instance (m : Nat) (s : Playback) (a : PlaybackAction) : Decidable (KeepsLimit m s a) :=
  inferInstanceAs (Decidable (∀ s' ∈ playbackStep s a, s'.limit = m))

/-! ## One start -/

section
variable {s s' : Playback} {m : Nat}

@[simp] theorem recordStart_player (trackId : String) (s : Playback) :
    (s.recordStart trackId).player = s.player := by
  unfold Playback.recordStart
  dsimp only
  repeat' split
  all_goals rfl

@[simp] theorem recordStart_limit (trackId : String) (s : Playback) :
    (s.recordStart trackId).limit = s.limit := by
  rw [Playback.limit, recordStart_player, Playback.limit]

/-- A start with a limit keeps the last tracks up to it. -/
theorem recordStart_history (trackId : String) (h : 0 < s.limit) :
    (s.recordStart trackId).history = (s.history ++ [trackId]).rtake s.limit := by
  unfold Playback.recordStart
  rw [if_pos h]
  dsimp only
  split
  · rfl
  · rename_i hle
    rw [List.rtake, Nat.sub_eq_zero_of_le (Nat.le_of_not_lt hle), List.drop_zero]

theorem recordStart_of_no_limit (trackId : String) (h : s.limit = 0) :
    s.recordStart trackId = s := by
  rw [Playback.recordStart, h, if_neg (Nat.lt_irrefl 0)]

theorem bounded_recordStart_iff (trackId : String) (s : Playback) :
    Bounded (s.recordStart trackId) ↔ Trims s := by
  rcases Nat.eq_zero_or_pos s.limit with h | h
  · rw [recordStart_of_no_limit trackId h, Bounded, h, Nat.le_zero, List.length_eq_zero_iff, Trims,
      h]
    simp
  · refine iff_of_true ?_ (.inl h)
    rw [Bounded, recordStart_history trackId h, recordStart_limit, List.rtake, List.length_drop]
    omega

/-! ## A limit that stays -/

/-- The history is the last of the tracks started, as long as the limit is the same. -/
theorem history_of_keepsLimit (hs : s.limit = m) {before : List String}
    (hi : s.history = before.rtake m) {l : List PlaybackAction}
    (hc : Along playbackStep (KeepsLimit m) s l) (h : run playbackStep s l = some s') :
    s'.history = (before ++ starts l).rtake m := by
  induction l generalizing s before with
  | nil =>
    cases h
    simpa [starts] using hi
  | cons a l ih =>
    obtain ⟨u, hu, hrest⟩ := run_cons_eq_some.1 h
    have hlimit := hc.1 u hu
    have halong := hc.2 u hu
    cases a with
    | start trackId =>
      cases hu
      have hnext : (s.recordStart trackId).history = (before ++ [trackId]).rtake m := by
        rcases Nat.eq_zero_or_pos m with h0 | hpos
        · rw [recordStart_of_no_limit trackId (hs.trans h0), hi, h0, List.rtake_zero,
            List.rtake_zero]
        · rw [recordStart_history trackId (hs ▸ hpos), hs, hi, rtake_append_rtake]
      rw [ih hlimit hnext halong hrest, List.append_assoc]
      rfl
    | setMaxHistorySize siz =>
      cases hu
      exact ih hlimit hi halong hrest
    | loadConfig env =>
      cases hu
      exact ih hlimit hi halong hrest

end

theorem boundedAfter_iff (s : Playback) (a : PlaybackAction) :
    BoundedAfter s a ↔ StartTrims s a := by
  cases a with
  | start trackId =>
    rw [BoundedAfter, StartTrims, ← bounded_recordStart_iff trackId s]
    exact ⟨fun h => h _ rfl, fun h s' hs' => Option.some.inj hs' ▸ h⟩
  | setMaxHistorySize siz => exact Iff.rfl
  | loadConfig env => exact Iff.rfl

/-- **The history is within its limit** after every start of a run exactly if each finds a limit or
nothing to cut; while the limit is the same, the history is what was started last. -/
theorem history_bounded (l : List PlaybackAction) :
    (Along playbackStep BoundedAfter {} l ↔ Along playbackStep StartTrims {} l) ∧
      ∀ m s s', s.limit = m → s.history = [] → Along playbackStep (KeepsLimit m) s l →
        run playbackStep s l = some s' →
          s'.history = (starts l).rtake m ∧ s'.history.length = min m (starts l).length := by
  refine ⟨along_congr boundedAfter_iff l _, fun m s s' hs hempty hc h => ?_⟩
  have hhistory : s'.history = ([] ++ starts l).rtake m :=
    history_of_keepsLimit hs (by rw [hempty, List.rtake_nil]) hc h
  rw [List.nil_append] at hhistory
  refine ⟨hhistory, ?_⟩
  rw [hhistory, List.rtake, List.length_drop]
  omega

/-- A player that keeps two tracks, and three that start; the limit is set to what it is. -/
def keepsTwo : Playback := { player := { maxHistorySize := 2 } }

def threeStarts : List PlaybackAction :=
  [.start "a", .start "b", .setMaxHistorySize 2, .start "c"]

theorem history_bounded_two :
    ∃ s, run playbackStep keepsTwo threeStarts = some s ∧
      s.history = (starts threeStarts).rtake 2 ∧ s.history.length = min 2 (starts threeStarts).length :=
  ⟨_, rfl, (history_bounded threeStarts).2 2 keepsTwo _ rfl rfl (by decide) rfl⟩

/-- The limit is set to zero: what was recorded stays. -/
theorem history_past_limit :
    ¬ Along playbackStep BoundedAfter {} [.start "a", .setMaxHistorySize 0, .start "b"] := by
  decide

end Musicat.Player
