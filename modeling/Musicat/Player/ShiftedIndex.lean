import Musicat.Player.QueueCommand

/-!
# The index of the playing track

`reset_shifted` moves the entry at `shifted_track` to the front and trusts that
there is one. `queue_clear`, `set_queue` and `remove_track_by_user` shorten the
queue without touching the index: they rely on the `reset_shifted` at the start
of the handler, and a track added to the top since has moved the index again.
-/

namespace Musicat.Player

open GuildPlayer Lib

/-- The index is that of an entry, or it is zero and there is none. -/
def Indexed (p : GuildPlayer) : Prop :=
  p.shiftedTrack < p.queue.length ∨ p.queue = [] ∧ p.shiftedTrack = 0

instance (p : GuildPlayer) : Decidable (Indexed p) := inferInstanceAs (Decidable (_ ∨ _))

/-- A call of the handler that shortens the queue leaves an entry at the index. -/
def Handler.LeavesIndexed (h : Handler) (p : GuildPlayer) : Prop :=
  match h.pc with
  | .clearQueue _ | .reverseLoop _ 0 _ => p.shiftedTrack = 0
  | .reverseSet _ nQueue => p.shiftedTrack < nQueue.length
  | .removeByUser (u :: _) _ _ =>
    u = 0 ∨ p.shiftedTrack ≤ (p.queue.tail.filter (·.userId ≠ u)).length
  | _ => True

instance (h : Handler) (p : GuildPlayer) : Decidable (h.LeavesIndexed p) :=
  match hpc : h.pc with
  | .clearQueue _ =>
    decidable_of_iff (p.shiftedTrack = 0) (by simp only [Handler.LeavesIndexed, hpc])
  | .reverseLoop _ i _ =>
    decidable_of_iff (i = 0 → p.shiftedTrack = 0) (by
      cases i <;> simp [Handler.LeavesIndexed, hpc])
  | .reverseSet _ nQueue =>
    decidable_of_iff (p.shiftedTrack < nQueue.length) (by simp only [Handler.LeavesIndexed, hpc])
  | .removeByUser [] _ _ => isTrue (by simp only [Handler.LeavesIndexed, hpc])
  | .removeByUser (u :: _) _ _ =>
    decidable_of_iff (u = 0 ∨ p.shiftedTrack ≤ (p.queue.tail.filter (·.userId ≠ u)).length) (by
      simp only [Handler.LeavesIndexed, hpc])
  | .resetShifted | .shuffle | .clearAt | .clearAdd _ | .reverseAt | .reverseAddFront _
  | .checkUsers | .publish _ => isTrue (by simp only [Handler.LeavesIndexed, hpc])

def KeepsIndexed (s : QueueState) : QueueAction → Prop
  | .handle _ => ∀ h ∈ s.handler, h.LeavesIndexed s.player
  | _ => True

instance (s : QueueState) : ∀ a, Decidable (KeepsIndexed s a)
  | .handle _ => inferInstanceAs (Decidable (∀ h ∈ s.handler, h.LeavesIndexed s.player))
  | .addTrack .. | .reset | .copy _ | .lock _ | .skip .. | .removeTrack .. => isTrue trivial

/-! ## One method -/

section
variable {p : GuildPlayer} {s s' : QueueState}

theorem indexed_of_zero (h : p.shiftedTrack = 0) : Indexed p := by
  cases hq : p.queue with
  | nil => exact .inr ⟨hq, h⟩
  | cons t queue => exact .inl (by rw [h, hq]; exact Nat.succ_pos _)

theorem resetShifted_indexed (p : GuildPlayer) : Indexed p.resetShifted.1 :=
  indexed_of_zero (resetShifted_spec p).1

theorem publishQueue_indexed (p : GuildPlayer) : Indexed p.publishQueue := resetShifted_indexed p

/-- Only a track added to the top moves the index, and to an entry. -/
theorem Indexed.addTrack (h : Indexed p) (track : MCTrack) (top : Bool) (argSlip : Int)
    (fetched : Option (Option String)) : Indexed (p.addTrack track top argSlip fetched) := by
  unfold GuildPlayer.addTrack
  cases trackToAdd track fetched with
  | none => exact h
  | some t =>
    dsimp only
    split
    · left
      dsimp only
      rcases h with h | ⟨hq, h⟩
      · rw [List.length_cons]
        split <;> omega
      · simp [hq, h]
    · have hle : p.shiftedTrack < p.queue.length + 1 := by
        rcases h with h | ⟨-, h⟩ <;> omega
      split
      · rename_i hslip
        left
        rw [List.length_insertIdx_of_le_length hslip.2.le]
        exact hle
      · left
        rw [List.length_append]
        exact hle

theorem Indexed.removeTrack (h : Indexed p) (pos amount toPos : UInt64) :
    Indexed (p.removeTrack pos amount toPos).1 := by
  unfold GuildPlayer.removeTrack
  split
  · exact h
  · have hreset := resetShifted_spec p
    dsimp only
    split
    · exact resetShifted_indexed p
    · exact indexed_of_zero hreset.1

theorem Indexed.shuffle (h : Indexed p) (rand : Nat → UInt64) : Indexed (p.shuffle rand).1 := by
  unfold GuildPlayer.shuffle
  split
  · exact h
  · dsimp only
    split
    · exact resetShifted_indexed p
    · exact indexed_of_zero (resetShifted_spec p).1

theorem Indexed.removeTrackByUser (h : Indexed p) {u : Nat}
    (hu : u = 0 ∨ p.shiftedTrack ≤ (p.queue.tail.filter (·.userId ≠ u)).length) :
    Indexed (p.removeTrackByUser u).1 := by
  unfold GuildPlayer.removeTrackByUser
  split
  · exact h
  · rename_i hne
    cases hq : p.queue with
    | nil =>
      rw [Indexed, hq] at h
      exact .inr ⟨hq, by simpa using h⟩
    | cons t queue =>
      left
      have := hu.resolve_left hne
      rw [hq, List.tail_cons] at this
      exact Nat.lt_succ_of_le this

@[simp] theorem skipQueue_shiftedTrack (amount : Int) (remove popCurrent pushBack : Bool) :
    (p.skipQueue amount remove popCurrent pushBack).1.shiftedTrack = 0 := by
  unfold skipQueue
  dsimp only
  rw [resetCurrentRepeat_shiftedTrack]
  exact (resetShifted_spec p).1

@[simp] theorem stop_shiftedTrack (inVoice : Bool) :
    (p.stop inVoice).shiftedTrack = p.shiftedTrack := by
  unfold stop resetFirstTrackCurrentByte
  repeat' split
  all_goals rfl

theorem managerSkip_indexed (h : Indexed p) (env : SkipEnv) (amount : Int) (remove : Bool) :
    Indexed (managerSkip env p amount remove).1 := by
  unfold managerSkip
  split
  · exact h
  · split
    · exact resetShifted_indexed p
    · split
      · exact resetShifted_indexed p
      · apply indexed_of_zero
        unfold skipPlayback managerSkipQueue
        dsimp only
        split
        · exact skipQueue_shiftedTrack ..
        · rw [stop_shiftedTrack, skipQueue_shiftedTrack]

/-- **A call of the handler keeps the index valid** where it leaves an entry there. -/
theorem Indexed.handle {h : Handler} (hi : Indexed s.player) (env : HandleEnv)
    (hc : h.LeavesIndexed s.player) : Indexed (handleOption env s h).player := by
  have hlonger {p : GuildPlayer} (queue : List MCTrack) (hi : Indexed p)
      (hlen : queue.length = p.queue.length + 1) : Indexed { p with queue } := by
    left
    rcases hi with hi | ⟨-, hi⟩ <;> dsimp only <;> omega
  unfold Handler.LeavesIndexed at hc
  unfold handleOption
  cases hpc : h.pc with
  | resetShifted =>
    dsimp only
    repeat' split
    all_goals exact resetShifted_indexed _
  | shuffle =>
    dsimp only
    split <;> exact hi.shuffle env.rand
  | clearAt =>
    dsimp only
    split <;> exact hi
  | clearQueue t =>
    simp only [hpc] at hc
    exact indexed_of_zero hc
  | clearAdd t => exact hlonger _ hi List.length_append
  | reverseAt =>
    dsimp only
    split <;> exact hi
  | reverseLoop t i nQueue =>
    cases i with
    | zero =>
      simp only [hpc] at hc
      exact indexed_of_zero hc
    | succ i =>
      dsimp only
      split <;> exact hi
  | reverseSet t nQueue =>
    simp only [hpc] at hc
    exact .inl hc
  | reverseAddFront t => exact hlonger _ hi List.length_cons
  | checkUsers =>
    dsimp only
    split <;> exact hi
  | removeByUser lUser usiz rmed =>
    cases lUser with
    | nil =>
      dsimp only
      split <;> exact hi
    | cons u lUser =>
      simp only [hpc] at hc
      exact hi.removeTrackByUser hc
  | publish reply => exact publishQueue_indexed s.player

/-! ## Runs -/

theorem Indexed.step {a : QueueAction} (hi : Indexed s.player) (hc : KeepsIndexed s a)
    (hs : commandStep s a = some s') : Indexed s'.player := by
  cases a with
  | addTrack track top argSlip fetched =>
    cases hs
    exact hi.addTrack track top argSlip fetched
  | reset =>
    cases hs
    exact resetShifted_indexed s.player
  | copy modify =>
    simp only [commandStep] at hs
    split at hs <;> cases hs <;> exact hi
  | lock i =>
    simp only [commandStep] at hs
    split at hs <;> cases hs
    exact hi
  | handle env =>
    obtain ⟨h, hh, rfl⟩ := Option.map_eq_some_iff.1 hs
    exact hi.handle env (hc h hh)
  | skip env amount remove =>
    simp only [commandStep] at hs
    split at hs <;> cases hs
    exact managerSkip_indexed hi env amount remove
  | removeTrack pos amount toPos =>
    cases hs
    exact hi.removeTrack pos amount toPos

/-- **`shifted_track` is always a valid index**, in every run in which each call of a handler that
shortens the queue leaves an entry there: `reset_shifted` never looks past the end. -/
theorem shifted_index_valid (h : Indexed p) {l : List QueueAction}
    (hc : Along commandStep KeepsIndexed { player := p } l)
    (hrun : run commandStep { player := p } l = some s) :
    (s.player.shiftedTrack < s.player.queue.length ∨ s.player.queue = []) ∧
      (s.player.queue.length ≠ 0 ∧ 0 < s.player.shiftedTrack →
        s.player.queue[s.player.shiftedTrack]?.isSome) := by
  have hi : Indexed s.player :=
    run_inv (I := fun s => Indexed s.player) (fun _ _ _ hi hc hs => Indexed.step hi hc hs) h hc hrun
  refine ⟨hi.imp_right And.left, fun ⟨hne, hpos⟩ => ?_⟩
  rcases hi with hi | ⟨-, hzero⟩
  · rw [List.getElem?_eq_getElem hi]
    rfl
  · omega

end

/-! ## A clear and a track on top -/

/-- `/queue clear` on three tracks, with a track added to the top before its last call. -/
def clearRun : List QueueAction :=
  [.reset, .copy .mClear, .lock 0, .handle {}, .handle {}, .handle {},
    .addTrack (cachedTrack "x") true 0 none, .handle {}]

theorem shifted_index_valid_clear :
    ∃ s, run commandStep { player := threeTracks } clearRun = some s ∧
      s.player.queue.map (·.filename) = ["x", "p"] ∧
      (s.player.shiftedTrack < s.player.queue.length ∨ s.player.queue = []) :=
  ⟨_, rfl, by decide,
    (shifted_index_valid (p := threeTracks) (l := clearRun) (by decide) (by decide) rfl).1⟩

/-- The same track before `queue_clear`: one entry is left, and the index is 1. -/
theorem shifted_index_past_end :
    ∃ s, run commandStep { player := threeTracks }
        [.reset, .copy .mClear, .lock 0, .handle {}, .addTrack (cachedTrack "x") true 0 none,
          .handle {}, .handle {}, .handle {}] = some s ∧
      s.player.queue.length = 1 ∧ s.player.shiftedTrack = 1 ∧
      ¬ (s.player.shiftedTrack < s.player.queue.length ∨ s.player.queue = []) :=
  ⟨_, rfl, rfl, rfl, by decide⟩

end Musicat.Player
