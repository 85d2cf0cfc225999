import Musicat.Player.ShiftedIndex

/-!
# What `skip_queue` and `shuffle` do to the queue

`skip_queue` pops a number of tracks that does not depend on the size of the
queue. When it puts them back it goes round the queue as often as the number
says; when it does not it stops at the end. `shuffle` draws one index after the
other from what is left of `0 .. len - 1`; it keeps the draw in an `int`, which
is a place in what is left as long as the remainder is one of an `int`.
-/

namespace Musicat.Player

open GuildPlayer

/-! ## `skip_queue` -/

/-- How many tracks `skip_queue` pops if there are that many to pop. -/
def skipCount (mode : LoopMode) (amount : Int) (popCurrent : Bool) : Nat :=
  let m := (clampSkip amount).toNat
  if popCurrent || mode == .lSong || mode == .lSongQueue then m else m - 1

/-- Whether `skip_queue` puts what it pops back. -/
def skipPushes (mode : LoopMode) (remove pushBack : Bool) : Bool :=
  !remove && (pushBack || mode == .lQueue || mode == .lSongQueue)

/-- The same track, with its repeat count as it was or reset. -/
def RepeatReset (t u : MCTrack) : Prop := u = t ∨ u = t.resetRepeat

theorem RepeatReset.reset {t u : MCTrack} (h : RepeatReset t u) : RepeatReset t u.resetRepeat := by
  rcases h with rfl | rfl
  · exact .inr rfl
  · exact .inr rfl

theorem repeatReset_resetFrontRepeat (queue : List MCTrack) :
    List.Forall₂ RepeatReset queue (resetFrontRepeat queue) := by
  cases queue with
  | nil => exact .nil
  | cons t queue => exact .cons (.inr rfl) (List.forall₂_same.2 fun _ _ => .inl rfl)

theorem map_resetRepeat {ts queue : List MCTrack} (h : List.Forall₂ RepeatReset ts queue) :
    queue.map MCTrack.resetRepeat = ts.map MCTrack.resetRepeat := by
  induction h with
  | nil => rfl
  | cons ht _ ih =>
    rw [List.map_cons, List.map_cons, ih]
    rcases ht with rfl | rfl
    · rfl
    · rfl

theorem skipPop_nil (push : Bool) (removed : List MCTrack) (k : Nat) :
    (skipPop push)^[k] ([], removed) = ([], removed) := by
  induction k with
  | zero => rfl
  | succ k ih => rw [Function.iterate_succ_apply, skipPop, ih]

/-- Popping and putting back `k` times, on a queue that is `ts` but for repeat counts. -/
theorem skipPop_push (k : Nat) :
    ∀ {ts queue : List MCTrack} (removed : List MCTrack), List.Forall₂ RepeatReset ts queue →
      List.Forall₂ RepeatReset (ts.rotate k) ((skipPop true)^[k] (queue, removed)).1 ∧
      ((skipPop true)^[k] (queue, removed)).2.length =
        removed.length + if ts = [] then 0 else k := by
  induction k with
  | zero =>
    intro ts queue removed h
    exact ⟨by simpa using h, by simp⟩
  | succ k ih =>
    intro ts queue removed h
    cases h with
    | nil =>
      rw [skipPop_nil]
      exact ⟨by simp, by simp⟩
    | @cons t u ts queue ht hrest =>
      have hback : List.Forall₂ RepeatReset (ts ++ [t]) (queue ++ [u.resetRepeat]) :=
        List.rel_append hrest (.cons ht.reset .nil)
      obtain ⟨hrot, hlen⟩ := ih (removed ++ [u]) hback
      rw [Function.iterate_succ_apply, List.rotate_cons_succ]
      refine ⟨hrot, ?_⟩
      rw [if_neg (by simp)] at hlen ⊢
      rw [List.length_append, List.length_singleton] at hlen
      simp only [skipPop, if_true]
      omega

theorem resetShifted_loopMode (p : GuildPlayer) : p.resetShifted.1.loopMode = p.loopMode := by
  unfold resetShifted
  repeat' split
  all_goals rfl

/-- The loop of `skip_queue`, with its bounds and flags worked out. -/
theorem skipQueue_eq (p : GuildPlayer) (amount : Int) (remove popCurrent pushBack : Bool) :
    let popped := (skipPop (skipPushes p.loopMode remove pushBack))^[
      skipCount p.loopMode amount popCurrent] (resetFrontRepeat p.resetShifted.1.queue, [])
    ((p.skipQueue amount remove popCurrent pushBack).1.queue,
      (p.skipQueue amount remove popCurrent pushBack).2) = popped := by
  have hcount : (clampSkip amount - if (popCurrent || (p.loopMode == .lSong ||
      p.loopMode == .lSongQueue)) = true then 0 else 1).toNat =
        skipCount p.loopMode amount popCurrent := by
    simp only [skipCount, Bool.or_assoc]
    split <;> omega
  have hpush : (!remove && (pushBack || p.loopMode == .lSongQueue || p.loopMode == .lQueue)) =
      skipPushes p.loopMode remove pushBack := by
    rw [skipPushes, Bool.or_right_comm]
  simp only [skipQueue, resetShifted_loopMode, resetCurrentRepeat_queue, hcount, hpush]

/-- **The skip.** What is put back goes round the queue, else the queue loses its first tracks;
the front's repeat count is reset in either case. -/
theorem skipQueue_rotates_or_takes (p : GuildPlayer) (amount : Int)
    (remove popCurrent pushBack : Bool) :
    let queue := p.resetShifted.1.queue
    let k := skipCount p.loopMode amount popCurrent
    let skipped := p.skipQueue amount remove popCurrent pushBack
    if !remove && (pushBack || p.loopMode == .lQueue || p.loopMode == .lSongQueue) then
      List.Forall₂ RepeatReset (queue.rotate k) skipped.1.queue ∧
        (skipped.1.queue.map MCTrack.resetRepeat).Perm (queue.map MCTrack.resetRepeat) ∧
        skipped.2.length = if queue = [] then 0 else k
    else
      skipped.2 = (resetFrontRepeat queue).take k ∧
        skipped.1.queue = (resetFrontRepeat queue).drop k := by
  intro queue k skipped
  have heq : (skipped.1.queue, skipped.2) = (skipPop (skipPushes p.loopMode remove pushBack))^[k]
      (resetFrontRepeat queue, []) := skipQueue_eq p amount remove popCurrent pushBack
  change if skipPushes p.loopMode remove pushBack then _ else _
  cases hpush : skipPushes p.loopMode remove pushBack with
  | true =>
    obtain ⟨hrot, hlen⟩ := skipPop_push k [] (repeatReset_resetFrontRepeat queue)
    rw [hpush] at heq
    rw [← heq] at hrot hlen
    refine ⟨hrot, ?_, by simpa using hlen⟩
    rw [map_resetRepeat hrot]
    exact (List.rotate_perm queue k).map _
  | false =>
    rw [hpush, skipPop_take, List.nil_append, Prod.mk.injEq] at heq
    exact ⟨heq.2, heq.1⟩

/-- A track with a repeat count that one skip leaves in front without it. -/
theorem front_repeat_reset :
    let p : GuildPlayer := { queue := [{ filename := "a", rpt := 2 }] }
    skipCount p.loopMode 1 false = 0 ∧
      (p.skipQueue 1 false false false).1.queue ≠ p.resetShifted.1.queue.drop 0 := by
  decide

/-! ## `shuffle` -/

theorem drawIndex_le (random : UInt64) (size : Nat) :
    drawIndex random size ≤ (random.toNat % size : Nat) := by
  unfold drawIndex
  rw [Int.bmod_def]
  split <;> omega

/-- The draw is a place in what is left. -/
theorem drawIndex_lt {random : UInt64} {size : Nat} (hsize : 0 < size)
    (h : 0 ≤ drawIndex random size) : (drawIndex random size).toNat < size := by
  have hle := drawIndex_le random size
  have hlt : random.toNat % size < size := Nat.mod_lt _ hsize
  omega

theorem drawIndex_nonneg (random : UInt64) (size : Nat) :
    0 ≤ drawIndex random size ↔ random.toNat % size % 2 ^ 32 < 2 ^ 31 := by
  unfold drawIndex
  rw [Int.bmod_def]
  split <;> omega

/-- Every draw of `n` indexes is a value of an `int` once it is taken to one. -/
def DrawsInt (rand : Nat → UInt64) (n : Nat) : Prop :=
  ∀ j < n, (rand j).toNat % (n - j) % 2 ^ 32 < 2 ^ 31

/-- No more than `2 ^ 31` indexes are drawn as they should. -/
theorem drawsInt_of_le (rand : Nat → UInt64) {n : Nat} (hn : n ≤ 2 ^ 31) : DrawsInt rand n := by
  intro j hj
  have hlt : (rand j).toNat % (n - j) < n - j := Nat.mod_lt _ (by omega)
  have hle := Nat.mod_le ((rand j).toNat % (n - j)) (2 ^ 32)
  omega

theorem drawIndexes_perm (rand : Nat → UInt64) :
    ∀ (n i : Nat) (ori : List Nat), ori.length = n →
      (∀ j < n, 0 ≤ drawIndex (rand (i + j)) (n - j)) → (drawIndexes rand n i ori).Perm ori
  | 0, i, ori, hlen, _ => by
    rw [List.length_eq_zero_iff.1 hlen]
    exact List.Perm.refl _
  | n + 1, i, ori, hlen, h => by
    have hr : 0 ≤ drawIndex (rand i) ori.length := hlen ▸ h 0 n.succ_pos
    have hlt := drawIndex_lt (hlen ▸ n.succ_pos) hr
    have hrest := drawIndexes_perm rand n (i + 1)
      (ori.eraseIdx (drawIndex (rand i) ori.length).toNat)
      (by rw [List.length_eraseIdx_of_lt hlt]; omega) fun j hj => by
        have hj' := h (j + 1) (Nat.succ_lt_succ hj)
        rwa [show i + (j + 1) = i + 1 + j by omega, Nat.succ_sub_succ] at hj'
    rw [drawIndexes]
    simp only [if_neg (Int.not_lt.2 hr), List.getElem?_eq_getElem hlt]
    exact (hrest.cons _).trans (List.getElem_cons_eraseIdx_perm hlt)

/-- A draw below zero ends the loop with indexes left. -/
theorem length_drawIndexes_lt (rand : Nat → UInt64) (n : Nat) :
    ∀ (i : Nat) (ori : List Nat), ori.length = n →
      ∀ j < n, drawIndex (rand (i + j)) (n - j) < 0 → (drawIndexes rand n i ori).length < n := by
  induction n with
  | zero =>
    intro i ori hlen j hj
    exact absurd hj (Nat.not_lt_zero j)
  | succ n ih =>
    intro i ori hlen j hj hneg
    rw [drawIndexes]
    split
    · exact n.succ_pos
    · rename_i hr
      have hlt := drawIndex_lt (hlen ▸ n.succ_pos) (Int.not_lt.1 hr)
      cases j with
      | zero =>
        rw [hlen] at hr
        exact absurd hneg hr
      | succ j =>
        rw [show i + (j + 1) = i + 1 + j by omega, Nat.succ_sub_succ] at hneg
        have hrest := ih (i + 1) (ori.eraseIdx (drawIndex (rand i) ori.length).toNat)
          (by rw [List.length_eraseIdx_of_lt hlt]; omega) j (Nat.lt_of_succ_lt_succ hj) hneg
        rw [List.getElem?_eq_getElem hlt]
        exact Nat.succ_lt_succ hrest

theorem shuffleIndexes_perm {rand : Nat → UInt64} {n : Nat} (h : DrawsInt rand n) :
    (shuffleIndexes rand n).Perm (List.range n) :=
  drawIndexes_perm rand n 0 _ List.length_range fun j hj => by
    rw [Nat.zero_add, drawIndex_nonneg]
    exact h j hj

theorem length_shuffleIndexes_lt {rand : Nat → UInt64} {n : Nat} (h : ¬ DrawsInt rand n) :
    (shuffleIndexes rand n).length < n := by
  simp only [DrawsInt, not_forall] at h
  obtain ⟨j, hj, hneg⟩ := h
  refine length_drawIndexes_lt rand n 0 _ List.length_range j hj ?_
  rw [Nat.zero_add]
  rw [← drawIndex_nonneg] at hneg
  exact Int.not_le.1 hneg

theorem shuffleIndexes_perm_iff (rand : Nat → UInt64) (n : Nat) :
    (shuffleIndexes rand n).Perm (List.range n) ↔ DrawsInt rand n := by
  refine ⟨fun hperm => ?_, shuffleIndexes_perm⟩
  by_contra h
  have hlt := length_shuffleIndexes_lt h
  rw [hperm.length_eq, List.length_range] at hlt
  exact lt_irrefl _ hlt

/-- The shuffle law: the playing track in front, the others behind it in some order. -/
def ShuffleLaw (p : GuildPlayer) (rand : Nat → UInt64) : Prop :=
  if p.queue.length < 3 then (p.shuffle rand).1 = p
  else
    ∃ os rest, p.queue[p.shiftedTrack]? = some os ∧ (p.shuffle rand).1.queue = os :: rest ∧
      rest.Perm (p.queue.eraseIdx p.shiftedTrack) ∧ (p.shuffle rand).1.shiftedTrack = 0

theorem filterMap_range_getElem? (l : List MCTrack) :
    (List.range l.length).filterMap (l[·]?) = l := by
  induction l with
  | nil => rfl
  | cons t l ih =>
    rw [List.length_cons, List.range_succ_eq_map, List.filterMap_cons]
    simp only [List.getElem?_cons_zero, List.filterMap_map, List.cons.injEq, true_and]
    exact ih

/-- What `shuffle` leaves of three tracks or more. -/
theorem shuffle_eq {p : GuildPlayer} {os : MCTrack} (rand : Nat → UInt64)
    (h3 : ¬ p.queue.length < 3) (hos : Playing p os) :
    (p.shuffle rand).1 =
      { p with
        queue := os :: (shuffleIndexes rand (p.queue.length - 1)).filterMap
          ((p.queue.eraseIdx p.shiftedTrack)[·]?)
        shiftedTrack := 0 } := by
  simp only [GuildPlayer.shuffle, if_neg h3, hos.resetShifted]

theorem shuffleLaw_iff {p : GuildPlayer} (rand : Nat → UInt64) (h3 : ¬ p.queue.length < 3)
    (hshifted : p.shiftedTrack < p.queue.length) :
    ShuffleLaw p rand ↔ DrawsInt rand (p.queue.length - 1) := by
  have hos : Playing p p.queue[p.shiftedTrack] := List.getElem?_eq_getElem hshifted
  have hlen : (p.queue.eraseIdx p.shiftedTrack).length = p.queue.length - 1 :=
    List.length_eraseIdx_of_lt hshifted
  rw [ShuffleLaw, if_neg h3, shuffle_eq rand h3 hos]
  constructor
  · rintro ⟨os, rest, -, hqueue, hperm, -⟩
    by_contra hdraws
    -- fewer indexes were drawn than there are tracks
    have hlt := length_shuffleIndexes_lt hdraws
    rw [List.cons.injEq] at hqueue
    have hle : rest.length ≤ (shuffleIndexes rand (p.queue.length - 1)).length :=
      hqueue.2 ▸ List.length_filterMap_le _ _
    rw [hperm.length_eq, hlen] at hle
    omega
  · intro hdraws
    refine ⟨_, _, hos, rfl, ?_, rfl⟩
    have hperm := (shuffleIndexes_perm hdraws).filterMap
      ((p.queue.eraseIdx p.shiftedTrack)[·]?)
    rw [← hlen, filterMap_range_getElem?] at hperm
    rw [← hlen]
    exact hperm

/-- **The shuffle.** It permutes what it should exactly when every draw is one of an `int`. -/
theorem shuffle_permutes_iff (rand : Nat → UInt64) (n : Nat) (p : GuildPlayer) (hp : Indexed p) :
    ((shuffleIndexes rand n).Perm (List.range n) ↔ DrawsInt rand n) ∧
      (ShuffleLaw p rand ↔ (3 ≤ p.queue.length → DrawsInt rand (p.queue.length - 1))) := by
  refine ⟨shuffleIndexes_perm_iff rand n, ?_⟩
  by_cases h3 : p.queue.length < 3
  · have hlaw : ShuffleLaw p rand := by
      rw [ShuffleLaw, if_pos h3, GuildPlayer.shuffle, if_pos h3]
    exact ⟨fun _ hle => absurd h3 (by omega), fun _ => hlaw⟩
  · have hshifted : p.shiftedTrack < p.queue.length := by
      rcases hp with hlt | ⟨hq, -⟩
      · exact hlt
      · rw [hq] at h3
        exact absurd (Nat.zero_lt_succ 2) h3
    rw [shuffleLaw_iff rand h3 hshifted]
    exact ⟨fun h _ => h, fun h => h (Nat.le_of_not_lt h3)⟩

theorem shuffle_permutes_three :
    Indexed threeTracks ∧
      ((shuffleIndexes (fun i => 7 + i.toUInt64) 5).Perm (List.range 5) ↔
        DrawsInt (fun i => 7 + i.toUInt64) 5) ∧
      (ShuffleLaw threeTracks (fun i => 7 + i.toUInt64) ↔
        (3 ≤ threeTracks.queue.length →
          DrawsInt (fun i => 7 + i.toUInt64) (threeTracks.queue.length - 1))) :=
  ⟨by decide, shuffle_permutes_iff _ 5 threeTracks (by decide)⟩

theorem not_drawsInt : ¬ DrawsInt (fun _ => 2147483648) (2 ^ 31 + 1) := by
  intro h
  have h0 := h 0 (Nat.zero_lt_succ _)
  revert h0
  decide

/-- The first draw of `2 ^ 31 + 1` indexes may be `-2 ^ 31`. -/
theorem large_shuffle_stops :
    ¬ (shuffleIndexes (fun _ => 2147483648) (2 ^ 31 + 1)).Perm (List.range (2 ^ 31 + 1)) ∧
      ¬ ShuffleLaw { queue := List.replicate (2 ^ 31 + 2) {} } (fun _ => 2147483648) := by
  constructor
  · rw [shuffleIndexes_perm_iff]
    exact not_drawsInt
  · have hlen : (List.replicate (2 ^ 31 + 2) ({} : MCTrack)).length = 2 ^ 31 + 2 :=
      List.length_replicate
    rw [shuffleLaw_iff _ (by rw [hlen]; omega)
      (by rw [hlen]; exact Nat.zero_lt_succ _), hlen]
    exact not_drawsInt

end Musicat.Player
