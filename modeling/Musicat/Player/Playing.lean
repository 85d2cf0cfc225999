import Musicat.Lib.Run
import Musicat.Player.Queue

/-!
# The playing track under queue operations

`shifted_track` is where the playing track sits until `reset_shifted` brings it
back to the front. `Playing p t` says that `t` is found there. Most operations
keep it whatever their arguments; `add_track` with a slip position and `/move`
leave `shifted_track` as it is while they move entries around it, so they keep
it when the positions they touch all lie on one side of it (`KeepsShifted`).
They do after a `publish_queue`, which ends every command that has added tracks
(`keepsShifted_commands`). But `run_download_thread` holds no lock between its
`add_track` and its `publish_queue`.
-/

namespace Musicat.Player

open GuildPlayer Lib

/-- A queue operation, with the arguments its command gives it. -/
inductive QueueOp where
  | addTrack (track : MCTrack) (top : Bool) (argSlip : Int) (fetched : Option (Option String))
  | move (fr toPos : Int)
  | remove (fr amount toPos : Int)
  | clearUser (userId : Nat)
  | shuffle (rand : Nat → UInt64)
  /-- The `publish_queue` of a command, after its `add_track`; an info embed that is built resets the
  queue in the same way. -/
  | publish

/-- `t` is the track at `shifted_track`. -/
def Playing (p : GuildPlayer) (t : MCTrack) : Prop := p.queue[p.shiftedTrack]? = some t

instance (p : GuildPlayer) (t : MCTrack) : Decidable (Playing p t) :=
  inferInstanceAs (Decidable (_ = _))

/-- Taking out `fr` and putting it back at `toPos` leaves the entry at `s` where it is. -/
def MoveKeeps (s : Nat) (fr toPos : Int) : Prop :=
  fr = toPos ∨ ((s : Int) < fr ∧ (s : Int) < toPos) ∨ (fr < s ∧ toPos < s)

/-- `op` does not insert or move a track around `shifted_track`. -/
def KeepsShifted (p : GuildPlayer) : QueueOp → Prop
  | .addTrack track top argSlip fetched =>
    trackToAdd track fetched = none ∨ top = true ∨ argSlip ≤ 1 ∨ (p.queue.length : Int) ≤ argSlip ∨
      (p.shiftedTrack : Int) < argSlip
  | .move fr toPos =>
    let maxTo : Int := (p.queue.length : Int) - 1
    maxTo < 2 ∨ MoveKeeps p.shiftedTrack (clampMove fr maxTo) (clampMove toPos maxTo)
  | _ => True

instance (s : Nat) (fr toPos : Int) : Decidable (MoveKeeps s fr toPos) :=
  inferInstanceAs (Decidable (_ ∨ _))

instance (p : GuildPlayer) : (op : QueueOp) → Decidable (KeepsShifted p op)
  | .addTrack .. => inferInstanceAs (Decidable (_ ∨ _))
  | .move .. => inferInstanceAs (Decidable (_ ∨ _))
  | .remove .. => isTrue trivial
  | .clearUser _ => isTrue trivial
  | .shuffle _ => isTrue trivial
  | .publish => isTrue trivial

/-! ## One operation -/

section
variable {p : GuildPlayer} {t : MCTrack}

theorem Playing.lt_length (h : Playing p t) : p.shiftedTrack < p.queue.length :=
  (List.getElem?_eq_some_iff.1 h).1

theorem playing_of_head {queue : List MCTrack} (hs : p.shiftedTrack = 0)
    (hq : p.queue = t :: queue) : Playing p t := by
  simp [Playing, hs, hq]

/-- The playing track goes to the front, the others stay in order. -/
theorem Playing.resetShifted (h : Playing p t) :
    p.resetShifted.1 =
      { p with queue := t :: p.queue.eraseIdx p.shiftedTrack, shiftedTrack := 0 } := by
  have hlt := h.lt_length
  unfold Playing at h
  unfold GuildPlayer.resetShifted
  by_cases hs : 0 < p.shiftedTrack
  · rw [if_pos ⟨by omega, hs⟩, h]
  · have h0 : p.shiftedTrack = 0 := by omega
    rw [if_neg (by simp [hs])]
    rw [h0] at h
    obtain ⟨queue, hq⟩ : ∃ queue, p.queue = t :: queue := by
      cases hq : p.queue with
      | nil => simp [hq] at h
      | cons u queue =>
        simp only [hq, List.getElem?_cons_zero, Option.some.injEq] at h
        exact ⟨queue, by rw [h]⟩
    simp [h0, hq]

theorem Playing.resetShifted_playing (h : Playing p t) : Playing p.resetShifted.1 t := by
  rw [h.resetShifted]; simp [Playing]

theorem Playing.publishQueue (h : Playing p t) : Playing p.publishQueue t :=
  h.resetShifted_playing

theorem Playing.addTrack (h : Playing p t) {track : MCTrack} {top : Bool} {argSlip : Int}
    {fetched : Option (Option String)} (hk : KeepsShifted p (.addTrack track top argSlip fetched)) :
    Playing (p.addTrack track top argSlip fetched) t := by
  have hlt := h.lt_length
  unfold GuildPlayer.addTrack
  cases hadd : trackToAdd track fetched with
  | none => exact h
  | some track =>
    simp only
    split
    · rw [Playing, List.length_cons, Nat.add_sub_cancel, if_pos hlt]
      exact h
    · next htop =>
      simp only [Bool.or_eq_true, beq_iff_eq, not_or] at htop
      simp only [KeepsShifted, hadd, htop.1, reduceCtorEq, false_or] at hk
      split
      · next hslip =>
        have hbefore : p.shiftedTrack < argSlip.toNat := by omega
        exact (List.getElem?_insertIdx_of_lt hbefore).trans h
      · exact (List.getElem?_append_left hlt).trans h

/-- Where the entries of a list are once one of them has been moved. -/
theorem getElem?_insertIdx_eraseIdx {α : Type*} {l : List α} {x : α} {s fr to' : Nat}
    (h : (s < fr ∧ s < to') ∨ (fr < s ∧ to' < s)) :
    ((l.eraseIdx fr).insertIdx to' x)[s]? = l[s]? := by
  rcases h with ⟨hf, ht⟩ | ⟨hf, ht⟩
  · rw [List.getElem?_insertIdx_of_lt ht, List.getElem?_eraseIdx_of_lt hf]
  · rw [List.getElem?_insertIdx_of_gt ht, List.getElem?_eraseIdx_of_ge (by omega)]
    congr 1; omega

theorem clampMove_pos (pos : Int) {maxTo : Int} (h : 2 ≤ maxTo) : 1 ≤ clampMove pos maxTo := by
  simp only [clampMove]; split <;> split <;> omega

theorem Playing.move (getTitle : MCTrack → String) (h : Playing p t) {fr toPos : Int}
    (hk : KeepsShifted p (.move fr toPos)) : Playing (moveSlashRun getTitle p fr toPos).1 t := by
  unfold moveSlashRun
  simp only
  split
  · exact h
  · next hmax =>
    rw [Int.not_lt] at hmax
    have hf := clampMove_pos fr hmax
    have ht := clampMove_pos toPos hmax
    have hkeep := hk.resolve_left (by omega)
    split
    · exact h
    · split
      · next hne =>
        have hside := hkeep.resolve_left hne
        have hnat : (p.shiftedTrack < (clampMove fr ((p.queue.length : Int) - 1)).toNat ∧
              p.shiftedTrack < (clampMove toPos ((p.queue.length : Int) - 1)).toNat) ∨
            ((clampMove fr ((p.queue.length : Int) - 1)).toNat < p.shiftedTrack ∧
              (clampMove toPos ((p.queue.length : Int) - 1)).toNat < p.shiftedTrack) := by
          omega
        refine Playing.publishQueue ?_
        exact (getElem?_insertIdx_eraseIdx hnat).trans h
      · exact h

theorem eraseFrom_head {b : Nat} (hb : 0 < b) :
    ∀ {amount : Nat} {queue : List MCTrack}, (eraseFrom b amount queue)[0]? = queue[0]?
  | 0, _ => rfl
  | amount + 1, queue => by
    unfold eraseFrom
    split
    · rw [eraseFrom_head hb, List.getElem?_eraseIdx_of_lt hb]
    · rfl

theorem Playing.removeTrack (h : Playing p t) (pos amount toPos : UInt64) :
    Playing (p.removeTrack pos amount toPos).1 t := by
  unfold GuildPlayer.removeTrack
  split
  · exact h
  · next hpos =>
    have hb : 0 < pos.toNat := by
      rcases Nat.eq_zero_or_pos pos.toNat with h0 | h0
      · exact absurd (.inl (UInt64.toNat_inj.1 h0)) hpos
      · exact h0
    have hr := h.resetShifted_playing
    have h0 : p.resetShifted.1.shiftedTrack = 0 := by rw [h.resetShifted]
    simp only
    split
    · exact hr
    · rw [Playing, h0] at hr
      simp only [Playing, h0, eraseFrom_head hb, hr]

theorem Playing.remove (h : Playing p t) (fr amount toPos : Int) :
    Playing (removeSlashRun p fr amount toPos).1 t := by
  have hr := h.resetShifted_playing
  unfold removeSlashRun
  simp only
  split
  · exact hr
  · split
    · exact hr
    · have hrm := fun a => hr.removeTrack (UInt64.ofInt fr) a (UInt64.ofInt toPos)
      split <;> split <;> exact hrm _

theorem Playing.clearUser (h : Playing p t) (userId : Nat) :
    Playing (clearUser p userId).1 t := by
  unfold Player.clearUser GuildPlayer.removeTrackByUser
  rw [h.resetShifted]
  split <;> simp [Playing]

theorem Playing.shuffle (h : Playing p t) (rand : Nat → UInt64) :
    Playing (p.shuffle rand).1 t := by
  unfold GuildPlayer.shuffle
  split
  · exact h
  · simp [h.resetShifted, Playing]

end

/-! ## Runs -/

section
variable (getTitle : MCTrack → String)

/-- The player after one queue operation. -/
def QueueOp.apply (p : GuildPlayer) : QueueOp → GuildPlayer
  | .addTrack track top argSlip fetched => p.addTrack track top argSlip fetched
  | .move fr toPos => (moveSlashRun getTitle p fr toPos).1
  | .remove fr amount toPos => (removeSlashRun p fr amount toPos).1
  | .clearUser userId => (Player.clearUser p userId).1
  | .shuffle rand => (p.shuffle rand).1
  | .publish => p.publishQueue

def queueStep (p : GuildPlayer) (op : QueueOp) : Option GuildPlayer := some (op.apply getTitle p)

theorem playing_step {p p' : GuildPlayer} {t : MCTrack} {op : QueueOp} (h : Playing p t)
    (hk : KeepsShifted p op) (hs : queueStep getTitle p op = some p') : Playing p' t := by
  cases hs
  cases op with
  | addTrack track top argSlip fetched => exact h.addTrack hk
  | move fr toPos => exact h.move getTitle hk
  | remove fr amount toPos => exact h.remove fr amount toPos
  | clearUser userId => exact h.clearUser userId
  | shuffle rand => exact h.shuffle rand
  | publish => exact h.publishQueue

theorem publishQueue_shiftedTrack (p : GuildPlayer) : p.publishQueue.shiftedTrack = 0 := by
  unfold GuildPlayer.publishQueue GuildPlayer.resetShifted
  repeat' split
  all_goals rfl

/-- Nothing is inserted or moved around the front of a queue that has been reset. -/
theorem keepsShifted_of_zero {p : GuildPlayer} (hs : p.shiftedTrack = 0) (op : QueueOp) :
    KeepsShifted p op := by
  cases op with
  | addTrack track top argSlip fetched =>
    simp only [KeepsShifted, hs]
    omega
  | move fr toPos =>
    by_cases hmax : (p.queue.length : Int) - 1 < 2
    · exact .inl hmax
    · have hf := clampMove_pos fr (Int.not_lt.1 hmax)
      have ht := clampMove_pos toPos (Int.not_lt.1 hmax)
      exact .inr (.inr (.inl (by omega)))
  | remove | clearUser | shuffle | publish => trivial

/-- **Whole commands keep the playing track recoverable**: one after another, each with its
`publish_queue`. -/
theorem keepsShifted_commands {p : GuildPlayer} (hs : p.shiftedTrack = 0) (ops : List QueueOp) :
    Along (queueStep getTitle) KeepsShifted p (ops.flatMap fun op => [op, .publish]) := by
  induction ops generalizing p with
  | nil => trivial
  | cons op ops ih =>
    refine ⟨keepsShifted_of_zero hs op, fun p' _ => ⟨trivial, fun p'' h => ?_⟩⟩
    cases h
    exact ih (publishQueue_shiftedTrack p')

/-- **The playing track stays recoverable** along operations that keep
`shifted_track`: it is found there in every state reached, and the next
`reset_shifted` puts it in front of all other tracks in their order. -/
theorem playing_recoverable {p p' : GuildPlayer} {t : MCTrack} {queue : List MCTrack}
    (hs : p.shiftedTrack = 0) (hq : p.queue = t :: queue)
    (hr : ReachAlong (queueStep getTitle) KeepsShifted p p') :
    Playing p' t ∧
      p'.resetShifted.1 =
        { p' with queue := t :: p'.queue.eraseIdx p'.shiftedTrack, shiftedTrack := 0 } := by
  have h : Playing p' t :=
    hr.inv (fun _ _ _ hi hc hstep => playing_step getTitle hi hc hstep) (playing_of_head hs hq)
  exact ⟨h, h.resetShifted⟩

end

/-- A track that needs no fetching. -/
def cachedTrack (filename : String) : MCTrack := { filename, infoRaw := some "{}" }

theorem playing_recoverable_three :
    ∃ p', run (queueStep (·.raw)) threeTracks
        [.addTrack (cachedTrack "x") true 0 none, .move 2 3, .publish, .remove 3 1 (-1)] = some p' ∧
      Playing p' { filename := "p" } := by
  refine ⟨_, rfl, ?_⟩
  exact (playing_recoverable (·.raw) (p := threeTracks) rfl rfl
    ⟨[.addTrack (cachedTrack "x") true 0 none, .move 2 3, .publish, .remove 3 1 (-1)], by decide,
      rfl⟩).1

/-- Before the `publish_queue` that follows it, a track added to the top leaves the playing track at
entry 1. `/move 1 3` then takes it away from there; so does a track slipped in at or before it. -/
theorem playing_lost :
    (∃ p', run (queueStep (·.raw)) threeTracks
        [.addTrack (cachedTrack "x") true 0 none, .move 1 3, .publish] = some p' ∧
      ¬ Playing p' { filename := "p" } ∧ p'.shiftedTrack = 0 ∧
      (p'.queue.map (·.filename)) = ["a", "x", "b", "p"]) ∧
    (∃ p', run (queueStep (·.raw)) threeTracks
        [.addTrack (cachedTrack "x") true 0 none, .addTrack (cachedTrack "y") true 0 none,
          .addTrack (cachedTrack "z") false 2 none] = some p' ∧
      ¬ Playing p' { filename := "p" } ∧
      (p'.resetShifted.1.queue.map (·.filename)) = ["z", "y", "x", "p", "a", "b"]) := by
  refine ⟨⟨_, rfl, by decide, by decide, by decide⟩, ⟨_, rfl, by decide, by decide⟩⟩

end Musicat.Player
