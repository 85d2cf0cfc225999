import Mathlib.Algebra.Group.Nat.Defs
import Mathlib.Algebra.Ring.Int.Defs
import Mathlib.Data.List.Rotate
import Musicat.Player.Track

/-!
# Queue operations

The queue methods of `guild_player_t` (`player.cpp`) and the bodies of the
commands that call them. Each definition is the player after the call, paired
with what the method returns. What the outside decides is an argument: the
audio info fetched for a track, the random numbers of a shuffle. Embeds,
websocket events, database writes and log lines are not part of the model, but
`publish_queue` is: it copies the queue by `get_queue`, which resets it first.
-/

namespace Musicat.Player

namespace GuildPlayer

/-- `guild_player_t::reset_shifted`: the playing track, at `shifted_track`, goes to the front. -/
def resetShifted (p : GuildPlayer) : GuildPlayer × Bool :=
  if p.queue.length ≠ 0 ∧ 0 < p.shiftedTrack then
    match p.queue[p.shiftedTrack]? with
    | some s => ({ p with queue := s :: p.queue.eraseIdx p.shiftedTrack, shiftedTrack := 0 }, true)
    -- an index past the end: the source dereferences `end ()` here
    | none => ({ p with shiftedTrack := 0 }, true)
  else ({ p with shiftedTrack := 0 }, false)

/-- `publish_queue`, as far as the player is concerned: the `reset_shifted` of `get_queue`. -/
def publishQueue (p : GuildPlayer) : GuildPlayer := p.resetShifted.1

/-- The track `add_track` queues: a null `info.raw` is fetched first, and the
call returns early when fetching throws (`fetched = none`). -/
def trackToAdd (track : MCTrack) (fetched : Option (Option String)) : Option MCTrack :=
  if track.infoRaw.isNone then fetched.map fun raw => { track with infoRaw := raw }
  else some track

/-- `guild_player_t::add_track`. -/
def addTrack (p : GuildPlayer) (track : MCTrack) (top : Bool) (argSlip : Int)
    (fetched : Option (Option String)) : GuildPlayer :=
  match trackToAdd track fetched with
  | none => p
  | some track =>
    let siz := p.queue.length
    if top || argSlip == 1 then
      let queue := track :: p.queue
      { p with
        queue := queue
        shiftedTrack :=
          if p.shiftedTrack < queue.length - 1 then p.shiftedTrack + 1 else p.shiftedTrack }
    else if 1 < argSlip ∧ argSlip.toNat < siz then
      { p with queue := p.queue.insertIdx argSlip.toNat track }
    else { p with queue := p.queue ++ [track] }

/-- One round of the loop of `skip_queue`: pop the front, put it back last when `push`. -/
def skipPop (push : Bool) : List MCTrack × List MCTrack → List MCTrack × List MCTrack
  | ([], removed) => ([], removed)
  | (l :: queue, removed) => (if push then queue ++ [l.resetRepeat] else queue, removed ++ [l])

/-- `queue.front ().repeat = 0`. -/
def resetFrontRepeat : List MCTrack → List MCTrack
  | [] => []
  | t :: queue => t.resetRepeat :: queue

/-- `current_track.repeat = 0`, unless there is no current track. -/
def resetCurrentRepeat (p : GuildPlayer) : GuildPlayer :=
  if p.currentTrack.isEmpty then p else { p with currentTrack := p.currentTrack.resetRepeat }

/-- `amount` as `skip_queue` clamps it. -/
def clampSkip (amount : Int) : Int :=
  let amount := if amount < 1 then 1 else amount
  if 1000 < amount then 1000 else amount

/-- `guild_player_t::skip_queue`. -/
def skipQueue (p : GuildPlayer) (amount : Int) (remove popCurrent pushBack : Bool) :
    GuildPlayer × List MCTrack :=
  let p := p.resetShifted.1
  let amount := clampSkip amount
  let l := p.loopMode == .lSong
  let lS := p.loopMode == .lSongQueue
  let lQ := p.loopMode == .lQueue
  let p := p.resetCurrentRepeat
  let queue := resetFrontRepeat p.queue
  let start : Int := if popCurrent || (l || lS) then 0 else 1
  let push := !remove && (pushBack || lS || lQ)
  let (queue, removed) := (skipPop push)^[(amount - start).toNat] (queue, [])
  ({ p with queue := queue }, removed)

/-- The erase loop of `remove_track`: at most `amount` entries from `b` on. -/
def eraseFrom (b : Nat) : Nat → List MCTrack → List MCTrack
  | 0, queue => queue
  | amount + 1, queue =>
    if b < queue.length then eraseFrom b amount (queue.eraseIdx b) else queue

/-- `guild_player_t::remove_track`; `toPos` is `-1` when `to` is not given. -/
def removeTrack (p : GuildPlayer) (pos amount toPos : UInt64) : GuildPlayer × UInt64 :=
  if pos = 0 ∨ (amount = 0 ∧ toPos = -1) then (p, 0)
  else
    let p := p.resetShifted.1
    let siz := UInt64.ofNat p.queue.length
    if siz < pos + 1 then (p, 0)
    else
      let amount := if toPos ≠ -1 ∧ pos < toPos then toPos - pos else amount
      let max := siz - pos
      let amount := if max < amount then max else amount
      ({ p with queue := eraseFrom pos.toNat amount.toNat p.queue }, amount)

/-- `guild_player_t::remove_track_by_user`: the front stays whoever added it. -/
def removeTrackByUser (p : GuildPlayer) (userId : Nat) : GuildPlayer × Nat :=
  if userId = 0 then (p, 0)
  else
    match p.queue with
    | [] => (p, 0)
    | t :: queue =>
      let kept := queue.filter (·.userId ≠ userId)
      ({ p with queue := t :: kept }, queue.length - kept.length)

/-- `int r = get_random_number () % ori.size ()`. -/
def drawIndex (random : UInt64) (size : Nat) : Int := Int.bmod ↑(random.toNat % size) (2 ^ 32)

/-- The loop of `shuffle_indexes`: draw an index of `ori` until none is left. -/
def drawIndexes (rand : Nat → UInt64) : Nat → Nat → List Nat → List Nat
  | 0, _, _ => []
  | n + 1, i, ori =>
    let r := drawIndex (rand i) ori.length
    -- an index before the start: the source dereferences before `begin ()` here
    if r < 0 then []
    else
      match ori[r.toNat]? with
      | some d => d :: drawIndexes rand n (i + 1) (ori.eraseIdx r.toNat)
      | none => []

/-- `shuffle_indexes`, on the stream `rand` of `get_random_number` results. -/
def shuffleIndexes (rand : Nat → UInt64) (len : Nat) : List Nat :=
  drawIndexes rand len 0 (List.range len)

/-- `guild_player_t::shuffle`. -/
def shuffle (p : GuildPlayer) (rand : Nat → UInt64) : GuildPlayer × Bool :=
  if p.queue.length < 3 then (p, false)
  else
    let siz := p.queue.length
    let p := p.resetShifted.1
    let b := shuffleIndexes rand (siz - 1)
    match p.queue with
    | [] => (p, true)
    | os :: rest => ({ p with queue := os :: b.filterMap (rest[·]?) }, true)

end GuildPlayer

/-! ## Commands -/

open GuildPlayer

/-- A position clamped as `/move` clamps `track` and `to`. -/
def clampMove (pos maxTo : Int) : Int :=
  let pos := if pos < 1 then 1 else pos
  if maxTo < pos then maxTo else pos

/-- `move::slash_run`: the player and the reply. -/
def moveSlashRun (getTitle : MCTrack → String) (p : GuildPlayer) (fr toPos : Int) :
    GuildPlayer × String :=
  let maxTo : Int := (p.queue.length : Int) - 1
  if maxTo < 2 then (p, "No moveable track in the queue")
  else
    let fr := clampMove fr maxTo
    let toPos := clampMove toPos maxTo
    match p.queue[fr.toNat]? with
    | none => (p, "")
    | some track =>
      let p := if fr ≠ toPos then
          GuildPlayer.publishQueue
            { p with queue := (p.queue.eraseIdx fr.toNat).insertIdx toPos.toNat track }
        else p
      (p, "Moved " ++ getTitle track ++ " to position " ++ toString toPos)

/-- `remove::slash_run`: the player and the reply. What it publishes it has reset before. -/
def removeSlashRun (p : GuildPlayer) (fr amount toPos : Int) : GuildPlayer × String :=
  let p := p.resetShifted.1
  if fr < 1 ∨ p.queue.length < fr.toNat + 1 then (p, "No track in position " ++ toString fr)
  else if toPos ≠ -1 ∧ toPos < fr then
    (p, "Invalid `to` argument. Must be larger than `track`")
  else
    let amount := if amount < 1 then 1 else amount
    let (p, ret) := p.removeTrack (UInt64.ofInt fr) (UInt64.ofInt amount) (UInt64.ofInt toPos)
    if ret ≠ 0 then
      (p, "Removed " ++ toString ret ++ " track" ++ if ret ≠ 1 then "s" else "")
    else (p, "No track was removed")

/-- The clearing part of `queue::handle_option`: `reset_shifted`, then
`remove_track_by_user`. It too publishes a queue that has been reset. -/
def clearUser (p : GuildPlayer) (userId : Nat) : GuildPlayer × Nat :=
  p.resetShifted.1.removeTrackByUser userId

end Musicat.Player
