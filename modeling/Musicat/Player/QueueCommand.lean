import Mathlib.Data.List.Perm.Basic
import Musicat.Lib.Run
import Musicat.Player.Playing
import Musicat.Player.Skip

/-!
# The queue command

`queue::slash_run` copies the queue without the player lock, and `handle_option`
takes the lock and works on the live queue by the size of the copy. Each call of
a method of the player is one step. `add_track` as `run_download_thread` calls
it, `get_queue` and `/remove` do not take the lock and come between any two of
them; `manager::skip` takes it. The saved queue that `slash_run` loads first is
made of `add_track` calls.
-/

namespace Musicat.Player

open GuildPlayer Lib

/-- `queue_modify_t`. -/
inductive QueueModify where
  | mShuffle
  | mReverse
  | mClearLeft
  | mClear
  | mClearMusicat
  deriving DecidableEq, Repr

/-- A command that has copied the queue. -/
structure Snapshot where
  modify : QueueModify
  /-- `queue.size ()` of the copy. -/
  siz : Nat
  /-- The tracks added since. -/
  gap : List MCTrack := []
  deriving DecidableEq, Repr

/-- The next call of `handle_option`. -/
inductive HandlerPc where
  | resetShifted
  | shuffle
  | clearAt
  | clearQueue (t : MCTrack)
  | clearAdd (t : MCTrack)
  | reverseAt
  /-- In the loop of `m_reverse`, at index `i` of the live queue. -/
  | reverseLoop (t : MCTrack) (i : Nat) (nQueue : List MCTrack)
  | reverseSet (t : MCTrack) (nQueue : List MCTrack)
  | reverseAddFront (t : MCTrack)
  | checkUsers
  /-- In the loop over `l_user`, with its size and what has been removed. -/
  | removeByUser (lUser : List Nat) (usiz rmed : Nat)
  /-- `publish_queue`, before the reply. -/
  | publish (reply : String)
  deriving DecidableEq, Repr

/-- `handle_option` under the lock. What was in the queue and playing when it took the lock, and
what has been added since the copy and since the lock, is not in the code. -/
structure Handler where
  modify : QueueModify
  siz : Nat
  pc : HandlerPc := .resetShifted
  live : List MCTrack
  playing : Option MCTrack
  gap : List MCTrack
  added : List MCTrack := []
  deriving DecidableEq, Repr

/-- A command that has ended: the queue at its end, and its reply, `none` when it threw. -/
structure Finished where
  handler : Handler
  queue : List MCTrack
  reply : Option String
  deriving DecidableEq, Repr

structure QueueState where
  player : GuildPlayer
  snapshots : List Snapshot := []
  handler : Option Handler := none
  finished : List Finished := []
  deriving DecidableEq, Repr

/-- What `handle_option` meets. -/
structure HandleEnv where
  voiceReady : Bool := true
  /-- The users in the voice channel, if there is one. -/
  vcUsers : Option (List Nat) := some []
  shaId : Nat := 0
  rand : Nat → UInt64 := fun _ => 0

namespace QueueState

/-- The handler calls its method and goes on to `pc`. -/
def goto (s : QueueState) (h : Handler) (player : GuildPlayer) (pc : HandlerPc) : QueueState :=
  { s with player, handler := some { h with pc } }

/-- The handler ends and gives the lock back. -/
def finish (s : QueueState) (h : Handler) (player : GuildPlayer) (reply : Option String) :
    QueueState :=
  { s with
    player
    handler := none
    finished := s.finished ++ [{ handler := h, queue := player.queue, reply }] }

end QueueState

/-- `l_user`: the owners of tracks who are not in the voice channel, each once. -/
def leftUsers (queue : List MCTrack) (vcUsers : List Nat) : List Nat :=
  (queue.map (·.userId)).eraseDups.filter (!vcUsers.contains ·)

def plural (n : Nat) (word : String) : String :=
  toString n ++ " " ++ word ++ if n ≠ 1 then "s" else ""

/-- The reply of `m_clear_left` and `m_clear_musicat`. -/
def removedReply (modify : QueueModify) (usiz rmed : Nat) : String :=
  if modify = .mClearMusicat then "Removed " ++ plural rmed "track" ++ " from queue"
  else if usiz = 0 then "No user left this session yet"
  else plural usiz "user" ++ " left this session. Removed " ++ plural rmed "track"

/-- The reply of `m_shuffle`. -/
def shuffleReply (siz : Nat) (done : Bool) : String :=
  if !done then "Doesn't seem like shuffleable"
  else "Shuffled" ++ if siz < 5 then
    ", I suggest the `/move` command if you do think my shuffling skill isn't very much satisfying"
    else ""

/-- One call of `handle_option`. -/
def handleOption (env : HandleEnv) (s : QueueState) (h : Handler) : QueueState :=
  let p := s.player
  match h.pc with
  | .resetShifted =>
    let p := p.resetShifted.1
    match h.modify with
    | .mClear =>
      if h.siz < 2 then
        s.finish h p
          (some "No track to clear, skip the current track to clear the queue completely")
      else s.goto h p .clearAt
    | .mShuffle => s.goto h p .shuffle
    | .mReverse =>
      if h.siz < 3 then s.finish h p (some "Reversed. Not that you can tell the difference")
      else s.goto h p .reverseAt
    | .mClearLeft =>
      if env.voiceReady then s.goto h p .checkUsers
      else s.finish h p (some "Establishing connection. Please wait...")
    | .mClearMusicat => s.goto h p (.removeByUser [env.shaId] 1 0)
  | .shuffle =>
    let (p, done) := p.shuffle env.rand
    if done then s.goto h p (.publish (shuffleReply h.siz done))
    else s.finish h p (some (shuffleReply h.siz done))
  | .clearAt =>
    match p.queue[0]? with
    | none => s.finish h p none
    | some t => s.goto h p (.clearQueue t)
  | .clearQueue t => s.goto h { p with queue := [] } (.clearAdd t)
  | .clearAdd t => s.goto h { p with queue := p.queue ++ [t] } (.publish "Cleared")
  | .reverseAt =>
    match p.queue[0]? with
    | none => s.finish h p none
    | some t => s.goto h p (.reverseLoop t (h.siz - 1) [])
  | .reverseLoop t 0 nQueue => s.goto h { p with queue := [] } (.reverseSet t nQueue)
  | .reverseLoop t (i + 1) nQueue =>
    match p.queue[i + 1]? with
    | none => s.finish h p none
    | some x => s.goto h p (.reverseLoop t i (nQueue ++ [x]))
  | .reverseSet t nQueue => s.goto h { p with queue := nQueue } (.reverseAddFront t)
  | .reverseAddFront t => s.goto h { p with queue := t :: p.queue } (.publish "Reversed")
  | .checkUsers =>
    match env.vcUsers with
    | none => s.finish h p (some "`[ERROR]` Can't get current voice connection")
    | some vcUsers =>
      let lUser := leftUsers p.queue vcUsers
      s.goto h p (.removeByUser lUser lUser.length 0)
  | .removeByUser [] usiz rmed =>
    if rmed ≠ 0 then s.goto h p (.publish (removedReply h.modify usiz rmed))
    else s.finish h p (some (removedReply h.modify usiz rmed))
  | .removeByUser (u :: lUser) usiz rmed =>
    let (p, n) := p.removeTrackByUser u
    s.goto h p (.removeByUser lUser usiz (rmed + n))
  | .publish reply => s.finish h p.publishQueue (some reply)

inductive QueueAction where
  /-- `run_download_thread`. -/
  | addTrack (track : MCTrack) (top : Bool) (argSlip : Int) (fetched : Option (Option String))
  /-- `get_queue`: its `reset_shifted`. -/
  | reset
  /-- Its copy, for a command; an empty one ends the command. -/
  | copy (modify : QueueModify)
  /-- The command with snapshot `i` takes the lock. -/
  | lock (i : Nat)
  | handle (env : HandleEnv)
  /-- `manager::skip`, under the lock. -/
  | skip (env : SkipEnv) (amount : Int) (remove : Bool)
  /-- `/remove`: its `remove_track`. -/
  | removeTrack (pos amount toPos : UInt64)

def commandStep (s : QueueState) : QueueAction → Option QueueState
  | .addTrack track top argSlip fetched =>
    let new := (trackToAdd track fetched).toList
    some { s with
      player := s.player.addTrack track top argSlip fetched
      snapshots := s.snapshots.map fun n => { n with gap := n.gap ++ new }
      handler := s.handler.map fun h => { h with added := h.added ++ new } }
  | .reset => some { s with player := s.player.resetShifted.1 }
  | .copy modify =>
    if s.player.queue.isEmpty then some s
    else some { s with snapshots := s.snapshots ++ [{ modify, siz := s.player.queue.length }] }
  | .lock i =>
    match s.handler, s.snapshots[i]? with
    | none, some n =>
      some { s with
        snapshots := s.snapshots.eraseIdx i
        handler := some
          { modify := n.modify, siz := n.siz, live := s.player.queue
            playing := s.player.queue[s.player.shiftedTrack]?, gap := n.gap } }
    | _, _ => none
  | .handle env => s.handler.map (handleOption env s)
  | .skip env amount remove =>
    if s.handler.isNone then some { s with player := (managerSkip env s.player amount remove).1 }
    else none
  | .removeTrack pos amount toPos =>
    some { s with player := (s.player.removeTrack pos amount toPos).1 }

/-! ## What a method does to the order -/

theorem perm_cons_eraseIdx {l : List MCTrack} {i : Nat} {t : MCTrack} (h : l[i]? = some t) :
    (t :: l.eraseIdx i).Perm l := by
  obtain ⟨hi, rfl⟩ := List.getElem?_eq_some_iff.1 h
  exact List.getElem_cons_eraseIdx_perm hi

/-- `reset_shifted` reorders the queue, and brings the playing track to its front. -/
theorem resetShifted_spec (p : GuildPlayer) :
    p.resetShifted.1.shiftedTrack = 0 ∧ p.resetShifted.1.queue.Perm p.queue ∧
      ∀ t, Playing p t → p.resetShifted.1.queue[0]? = some t := by
  refine ⟨?_, ?_, fun t ht => by rw [ht.resetShifted]; rfl⟩
  · unfold GuildPlayer.resetShifted
    repeat' split
    all_goals rfl
  · cases ht : p.queue[p.shiftedTrack]? with
    | some t =>
      rw [Playing.resetShifted ht]
      exact perm_cons_eraseIdx ht
    | none =>
      unfold GuildPlayer.resetShifted
      rw [ht]
      split <;> exact List.Perm.refl _

theorem addTrack_perm (p : GuildPlayer) (track : MCTrack) (top : Bool) (argSlip : Int)
    (fetched : Option (Option String)) :
    (p.addTrack track top argSlip fetched).queue.Perm
      (p.queue ++ (trackToAdd track fetched).toList) := by
  unfold GuildPlayer.addTrack
  cases trackToAdd track fetched with
  | none => simp
  | some t =>
    have hback : (t :: p.queue).Perm (p.queue ++ [t]) := (List.perm_append_singleton t _).symm
    dsimp only
    split
    · exact hback
    · split
      · rename_i hslip
        exact (List.perm_insertIdx t _ hslip.2.le).trans hback
      · exact List.Perm.refl _

/-! ## The commands without interruption -/

/-- `m_clear` of `handle_option`, with the size of the copy. -/
def clearAll (siz : Nat) (p : GuildPlayer) : GuildPlayer :=
  let p := p.resetShifted.1
  if siz < 2 then p
  else
    match p.queue with
    | [] => p
    | t :: _ => publishQueue { p with queue := [t] }

/-- `m_reverse` of `handle_option`; it throws when the copy was longer. -/
def reverseAll (siz : Nat) (p : GuildPlayer) : GuildPlayer :=
  let p := p.resetShifted.1
  if siz < 3 then p
  else
    match p.queue with
    | [] => p
    | t :: queue =>
      if siz ≤ queue.length + 1 then
        publishQueue { p with queue := t :: (queue.take (siz - 1)).reverse }
      else p

section
variable {s : QueueState} {h : Handler} {env : HandleEnv}

/-- The handler ends after some of its own calls, and leaves the player `p`. -/
def RunsTo (env : HandleEnv) (s : QueueState) (p : GuildPlayer) : Prop :=
  ∃ n s', run commandStep s (List.replicate n (.handle env)) = some s' ∧ s'.handler = none ∧
    s'.player = p

theorem runsTo_finish (p : GuildPlayer) (reply : Option String) :
    RunsTo env (s.finish h p reply) p := ⟨0, _, rfl, rfl, rfl⟩

/-- One call, and then the rest. -/
theorem runsTo_handle {p : GuildPlayer} (hs : s.handler = some h)
    (hr : RunsTo env (handleOption env s h) p) : RunsTo env s p := by
  obtain ⟨n, s', hrun, hend⟩ := hr
  refine ⟨n + 1, s', ?_, hend⟩
  have hstep : commandStep s (.handle env) = some (handleOption env s h) := by
    simp only [commandStep, hs, Option.map_some]
  rw [List.replicate_succ, run_cons hstep, hrun]

/-- **`/queue clear` without interruption.** -/
theorem runsTo_clear (hs : s.handler = some h) (hm : h.modify = .mClear)
    (hpc : h.pc = .resetShifted) : RunsTo env s (clearAll h.siz s.player) := by
  apply runsTo_handle hs
  unfold handleOption clearAll
  simp only [hpc, hm]
  split
  · exact runsTo_finish _ _
  · apply runsTo_handle rfl
    unfold handleOption QueueState.goto
    cases hq : s.player.resetShifted.1.queue with
    | nil =>
      simp only [hq, List.getElem?_nil]
      exact runsTo_finish _ _
    | cons t queue =>
      simp only [hq, List.getElem?_cons_zero]
      exact runsTo_handle rfl (runsTo_handle rfl (runsTo_handle rfl (runsTo_finish _ _)))

/-- The loop of `m_reverse` from index `i` on. -/
theorem runsTo_reverseLoop (t : MCTrack) (rest : List MCTrack) :
    ∀ (i : Nat) (nQueue : List MCTrack) {s : QueueState} {h : Handler}, s.handler = some h →
      h.pc = .reverseLoop t i nQueue → s.player.queue = t :: rest →
      RunsTo env s (if i ≤ rest.length then
        publishQueue { s.player with queue := t :: (nQueue ++ (rest.take i).reverse) }
      else s.player)
  | 0, nQueue, s, h, hs, hpc, hq => by
    rw [if_pos (Nat.zero_le _)]
    apply runsTo_handle hs
    unfold handleOption
    simp only [hpc]
    refine runsTo_handle rfl (runsTo_handle rfl (runsTo_handle rfl ?_))
    simp only [handleOption, QueueState.goto, List.take_zero, List.reverse_nil, List.append_nil]
    exact runsTo_finish _ _
  | i + 1, nQueue, s, h, hs, hpc, hq => by
    apply runsTo_handle hs
    unfold handleOption
    simp only [hpc, hq, List.getElem?_cons_succ]
    by_cases hi : i < rest.length
    · rw [List.getElem?_eq_getElem hi, if_pos (Nat.succ_le_of_lt hi)]
      have hrest := runsTo_reverseLoop t rest i (nQueue ++ [rest[i]])
        (s := s.goto h s.player (.reverseLoop t i (nQueue ++ [rest[i]]))) rfl rfl hq
      rw [if_pos hi.le] at hrest
      have htake : nQueue ++ (rest.take (i + 1)).reverse =
          nQueue ++ [rest[i]] ++ (rest.take i).reverse := by
        rw [List.take_succ_eq_append_getElem hi, List.reverse_append, List.append_assoc]
        rfl
      rw [htake]
      exact hrest
    · rw [List.getElem?_eq_none (Nat.le_of_not_lt hi), if_neg (by omega)]
      exact runsTo_finish _ _

/-- **`/queue reverse` without interruption.** -/
theorem runsTo_reverse (hs : s.handler = some h) (hm : h.modify = .mReverse)
    (hpc : h.pc = .resetShifted) : RunsTo env s (reverseAll h.siz s.player) := by
  apply runsTo_handle hs
  unfold handleOption reverseAll
  simp only [hpc, hm]
  split
  · exact runsTo_finish _ _
  · rename_i hlarge
    apply runsTo_handle rfl
    unfold handleOption QueueState.goto
    cases hq : s.player.resetShifted.1.queue with
    | nil =>
      simp only [hq, List.getElem?_nil]
      exact runsTo_finish _ _
    | cons t rest =>
      simp only [hq, List.getElem?_cons_zero]
      have hloop : RunsTo env _ _ := runsTo_reverseLoop t rest (h.siz - 1) []
        (s := { s with
          player := s.player.resetShifted.1
          handler := some { h with pc := .reverseLoop t (h.siz - 1) [] } }) rfl rfl hq
      have hle : h.siz ≤ rest.length + 1 ↔ h.siz - 1 ≤ rest.length := by omega
      simp only [hle]
      simpa using hloop

end

end Musicat.Player
