import Musicat.Lib.Lists
import Musicat.Player.Marker

/-!
# The skip law and the previous-track law

Both laws are about a queue part, the end of the stream and the marker `"e"` in
a row. Tracks are compared by their entries (`MCTrack.entry`), which forget the
repeat count, the skip votes and the pending seek that these functions reset.
`marker_e` computes the marker on a player it does not turn away; `skipPop_iterate`
computes the loop of `skip_queue`.
-/

namespace Musicat.Player

open GuildPlayer Lib

/-- The entries of a queue. -/
def entries (queue : List MCTrack) : List MCTrack := queue.map MCTrack.entry

@[simp] theorem entries_nil : entries [] = [] := rfl
@[simp] theorem entries_cons (t : MCTrack) (queue : List MCTrack) :
    entries (t :: queue) = t.entry :: entries queue := rfl
@[simp] theorem entries_append (q₁ q₂ : List MCTrack) :
    entries (q₁ ++ q₂) = entries q₁ ++ entries q₂ := List.map_append
@[simp] theorem length_entries (queue : List MCTrack) : (entries queue).length = queue.length :=
  List.length_map _

@[simp] theorem entries_resetFrontRepeat (queue : List MCTrack) :
    entries (resetFrontRepeat queue) = entries queue := by
  cases queue <;> simp [resetFrontRepeat]

@[simp] theorem entries_map_resetRepeat (queue : List MCTrack) :
    entries (queue.map MCTrack.resetRepeat) = entries queue := by
  simp [entries, Function.comp_def]

/-! ## The marker -/

section
variable {env : MarkerEnv} {p : GuildPlayer} {front : MCTrack} {queue : List MCTrack}

/-- `Passes` looks at what has been loaded only. -/
theorem MarkerEnv.Passes.congr (h : env.Passes p) {q : GuildPlayer}
    (hqueue : q.savedQueueLoaded = p.savedQueueLoaded)
    (hconf : q.savedConfigLoaded = p.savedConfigLoaded) : env.Passes q where
  running := h.running
  connected := h.connected
  queueLoaded := hqueue ▸ h.queueLoaded
  configLoaded := hconf ▸ h.configLoaded

theorem loadGuildCurrentQueue_of_passes (h : env.Passes p) : p.loadGuildCurrentQueue env = p := by
  unfold loadGuildCurrentQueue
  rcases h.queueLoaded with hl | hl
  · rw [if_pos hl]
  · rw [hl]; split <;> rfl

theorem loadGuildPlayerConfig_of_passes (h : env.Passes p) : p.loadGuildPlayerConfig env = p := by
  unfold loadGuildPlayerConfig
  rw [if_pos h.configLoaded]

theorem resetShifted_of_zero (hs : p.shiftedTrack = 0) : p.resetShifted.1 = p := by
  unfold resetShifted
  rw [if_neg (by omega)]
  simp [← hs]

/-- The end of a track on a player the marker does not turn away. -/
theorem marker_e (h : env.Passes p) (hproc : p.processingAudio = false)
    (hstop : p.stopped = false) (hs : p.shiftedTrack = 0) (hq : p.queue = front :: queue) :
    (handleOnTrackMarker env "e" p).1 =
      (if p.currentTrack.filename = front.filename then p.finishFront else p).startFront := by
  simp only [handleOnTrackMarker, loadGuildCurrentQueue_of_passes h,
    loadGuildPlayerConfig_of_passes h, h.running, hproc, h.connected, resetShifted_of_zero hs,
    hstop, currentTrackIsFirstTrack, hq, List.isEmpty_cons, beq_self_eq_true, Bool.not_true,
    Bool.not_false, Bool.true_and, Bool.false_eq_true, if_false, beq_iff_eq]
  split <;> split <;> rfl

/-- The same once the stream of the track has ended. -/
theorem marker_e_doneStreaming (h : env.Passes p) (hstop : p.stopped = false)
    (hs : p.shiftedTrack = 0) (hq : p.queue = front :: queue) :
    (handleOnTrackMarker env "e" p.doneStreaming).1 =
      (if p.currentTrack.filename = front.filename then p.doneStreaming.finishFront
      else p.doneStreaming).startFront :=
  marker_e (p := p.doneStreaming) (h.congr rfl rfl) rfl hstop hs hq

theorem startFront_entries (p : GuildPlayer) : entries p.startFront.queue = entries p.queue := by
  unfold startFront
  split
  · next hq => simp [hq]
  · next hq => rw [hq]; rfl

theorem startFront_currentTrack (hq : p.queue = front :: queue) :
    p.startFront.currentTrack.entry = front.entry := by
  unfold startFront
  rw [hq]
  rfl

/-- What the marker leaves as it is. -/
theorem finishFront_frame (p : GuildPlayer) :
    p.finishFront.shiftedTrack = p.shiftedTrack ∧ p.finishFront.loopMode = p.loopMode ∧
      p.finishFront.savedQueueLoaded = p.savedQueueLoaded ∧
      p.finishFront.savedConfigLoaded = p.savedConfigLoaded := by
  unfold finishFront popByLoopMode
  cases p.queue with
  | nil => exact ⟨rfl, rfl, rfl, rfl⟩
  | cons t queue =>
    dsimp only
    split
    · exact ⟨rfl, rfl, rfl, rfl⟩
    · cases hmode : p.loopMode <;> simp [hmode]

theorem startFront_frame (p : GuildPlayer) :
    p.startFront.loopMode = p.loopMode ∧ p.startFront.savedQueueLoaded = p.savedQueueLoaded ∧
      p.startFront.savedConfigLoaded = p.savedConfigLoaded := by
  unfold startFront
  split <;> exact ⟨rfl, rfl, rfl⟩

end

/-! ## The loop of `skip_queue` -/

/-- Popping `k` times without putting back. -/
theorem skipPop_take (k : Nat) :
    ∀ queue removed : List MCTrack,
      (skipPop false)^[k] (queue, removed) = (queue.drop k, removed ++ queue.take k) := by
  induction k with
  | zero => simp
  | succ k ih =>
    intro queue removed
    rw [Function.iterate_succ_apply]
    cases queue with
    | nil => simp [skipPop, ih]
    | cons t queue => simp [skipPop, ih]

/-- After `k` pops the first `k` tracks are gone, or at the back in their order. -/
theorem skipPop_iterate (push : Bool) :
    ∀ (k : Nat) (queue removed : List MCTrack), k ≤ queue.length →
      (skipPop push)^[k] (queue, removed) =
        (queue.drop k ++ (if push then (queue.take k).map MCTrack.resetRepeat else []),
          removed ++ queue.take k)
  | 0, queue, removed, _ => by simp
  | k + 1, [], removed, hk => by simp at hk
  | k + 1, l :: queue, removed, hk => by
    simp only [List.length_cons, Nat.add_le_add_iff_right] at hk
    rw [Function.iterate_succ_apply]
    cases push with
    | false => simp [skipPop, skipPop_take]
    | true =>
      have hk' : k ≤ (queue ++ [l.resetRepeat]).length := by simp; omega
      simp only [skipPop, ↓reduceIte, skipPop_iterate true k _ _ hk']
      simp [List.drop_append_of_le_length hk, List.take_append_of_le_length hk]

/-! ## The skip law -/

/-- How many tracks `skip_queue n` pops: the playing one is left to the marker
unless the mode repeats it. -/
def popCount (mode : LoopMode) (n : Nat) : Nat :=
  match mode with
  | .lNone | .lQueue => n - 1
  | .lSong | .lSongQueue => n

/-- Whether `manager::skip` puts the popped tracks at the back. -/
def pushesBack (mode : LoopMode) (remove : Bool) : Bool :=
  !remove && (mode == .lSongQueue || mode == .lQueue)

section
variable {env : MarkerEnv} {p : GuildPlayer} {n : Nat} {remove : Bool}

@[simp] theorem resetCurrentRepeat_shiftedTrack (p : GuildPlayer) :
    p.resetCurrentRepeat.shiftedTrack = p.shiftedTrack := by
  unfold resetCurrentRepeat; split <;> rfl

@[simp] theorem resetCurrentRepeat_queue (p : GuildPlayer) :
    p.resetCurrentRepeat.queue = p.queue := by
  unfold resetCurrentRepeat; split <;> rfl

@[simp] theorem resetCurrentRepeat_loopMode (p : GuildPlayer) :
    p.resetCurrentRepeat.loopMode = p.loopMode := by
  unfold resetCurrentRepeat; split <;> rfl

@[simp] theorem resetCurrentRepeat_stopped (p : GuildPlayer) :
    p.resetCurrentRepeat.stopped = p.stopped := by
  unfold resetCurrentRepeat; split <;> rfl

@[simp] theorem resetCurrentRepeat_filename (p : GuildPlayer) :
    p.resetCurrentRepeat.currentTrack.filename = p.currentTrack.filename := by
  unfold resetCurrentRepeat; split <;> rfl

/-- The marker may pass after the repeat count is reset and the queue rearranged. -/
theorem resetCurrentRepeat_passes (h : env.Passes p) (queue : List MCTrack) :
    env.Passes { p.resetCurrentRepeat with queue } := by
  unfold resetCurrentRepeat
  split <;> exact h.congr rfl rfl

variable (remove) in
theorem managerSkipQueue_eq (hs : p.shiftedTrack = 0) (h1 : 1 ≤ n) (h1000 : n ≤ 1000)
    (hlen : n ≤ p.queue.length) :
    (p.managerSkipQueue n remove).1 =
      { p.resetCurrentRepeat with
        queue := (resetFrontRepeat p.queue).drop (popCount p.loopMode n) ++
          if pushesBack p.loopMode remove then
            ((resetFrontRepeat p.queue).take (popCount p.loopMode n)).map MCTrack.resetRepeat
          else [] } := by
  have hclamp : clampSkip n = n := by
    simp only [clampSkip]; split <;> split <;> omega
  have hl : (resetFrontRepeat p.queue).length = p.queue.length := by
    rw [← length_entries, entries_resetFrontRepeat, length_entries]
  have hcount :
      ((n : Int) - if (p.loopMode == .lSong || p.loopMode == .lSongQueue) then 0 else 1).toNat =
        popCount p.loopMode n := by
    cases p.loopMode <;> simp [popCount]
  have hpush : (!remove && (false || p.loopMode == .lSongQueue || p.loopMode == .lQueue)) =
      pushesBack p.loopMode remove := by
    simp [pushesBack]
  have hle : popCount p.loopMode n ≤ (resetFrontRepeat p.queue).length := by
    rw [hl]; cases p.loopMode <;> simp only [popCount] <;> omega
  simp only [managerSkipQueue, skipQueue, resetShifted_of_zero hs, hclamp, Bool.false_or,
    resetCurrentRepeat_queue, resetCurrentRepeat_loopMode] at hcount hpush ⊢
  rw [hcount, hpush, skipPop_iterate _ _ _ _ hle]

/-- The player once `manager::skip` has rearranged the queue, the stream has ended and
the marker `"e"` has been handled. -/
def afterSkip (env : MarkerEnv) (p : GuildPlayer) (n : Nat) (remove : Bool) : GuildPlayer :=
  (handleOnTrackMarker env "e" (p.managerSkipQueue n remove).1.doneStreaming).1

/-- The skip law: track `n` plays and is in front; the `n` tracks before it are gone, or at
the back in their order when they are neither removed nor let go by the loop mode. -/
def SkipLaw (env : MarkerEnv) (p : GuildPlayer) (n : Nat) (remove : Bool) : Prop :=
  (∃ t, p.queue[n]? = some t ∧ (afterSkip env p n remove).currentTrack.entry = t.entry ∧
    (entries (afterSkip env p n remove).queue).head? = some t.entry) ∧
  entries (afterSkip env p n remove).queue =
    entries (p.queue.drop n ++
      if remove = true ∨ p.loopMode = .lNone ∨ p.loopMode = .lSong then [] else p.queue.take n)

/-- The state `SkipLaw` is about: a playing track in front of a queue of distinct files. -/
structure AtFront (env : MarkerEnv) (p : GuildPlayer) : Prop where
  passes : env.Passes p
  shifted : p.shiftedTrack = 0
  current : p.queue.head? = some p.currentTrack
  running : p.stopped = false

theorem AtFront.exists_cons (h : AtFront env p) :
    ∃ queue, p.queue = p.currentTrack :: queue := by
  cases hq : p.queue with
  | nil => simpa [hq] using h.current
  | cons front queue =>
    have := h.current
    rw [hq, List.head?_cons, Option.some.injEq] at this
    exact ⟨queue, by rw [this]⟩

/-- The marker after the skip looks at the front that the skip left. -/
theorem afterSkip_eq (h : AtFront env p) (h1 : 1 ≤ n) (h1000 : n ≤ 1000)
    (hn : n < p.queue.length) {front : MCTrack} {queue : List MCTrack}
    (hfront : (p.managerSkipQueue n remove).1.queue = front :: queue) :
    afterSkip env p n remove =
      (if p.currentTrack.filename = front.filename
        then (p.managerSkipQueue n remove).1.doneStreaming.finishFront
        else (p.managerSkipQueue n remove).1.doneStreaming).startFront := by
  have heq := managerSkipQueue_eq remove h.shifted h1 h1000 hn.le
  have hpass : env.Passes (p.managerSkipQueue n remove).1 := by
    rw [heq]
    exact resetCurrentRepeat_passes h.passes _
  have hstop : (p.managerSkipQueue n remove).1.stopped = false := by
    rw [heq]
    simpa using h.running
  have hshifted : (p.managerSkipQueue n remove).1.shiftedTrack = 0 := by
    rw [heq]
    simpa using h.shifted
  have hname : (p.managerSkipQueue n remove).1.currentTrack.filename =
      p.currentTrack.filename := by
    rw [heq]
    simp
  rw [afterSkip, marker_e_doneStreaming hpass hstop hshifted hfront, hname]

variable (remove) in
/-- Popping at least one track of a queue of distinct files: the marker pops none. -/
theorem afterSkip_of_pop (h : AtFront env p) (hd : (p.queue.map (·.filename)).Nodup)
    (h1 : 1 ≤ n) (h1000 : n ≤ 1000) (hn : n < p.queue.length) (hpop : 1 ≤ popCount p.loopMode n) :
    (∃ t, p.queue[popCount p.loopMode n]? = some t ∧
      (afterSkip env p n remove).currentTrack.entry = t.entry) ∧
    entries (afterSkip env p n remove).queue =
      entries (p.queue.drop (popCount p.loopMode n) ++
        if pushesBack p.loopMode remove then p.queue.take (popCount p.loopMode n) else []) := by
  obtain ⟨queue, hq⟩ := h.exists_cons
  have hlt : popCount p.loopMode n < p.queue.length := by
    cases hm : p.loopMode <;> simp only [popCount] <;> omega
  have heq := managerSkipQueue_eq remove h.shifted h1 h1000 hn.le
  obtain ⟨k, hk⟩ : ∃ k, popCount p.loopMode n = k + 1 := ⟨_, (Nat.sub_add_cancel hpop).symm⟩
  rw [hk, hq] at hlt heq ⊢
  rw [hq, List.map_cons, List.nodup_cons] at hd
  simp only [List.length_cons, Nat.add_lt_add_iff_right] at hlt
  have hne : p.currentTrack.filename ≠ queue[k].filename := fun e =>
    hd.1 (e ▸ List.mem_map_of_mem (List.getElem_mem hlt))
  simp only [resetFrontRepeat, List.drop_succ_cons, List.drop_eq_getElem_cons hlt,
    List.cons_append] at heq
  obtain ⟨rest, hfront⟩ : ∃ rest, (p.managerSkipQueue n remove).1.queue = queue[k] :: rest :=
    ⟨_, by rw [heq]⟩
  rw [afterSkip_eq h h1 h1000 hn hfront, if_neg hne]
  refine ⟨⟨queue[k], by simp, ?_⟩, ?_⟩
  · exact startFront_currentTrack (by rw [heq]; rfl)
  · rw [startFront_entries, heq, List.drop_succ_cons, List.drop_eq_getElem_cons hlt]
    cases pushesBack p.loopMode remove <;>
      simp only [doneStreaming, if_true, if_false, Bool.false_eq_true, List.take_succ_cons,
        List.map_cons, List.cons_append, entries_cons, entries_append, entries_map_resetRepeat,
        MCTrack.entry_resetRepeat]

variable (remove) in
/-- Popping no track: the marker lets the playing track go. -/
theorem afterSkip_of_no_pop (h : AtFront env p) (h1 : 1 ≤ n) (h1000 : n ≤ 1000)
    (hn : n < p.queue.length) (hpop : popCount p.loopMode n = 0) :
    ∃ queue, p.queue = p.currentTrack :: queue ∧
      entries (afterSkip env p n remove).queue =
        entries (if p.loopMode = .lNone then queue else queue ++ [p.currentTrack]) ∧
      (afterSkip env p n remove).currentTrack.entry = (queue.headD {}).entry := by
  obtain ⟨queue, hq⟩ := h.exists_cons
  have heq := managerSkipQueue_eq remove h.shifted h1 h1000 hn.le
  rw [hpop, hq] at heq
  simp only [resetFrontRepeat, List.drop_zero, List.take_zero, List.map_nil, ite_self,
    List.append_nil] at heq
  obtain ⟨t, rest, rfl⟩ : ∃ t rest, queue = t :: rest := by
    cases queue with
    | nil => simp [hq] at hn; omega
    | cons t rest => exact ⟨t, rest, rfl⟩
  have hfront : (p.managerSkipQueue n remove).1.queue =
      p.currentTrack.resetRepeat :: t :: rest := by rw [heq]
  refine ⟨t :: rest, hq, ?_⟩
  -- the playing track's repeat count is 0, so the marker does not repeat it
  have hfinish : (p.managerSkipQueue n remove).1.doneStreaming.finishFront.queue =
      if p.loopMode = .lNone then t :: rest else (t :: rest) ++ [p.currentTrack.resetRepeat] := by
    have hmode : p.loopMode = .lNone ∨ p.loopMode = .lQueue := by
      cases hm : p.loopMode <;> simp [hm, popCount] at hpop ⊢ <;> omega
    rw [heq]
    rcases hmode with hm | hm <;> simp [finishFront, doneStreaming, popByLoopMode, hm]
  rw [afterSkip_eq h h1 h1000 hn hfront, if_pos (MCTrack.resetRepeat_filename _).symm,
    startFront_entries, hfinish]
  constructor
  · split <;> simp
  · have hstart : (p.managerSkipQueue n remove).1.doneStreaming.finishFront.queue =
        t :: if p.loopMode = .lNone then rest else rest ++ [p.currentTrack.resetRepeat] := by
      rw [hfinish]
      split <;> rfl
    exact startFront_currentTrack hstart

/-- When the skip law holds: the mode repeats the playing track, or one track is skipped
and is not to be removed from a looping queue. -/
def SkipExact (mode : LoopMode) (n : Nat) (remove : Bool) : Prop :=
  mode = .lSong ∨ mode = .lSongQueue ∨ (n = 1 ∧ ¬ (remove = true ∧ mode = .lQueue))

instance (mode : LoopMode) (n : Nat) (remove : Bool) : Decidable (SkipExact mode n remove) :=
  inferInstanceAs (Decidable (_ ∨ _))

theorem head?_entries_drop_append {queue rest : List MCTrack} {t : MCTrack}
    (h : queue[n]? = some t) : (entries (queue.drop n ++ rest)).head? = some t.entry := by
  obtain ⟨hn, rfl⟩ := List.getElem?_eq_some_iff.1 h
  rw [List.drop_eq_getElem_cons hn]
  rfl

/-- The law follows from the queue and the current track after the skip. -/
theorem skipLaw_of_eq {t : MCTrack} (ht : p.queue[n]? = some t)
    (hcur : (afterSkip env p n remove).currentTrack.entry = t.entry)
    (hqueue : entries (afterSkip env p n remove).queue =
      entries (p.queue.drop n ++
        if remove = true ∨ p.loopMode = .lNone ∨ p.loopMode = .lSong then []
        else p.queue.take n)) :
    SkipLaw env p n remove :=
  ⟨⟨t, ht, hcur, by rw [hqueue, head?_entries_drop_append ht]⟩, hqueue⟩

theorem skipLaw_of_repeating (h : AtFront env p) (hd : (p.queue.map (·.filename)).Nodup)
    (h1 : 1 ≤ n) (h1000 : n ≤ 1000) (hn : n < p.queue.length)
    (hm : p.loopMode = .lSong ∨ p.loopMode = .lSongQueue) : SkipLaw env p n remove := by
  have hk : popCount p.loopMode n = n := by rcases hm with hm | hm <;> simp [hm, popCount]
  obtain ⟨⟨t, ht, hcur⟩, hqueue⟩ := afterSkip_of_pop remove h hd h1 h1000 hn (by omega)
  rw [hk] at ht hqueue
  refine skipLaw_of_eq ht hcur (hqueue.trans ?_)
  rcases hm with hm | hm <;> cases remove <;> simp [hm, pushesBack]

theorem skipLaw_of_one (h : AtFront env p) (hn : 1 < p.queue.length)
    (hm : p.loopMode = .lNone ∨ (p.loopMode = .lQueue ∧ remove = false)) :
    SkipLaw env p 1 remove := by
  have hk : popCount p.loopMode 1 = 0 := by rcases hm with hm | hm <;> simp [hm, popCount]
  obtain ⟨queue, hq, hqueue, hcur⟩ :=
    afterSkip_of_no_pop remove h (by omega) (by omega) hn hk
  obtain ⟨t, rest, rfl⟩ : ∃ t rest, queue = t :: rest := by
    cases queue with
    | nil => simp [hq] at hn
    | cons t rest => exact ⟨t, rest, rfl⟩
  refine skipLaw_of_eq (t := t) (by simp [hq]) hcur (hqueue.trans ?_)
  rcases hm with hm | ⟨hm, hr⟩ <;> simp [*]

/-- **The skip law holds exactly under `SkipExact`.** With no loop and with a looping queue,
`skip_queue n` pops `n - 1` tracks and counts on the marker for the last one, but the marker
pops only while the current track is in front. -/
theorem skip_law_iff (h : AtFront env p) (hd : (p.queue.map (·.filename)).Nodup)
    (h1 : 1 ≤ n) (h1000 : n ≤ 1000) (hn : n < p.queue.length) :
    SkipLaw env p n remove ↔ SkipExact p.loopMode n remove := by
  have hlast : n - 1 < p.queue.length := by omega
  constructor
  · intro ⟨⟨t, ht, hcur, _⟩, hqueue⟩
    by_contra hx
    simp only [SkipExact, not_or] at hx
    have hmode : p.loopMode = .lNone ∨ p.loopMode = .lQueue := by
      cases hm : p.loopMode <;> simp [hm] at hx ⊢
    have hlen := congrArg List.length hqueue
    rcases Nat.lt_or_ge 1 n with h2 | h2
    · -- two or more: the track before the wanted one plays
      have hk : popCount p.loopMode n = n - 1 := by
        rcases hmode with hm | hm <;> simp [hm, popCount]
      obtain ⟨⟨u, hu, hcur'⟩, -⟩ :=
        afterSkip_of_pop remove h hd h1 h1000 hn (by omega)
      rw [hk] at hu
      have hf := MCTrack.filename_eq_of_entry_eq (hcur'.symm.trans hcur)
      have hinj := (List.nodup_iff_injective_get.1 hd).eq_iff
        (a := ⟨n - 1, by simpa using hlast⟩) (b := ⟨n, by simpa using hn⟩)
      rw [List.getElem?_eq_getElem hlast, Option.some.injEq] at hu
      rw [List.getElem?_eq_getElem hn, Option.some.injEq] at ht
      simp only [List.get_eq_getElem, List.getElem_map, hu, ht, hf, Fin.mk.injEq, true_iff] at hinj
      omega
    · -- one: it is still there although it should be removed
      have hn1 : n = 1 := by omega
      obtain ⟨hrm, hm⟩ : remove = true ∧ p.loopMode = .lQueue := by
        by_contra hc
        exact hx.2.2 ⟨hn1, hc⟩
      obtain ⟨queue, hq, hqueue', -⟩ :=
        afterSkip_of_no_pop remove h h1 h1000 hn (by simp [hm, popCount, hn1])
      rw [hqueue', hm, hrm, hn1, hq] at hlen
      simp at hlen
  · rintro (hm | hm | ⟨rfl, hx⟩)
    · exact skipLaw_of_repeating h hd h1 h1000 hn (.inl hm)
    · exact skipLaw_of_repeating h hd h1 h1000 hn (.inr hm)
    · cases hm : p.loopMode with
      | lNone => exact skipLaw_of_one h hn (.inl hm)
      | lSong => exact skipLaw_of_repeating h hd h1 h1000 hn (.inl hm)
      | lQueue => exact skipLaw_of_one h hn (.inr ⟨hm, by simpa [hm] using hx⟩)
      | lSongQueue => exact skipLaw_of_repeating h hd h1 h1000 hn (.inr hm)

end

theorem atFront_three : AtFront {} threeTracks := ⟨⟨rfl, rfl, .inl rfl, rfl⟩, rfl, rfl, rfl⟩

theorem skip_law_three : SkipLaw {} threeTracks 1 false :=
  (skip_law_iff atFront_three (by decide) (by decide) (by decide) (by decide)).2 (by decide)

/-- Skipping two tracks of `p, a, b` plays `a`; removing one track from the looping queue
leaves it at the back. -/
theorem skip_two_plays_the_next :
    ((afterSkip {} threeTracks 2 false).currentTrack.filename = "a" ∧
      ¬ SkipLaw {} threeTracks 2 false) ∧
    ((afterSkip {} { threeTracks with loopMode := .lQueue } 1 true).queue.map (·.filename) =
        ["a", "b", "p"] ∧
      ¬ SkipLaw {} { threeTracks with loopMode := .lQueue } 1 true) := by
  refine ⟨⟨by decide, ?_⟩, by decide, ?_⟩
  · rintro ⟨-, hqueue⟩
    revert hqueue
    decide
  · rintro ⟨-, hqueue⟩
    revert hqueue
    decide

/-! ## The previous-track law -/

/-- The player once `handle_prev` or `button_run_prev` has rotated the queue, the stream has
ended and the marker `"e"` has been handled. -/
def afterPrev (env : MarkerEnv) (p : GuildPlayer) : GuildPlayer :=
  (handleOnTrackMarker env "e" p.prevQueue.doneStreaming).1

/-- The previous-track law: the back entry plays and is in front of the others. -/
def PrevLaw (env : MarkerEnv) (p : GuildPlayer) : Prop :=
  entries (afterPrev env p).queue = entries (p.queue.rotateRight 1) ∧
  ∃ back, p.queue.getLast? = some back ∧
    (afterPrev env p).currentTrack.entry = back.entry ∧
    (entries (afterPrev env p).queue).head? = some back.entry

/-- When the previous-track law holds: the marker lets nothing go in this mode, or sees that
the front is another file, or rotates a queue that looks the same after any rotation, or
takes the back entry for a repetition of a nameless playing track. -/
def PrevExact (p : GuildPlayer) : Prop :=
  p.loopMode = .lSong ∨ p.loopMode = .lSongQueue ∨
  (p.queue.getLastD {}).filename ≠ p.currentTrack.filename ∨
  (p.loopMode = .lQueue ∧ ∀ t ∈ p.queue, t.entry = p.currentTrack.entry) ∨
  (p.currentTrack.isEmpty = true ∧ 2 ≤ p.queue.length ∧ 0 < p.currentTrack.rpt ∧
    0 < (p.queue.getLastD {}).rpt)

instance (p : GuildPlayer) : Decidable (PrevExact p) := inferInstanceAs (Decidable (_ ∨ _))

theorem rotateRight_concat {α : Type*} (l : List α) (b : α) :
    (l ++ [b]).rotateRight 1 = b :: l := by
  cases l with
  | nil => rfl
  | cons a l => simp [List.rotateRight, Nat.mod_eq_of_lt]

section
variable {env : MarkerEnv} {p : GuildPlayer} {init : List MCTrack} {back : MCTrack}

/-- The queue `prevQueue` leaves: the back entry in front, repeat counts apart. -/
theorem prevQueue_eq (hs : p.shiftedTrack = 0) (hq : p.queue = init ++ [back]) :
    ∃ l b, p.prevQueue = { p.resetCurrentRepeat with queue := b :: l } ∧
      entries l = entries init ∧ b.entry = back.entry ∧
      b.rpt = if init = [] then 0 else back.rpt := by
  cases init with
  | nil =>
    refine ⟨[], back.resetRepeat, ?_, rfl, rfl, rfl⟩
    simp [prevQueue, resetShifted_of_zero hs, hq, resetFrontRepeat]
  | cons t init =>
    refine ⟨t.resetRepeat :: init, back, ?_, rfl, rfl, rfl⟩
    have hl : (resetFrontRepeat p.queue) = t.resetRepeat :: (init ++ [back]) := by
      rw [hq]; rfl
    have hd : (back :: t.resetRepeat :: (init ++ [back])).dropLast =
        back :: t.resetRepeat :: init := by
      rw [← List.cons_append, ← List.cons_append, List.dropLast_concat]
    simp only [prevQueue, resetShifted_of_zero hs, resetCurrentRepeat_queue, hl]
    rw [← List.cons_append, List.getLast?_concat]
    simp only [List.cons_append, hd]

/-- What the marker does to the rotated queue. -/
theorem afterPrev_eq (h : env.Passes p) (hs : p.shiftedTrack = 0) (hstop : p.stopped = false)
    (hq : p.queue = init ++ [back]) :
    ∃ q : GuildPlayer, afterPrev env p =
        (if p.currentTrack.filename = back.filename then q.finishFront else q).startFront ∧
      q.loopMode = p.loopMode ∧
      q.currentTrack.rpt = (if p.currentTrack.isEmpty then p.currentTrack.rpt else 0) ∧
      ∃ l b, q.queue = b :: l ∧ entries l = entries init ∧ b.entry = back.entry ∧
        b.rpt = if init = [] then 0 else back.rpt := by
  obtain ⟨l, b, hprev, hl, hb, hrpt⟩ := prevQueue_eq hs hq
  have hpass : env.Passes p.prevQueue := by
    rw [hprev]
    exact resetCurrentRepeat_passes h _
  have hfront : p.prevQueue.queue = b :: l := by rw [hprev]
  have hm := marker_e_doneStreaming hpass (by rw [hprev]; simpa using hstop)
    (by rw [hprev]; simpa using hs) hfront
  refine ⟨p.prevQueue.doneStreaming, ?_, ?_, ?_, l, b, ?_, hl, hb, hrpt⟩
  · rw [afterPrev, hm, MCTrack.filename_eq_of_entry_eq hb]
    rw [show p.prevQueue.currentTrack.filename = p.currentTrack.filename by rw [hprev]; simp]
  · rw [hprev]; simp [doneStreaming]
  · rw [hprev]
    simp only [doneStreaming, resetCurrentRepeat]
    split <;> rfl
  · rw [hprev]; rfl

/-- The law in terms of what the marker made of the rotated queue. -/
theorem prevLaw_iff_entries {q : GuildPlayer} (hafter : afterPrev env p = q.startFront)
    (hq : p.queue = init ++ [back]) :
    PrevLaw env p ↔ entries q.queue = back.entry :: entries init := by
  have hrot : entries (p.queue.rotateRight 1) = back.entry :: entries init := by
    rw [hq, rotateRight_concat]; rfl
  constructor
  · intro ⟨h, _⟩
    rw [← hrot, ← h, hafter, startFront_entries]
  · intro h
    refine ⟨by rw [hafter, startFront_entries, h, hrot], back, by simp [hq], ?_, ?_⟩
    · cases hqq : q.queue with
      | nil => simp [hqq] at h
      | cons t queue =>
        rw [hqq, entries_cons, List.cons.injEq] at h
        rw [hafter, startFront_currentTrack hqq, h.1]
    · rw [hafter, startFront_entries, h]; rfl

theorem all_entries_iff {t : MCTrack} {queue : List MCTrack} (hcons : p.queue = t :: queue)
    (hq : p.queue = init ++ [back]) :
    (∀ u ∈ p.queue, u.entry = t.entry) ↔ ∀ a ∈ entries init, a = back.entry := by
  have hmem : ∀ u, u ∈ p.queue ↔ u ∈ init ∨ u = back := by simp [hq]
  have ht : t ∈ p.queue := by simp [hcons]
  constructor
  · intro h a ha
    obtain ⟨u, hu, rfl⟩ := List.mem_map.1 ha
    rw [h u ((hmem u).2 (.inl hu)), h back ((hmem back).2 (.inr rfl))]
  · intro h u hu
    have hsame : ∀ v ∈ p.queue, v.entry = back.entry := fun v hv =>
      ((hmem v).1 hv).elim (fun hv => h _ (List.mem_map_of_mem hv)) (fun e => by rw [e])
    rw [hsame u hu, hsame t ht]

/-- **The previous-track law holds exactly under `PrevExact`.** The marker takes the rotated
queue for an unchanged one when the back entry has the file of the playing track. -/
theorem prev_law_iff (h : AtFront env p) : PrevLaw env p ↔ PrevExact p := by
  obtain ⟨queue, hcons⟩ := h.exists_cons
  obtain ⟨init, back, hq⟩ : ∃ init back, p.queue = init ++ [back] :=
    ⟨_, _, (List.dropLast_concat_getLast (by simp [hcons] : p.queue ≠ [])).symm⟩
  obtain ⟨q, hafter, hmode, hcur, l, b, hqq, hl, hb, hrpt⟩ :=
    afterPrev_eq h.passes h.shifted h.running hq
  have hback : p.queue.getLastD {} = back := by simp [hq]
  by_cases hf : p.currentTrack.filename = back.filename
  · rw [if_pos hf] at hafter
    rw [prevLaw_iff_entries hafter hq]
    -- the marker repeats the track only if both repeat counts survived
    have hrep : (0 < q.currentTrack.rpt ∧ 0 < b.rpt) ↔
        (p.currentTrack.isEmpty = true ∧ 2 ≤ p.queue.length ∧ 0 < p.currentTrack.rpt ∧
          0 < back.rpt) := by
      have hlen : 2 ≤ p.queue.length ↔ init ≠ [] := by cases init <;> simp [hq]
      rw [hcur, hrpt, hlen]
      by_cases he : p.currentTrack.isEmpty = true <;> by_cases hi : init = [] <;> simp [he, hi]
    have hexact : PrevExact p ↔ p.loopMode = .lSong ∨ p.loopMode = .lSongQueue ∨
        (p.loopMode = .lQueue ∧ ∀ t ∈ p.queue, t.entry = p.currentTrack.entry) ∨
        (0 < q.currentTrack.rpt ∧ 0 < b.rpt) := by
      rw [PrevExact, hback, hrep]
      simp [hf]
    rw [hexact]
    by_cases hr : 0 < q.currentTrack.rpt ∧ 0 < b.rpt
    · have hfin : entries q.finishFront.queue = b.entry :: entries l := by
        simp only [finishFront, hqq]
        rw [if_pos hr]
        rfl
      rw [hfin, hl, hb]
      exact iff_of_true rfl (.inr (.inr (.inr hr)))
    · have hpop : q.finishFront = q.popByLoopMode := by
        simp only [finishFront, hqq]
        rw [if_neg hr]
      have hqueue : ∀ x : List MCTrack, entries x = entries (b :: l) ↔
          entries x = back.entry :: entries init := by
        intro x; rw [entries_cons, hl, hb]
      rw [hpop, ← hqueue]
      cases hm : p.loopMode with
      | lSong | lSongQueue => simp [popByLoopMode, hqq, hmode, hm]
      -- the marker pops the back entry it was to play
      | lNone => simp [popByLoopMode, hqq, hmode, hm, hr]
      | lQueue =>
        have hall : (∀ t ∈ p.queue, t.entry = p.currentTrack.entry) ↔
            ∀ a ∈ entries l, a = b.entry := by
          rw [hl, hb]
          exact all_entries_iff hcons hq
        have hrot := concat_eq_cons_iff (entries l) b.entry
        simp only [popByLoopMode, hqq, hmode, hm, entries_append, entries_cons, entries_nil]
        rw [hrot, ← hall]
        simp [hr]
  · rw [if_neg hf] at hafter
    rw [prevLaw_iff_entries hafter hq, hqq, entries_cons, hl, hb]
    exact iff_of_true rfl (.inr (.inr (.inl (by rw [hback]; exact Ne.symm hf))))

end

theorem prev_law_three : PrevLaw {} threeTracks := (prev_law_iff atFront_three).2 (by decide)

/-- A single track with no loop: the previous-track button empties the queue. With a copy
of the playing track at the back of a looping queue, the queue does not move. -/
theorem prev_single_ends :
    ((afterPrev {} { threeTracks with queue := [{ filename := "p" }] }).queue = [] ∧
      ¬ PrevLaw {} { threeTracks with queue := [{ filename := "p" }] }) ∧
    ((afterPrev {} { threeTracks with
        loopMode := .lQueue, queue := threeTracks.queue ++ [{ filename := "p" }] }).queue.map
          (·.filename) = ["p", "a", "b", "p"] ∧
      ¬ PrevLaw {} { threeTracks with
        loopMode := .lQueue, queue := threeTracks.queue ++ [{ filename := "p" }] }) := by
  refine ⟨⟨by decide, ?_⟩, by decide, ?_⟩
  · rintro ⟨hqueue, -⟩
    revert hqueue
    decide
  · rintro ⟨hqueue, -⟩
    revert hqueue
    decide

end Musicat.Player
