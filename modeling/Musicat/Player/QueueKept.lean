import Musicat.Player.Playing
import Musicat.Player.QueueCommand

/-!
# What the queue command keeps

The handler of `/queue reverse` indexes the live queue by the size of a copy,
and replaces it by what it has read; `/queue clear` empties it. Both lose what
comes in between. Otherwise a reverse keeps every track, and a clear the playing
one and all that were added.
-/

namespace Musicat.Player

open GuildPlayer Lib

/-! ## What the commands keep -/

/-- `/queue reverse` has kept every track, with the playing one in front; `/queue clear` has kept
the playing track and those added since the copy. -/
def Finished.Kept (f : Finished) : Prop :=
  match f.handler.modify with
  | .mReverse =>
    f.reply.isSome ∧ f.queue.Perm (f.handler.live ++ f.handler.added) ∧
      ∀ t, f.handler.playing = some t → f.queue.head? = some t
  | .mClear =>
    f.reply.isSome ∧
      if f.handler.siz < 2 then f.queue.Perm (f.handler.live ++ f.handler.added)
      else f.queue.Perm (f.handler.playing.toList ++ f.handler.gap ++ f.handler.added)
  | _ => True

/-- `add_track` does not arrange the track to the top. -/
def AddsBehind : QueueOp → Prop
  | .addTrack _ top argSlip _ => top = false ∧ argSlip ≠ 1
  | _ => False

instance : (op : QueueOp) → Decidable (AddsBehind op)
  | .addTrack .. => inferInstanceAs (Decidable (_ ∧ _))
  | .move .. | .remove .. | .clearUser _ | .shuffle _ | .publish => isFalse id

/-- The tracks a handler works on may be added to. -/
def Handler.MayAdd (h : Handler) (p : GuildPlayer) (op : QueueOp) : Prop :=
  match h.modify, h.pc with
  | .mReverse, .resetShifted => h.siz < 3 ∧ KeepsShifted p op
  | .mReverse, .reverseAddFront _ => AddsBehind op
  | .mReverse, .publish _ => KeepsShifted p op
  | .mReverse, _ => False
  | .mClear, .resetShifted => h.siz < 2
  | .mClear, .clearAdd _ | .mClear, .publish _ => True
  | .mClear, _ => False
  | _, _ => True

instance (h : Handler) (p : GuildPlayer) (op : QueueOp) : Decidable (h.MayAdd p op) := by
  unfold Handler.MayAdd
  split <;> infer_instance

/-- The queue is what the handler takes it for: it has the size of the copy when the lock is taken,
nothing is added before it has been replaced, and nothing in front of a playing track that is not
yet back. -/
def Undisturbed (s : QueueState) : QueueAction → Prop
  | .lock i => ∀ n ∈ s.snapshots[i]?,
    match n.modify with
    | .mReverse => n.siz < 3 ∨
      s.player.queue.length = n.siz ∧ s.player.shiftedTrack < s.player.queue.length
    | .mClear => n.siz < 2 ∨ s.player.shiftedTrack < s.player.queue.length ∧ n.gap = []
    | _ => True
  | .addTrack track top argSlip fetched =>
    trackToAdd track fetched = none ∨
      ∀ h ∈ s.handler, h.MayAdd s.player (.addTrack track top argSlip fetched)
  | .removeTrack .. => ∀ h ∈ s.handler, h.modify ≠ .mReverse ∧ h.modify ≠ .mClear
  | _ => True

instance (s : QueueState) : ∀ a, Decidable (Undisturbed s a)
  | .lock i => by
    have (n : Snapshot) : Decidable (match n.modify with
        | .mReverse => n.siz < 3 ∨
          s.player.queue.length = n.siz ∧ s.player.shiftedTrack < s.player.queue.length
        | .mClear => n.siz < 2 ∨ s.player.shiftedTrack < s.player.queue.length ∧ n.gap = []
        | _ => True) := by
      split <;> infer_instance
    unfold Undisturbed
    infer_instance
  | .addTrack track top argSlip fetched => inferInstanceAs
    (Decidable (trackToAdd track fetched = none ∨
      ∀ h ∈ s.handler, h.MayAdd s.player (.addTrack track top argSlip fetched)))
  | .removeTrack .. => inferInstanceAs
    (Decidable (∀ h ∈ s.handler, h.modify ≠ .mReverse ∧ h.modify ≠ .mClear))
  | .reset | .copy _ | .handle _ | .skip .. => isTrue trivial

/-! ## The invariant of a handler -/

/-- The handler's playing track is the one at `shifted_track`. -/
def Handler.Plays (h : Handler) (p : GuildPlayer) : Prop := ∀ t, h.playing = some t → Playing p t

/-- Where a handler is, and what it then knows of the queue. -/
inductive HandlerInv (p : GuildPlayer) (h : Handler) : Prop where
  | other (reverse : h.modify ≠ .mReverse) (clear : h.modify ≠ .mClear)
  | reset (pc : h.pc = .resetShifted) (perm : p.queue.Perm (h.live ++ h.added))
      (reverse : h.modify = .mReverse → h.Plays p ∧
        (h.siz < 3 ∨ p.queue.length = h.siz ∧ h.playing.isSome ∧ h.added = []))
      (clear : h.modify = .mClear → h.siz < 2 ∨
        h.Plays p ∧ h.playing.isSome ∧ h.gap = [] ∧ h.added = [])
  | clearAt (modify : h.modify = .mClear) (pc : h.pc = .clearAt) (siz : 2 ≤ h.siz)
      (front : h.playing.isSome ∧ p.queue[0]? = h.playing) (shifted : p.shiftedTrack = 0)
      (added : h.gap = [] ∧ h.added = [])
  | clearQueue (t : MCTrack) (modify : h.modify = .mClear) (pc : h.pc = .clearQueue t)
      (siz : 2 ≤ h.siz) (playing : h.playing = some t) (added : h.gap = [] ∧ h.added = [])
  | clearAdd (t : MCTrack) (modify : h.modify = .mClear) (pc : h.pc = .clearAdd t)
      (siz : 2 ≤ h.siz) (playing : h.playing = some t) (gap : h.gap = [])
      (perm : p.queue.Perm h.added)
  | reverseAt (modify : h.modify = .mReverse) (pc : h.pc = .reverseAt)
      (front : h.playing.isSome ∧ p.queue[0]? = h.playing) (shifted : p.shiftedTrack = 0)
      (perm : p.queue.Perm h.live) (length : p.queue.length = h.siz) (added : h.added = [])
  | reverseLoop (t : MCTrack) (i : Nat) (nQueue rest : List MCTrack) (modify : h.modify = .mReverse)
      (pc : h.pc = .reverseLoop t i nQueue) (playing : h.playing = some t)
      (queue : p.queue = t :: rest) (shifted : p.shiftedTrack = 0) (perm : p.queue.Perm h.live)
      (index : i ≤ rest.length) (reversed : nQueue = (rest.drop i).reverse) (added : h.added = [])
  | reverseSet (t : MCTrack) (nQueue : List MCTrack) (modify : h.modify = .mReverse)
      (pc : h.pc = .reverseSet t nQueue) (playing : h.playing = some t) (shifted : p.shiftedTrack = 0)
      (perm : (t :: nQueue).Perm h.live) (added : h.added = [])
  | reverseAddFront (t : MCTrack) (modify : h.modify = .mReverse) (pc : h.pc = .reverseAddFront t)
      (playing : h.playing = some t) (shifted : p.shiftedTrack = 0)
      (perm : (t :: p.queue).Perm (h.live ++ h.added))
  | publishCleared (reply : String) (modify : h.modify = .mClear) (pc : h.pc = .publish reply)
      (siz : 2 ≤ h.siz) (gap : h.gap = []) (perm : p.queue.Perm (h.playing.toList ++ h.added))
  | publishReversed (reply : String) (t : MCTrack) (modify : h.modify = .mReverse)
      (pc : h.pc = .publish reply) (playing : h.playing = some t) (front : Playing p t)
      (perm : p.queue.Perm (h.live ++ h.added))

structure QueueInv (s : QueueState) : Prop where
  handler : ∀ h, s.handler = some h → HandlerInv s.player h
  finished : ∀ f ∈ s.finished, f.Kept

section
variable {s s' : QueueState} {p : GuildPlayer} {h : Handler}

theorem QueueInv.goto (hi : QueueInv s) {player : GuildPlayer} {pc : HandlerPc}
    (hh : HandlerInv player { h with pc }) : QueueInv (s.goto h player pc) where
  handler h' heq := by
    cases heq
    exact hh
  finished := hi.finished

theorem QueueInv.finish (hi : QueueInv s) {player : GuildPlayer} {reply : Option String}
    (hf : Finished.Kept ⟨h, player.queue, reply⟩) : QueueInv (s.finish h player reply) where
  handler h' heq := by cases heq
  finished f hmem := by
    rcases List.mem_append.1 hmem with hmem | hmem
    · exact hi.finished f hmem
    · rw [List.mem_singleton.1 hmem]
      exact hf

/-- A handler that neither clears nor reverses. -/
theorem QueueInv.handle_other (hi : QueueInv s) (env : HandleEnv) (hr : h.modify ≠ .mReverse)
    (hc : h.modify ≠ .mClear) : QueueInv (handleOption env s h) := by
  have hgoto (p : GuildPlayer) (pc : HandlerPc) : QueueInv (s.goto h p pc) :=
    hi.goto (.other hr hc)
  have hfinish (p : GuildPlayer) (reply : Option String) : QueueInv (s.finish h p reply) := by
    apply hi.finish
    unfold Finished.Kept
    split
    · exact absurd ‹_› hr
    · exact absurd ‹_› hc
    · trivial
  unfold handleOption
  dsimp only
  repeat' split
  all_goals first | exact hgoto _ _ | exact hfinish _ _

/-- **The first call**: the playing track comes to the front. -/
theorem QueueInv.handle_reset (hi : QueueInv s) (env : HandleEnv) (hpc : h.pc = .resetShifted)
    (perm : s.player.queue.Perm (h.live ++ h.added))
    (reverse : h.modify = .mReverse → h.Plays s.player ∧
      (h.siz < 3 ∨ s.player.queue.length = h.siz ∧ h.playing.isSome ∧ h.added = []))
    (clear : h.modify = .mClear → h.siz < 2 ∨
      h.Plays s.player ∧ h.playing.isSome ∧ h.gap = [] ∧ h.added = []) :
    QueueInv (handleOption env s h) := by
  obtain ⟨hshifted, hperm, hfront⟩ := resetShifted_spec s.player
  have hplays (hp : h.Plays s.player) (t : MCTrack) (ht : h.playing = some t) :
      s.player.resetShifted.1.queue[0]? = some t := hfront t (hp t ht)
  by_cases hr : h.modify = .mReverse
  · obtain ⟨hp, hsiz⟩ := reverse hr
    unfold handleOption
    simp only [hpc, hr]
    split
    · apply hi.finish
      simp only [Finished.Kept, hr]
      exact ⟨rfl, hperm.trans perm, fun t ht => by
        rw [List.head?_eq_getElem?]
        exact hplays hp t ht⟩
    · rename_i hlarge
      obtain ⟨hlen, hsome, hadded⟩ := hsiz.resolve_left hlarge
      obtain ⟨t, ht⟩ := Option.isSome_iff_exists.1 hsome
      apply hi.goto
      refine .reverseAt hr rfl ⟨hsome, (hplays hp t ht).trans ht.symm⟩ hshifted ?_
        (hperm.length_eq.trans hlen) hadded
      simpa [hadded] using hperm.trans perm
  · by_cases hc : h.modify = .mClear
    · unfold handleOption
      simp only [hpc, hc]
      split
      · rename_i hsmall
        apply hi.finish
        simp only [Finished.Kept, hc]
        exact ⟨rfl, by rw [if_pos hsmall]; exact hperm.trans perm⟩
      · rename_i hlarge
        obtain ⟨hp, hsome, hadded⟩ := (clear hc).resolve_left hlarge
        obtain ⟨t, ht⟩ := Option.isSome_iff_exists.1 hsome
        apply hi.goto
        exact .clearAt hc rfl (Nat.le_of_not_lt hlarge)
          ⟨hsome, (hplays hp t ht).trans ht.symm⟩ hshifted hadded
    · exact hi.handle_other env hr hc

/-- **Every call of the handler keeps what is known of the queue.** -/
theorem QueueInv.handle (hi : QueueInv s) (env : HandleEnv) (hh : HandlerInv s.player h) :
    QueueInv (handleOption env s h) := by
  cases hh with
  | other hr hc => exact hi.handle_other env hr hc
  | reset pc perm reverse clear => exact hi.handle_reset env pc perm reverse clear
  | clearAt modify pc siz front shifted added =>
    obtain ⟨t, ht⟩ := Option.isSome_iff_exists.1 front.1
    unfold handleOption
    simp only [pc, front.2, ht]
    exact hi.goto (.clearQueue t modify rfl siz ht added)
  | clearQueue t modify pc siz playing added =>
    unfold handleOption
    simp only [pc]
    exact hi.goto (.clearAdd t modify rfl siz playing added.1 (by simp [added.2]))
  | clearAdd t modify pc siz playing gap perm =>
    unfold handleOption
    simp only [pc]
    refine hi.goto (.publishCleared _ modify rfl siz gap ?_)
    dsimp only
    rw [playing]
    exact (List.perm_append_singleton t _).trans (perm.cons t)
  | reverseAt modify pc front shifted perm length added =>
    obtain ⟨t, ht⟩ := Option.isSome_iff_exists.1 front.1
    have hfront : s.player.queue[0]? = some t := front.2.trans ht
    obtain ⟨rest, hq⟩ : ∃ rest, s.player.queue = t :: rest := by
      cases hq : s.player.queue with
      | nil => simp [hq] at hfront
      | cons u rest =>
        simp only [hq, List.getElem?_cons_zero, Option.some.injEq] at hfront
        exact ⟨rest, by rw [hfront]⟩
    have hrest : h.siz - 1 = rest.length := by
      rw [← length, hq, List.length_cons, Nat.add_sub_cancel]
    unfold handleOption
    simp only [pc, hfront]
    exact hi.goto (.reverseLoop t _ [] rest modify rfl ht hq shifted perm hrest.le
      (by simp [hrest]) added)
  | reverseLoop t i nQueue rest modify pc playing queue shifted perm index reversed added =>
    unfold handleOption
    cases i with
    | zero =>
      simp only [pc]
      refine hi.goto (.reverseSet t nQueue modify rfl playing shifted ?_ added)
      rw [queue] at perm
      rw [reversed, List.drop_zero]
      exact ((List.reverse_perm rest).cons t).trans perm
    | succ i =>
      -- `at (i + 1)` is the next of the tracks behind the front, from the back
      have hat : s.player.queue[i + 1]? = rest[i]? := by rw [queue, List.getElem?_cons_succ]
      have hlt : i < rest.length := by omega
      simp only [pc, hat, List.getElem?_eq_getElem hlt]
      refine hi.goto (.reverseLoop t i _ rest modify rfl playing queue shifted perm hlt.le ?_ added)
      rw [reversed, List.drop_eq_getElem_cons hlt, List.reverse_cons]
  | reverseSet t nQueue modify pc playing shifted perm added =>
    unfold handleOption
    simp only [pc]
    exact hi.goto (.reverseAddFront t modify rfl playing shifted (by simpa [added] using perm))
  | reverseAddFront t modify pc playing shifted perm =>
    unfold handleOption
    simp only [pc]
    exact hi.goto (.publishReversed _ t modify rfl playing (playing_of_head shifted rfl) perm)
  | publishCleared reply modify pc siz gap perm =>
    unfold handleOption
    simp only [pc]
    apply hi.finish
    simp only [Finished.Kept, modify, gap, List.append_nil]
    refine ⟨rfl, ?_⟩
    rw [if_neg (by omega)]
    exact (resetShifted_spec s.player).2.1.trans perm
  | publishReversed reply t modify pc playing front perm =>
    unfold handleOption
    simp only [pc]
    apply hi.finish
    simp only [Finished.Kept, modify]
    refine ⟨rfl, (resetShifted_spec s.player).2.1.trans perm, fun u hu => ?_⟩
    rw [playing, Option.some.injEq] at hu
    rw [← hu, List.head?_eq_getElem?]
    exact (resetShifted_spec s.player).2.2 t front

/-! ## The steps without the lock -/

theorem addTrack_behind {track : MCTrack} {top : Bool} {argSlip : Int}
    {fetched : Option (Option String)} (h : AddsBehind (.addTrack track top argSlip fetched))
    (hs : p.shiftedTrack = 0) : (p.addTrack track top argSlip fetched).shiftedTrack = 0 := by
  obtain ⟨rfl, hslip⟩ := h
  have hone : (argSlip == 1) = false := by simpa using hslip
  unfold GuildPlayer.addTrack
  cases trackToAdd track fetched with
  | none => exact hs
  | some t =>
    simp only [hone, Bool.or_self, Bool.false_eq_true, if_false]
    split <;> exact hs

theorem HandlerInv.addTrack (hh : HandlerInv p h) {track : MCTrack} {top : Bool} {argSlip : Int}
    {fetched : Option (Option String)}
    (hmay : trackToAdd track fetched = none ∨
      h.MayAdd p (.addTrack track top argSlip fetched)) :
    HandlerInv (p.addTrack track top argSlip fetched)
      { h with added := h.added ++ (trackToAdd track fetched).toList } := by
  have hperm := addTrack_perm p track top argSlip fetched
  rcases hmay with hnone | hmay
  · have hsame : p.addTrack track top argSlip fetched = p := by
      unfold GuildPlayer.addTrack
      rw [hnone]
    rw [hsame, hnone, Option.toList_none, List.append_nil]
    exact hh
  · cases hh with
    | other hr hc => exact .other hr hc
    | reset pc perm reverse clear =>
      refine .reset pc ?_ (fun hr => ?_) fun hc => ?_
      · rw [← List.append_assoc]
        exact hperm.trans (perm.append_right _)
      · have hr : h.modify = .mReverse := hr
        simp only [Handler.MayAdd, hr, pc] at hmay
        exact ⟨fun t ht => ((reverse hr).1 t ht).addTrack hmay.2, .inl hmay.1⟩
      · have hc : h.modify = .mClear := hc
        simp only [Handler.MayAdd, hc, pc] at hmay
        exact .inl hmay
    | clearAdd t modify pc siz playing gap perm =>
      exact .clearAdd t modify pc siz playing gap (hperm.trans (perm.append_right _))
    | reverseAddFront t modify pc playing shifted perm =>
      simp only [Handler.MayAdd, modify, pc] at hmay
      refine .reverseAddFront t modify pc playing (addTrack_behind hmay shifted) ?_
      rw [← List.append_assoc]
      exact (hperm.cons t).trans (perm.append_right _)
    | publishCleared reply modify pc siz gap perm =>
      refine .publishCleared reply modify pc siz gap ?_
      dsimp only
      rw [← List.append_assoc]
      exact hperm.trans (perm.append_right _)
    | publishReversed reply t modify pc playing front perm =>
      simp only [Handler.MayAdd, modify, pc] at hmay
      refine .publishReversed reply t modify pc playing (front.addTrack hmay) ?_
      rw [← List.append_assoc]
      exact hperm.trans (perm.append_right _)
    | clearAt modify pc => simp [Handler.MayAdd, modify, pc] at hmay
    | clearQueue t modify pc => simp [Handler.MayAdd, modify, pc] at hmay
    | reverseAt modify pc => simp [Handler.MayAdd, modify, pc] at hmay
    | reverseLoop t i nQueue rest modify pc => simp [Handler.MayAdd, modify, pc] at hmay
    | reverseSet t nQueue modify pc => simp [Handler.MayAdd, modify, pc] at hmay

theorem HandlerInv.resetShifted (hh : HandlerInv p h) : HandlerInv p.resetShifted.1 h := by
  obtain ⟨-, hperm, -⟩ := resetShifted_spec p
  have hplays (hp : h.Plays p) : h.Plays p.resetShifted.1 := fun t ht =>
    (hp t ht).resetShifted_playing
  cases hh with
  | other hr hc => exact .other hr hc
  | reset pc perm reverse clear =>
    refine .reset pc (hperm.trans perm) (fun hr => ?_) fun hc => ?_
    · obtain ⟨hp, hsiz⟩ := reverse hr
      exact ⟨hplays hp, hsiz.imp_right fun ⟨hlen, hrest⟩ => ⟨hperm.length_eq.trans hlen, hrest⟩⟩
    · exact (clear hc).imp_right fun ⟨hp, hrest⟩ => ⟨hplays hp, hrest⟩
  | clearAt modify pc siz front shifted added =>
    rw [resetShifted_of_zero shifted]
    exact .clearAt modify pc siz front shifted added
  | clearQueue t modify pc siz playing added => exact .clearQueue t modify pc siz playing added
  | clearAdd t modify pc siz playing gap perm =>
    exact .clearAdd t modify pc siz playing gap (hperm.trans perm)
  | reverseAt modify pc front shifted perm length added =>
    rw [resetShifted_of_zero shifted]
    exact .reverseAt modify pc front shifted perm length added
  | reverseLoop t i nQueue rest modify pc playing queue shifted perm index reversed added =>
    rw [resetShifted_of_zero shifted]
    exact .reverseLoop t i nQueue rest modify pc playing queue shifted perm index reversed added
  | reverseSet t nQueue modify pc playing shifted perm added =>
    rw [resetShifted_of_zero shifted]
    exact .reverseSet t nQueue modify pc playing shifted perm added
  | reverseAddFront t modify pc playing shifted perm =>
    rw [resetShifted_of_zero shifted]
    exact .reverseAddFront t modify pc playing shifted perm
  | publishCleared reply modify pc siz gap perm =>
    exact .publishCleared reply modify pc siz gap (hperm.trans perm)
  | publishReversed reply t modify pc playing front perm =>
    exact .publishReversed reply t modify pc playing front.resetShifted_playing (hperm.trans perm)

/-- A handler that takes the lock on the queue it takes it for. -/
theorem handlerInv_lock {n : Snapshot} (hc : match n.modify with
    | .mReverse => n.siz < 3 ∨ p.queue.length = n.siz ∧ p.shiftedTrack < p.queue.length
    | .mClear => n.siz < 2 ∨ p.shiftedTrack < p.queue.length ∧ n.gap = []
    | _ => True) :
    HandlerInv p
      { modify := n.modify, siz := n.siz, live := p.queue
        playing := p.queue[p.shiftedTrack]?, gap := n.gap } := by
  refine .reset rfl (by simp) (fun hr => ⟨fun t ht => ht, ?_⟩) fun hm => ?_
  · dsimp only at hr
    rw [hr] at hc
    exact hc.imp_right fun ⟨hlen, hlt⟩ => ⟨hlen, by simp [hlt], rfl⟩
  · dsimp only at hm
    rw [hm] at hc
    exact hc.imp_right fun ⟨hlt, hgap⟩ => ⟨fun t ht => ht, by simp [hlt], hgap, rfl⟩

/-- **Every step that meets the condition keeps the invariant.** -/
theorem QueueInv.step {a : QueueAction} (hi : QueueInv s) (hc : Undisturbed s a)
    (hs : commandStep s a = some s') : QueueInv s' := by
  cases a with
  | addTrack track top argSlip fetched =>
    cases hs
    refine ⟨fun h' heq => ?_, hi.finished⟩
    obtain ⟨h, hh, rfl⟩ := Option.map_eq_some_iff.1 heq
    exact (hi.handler h hh).addTrack (hc.imp_right fun hmay => hmay h hh)
  | reset =>
    cases hs
    exact ⟨fun h hh => (hi.handler h hh).resetShifted, hi.finished⟩
  | copy modify =>
    simp only [commandStep] at hs
    split at hs <;> cases hs
    · exact hi
    · exact ⟨hi.handler, hi.finished⟩
  | lock i =>
    simp only [commandStep] at hs
    split at hs
    · rename_i n hn hsnap
      cases hs
      refine ⟨fun h heq => ?_, hi.finished⟩
      cases heq
      exact handlerInv_lock (hc n hsnap)
    · cases hs
  | handle env =>
    obtain ⟨h, hh, rfl⟩ := Option.map_eq_some_iff.1 hs
    exact hi.handle env (hi.handler h hh)
  | skip env amount remove =>
    simp only [commandStep] at hs
    split at hs
    · rename_i hnone
      cases hs
      refine ⟨fun h hh => ?_, hi.finished⟩
      rw [Option.isNone_iff_eq_none] at hnone
      rw [hnone] at hh
      cases hh
    · cases hs
  | removeTrack pos amount toPos =>
    cases hs
    exact ⟨fun h hh => .other (hc h hh).1 (hc h hh).2, hi.finished⟩

/-- **The queue commands lose no track**, in every run in which the queue still has the size of
the copy when the lock is taken and nothing is added before it has been replaced. -/
theorem queue_commands_keep {p : GuildPlayer} {l : List QueueAction}
    (hc : Along commandStep Undisturbed { player := p } l)
    (hrun : run commandStep { player := p } l = some s) : ∀ f ∈ s.finished, f.Kept :=
  (run_inv (fun _ _ _ hi hc hs => QueueInv.step hi hc hs) ⟨by simp, by simp⟩ hc hrun).finished

end

/-! ## A reverse with a track added -/

/-- `/queue reverse` on three tracks, and a track added behind its `set_queue`. -/
def reverseRun : List QueueAction :=
  [.reset, .copy .mReverse, .lock 0] ++ List.replicate 6 (.handle {}) ++
    [.addTrack (cachedTrack "c") false 0 none, .handle {}, .handle {}]

theorem queue_commands_keep_added :
    ∃ s, run commandStep { player := threeTracks } reverseRun = some s ∧
      s.player.queue.map (·.filename) = ["p", "b", "a", "c"] ∧ s.finished ≠ [] ∧
      ∀ f ∈ s.finished, f.Kept :=
  ⟨_, rfl, by decide, by decide,
    queue_commands_keep (p := threeTracks) (l := reverseRun) (by decide) rfl⟩

/-- A track added before `queue_clear` is lost; one added to the top before `queue_add_front` ends
up in front of the playing track; a skip before the lock makes `at` throw. -/
theorem queue_commands_lose :
    (∃ s, run commandStep { player := threeTracks }
        ([.reset, .copy .mReverse, .lock 0, .handle {},
          .addTrack (cachedTrack "c") false 0 none] ++ List.replicate 7 (.handle {})) = some s ∧
      s.player.queue.map (·.filename) = ["p", "b", "a"] ∧ ¬ ∀ f ∈ s.finished, f.Kept) ∧
    (∃ s, run commandStep { player := threeTracks }
        ([.reset, .copy .mReverse, .lock 0] ++ List.replicate 6 (.handle {}) ++
          [.addTrack (cachedTrack "x") true 0 none, .handle {}, .handle {}]) = some s ∧
      s.player.queue.map (·.filename) = ["x", "p", "b", "a"] ∧ ¬ ∀ f ∈ s.finished, f.Kept) ∧
    (∃ s, run commandStep { player := threeTracks }
        [.reset, .copy .mReverse, .skip ⟨some 1, true, some 1, true⟩ 2 false, .lock 0, .handle {},
          .handle {}, .handle {}] = some s ∧
      s.finished.map (·.reply) = [none] ∧ ¬ ∀ f ∈ s.finished, f.Kept) := by
  refine ⟨⟨_, rfl, by decide, fun h => ?_⟩, ⟨_, rfl, by decide, fun h => ?_⟩,
    ⟨_, rfl, rfl, fun h => ?_⟩⟩
  · exact absurd (h _ List.mem_cons_self).2.1.length_eq (by decide)
  · exact absurd ((h _ List.mem_cons_self).2.2 _ rfl) (by decide)
  · exact absurd (h _ List.mem_cons_self).1 (by decide)

end Musicat.Player
