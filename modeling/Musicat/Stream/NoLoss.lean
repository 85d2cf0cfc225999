import Musicat.Stream.Scheduler

/-!
# No stream is run twice, and which ones are lost

In every run no context is pending in two threads, or twice in one, where a
thread's finished entries no longer count. A handled context is pending exactly
when `notify_work` reached a thread to push it to; its second pass can miss all
of them, since the sizes it compares were read in the first.
-/

namespace Musicat.Stream

open Lib

namespace Sched

/-- What the walk over `stream_ctxs` has in hand. -/
inductive Hand where
  | idle
  /-- `notify_work` is finding a thread for `c`. -/
  | placing (c : Nat)
  /-- `c` is about to be marked handled. -/
  | marking (c : Nat)
  deriving DecidableEq

def hand (s : Sched) : Hand :=
  match s.check with
  | some (_, .first c ..) | some (_, .second c ..) => .placing c
  | some (_, .mark c) => .marking c
  | _ => .idle

/-! ## Marking a context -/

section
variable (s : Sched) (c : Nat) (handled : Bool)

theorem setHandled_keys {κ : Type*} (key : Ctx → κ)
    (hk : ∀ x : Ctx, key { x with handled } = key x) :
    (s.setHandled c handled).streamCtxs.map key = s.streamCtxs.map key := by
  simp only [setHandled, List.map_map]
  apply List.map_congr_left
  intro x _
  simp only [Function.comp_apply]
  split
  · exact hk x
  · rfl

variable {s c handled}

theorem mem_setHandled {x : Ctx} : x ∈ (s.setHandled c handled).streamCtxs ↔
    ∃ y ∈ s.streamCtxs, x = if y.ptr = c then { y with handled } else y := by
  simp only [setHandled, List.mem_map, eq_comm]

end

/-! ## What a thread's step does to what is pending -/

section
variable {s : Sched} {i c : Nat} {t t' : StreamThread}

theorem pending_setThread (hi : s.threads[i]? = some t) (h : t'.pending.Perm t.pending) :
    (s.setThread i t').pending.Perm s.pending := by
  obtain ⟨rest, hs, ht⟩ := flatMap_set_perm StreamThread.pending hi
  exact (ht t').trans ((h.append_right rest).trans hs.symm)

theorem pending_push (hi : s.threads[i]? = some t) :
    (s.setThread i (t.push c)).pending.Perm (c :: s.pending) := by
  obtain ⟨rest, hs, ht⟩ := flatMap_set_perm StreamThread.pending hi
  refine (ht _).trans ?_
  have hp : (t.push c).pending.Perm (c :: t.pending) := by
    simp only [StreamThread.push, StreamThread.pending, ← List.append_assoc]
    exact List.perm_append_singleton c _
  exact (hp.append_right rest).trans (hs.symm.cons c)

theorem pending_finish {rest : List Nat} (hi : s.threads[i]? = some t)
    (hp : t.processing = c :: rest) :
    s.pending.Perm (c ::
      (s.setThread i { t with finished := t.finished ++ [c], processing := rest }).pending) := by
  obtain ⟨others, hs, ht⟩ := flatMap_set_perm StreamThread.pending hi
  refine hs.trans (.trans ?_ ((ht _).symm.cons c))
  simp only [StreamThread.pending, hp, List.cons_append]
  exact .refl _

end

/-- The second pass of `notify_work` falls off the end of the threads. -/
def fallsOff (s : Sched) : SchedAction → Bool
  | .check _ =>
    match s.check with
    | some (_, .second _ i _) => s.threads.length ≤ i
    | _ => false
  | _ => false

/-- A step that is not the end of a notification that reached no thread. -/
def Places (s : Sched) (a : SchedAction) : Prop := s.fallsOff a = false

instance (s : Sched) (a : SchedAction) : Decidable (Places s a) :=
  inferInstanceAs (Decidable (_ = _))

/-! ## The effect of a step -/

/-- What a step can do to the contexts, to what is pending and to what the walk has in hand. -/
inductive Effect (s : Sched) (a : SchedAction) (s' : Sched) : Prop where
  | same (ctxs : s'.streamCtxs = s.streamCtxs) (fresh : s'.fresh = s.fresh)
      (pending : s'.pending.Perm s.pending) (hand : s'.hand = s.hand)
  | submit (g : Nat) (unique : ∀ x ∈ s.streamCtxs, x.guildId ≠ g)
      (ctxs : s'.streamCtxs = s.streamCtxs ++ [{ ptr := s.fresh, guildId := g }])
      (fresh : s'.fresh = s.fresh + 1) (pending : s'.pending = s.pending) (hand : s'.hand = s.hand)
  | pick (x : Ctx) (mem : x ∈ s.streamCtxs) (unhandled : x.handled = false)
      (before : s.hand = .idle) (ctxs : s'.streamCtxs = s.streamCtxs) (fresh : s'.fresh = s.fresh)
      (pending : s'.pending = s.pending) (hand : s'.hand = .placing x.ptr)
  | place (c : Nat) (before : s.hand = .placing c) (ctxs : s'.streamCtxs = s.streamCtxs)
      (fresh : s'.fresh = s.fresh) (pending : s'.pending.Perm (c :: s.pending))
      (hand : s'.hand = .marking c)
  | miss (c : Nat) (missed : ¬ Places s a) (before : s.hand = .placing c)
      (ctxs : s'.streamCtxs = s.streamCtxs) (fresh : s'.fresh = s.fresh)
      (pending : s'.pending = s.pending) (hand : s'.hand = .marking c)
  | mark (c : Nat) (before : s.hand = .marking c)
      (ctxs : s'.streamCtxs = (s.setHandled c true).streamCtxs) (fresh : s'.fresh = s.fresh)
      (pending : s'.pending = s.pending) (hand : s'.hand = .idle)
  | ended (x : Ctx) (mem : x ∈ s.streamCtxs) (before : s.hand = .idle)
      (ctxs : s'.streamCtxs = s.streamCtxs.eraseP (·.guildId = x.guildId))
      (fresh : s'.fresh = s.fresh) (pending : s.pending.Perm (x.ptr :: s'.pending))
      (hand : s'.hand = .idle)
  | yielded (c : Nat) (before : s.hand = .idle)
      (ctxs : s'.streamCtxs = (s.setHandled c false).streamCtxs) (fresh : s'.fresh = s.fresh)
      (pending : s.pending.Perm (c :: s'.pending)) (hand : s'.hand = .idle)

theorem hand_of_check {s : Sched} (h : ¬ s.check.isSome = true) : s.hand = .idle := by
  cases hc : s.check with
  | none => simp [hand, hc]
  | some p => simp [hc] at h

/-- The effect of a step of the walk. -/
theorem checkStep_effect {s : Sched} {need : Bool} {k : Nat} {phase : Phase}
    (hc : s.check = some (k, phase)) : Effect s (.check need) (checkStep need s k phase) := by
  cases phase with
  | next =>
    have hidle : s.hand = .idle := by simp [hand, hc]
    simp only [checkStep]
    split
    · exact .same rfl rfl (.refl _) (by rw [hidle]; rfl)
    · rename_i x hx
      split
      · exact .same rfl rfl (.refl _) (by rw [hidle]; rfl)
      · rename_i hneed
        have hun : x.handled = false := by
          cases hx : x.handled <;> simp_all
        exact .pick x (List.mem_of_getElem? hx) hun hidle rfl rfl rfl rfl
  | first c i max min =>
    have hplacing : s.hand = .placing c := by simp [hand, hc]
    simp only [checkStep]
    split
    · exact .same rfl rfl (.refl _) hplacing.symm
    · rename_i t ht
      split
      · exact .same rfl rfl (.refl _) hplacing.symm
      · exact .place c hplacing rfl rfl (pending_push ht) rfl
  | second c i max =>
    have hplacing : s.hand = .placing c := by simp [hand, hc]
    simp only [checkStep]
    split
    · rename_i hnone
      have hmiss : ¬ Places s (.check need) := by
        simpa [Places, fallsOff, hc] using hnone
      exact .miss c hmiss hplacing rfl rfl rfl rfl
    · rename_i t ht
      split
      · exact .same rfl rfl (.refl _) hplacing.symm
      · exact .place c hplacing rfl rfl (pending_push ht) rfl
  | mark c => exact .mark c (by simp [hand, hc]) rfl rfl rfl rfl

/-- **Every step has one of these effects.** -/
theorem schedStep_effect {s s' : Sched} {a : SchedAction} (h : schedStep s a = some s') :
    Effect s a s' := by
  cases a with
  | submit g =>
    simp only [schedStep] at h
    split at h
    · cases h
    split at h
    · cases h
      exact .same rfl rfl (.refl _) rfl
    · rename_i hany
      cases h
      exact .submit g (by simpa using hany) rfl rfl rfl rfl
  | checkStart =>
    simp only [schedStep] at h
    split at h <;> cases h
    rename_i hfree
    exact .same rfl rfl (.refl _) (by rw [hand_of_check hfree]; rfl)
  | check need =>
    simp only [schedStep, Option.map_eq_some_iff] at h
    obtain ⟨⟨k, phase⟩, hc, rfl⟩ := h
    exact checkStep_effect hc
  | take i =>
    obtain ⟨t, ht, hproc, rfl⟩ := take_eq h
    have hproc : t.processing = [] := (List.append_eq_nil_iff.1 hproc).2
    refine .same rfl rfl (pending_setThread ht ?_) rfl
    simp only [StreamThread.pending, hproc, List.append_nil, List.nil_append]
    exact .refl _
  | wake i =>
    obtain ⟨t, ht, rfl⟩ := wake_eq h
    exact .same rfl rfl (pending_setThread ht (.refl _)) rfl
  | runEnd i =>
    obtain ⟨t, rest, x, ht, hproc, hfree, hx, rfl⟩ := runEnd_eq h
    have hidle := hand_of_check hfree
    exact .ended x (List.mem_of_find?_eq_some hx) hidle rfl rfl (pending_finish ht hproc) hidle
  | runYield i =>
    obtain ⟨t, c, rest, ht, hproc, hfree, rfl⟩ := runYield_eq h
    have hidle := hand_of_check hfree
    exact .yielded c hidle rfl rfl (pending_finish ht hproc) hidle
  | clear i =>
    obtain ⟨t, ht, rfl⟩ := clear_eq h
    exact .same rfl rfl (pending_setThread ht (.refl _)) rfl

end Sched

open Sched

/-! ## The contexts -/

/-- Contexts are told apart by address and by guild, and the next address is free. -/
structure CtxTable (ctxs : List Ctx) (fresh : Nat) : Prop where
  ptrs : (ctxs.map Ctx.ptr).Nodup
  guilds : (ctxs.map Ctx.guildId).Nodup
  fresh : ∀ x ∈ ctxs, x.ptr < fresh

namespace CtxTable

variable {ctxs : List Ctx} {fresh : Nat}

theorem submit (h : CtxTable ctxs fresh) {g : Nat} (hg : ∀ x ∈ ctxs, x.guildId ≠ g) :
    CtxTable (ctxs ++ [{ ptr := fresh, guildId := g }]) (fresh + 1) where
  ptrs := by
    rw [List.map_append, List.nodup_append]
    refine ⟨h.ptrs, List.nodup_singleton _, fun p hp q hq => ?_⟩
    obtain ⟨x, hx, rfl⟩ := List.mem_map.1 hp
    rw [List.mem_singleton.1 hq]
    exact Nat.ne_of_lt (h.fresh x hx)
  guilds := by
    rw [List.map_append, List.nodup_append]
    refine ⟨h.guilds, List.nodup_singleton _, fun p hp q hq => ?_⟩
    obtain ⟨x, hx, rfl⟩ := List.mem_map.1 hp
    rw [List.mem_singleton.1 hq]
    exact hg x hx
  fresh x hx := by
    rcases List.mem_append.1 hx with hx | hx
    · exact Nat.lt_succ_of_lt (h.fresh x hx)
    · rw [List.mem_singleton.1 hx]
      exact Nat.lt_succ_self _

theorem sublist (h : CtxTable ctxs fresh) {ctxs' : List Ctx} (hs : ctxs'.Sublist ctxs) :
    CtxTable ctxs' fresh where
  ptrs := h.ptrs.sublist (hs.map _)
  guilds := h.guilds.sublist (hs.map _)
  fresh x hx := h.fresh x (hs.subset hx)

theorem setHandled {s : Sched} (h : CtxTable s.streamCtxs fresh) (c : Nat) (handled : Bool) :
    CtxTable (s.setHandled c handled).streamCtxs fresh where
  ptrs := by rw [setHandled_keys s c handled Ctx.ptr fun _ => rfl]; exact h.ptrs
  guilds := by rw [setHandled_keys s c handled Ctx.guildId fun _ => rfl]; exact h.guilds
  fresh x hx := by
    obtain ⟨y, hy, rfl⟩ := mem_setHandled.1 hx
    split <;> exact h.fresh y hy

/-- In a table, erasing a context's guild erases that context and no other. -/
theorem mem_erase (h : CtxTable ctxs fresh) {x y : Ctx} (hx : x ∈ ctxs) :
    y ∈ ctxs.eraseP (·.guildId = x.guildId) ↔ y ∈ ctxs ∧ y.ptr ≠ x.ptr := by
  constructor
  · intro hy
    refine ⟨List.mem_of_mem_eraseP hy, fun hp => ?_⟩
    obtain rfl := List.inj_on_of_nodup_map h.ptrs (List.mem_of_mem_eraseP hy) hx hp
    exact key_ne_of_mem_eraseP h.guilds hy rfl
  · rintro ⟨hy, hp⟩
    refine mem_eraseP_of_key_ne hy fun hg => hp ?_
    rw [List.inj_on_of_nodup_map h.guilds hy hx hg]

end CtxTable

theorem Sched.Effect.table {s s' : Sched} {a : SchedAction} (h : Effect s a s')
    (hi : CtxTable s.streamCtxs s.fresh) : CtxTable s'.streamCtxs s'.fresh := by
  cases h with
  | same ctxs fresh | pick _ _ _ _ ctxs fresh | place _ _ ctxs fresh | miss _ _ _ ctxs fresh =>
    rw [ctxs, fresh]; exact hi
  | submit g unique ctxs fresh => rw [ctxs, fresh]; exact hi.submit unique
  | mark c _ ctxs fresh => rw [ctxs, fresh]; exact hi.setHandled c true
  | yielded c _ ctxs fresh => rw [ctxs, fresh]; exact hi.setHandled c false
  | ended x _ _ ctxs fresh => rw [ctxs, fresh]; exact hi.sublist List.eraseP_sublist

/-! ## The invariant -/

/-- What is pending is pending once, lives, and is handled or about to be marked so; what
`notify_work` is placing is not pending yet. -/
structure SchedInv (s : Sched) : Prop where
  table : CtxTable s.streamCtxs s.fresh
  once : s.pending.Nodup
  live : ∀ c ∈ s.pending,
    ∃ x ∈ s.streamCtxs, x.ptr = c ∧ (x.handled = true ∨ s.hand = .marking c)
  placing : ∀ c, s.hand = .placing c → c ∉ s.pending ∧ ∃ x ∈ s.streamCtxs, x.ptr = c

/-- No handled context is lost, nor the one about to be marked. -/
structure NoneLost (s : Sched) : Prop where
  handled : ∀ x ∈ s.streamCtxs, x.handled = true → x.ptr ∈ s.pending
  marked : ∀ c, s.hand = .marking c → c ∈ s.pending

theorem pending_init (count : Nat) : (Sched.init count).pending = [] := by
  simp [Sched.pending, Sched.init, StreamThread.pending]

theorem schedInv_init (count : Nat) : SchedInv (Sched.init count) where
  table := ⟨List.nodup_nil, List.nodup_nil, fun _ h => by cases h⟩
  once := by rw [pending_init]; exact List.nodup_nil
  live c h := by rw [pending_init] at h; cases h
  placing c h := by cases h

theorem noneLost_init (count : Nat) : NoneLost (Sched.init count) where
  handled _ h := by cases h
  marked _ h := by cases h

section
variable {s s' : Sched} {a : SchedAction}

/-- Away from a marking, whatever is pending is handled. -/
theorem SchedInv.handled (hi : SchedInv s) (hm : ∀ c, s.hand ≠ .marking c) {c : Nat}
    (hc : c ∈ s.pending) : ∃ x ∈ s.streamCtxs, x.ptr = c ∧ x.handled = true := by
  obtain ⟨x, hx, hxc, hh⟩ := hi.live c hc
  exact ⟨x, hx, hxc, hh.resolve_right (hm c)⟩

/-- **The invariant is kept by every step.** -/
theorem schedInv_step (hi : SchedInv s) (h : schedStep s a = some s') : SchedInv s' := by
  have heff := schedStep_effect h
  have table := heff.table hi.table
  cases heff with
  | same ctxs _ pending hand =>
    refine ⟨table, pending.nodup_iff.2 hi.once, fun c hc => ?_, fun c hc => ?_⟩
    · rw [ctxs, hand]
      exact hi.live c (pending.mem_iff.1 hc)
    · rw [ctxs, pending.mem_iff]
      exact hi.placing c (hand ▸ hc)
  | submit g _ ctxs _ pending hand =>
    refine ⟨table, pending ▸ hi.once, fun c hc => ?_, fun c hc => ?_⟩
    · obtain ⟨x, hx, hxc⟩ := hi.live c (pending ▸ hc)
      exact ⟨x, ctxs ▸ List.mem_append_left _ hx, hand ▸ hxc⟩
    · obtain ⟨hn, x, hx, hxc⟩ := hi.placing c (hand ▸ hc)
      exact ⟨pending ▸ hn, x, ctxs ▸ List.mem_append_left _ hx, hxc⟩
  | pick x mem unhandled before ctxs _ pending hand =>
    have hlive := fun c => hi.handled (by simp [before]) (c := c)
    refine ⟨table, pending ▸ hi.once, fun c hc => ?_, fun c hc => ?_⟩
    · obtain ⟨y, hy, hyc, hh⟩ := hlive c (pending ▸ hc)
      exact ⟨y, ctxs ▸ hy, hyc, .inl hh⟩
    · rw [hand, Hand.placing.injEq] at hc
      subst hc
      refine ⟨fun hp => ?_, x, ctxs ▸ mem, rfl⟩
      obtain ⟨y, hy, hyx, hh⟩ := hlive _ (pending ▸ hp)
      obtain rfl := List.inj_on_of_nodup_map hi.table.ptrs hy mem hyx
      simp [unhandled] at hh
  | place c before ctxs _ pending hand =>
    obtain ⟨hn, x, hx, hxc⟩ := hi.placing c before
    refine ⟨table, pending.nodup_iff.2 (List.nodup_cons.2 ⟨hn, hi.once⟩), fun d hd => ?_,
      fun d hd => by simp [hand] at hd⟩
    rcases List.mem_cons.1 (pending.mem_iff.1 hd) with rfl | hd
    · exact ⟨x, ctxs ▸ hx, hxc, .inr hand⟩
    · obtain ⟨y, hy, hyd, hh⟩ := hi.handled (by simp [before]) hd
      exact ⟨y, ctxs ▸ hy, hyd, .inl hh⟩
  | miss c _ before ctxs _ pending hand =>
    refine ⟨table, pending ▸ hi.once, fun d hd => ?_, fun d hd => by simp [hand] at hd⟩
    obtain ⟨y, hy, hyd, hh⟩ := hi.handled (by simp [before]) (pending ▸ hd)
    exact ⟨y, ctxs ▸ hy, hyd, .inl hh⟩
  | mark c before ctxs _ pending hand =>
    refine ⟨table, pending ▸ hi.once, fun d hd => ?_, fun d hd => by simp [hand] at hd⟩
    obtain ⟨y, hy, hyd, hh⟩ := hi.live d (pending ▸ hd)
    refine ⟨_, ctxs ▸ mem_setHandled.2 ⟨y, hy, rfl⟩, ?_, .inl ?_⟩
    · split <;> exact hyd
    · split
      · rfl
      · rename_i hne
        rcases hh with hh | hh
        · exact hh
        · rw [before, Hand.marking.injEq] at hh
          exact absurd (hyd.trans hh.symm) hne
  | ended x mem before ctxs _ pending hand =>
    have hnd := List.nodup_cons.1 (pending.nodup_iff.1 hi.once)
    refine ⟨table, hnd.2, fun d hd => ?_, fun d hd => by simp [hand] at hd⟩
    obtain ⟨y, hy, hyd, hh⟩ :=
      hi.handled (by simp [before]) (pending.mem_iff.2 (List.mem_cons_of_mem _ hd))
    have hne : y.ptr ≠ x.ptr := fun hyx => hnd.1 (hyx ▸ hyd ▸ hd)
    exact ⟨y, ctxs ▸ (hi.table.mem_erase mem).2 ⟨hy, hne⟩, hyd, .inl hh⟩
  | yielded c before ctxs _ pending hand =>
    have hnd := List.nodup_cons.1 (pending.nodup_iff.1 hi.once)
    refine ⟨table, hnd.2, fun d hd => ?_, fun d hd => by simp [hand] at hd⟩
    obtain ⟨y, hy, hyd, hh⟩ :=
      hi.handled (by simp [before]) (pending.mem_iff.2 (List.mem_cons_of_mem _ hd))
    have hne : y.ptr ≠ c := fun hyc => hnd.1 (hyc ▸ hyd ▸ hd)
    exact ⟨y, ctxs ▸ mem_setHandled.2 ⟨y, hy, (if_neg hne).symm⟩, hyd, .inl hh⟩

/-- **No handled context is lost by a step that places what it notifies about.** -/
theorem noneLost_step (hi : SchedInv s) (hl : NoneLost s) (hp : Places s a)
    (h : schedStep s a = some s') : NoneLost s' := by
  cases schedStep_effect h with
  | same ctxs _ pending hand =>
    refine ⟨fun x hx hh => ?_, fun c hc => ?_⟩
    · exact pending.mem_iff.2 (hl.handled x (ctxs ▸ hx) hh)
    · exact pending.mem_iff.2 (hl.marked c (hand ▸ hc))
  | submit g _ ctxs _ pending hand =>
    refine ⟨fun x hx hh => ?_, fun c hc => pending ▸ hl.marked c (hand ▸ hc)⟩
    rcases List.mem_append.1 (ctxs ▸ hx) with hx | hx
    · exact pending ▸ hl.handled x hx hh
    · rw [List.mem_singleton.1 hx] at hh
      cases hh
  | pick x _ _ _ ctxs _ pending hand =>
    exact ⟨fun x hx hh => pending ▸ hl.handled x (ctxs ▸ hx) hh, fun c hc => by simp [hand] at hc⟩
  | place c _ ctxs _ pending hand =>
    refine ⟨fun x hx hh => ?_, fun d hd => ?_⟩
    · exact pending.mem_iff.2 (List.mem_cons_of_mem _ (hl.handled x (ctxs ▸ hx) hh))
    · rw [hand, Hand.marking.injEq] at hd
      exact pending.mem_iff.2 (hd ▸ List.mem_cons_self)
  | miss c missed => exact absurd hp missed
  | mark c before ctxs _ pending hand =>
    refine ⟨fun x hx hh => ?_, fun d hd => by simp [hand] at hd⟩
    rw [pending]
    obtain ⟨y, hy, rfl⟩ := mem_setHandled.1 (ctxs ▸ hx)
    by_cases hyc : y.ptr = c
    · rw [if_pos hyc]
      exact hyc ▸ hl.marked c before
    · rw [if_neg hyc] at hh ⊢
      exact hl.handled y hy hh
  | ended x mem _ ctxs _ pending hand =>
    refine ⟨fun y hy hh => ?_, fun d hd => by simp [hand] at hd⟩
    obtain ⟨hy, hne⟩ := (hi.table.mem_erase mem).1 (ctxs ▸ hy)
    exact (List.mem_cons.1 (pending.mem_iff.1 (hl.handled y hy hh))).resolve_left hne
  | yielded c _ ctxs _ pending hand =>
    refine ⟨fun x hx hh => ?_, fun d hd => by simp [hand] at hd⟩
    obtain ⟨y, hy, rfl⟩ := mem_setHandled.1 (ctxs ▸ hx)
    by_cases hyc : y.ptr = c
    · rw [if_pos hyc] at hh
      cases hh
    · rw [if_neg hyc] at hh ⊢
      exact (List.mem_cons.1 (pending.mem_iff.1 (hl.handled y hy hh))).resolve_left hyc

end

/-! ## Runs of the scheduler -/

theorem schedInv_run {count : Nat} {l : List SchedAction} {s : Sched}
    (h : run schedStep (Sched.init count) l = some s) : SchedInv s :=
  run_invariant (fun _ _ _ => schedInv_step) (schedInv_init count) h

theorem noneLost_run {count : Nat} {l : List SchedAction} {s : Sched}
    (hc : Along schedStep Places (Sched.init count) l)
    (h : run schedStep (Sched.init count) l = some s) : NoneLost s :=
  (run_inv (I := fun s => SchedInv s ∧ NoneLost s)
    (fun _ _ _ hi hp hs => ⟨schedInv_step hi.1 hs, noneLost_step hi.1 hi.2 hp hs⟩)
    ⟨schedInv_init count, noneLost_init count⟩ hc h).2

/-- **No context is pending twice, and no handled one is lost**: whatever the interleaving, a
context is in at most one thread's `ctxs` or unfinished `processing_ctxs`, once; and if every
notification placed its context, each handled context is in exactly one. -/
theorem handled_in_one_list {count : Nat} {l : List SchedAction} {s : Sched}
    (h : run schedStep (Sched.init count) l = some s) :
    (∀ c, s.pending.count c ≤ 1) ∧
      (Along schedStep Places (Sched.init count) l →
        ∀ x ∈ s.streamCtxs, x.handled = true → s.pending.count x.ptr = 1) := by
  have hi := schedInv_run h
  refine ⟨List.nodup_iff_count_le_one.1 hi.once, fun hc x hx hh => ?_⟩
  exact List.count_eq_one_of_mem hi.once ((noneLost_run hc h).handled x hx hh)

/-! ## Two runs -/

/-- What a notification of the context at hand takes when thread 0 is idle, and when it is busy. -/
def placeIdle : List SchedAction := List.replicate 3 (.check true)
def placeBusy : List SchedAction := List.replicate 5 (.check true)

/-- Two contexts go to thread 0, which takes both and has run the first of them. -/
def doubleStart : List SchedAction :=
  [.submit 10, .submit 20, .checkStart] ++ placeIdle ++ placeIdle ++
    [.check true, .take 0, .runYield 0]

theorem handled_in_one_list_two :
    ∃ s, run schedStep (Sched.init 2) doubleStart = some s ∧
      ((∀ c, s.pending.count c ≤ 1) ∧
        ∀ x ∈ s.streamCtxs, x.handled = true → s.pending.count x.ptr = 1) := by
  refine ⟨_, rfl, ?_⟩
  obtain ⟨hone, hall⟩ := @handled_in_one_list 2 doubleStart _ rfl
  exact ⟨hone, hall (by decide)⟩

/-- The first context, still in the list of thread 0, is notified again and goes to thread 1. -/
def listedTwice : List SchedAction := doubleStart ++ [.checkStart] ++ placeIdle

/-- One thread, whose list of one is all run; while the walk notifies about the third context
it takes the two that the walk gave it before. -/
def lostInPass : List SchedAction :=
  [.submit 10, .checkStart] ++ placeIdle ++
    [.check true, .take 0, .runYield 0, .submit 20, .submit 30, .checkStart] ++
    placeBusy ++ placeBusy ++ List.replicate 3 (.check true) ++ [.clear 0, .take 0] ++
    List.replicate 4 (.check true)

/-- A context in two lists, and a handled context in none. -/
theorem listed_twice_and_lost :
    (∃ s t₀ t₁, run schedStep (Sched.init 2) listedTwice = some s ∧ s.threads = [t₀, t₁] ∧
      0 ∈ t₀.processingCtxs ∧ 0 ∈ t₁.ctxs) ∧
    (∃ s t₀, run schedStep (Sched.init 1) lostInPass = some s ∧ s.threads = [t₀] ∧
      { ptr := 2, guildId := 30, handled := true } ∈ s.streamCtxs ∧
      2 ∉ t₀.processingCtxs ∧ 2 ∉ t₀.ctxs) :=
  ⟨⟨_, _, _, rfl, rfl, by decide, by decide⟩, ⟨_, _, rfl, rfl, by decide, by decide, by decide⟩⟩

end Musicat.Stream
