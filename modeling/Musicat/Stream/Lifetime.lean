import Musicat.Stream.NoLoss

/-!
# The lifetime of a stream context

Contexts are owned through raw pointers: by `stream_ctxs`, and, until they are
run, by the lists of the threads. A context that was ever in `stream_ctxs` is
deleted by the thread that is processing it and by nobody else, and no thread
has it in a list any more; the only other deletion is that of a context whose
`init` threw, which `submit_stream_ctx` deletes before it is in any list.
-/

namespace Musicat.Stream

open Lib Sched

/-- Who deletes a context. -/
inductive Deleter where
  /-- `submit_stream_ctx`, when `init` threw. -/
  | submit
  | thread (i : Nat)
  deriving DecidableEq, Repr

inductive LifeAction where
  | sched (a : SchedAction)
  /-- `submit_stream_ctx`, whose `init` throws. -/
  | submitThrows (guildId : Nat)
  deriving DecidableEq, Repr

/-- The scheduler, and the contexts deleted so far with who deleted them. -/
structure Life where
  sched : Sched
  deleted : List (Nat × Deleter) := []
  deriving DecidableEq, Repr

/-- What `erase_ctx_unlocked` deletes: the first context of the guild. -/
def eraseCtxUnlocked (ctxs : List Ctx) (guildId : Nat) : Option Ctx :=
  ctxs.find? (·.guildId = guildId)

/-- The deletions of a step: `erase_ctx (ctx->guild_id)` once `run` returned non-zero. -/
def deletes (s : Sched) : SchedAction → List (Nat × Deleter)
  | .runEnd i =>
    let ctx := (s.threads[i]?.bind (·.processing.head?)).bind fun c =>
      s.streamCtxs.find? (·.ptr = c)
    let erased := ctx.bind fun x => eraseCtxUnlocked s.streamCtxs x.guildId
    (erased.map fun y => (y.ptr, Deleter.thread i)).toList
  | _ => []

def lifeStep (s : Life) : LifeAction → Option Life
  | .sched a =>
    (schedStep s.sched a).map fun t =>
      { sched := t, deleted := s.deleted ++ deletes s.sched a }
  | .submitThrows g =>
    if s.sched.check.isSome then none
    else if s.sched.streamCtxs.any (·.guildId = g) then some s
    else
      some { sched := { s.sched with fresh := s.sched.fresh + 1 }
             deleted := s.deleted ++ [(s.sched.fresh, .submit)] }

namespace Life

def init (count : Nat) : Life := { sched := .init count }

/-- The addresses in `stream_ctxs`. -/
def ptrs (s : Life) : List Nat := s.sched.streamCtxs.map Ctx.ptr

end Life

/-! ## What a step deletes -/

section
variable {s t : Sched} {i : Nat}

/-- **The end of a stream deletes the context that its thread is at**, and takes it out of
`stream_ctxs`. -/
theorem runEnd_deletes (hi : CtxTable s.streamCtxs s.fresh) (h : schedStep s (.runEnd i) = some t) :
    ∃ th c rest, s.threads[i]? = some th ∧ th.processing = c :: rest ∧
      deletes s (.runEnd i) = [(c, .thread i)] ∧ t.fresh = s.fresh ∧
      c ∈ s.streamCtxs.map Ctx.ptr ∧
      ∀ p, p ∈ t.streamCtxs.map Ctx.ptr ↔ p ∈ s.streamCtxs.map Ctx.ptr ∧ p ≠ c := by
  obtain ⟨th, rest, x, hth, hproc, -, hx, rfl⟩ := runEnd_eq h
  have hmem := List.mem_of_find?_eq_some hx
  have hguild : eraseCtxUnlocked s.streamCtxs x.guildId = some x := find?_key hi.guilds hmem
  refine ⟨th, x.ptr, rest, hth, hproc, ?_, rfl, List.mem_map_of_mem hmem, fun p => ?_⟩
  · simp [deletes, hth, hproc, hx, hguild]
  · simp only [List.mem_map]
    constructor
    · rintro ⟨y, hy, rfl⟩
      obtain ⟨hy, hne⟩ := (hi.mem_erase hmem).1 hy
      exact ⟨⟨y, hy, rfl⟩, hne⟩
    · rintro ⟨⟨y, hy, rfl⟩, hne⟩
      exact ⟨y, (hi.mem_erase hmem).2 ⟨hy, hne⟩, rfl⟩

/-- The walk over `stream_ctxs` neither adds nor removes a context. -/
theorem checkStep_keeps (need : Bool) (k : Nat) (phase : Phase) :
    (checkStep need s k phase).streamCtxs.map Ctx.ptr = s.streamCtxs.map Ctx.ptr ∧
      (checkStep need s k phase).fresh = s.fresh := by
  cases phase with
  | next =>
    simp only [checkStep]
    split
    · exact ⟨rfl, rfl⟩
    · split <;> exact ⟨rfl, rfl⟩
  | first c i max min | second c i max =>
    simp only [checkStep]
    split
    · exact ⟨rfl, rfl⟩
    · split <;> exact ⟨rfl, rfl⟩
  | mark c => exact ⟨setHandled_keys s c true Ctx.ptr fun _ => rfl, rfl⟩

/-- Every step but the end of a stream deletes nothing; it adds at most the context it submits. -/
theorem other_step_keeps {a : SchedAction} (ha : ∀ i, a ≠ .runEnd i) (h : schedStep s a = some t) :
    deletes s a = [] ∧
      (t.streamCtxs.map Ctx.ptr = s.streamCtxs.map Ctx.ptr ∧ t.fresh = s.fresh ∨
        t.streamCtxs.map Ctx.ptr = s.streamCtxs.map Ctx.ptr ++ [s.fresh] ∧
          t.fresh = s.fresh + 1) := by
  cases a with
  | submit g =>
    refine ⟨rfl, ?_⟩
    simp only [schedStep] at h
    split at h
    · cases h
    split at h
    · cases h
      exact .inl ⟨rfl, rfl⟩
    · cases h
      exact .inr ⟨by simp, rfl⟩
  | checkStart =>
    simp only [schedStep] at h
    split at h <;> cases h
    exact ⟨rfl, .inl ⟨rfl, rfl⟩⟩
  | check need =>
    simp only [schedStep, Option.map_eq_some_iff] at h
    obtain ⟨⟨k, phase⟩, -, rfl⟩ := h
    exact ⟨rfl, .inl (checkStep_keeps need k phase)⟩
  | take i =>
    obtain ⟨th, -, -, rfl⟩ := take_eq h
    exact ⟨rfl, .inl ⟨rfl, rfl⟩⟩
  | wake i =>
    obtain ⟨th, -, rfl⟩ := wake_eq h
    exact ⟨rfl, .inl ⟨rfl, rfl⟩⟩
  | runEnd i => exact absurd rfl (ha i)
  | runYield i =>
    obtain ⟨th, c, rest, -, -, -, rfl⟩ := runYield_eq h
    exact ⟨rfl, .inl ⟨setHandled_keys _ c false Ctx.ptr fun _ => rfl, rfl⟩⟩
  | clear i =>
    obtain ⟨th, -, rfl⟩ := clear_eq h
    exact ⟨rfl, .inl ⟨rfl, rfl⟩⟩

end

/-! ## Every run -/

/-- Of the contexts ever allocated each is in `stream_ctxs` or was deleted, once. -/
structure LifeInv (s : Life) : Prop where
  sched : SchedInv s.sched
  once : (s.deleted.map Prod.fst).Nodup
  apart : ∀ p, p < s.sched.fresh ↔ p ∈ s.ptrs ∨ p ∈ s.deleted.map Prod.fst
  disjoint : ∀ p ∈ s.ptrs, p ∉ s.deleted.map Prod.fst

/-- What the step `a` may delete: the context at which a thread's loop is, by that thread, and the
context that was just allocated, by `submit_stream_ctx`. -/
def DeletedBy (s : Life) (a : LifeAction) (p : Nat × Deleter) : Prop :=
  (∃ i t rest, a = .sched (.runEnd i) ∧ s.sched.threads[i]? = some t ∧
    t.processing = p.1 :: rest ∧ p.2 = .thread i) ∨
  ∃ g, a = .submitThrows g ∧ p = (s.sched.fresh, .submit)

/-- The ways a step changes `stream_ctxs` and the deletions. -/
inductive LifeEffect (s : Life) (a : LifeAction) (s' : Life) : Prop where
  | keep (ptrs : s'.ptrs = s.ptrs) (fresh : s'.sched.fresh = s.sched.fresh)
      (deleted : s'.deleted = s.deleted)
  | add (ptrs : s'.ptrs = s.ptrs ++ [s.sched.fresh]) (fresh : s'.sched.fresh = s.sched.fresh + 1)
      (deleted : s'.deleted = s.deleted)
  | ended (c : Nat) (i : Nat) (mem : c ∈ s.ptrs) (who : DeletedBy s a (c, .thread i))
      (ptrs : ∀ p, p ∈ s'.ptrs ↔ p ∈ s.ptrs ∧ p ≠ c) (fresh : s'.sched.fresh = s.sched.fresh)
      (deleted : s'.deleted = s.deleted ++ [(c, .thread i)])
  | threw (who : DeletedBy s a (s.sched.fresh, .submit)) (ptrs : s'.ptrs = s.ptrs)
      (fresh : s'.sched.fresh = s.sched.fresh + 1)
      (deleted : s'.deleted = s.deleted ++ [(s.sched.fresh, .submit)])

section
variable {s s' : Life} {a : LifeAction}

theorem lifeStep_effect (hi : SchedInv s.sched) (h : lifeStep s a = some s') :
    LifeEffect s a s' := by
  cases a with
  | sched b =>
    simp only [lifeStep, Option.map_eq_some_iff] at h
    obtain ⟨t, ht, rfl⟩ := h
    by_cases hb : ∃ i, b = .runEnd i
    · obtain ⟨i, rfl⟩ := hb
      obtain ⟨th, c, rest, hth, hproc, hdel, hfresh, hmem, hptrs⟩ := runEnd_deletes hi.table ht
      exact .ended c i hmem (.inl ⟨i, th, rest, rfl, hth, hproc, rfl⟩) hptrs hfresh
        (by rw [hdel])
    · obtain ⟨hdel, hkeep | hadd⟩ := other_step_keeps (fun i hbi => hb ⟨i, hbi⟩) ht
      · exact .keep hkeep.1 hkeep.2 (by simp [hdel])
      · exact .add hadd.1 hadd.2 (by simp [hdel])
  | submitThrows g =>
    simp only [lifeStep] at h
    split at h
    · cases h
    split at h <;> cases h
    · exact .keep rfl rfl rfl
    · exact .threw (.inr ⟨g, rfl, rfl⟩) rfl rfl rfl

/-- An address that is not given to a context. -/
theorem SchedInv.skip {s : Sched} (hi : SchedInv s) : SchedInv { s with fresh := s.fresh + 1 } where
  table := ⟨hi.table.ptrs, hi.table.guilds, fun x hx => Nat.lt_succ_of_lt (hi.table.fresh x hx)⟩
  once := hi.once
  live := hi.live
  placing := hi.placing

theorem lifeStep_sched (hi : SchedInv s.sched) (h : lifeStep s a = some s') :
    SchedInv s'.sched := by
  cases a with
  | sched b =>
    simp only [lifeStep, Option.map_eq_some_iff] at h
    obtain ⟨t, ht, rfl⟩ := h
    exact schedInv_step hi ht
  | submitThrows g =>
    simp only [lifeStep] at h
    split at h
    · cases h
    split at h <;> cases h
    · exact hi
    · exact hi.skip

/-- One more deletion, of a context that was not deleted before. -/
theorem nodup_deleted {l : List (Nat × Deleter)} {c : Nat} {d : Deleter}
    (hl : (l.map Prod.fst).Nodup) (hc : c ∉ l.map Prod.fst) :
    ((l ++ [(c, d)]).map Prod.fst).Nodup := by
  rw [List.map_append, List.nodup_append]
  refine ⟨hl, List.nodup_singleton _, fun p hp q hq => ?_⟩
  rintro rfl
  obtain rfl : p = c := List.mem_singleton.1 hq
  exact hc hp

/-- **Every step keeps the account of the contexts.** -/
theorem lifeInv_step (hi : LifeInv s) (h : lifeStep s a = some s') : LifeInv s' := by
  have hsched := lifeStep_sched hi.sched h
  have hunused : s.sched.fresh ∉ s.ptrs ∧ s.sched.fresh ∉ s.deleted.map Prod.fst := by
    constructor <;> intro hp
    · exact absurd ((hi.apart _).2 (.inl hp)) (Nat.lt_irrefl _)
    · exact absurd ((hi.apart _).2 (.inr hp)) (Nat.lt_irrefl _)
  have hsucc (p : Nat) : p < s.sched.fresh + 1 ↔ p < s.sched.fresh ∨ p = s.sched.fresh := by
    omega
  cases lifeStep_effect hi.sched h with
  | keep ptrs fresh deleted =>
    refine ⟨hsched, deleted ▸ hi.once, fun p => ?_, fun p hp => ?_⟩
    · rw [ptrs, fresh, deleted]
      exact hi.apart p
    · rw [deleted]
      exact hi.disjoint p (ptrs ▸ hp)
  | add ptrs fresh deleted =>
    refine ⟨hsched, deleted ▸ hi.once, fun p => ?_, fun p hp => ?_⟩
    · rw [ptrs, fresh, deleted, hsucc, hi.apart p, List.mem_append, List.mem_singleton]
      exact or_right_comm
    · rw [deleted]
      rcases List.mem_append.1 (ptrs ▸ hp) with hp | hp
      · exact hi.disjoint p hp
      · exact List.mem_singleton.1 hp ▸ hunused.2
  | ended c i mem who ptrs fresh deleted =>
    refine ⟨hsched, deleted ▸ nodup_deleted hi.once (hi.disjoint c mem), fun p => ?_,
      fun p hp => ?_⟩
    · rw [fresh, deleted, hi.apart p, ptrs, List.map_append, List.mem_append]
      simp only [List.map_cons, List.map_nil, List.mem_singleton]
      constructor
      · rintro (hp | hp)
        · by_cases hpc : p = c
          · exact .inr (.inr hpc)
          · exact .inl ⟨hp, hpc⟩
        · exact .inr (.inl hp)
      · rintro (⟨hp, -⟩ | hp | rfl)
        · exact .inl hp
        · exact .inr hp
        · exact .inl mem
    · obtain ⟨hp, hpc⟩ := (ptrs p).1 hp
      rw [deleted, List.map_append, List.mem_append]
      rintro (hd | hd)
      · exact hi.disjoint p hp hd
      · exact hpc (List.mem_singleton.1 hd)
  | threw who ptrs fresh deleted =>
    refine ⟨hsched, deleted ▸ nodup_deleted hi.once hunused.2, fun p => ?_, fun p hp => ?_⟩
    · rw [ptrs, fresh, deleted, hsucc, hi.apart p, List.map_append, List.mem_append]
      simp only [List.map_cons, List.map_nil, List.mem_singleton]
      exact or_assoc
    · rw [deleted, List.map_append, List.mem_append]
      rintro (hd | hd)
      · exact hi.disjoint p (ptrs ▸ hp) hd
      · obtain rfl : p = s.sched.fresh := List.mem_singleton.1 hd
        exact hunused.1 (ptrs ▸ hp)

theorem lifeInv_init (count : Nat) : LifeInv (Life.init count) where
  sched := schedInv_init count
  once := List.nodup_nil
  apart p := by simp [Life.init, Sched.init, Life.ptrs]
  disjoint p hp := by cases hp

theorem lifeInv_run {count : Nat} {l : List LifeAction}
    (h : run lifeStep (.init count) l = some s) : LifeInv s :=
  run_invariant (fun _ _ _ => lifeInv_step) (lifeInv_init count) h

/-- What is listed in a thread is pending. -/
theorem pending_of_listed {s : Sched} {t : StreamThread} {c : Nat} (ht : t ∈ s.threads)
    (hc : c ∈ t.ctxs ∨ c ∈ t.processing) : c ∈ s.pending := by
  refine List.mem_flatMap.2 ⟨t, ht, ?_⟩
  rw [StreamThread.pending, List.mem_append]
  exact hc.symm

/-- **The lifetime of a stream context**: in every state of every run `stream_ctxs` has at most one
context of a guild, an allocated context is in `stream_ctxs` exactly when it was not deleted,
what a thread has listed or not yet processed is in `stream_ctxs`, and the next step deletes at
most the context at which its thread is, or the one whose `init` just threw. -/
theorem ctx_lifetime {count : Nat} {l : List LifeAction}
    (h : run lifeStep (.init count) l = some s) :
    (s.sched.streamCtxs.map Ctx.guildId).Nodup ∧
      (s.deleted.map Prod.fst).Nodup ∧
      (∀ p < s.sched.fresh, p ∈ s.ptrs ↔ p ∉ s.deleted.map Prod.fst) ∧
      (∀ t ∈ s.sched.threads, ∀ c, c ∈ t.ctxs ∨ c ∈ t.processing → c ∈ s.ptrs) ∧
      ∀ a s', lifeStep s a = some s' →
        (∀ p ∈ s'.deleted, p ∈ s.deleted ∨ DeletedBy s a p) ∧
          ∀ p ∈ s.ptrs, p ∈ s'.ptrs ∨ ∃ i, (p, Deleter.thread i) ∈ s'.deleted := by
  have hi := lifeInv_run h
  refine ⟨hi.sched.table.guilds, hi.once, fun p hp => ⟨hi.disjoint p, fun hd => ?_⟩,
    fun t ht c hc => ?_, fun a s' ha => ?_⟩
  · exact ((hi.apart p).1 hp).resolve_right hd
  · obtain ⟨x, hx, rfl, -⟩ := hi.sched.live c (pending_of_listed ht hc)
    exact List.mem_map_of_mem hx
  · have hlast {q : Nat × Deleter} (hq : s'.deleted = s.deleted ++ [q]) (hw : DeletedBy s a q) :
        ∀ p ∈ s'.deleted, p ∈ s.deleted ∨ DeletedBy s a p := fun p hp => by
      rw [hq, List.mem_append, List.mem_singleton] at hp
      rcases hp with hp | rfl
      · exact .inl hp
      · exact .inr hw
    cases lifeStep_effect hi.sched ha with
    | keep ptrs _ deleted =>
      exact ⟨fun p hp => .inl (deleted ▸ hp), fun p hp => .inl (ptrs ▸ hp)⟩
    | add ptrs _ deleted =>
      exact ⟨fun p hp => .inl (deleted ▸ hp), fun p hp => .inl (ptrs ▸ List.mem_append_left _ hp)⟩
    | ended c i _ who ptrs _ deleted =>
      refine ⟨hlast deleted who, fun p hp => ?_⟩
      by_cases hpc : p = c
      · exact .inr ⟨i, by rw [deleted, hpc]; simp⟩
      · exact .inl ((ptrs p).2 ⟨hp, hpc⟩)
    | threw who ptrs _ deleted =>
      exact ⟨hlast deleted who, fun p hp => .inl (ptrs ▸ hp)⟩

/-- Two contexts go to thread 0, which takes both. -/
def bothTaken : List SchedAction :=
  [.submit 10, .submit 20, .checkStart] ++ placeIdle ++ placeIdle ++ [.check true, .take 0]

/-- Then the `init` of a third one throws, and the stream of the first ends. -/
def oneEnds : List LifeAction :=
  bothTaken.map .sched ++ [.submitThrows 30, .sched (.runEnd 0)]

theorem ctx_lifetime_oneEnds : ∃ s, run lifeStep (.init 2) oneEnds = some s ∧
    s.deleted = [(2, .submit), (0, .thread 0)] ∧
    ∀ t ∈ s.sched.threads, ∀ c, c ∈ t.ctxs ∨ c ∈ t.processing → c ∈ s.ptrs :=
  ⟨_, rfl, rfl, (@ctx_lifetime _ 2 oneEnds (by decide)).2.2.2.1⟩

/-- A context that no thread ever processed is deleted. -/
theorem deleted_unprocessed : ¬ ∀ (count : Nat) (l : List LifeAction) (s : Life),
    run lifeStep (.init count) l = some s → ∀ p ∈ s.deleted, ∃ i, p.2 = .thread i := by
  intro h
  obtain ⟨i, hi⟩ := h 1 [.submitThrows 10] _ rfl (0, .submit) (by decide)
  cases hi

end

end Musicat.Stream
