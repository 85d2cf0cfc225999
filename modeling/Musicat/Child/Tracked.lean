import Mathlib.Logic.Function.Basic
import Musicat.Child.Execute
import Musicat.Lib.Ghost

/-!
# The entries of the children

`slave_list` holds one entry for an id, and `execute` turns a message away only
when id and command both match it. A message with another launcher command and
the id of a living child forks a second one, reports it ready, and drops what
`insert_slave` returns: nobody waits for that child. Every other child keeps an
entry with its pid under its id until it is reaped.
-/

namespace Musicat.Child

open Lib WorkerState

/-- The id each child was launched under, by its pid. -/
abbrev LaunchIds := Int → Bytes

/-- A message that forks is the one that names the child. -/
def noteLaunch (s : WorkerState) (a : WorkerAction) (s' : WorkerState) (ids : LaunchIds) :
    LaunchIds :=
  match a with
  | .message cmd _ env =>
    match parseCommandToOptions cmd createCommandOptions with
    | some o => if s'.children = s.children then ids else Function.update ids env.fork o.id
    | none => ids
  | _ => ids

/-- A message that forks a child carries an id without an entry. -/
def ForksFree (s : WorkerState) : WorkerAction → Prop
  | .message cmd _ env =>
    match parseCommandToOptions cmd createCommandOptions with
    | some o => forksChild s env o = true → s.getSlave o.id = none
    | none => True
  | _ => True

instance (s : WorkerState) : ∀ a, Decidable (ForksFree s a)
  | .message cmd _ env =>
    match h : parseCommandToOptions cmd createCommandOptions with
    | some o =>
      decidable_of_iff (forksChild s env o = true → s.getSlave o.id = none) (by
        simp only [ForksFree, h])
    | none => isTrue (by simp only [ForksFree, h])
  | .reapStart | .reap _ | .childExit .. | .exit _ => isTrue trivial

/-- Each child has the entry of its id, with its own pid. -/
def Tracked (s : WorkerState) (ids : LaunchIds) : Prop :=
  ∀ c ∈ s.children, ∃ e, s.getSlave (ids c.pid) = some e ∧ e.pid = c.pid

structure TrackInv (s : WorkerState) (ids : LaunchIds) : Prop where
  tracked : Tracked s ids
  pids : s.pids.Nodup
  positive : ∀ c ∈ s.children, 0 < c.pid
  exited : s.pc = .exited → s.children = []

/-! ## A message -/

section
variable {s s' : WorkerState} {ids : LaunchIds}

theorem TrackInv.congr (hi : TrackInv s ids) (hslaves : s'.slaveList = s.slaveList)
    (hchildren : s'.children = s.children) (hpc : s'.pc ≠ .exited) : TrackInv s' ids where
  tracked c hc := by
    obtain ⟨e, he, hpid⟩ := hi.tracked c (hchildren ▸ hc)
    exact ⟨e, (getSlave_congr hslaves _).trans he, hpid⟩
  pids := by
    rw [WorkerState.pids, hchildren]
    exact hi.pids
  positive c hc := hi.positive c (hchildren ▸ hc)
  exited h := absurd h hpc

theorem launches_fork {env : LaunchEnv} {o : CommandOptions} (h : launches env o = true) :
    ¬ env.fork < 0 ∧ o.command ≠ cmdShutdown := by
  unfold launches at h
  constructor
  · intro hneg
    cases hl : launcherFifos o.command <;> simp [hl, LaunchEnv.fails, hneg] at h
  · intro hsh
    rw [hsh, launcherFifos_shutdown] at h
    cases h

/-- **A message that forks for a free id** gives the child its entry. -/
theorem TrackInv.execute_fork (hi : TrackInv s ids) {now : Int} {env : LaunchEnv}
    {o : CommandOptions} (hok : s.forkOk env = true) (hf : forksChild s env o = true)
    (hnone : s.getSlave o.id = none) (hpc : (execute now env o s).1.pc ≠ .exited) :
    TrackInv (execute now env o s).1 (Function.update ids env.fork o.id) := by
  have hl : launches env o = true := by
    simp only [forksChild, Bool.and_eq_true] at hf
    exact hf.2
  obtain ⟨hfork, hsh⟩ := launches_fork hl
  obtain ⟨hpos, hnew⟩ := forkOk_spec hok hfork
  have hins : insertsSlave s env o = true := by simp [insertsSlave, hnone, hsh, hl]
  have hchildren : (execute now env o s).1.children = s.children ++ [{ pid := env.fork }] := by
    rw [execute_children, if_pos hf]
  have hslave (id : Bytes) : (execute now env o s).1.getSlave id =
      if id = o.id then some { o with pid := env.fork } else s.getSlave id := by
    simp only [execute_getSlave, hins, Bool.true_and, hl, if_true, decide_eq_true_eq]
  refine ⟨fun c hc => ?_, ?_, fun c hc => ?_, fun h => absurd h hpc⟩
  · rw [hchildren] at hc
    rcases List.mem_append.1 hc with hc | hc
    · have hne : c.pid ≠ env.fork := fun h => hnew (h ▸ List.mem_map_of_mem hc)
      obtain ⟨e, he, hpid⟩ := hi.tracked c hc
      have hid : ids c.pid ≠ o.id := fun h => by
        rw [h, hnone] at he
        cases he
      refine ⟨e, ?_, hpid⟩
      rw [Function.update_of_ne hne, hslave, if_neg hid, he]
    · rw [List.mem_singleton.1 hc]
      refine ⟨{ o with pid := env.fork }, ?_, rfl⟩
      rw [Function.update_self, hslave, if_pos rfl]
  · rw [WorkerState.pids, hchildren, List.map_append]
    refine List.nodup_append.2 ⟨hi.pids, List.nodup_singleton _, fun a ha b hb hab => ?_⟩
    have hab : a = env.fork := by rw [hab, List.mem_singleton.1 hb]
    exact hnew (hab ▸ ha)
  · rw [hchildren] at hc
    rcases List.mem_append.1 hc with hc | hc
    · exact hi.positive c hc
    · rw [List.mem_singleton.1 hc]
      exact hpos

/-- A message that forks nothing takes no entry away. -/
theorem TrackInv.execute_noFork (hi : TrackInv s ids) {now : Int} {env : LaunchEnv}
    {o : CommandOptions} (hf : forksChild s env o = false)
    (hpc : (execute now env o s).1.pc ≠ .exited) : TrackInv (execute now env o s).1 ids := by
  have hchildren : (execute now env o s).1.children = s.children := by
    rw [execute_children, hf]
    rfl
  refine ⟨fun c hc => ?_, ?_, fun c hc => hi.positive c (hchildren ▸ hc), fun h => absurd h hpc⟩
  · obtain ⟨e, he, hpid⟩ := hi.tracked c (hchildren ▸ hc)
    refine ⟨e, ?_, hpid⟩
    rw [execute_getSlave, if_neg, he]
    rintro hins
    simp only [insertsSlave, Bool.and_eq_true, Option.isNone_iff_eq_none,
      decide_eq_true_eq] at hins
    rw [hins.2, hins.1.1.1] at he
    cases he
  · rw [WorkerState.pids, hchildren]
    exact hi.pids

/-- A message keeps every entry when its child, if it forks one, has a free id. -/
theorem TrackInv.message (hi : TrackInv s ids) {cmd : Bytes} {now : Int} {env : LaunchEnv}
    (hc : ForksFree s (.message cmd now env))
    (h : workerStep s (.message cmd now env) = some s') :
    TrackInv s' (noteLaunch s (.message cmd now env) s' ids) := by
  obtain ⟨hrun, hok, ⟨hparse, rfl⟩ | ⟨o, hparse, rfl⟩⟩ := workerStep_message h
  · simp only [noteLaunch, hparse]
    exact hi.congr rfl rfl (by simp)
  · have hpc : (execute now env o s).1.pc ≠ .exited := by
      rw [execute_pc, hrun]
      simp
    simp only [ForksFree, hparse] at hc
    simp only [noteLaunch, hparse]
    cases hf : forksChild s env o with
    | true =>
      rw [if_neg (by simp [execute_children, hf])]
      exact hi.execute_fork hok hf (hc hf) hpc
    | false =>
      rw [if_pos (by simp [execute_children, hf])]
      exact hi.execute_noFork hf hpc

/-! ## A reap -/

theorem getSlave_eraseP {id id' : Bytes} (h : s'.slaveList = s.slaveList.eraseP (·.1 = id))
    (hne : id' ≠ id) : s'.getSlave id' = s.getSlave id' := by
  unfold getSlave
  rw [h, find?_eraseP_of_disjoint fun a ha => ?_]
  simp only [decide_eq_true_eq, decide_eq_false_iff_not] at ha ⊢
  exact fun h => hne (h.symm.trans ha)

/-- **A turn of the walk** takes an entry away only with its child. -/
theorem TrackInv.reap (hi : TrackInv s ids) (h : ReapEffect s s') (hpc : s'.pc ≠ .exited) :
    TrackInv s' ids := by
  cases h with
  | kept slaves children _ => exact hi.congr slaves children hpc
  | dropped i o _ _ _ slaves children childless =>
    refine ⟨fun c hc => ?_, ?_, fun c hc => hi.positive c (children ▸ hc), fun h => absurd h hpc⟩
    · rw [children] at hc
      obtain ⟨e, he, hpid⟩ := hi.tracked c hc
      refine ⟨e, ?_, hpid⟩
      rw [getSlave_eraseP slaves, he]
      intro hid
      have := childless e (hid ▸ he)
      have := hi.positive c hc
      omega
    · rw [WorkerState.pids, children]
      exact hi.pids
  | reaped i o e _ _ _ slaves slave children =>
    have hsub : ∀ c ∈ s'.children, c ∈ s.children := fun c hc =>
      List.mem_of_mem_eraseP (children ▸ hc)
    refine ⟨fun c hc => ?_, ?_, fun c hc => hi.positive c (hsub c hc), fun h => absurd h hpc⟩
    · obtain ⟨e', he', hpid⟩ := hi.tracked c (hsub c hc)
      refine ⟨e', ?_, hpid⟩
      rw [getSlave_eraseP slaves, he']
      intro hid
      -- the entry of the id is the reaped one, and no other child has its pid
      rw [hid, slave, Option.some.injEq] at he'
      exact key_ne_of_mem_eraseP hi.pids (children ▸ hc) (he' ▸ hpid.symm)
    · rw [WorkerState.pids, children]
      exact nodup_map_eraseP hi.pids

/-! ## The end of the worker -/

theorem waitOne_children (pick : Nat) (e : Bytes × CommandOptions) :
    (waitOne pick s e).children.Sublist s.children ∧
      (s.pids.Nodup → e.2.pid ≠ -1 → ∀ c ∈ (waitOne pick s e).children, c.pid ≠ e.2.pid) := by
  have hforce : (s.forceKill e.2 true).children = s.children := rfl
  unfold waitOne callWaitpid
  rw [hforce]
  split
  · rename_i hpid
    refine ⟨?_, fun _ hne => absurd hpid hne⟩
    split
    · exact List.Sublist.refl _
    · exact List.eraseIdx_sublist ..
  · split
    · rename_i hnone
      refine ⟨List.Sublist.refl _, fun _ _ c hc hpid => ?_⟩
      exact absurd hpid (by simpa using List.find?_eq_none.1 hnone c hc)
    · exact ⟨List.eraseP_sublist, fun hnd _ c hc => key_ne_of_mem_eraseP hnd hc⟩

/-- A child that `wait_all` leaves has no entry among those it went over. -/
theorem waitAll_left (pick : Nat) (l : List (Bytes × CommandOptions)) :
    ∀ {s : WorkerState}, s.pids.Nodup → (∀ c ∈ s.children, 0 < c.pid) →
      ∀ c ∈ (l.foldl (waitOne pick) s).children,
        c ∈ s.children ∧ ∀ e ∈ l, e.2.pid ≠ c.pid := by
  induction l with
  | nil =>
    intro s _ _ c hc
    exact ⟨hc, by simp⟩
  | cons e l ih =>
    intro s hnd hpos c hc
    obtain ⟨hsub, hne⟩ := waitOne_children (s := s) pick e
    obtain ⟨hmem, hl⟩ := ih (hnd.sublist (hsub.map _)) (fun c hc => hpos c (hsub.subset hc)) c hc
    have hcs := hsub.subset hmem
    refine ⟨hcs, fun e' he' hpid => ?_⟩
    rcases List.mem_cons.1 he' with rfl | he'
    · have := hpos c hcs
      exact hne hnd (by omega) c hmem hpid.symm
    · exact hl e' he' hpid

theorem TrackInv.waitAll_children (hi : TrackInv s ids) (pick : Nat) :
    (s.waitAll pick).children = [] := by
  rw [List.eq_nil_iff_forall_not_mem]
  intro c hc
  obtain ⟨hmem, hleft⟩ := waitAll_left pick s.slaveList hi.pids hi.positive c hc
  obtain ⟨e, he, hpid⟩ := hi.tracked c hmem
  obtain ⟨x, hx, rfl⟩ := Option.map_eq_some_iff.1 he
  exact hleft x (List.mem_of_find?_eq_some hx) hpid

/-! ## The runs of the worker -/

theorem TrackInv.childExit (hi : TrackInv s ids) (pid : Int) (status : Nat)
    (h : workerStep s (.childExit pid status) = some s') : TrackInv s' ids := by
  simp only [workerStep] at h
  cases h
  have hpids : ∀ c : ChildProc, (if c.pid = pid ∧ c.exited = none then
      { c with exited := some status } else c).pid = c.pid := fun c => by
    split <;> rfl
  refine ⟨fun c hc => ?_, ?_, fun c hc => ?_, fun hpc => ?_⟩
  · obtain ⟨c₀, hc₀, rfl⟩ := List.mem_map.1 hc
    rw [hpids]
    exact hi.tracked c₀ hc₀
  · rw [WorkerState.pids, List.map_map]
    exact (List.map_congr_left fun c _ => hpids c).symm ▸ hi.pids
  · obtain ⟨c₀, hc₀, rfl⟩ := List.mem_map.1 hc
    rw [hpids]
    exact hi.positive c₀ hc₀
  · exact List.map_eq_nil_iff.2 (hi.exited hpc)

/-- **Every step that meets the condition keeps the entries of the children.** -/
theorem TrackInv.step {a : WorkerAction} (hi : TrackInv s ids) (hc : ForksFree s a)
    (h : workerStep s a = some s') : TrackInv s' (noteLaunch s a s' ids) := by
  cases a with
  | message cmd now env => exact hi.message hc h
  | reapStart =>
    simp only [workerStep] at h
    split at h
    · cases h
      exact hi.congr rfl rfl (by simp)
    · cases h
  | reap now => exact hi.reap (reap_effect h) (reap_pc h).2
  | childExit pid status => exact hi.childExit pid status h
  | exit pick =>
    simp only [workerStep] at h
    split at h
    · cases h
      have hnil : (s.waitAll pick).cleanUpAll.children = [] := hi.waitAll_children pick
      exact ⟨by simp [Tracked, hnil], by simp [WorkerState.pids, hnil], by simp [hnil],
        fun _ => hnil⟩
    · cases h

/-- Waiting for its id waits for the child: its status once it has terminated, `-1` before. -/
theorem TrackInv.wait (hi : TrackInv s ids) {c : ChildProc} (hc : c ∈ s.children) (force : Bool) :
    (s.wait (ids c.pid) force).2 = (c.exited.map Nat.cast).getD (-1) := by
  obtain ⟨e, he, hpid⟩ := hi.tracked c hc
  have hpos := hi.positive c hc
  have hfind : (s.forceKill e force).children.find? (·.pid = e.pid) = some c := by
    have hforce : (s.forceKill e force).children = s.children := by
      cases force <;> rfl
    rw [hforce, hpid]
    exact find?_key hi.pids hc
  unfold WorkerState.wait
  simp only [he]
  unfold callWaitpidNohang
  rw [if_neg (by omega), hfind]
  cases hex : c.exited <;> simp [hex]

end

/-- **Every child has the entry of its id, with its own pid**, in every run in which each message
that forks carries a free id: a wait on the id waits for it, and the end of the worker reaps it. -/
theorem children_tracked {l : List WorkerAction} {s : WorkerState} {ids : LaunchIds}
    (hc : Along workerStep ForksFree {} l)
    (h : run (noted workerStep noteLaunch) ({}, fun _ => []) l = some (s, ids)) :
    Tracked s ids ∧
      (∀ c ∈ s.children, ∀ force,
        (s.wait (ids c.pid) force).2 = (c.exited.map Nat.cast).getD (-1)) ∧
      (s.pc = .exited → s.children = []) := by
  have hi : TrackInv s ids :=
    noted_inv (fun _ _ _ _ hi hc hs => hi.step hc hs)
      ⟨by simp [Tracked], by simp [WorkerState.pids], by simp, by simp⟩ hc h
  exact ⟨hi.tracked, fun c hc force => hi.wait hc force, hi.exited⟩

/-! ## Two children under one id -/

/-- A player and a search take turns on an id, and the search is left to the end. -/
def turnsRun : List WorkerAction :=
  [.message (bytes "id=a;cmd=cap;") 0 { fork := 11 }, .childExit 11 0,
    .message (bytes "id=a;cmd=shut;") 0 {}, .reapStart, .reap 0, .reap 0,
    .message (bytes "id=a;cmd=ytd;") 1 { fork := 12 }]

theorem children_tracked_turns :
    ∃ p, run (noted workerStep noteLaunch) ({}, fun _ => []) turnsRun = some p ∧
      p.1.children = [{ pid := 12 }] ∧ Tracked p.1 p.2 :=
  ⟨_, rfl, rfl, (children_tracked (l := turnsRun) (by decide) rfl).1⟩

/-- The second child of an id has no entry, and the worker ends without reaping it. -/
theorem child_untracked :
    ∃ p q, run (noted workerStep noteLaunch) ({}, fun _ => [])
        [.message (bytes "id=a;cmd=cap;") 0 { fork := 11 },
          .message (bytes "id=a;cmd=ytd;") 0 { fork := 12 }] = some p ∧
      ¬ Tracked p.1 p.2 ∧ workerStep p.1 (.exit 0) = some q ∧
      q.pc = .exited ∧ q.children = [{ pid := 12 }] := by
  refine ⟨_, _, rfl, fun h => ?_, rfl, rfl, rfl⟩
  obtain ⟨e, he, hpid⟩ := h { pid := 12 } (by decide)
  cases he
  cases hpid

end Musicat.Child
