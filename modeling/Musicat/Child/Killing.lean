import Musicat.Child.Worker
import Musicat.Lib.Lists
import Musicat.Lib.Run

/-!
# Whom the worker kills

Every `kill` goes to a child that has not been reaped, as long as no entry
without a child gets into `slave_list`. A message with a command that launches
nothing leaves the status at `0`, and its options, with the pid `-1`, are
inserted like those of a child.
-/

namespace Musicat.Child

open Lib WorkerState

/-! ## The invariant -/

/-- The children of `entries` are alive or zombies, told apart by their pids, and every kill so
far went to a child. -/
structure EntriesInv (s : WorkerState) (entries : List (Bytes × CommandOptions)) : Prop where
  slaves : ∀ e ∈ entries, 0 < e.2.pid ∧ e.2.pid ∈ s.pids
  distinct : (entries.map (·.2.pid)).Nodup
  pids : s.pids.Nodup
  kills : ∀ k ∈ s.kills, 0 < k.pid ∧ k.pid ∈ k.children

abbrev KillInv (s : WorkerState) : Prop := EntriesInv s s.slaveList

theorem killInv_init : KillInv {} where
  slaves _ h := by cases h
  distinct := List.nodup_nil
  pids := List.nodup_nil
  kills _ h := by cases h

section
variable {s : WorkerState}

/-- The invariant looks at the entries, the children and the kills only. -/
theorem KillInv.congr {s' : WorkerState} (hi : KillInv s) (hslaves : s'.slaveList = s.slaveList)
    (hpids : s'.pids = s.pids) (hkills : s'.kills = s.kills) : KillInv s' where
  slaves := by rw [hslaves, hpids]; exact hi.slaves
  distinct := hslaves ▸ hi.distinct
  pids := hpids ▸ hi.pids
  kills := hkills ▸ hi.kills

theorem EntriesInv.kill {entries : List (Bytes × CommandOptions)} (hi : EntriesInv s entries)
    {pid : Int} (hpos : 0 < pid) (hpid : pid ∈ s.pids) : EntriesInv (s.kill pid) entries where
  slaves := hi.slaves
  distinct := hi.distinct
  pids := hi.pids
  kills k hk := by
    rcases List.mem_append.1 hk with hk | hk
    · exact hi.kills k hk
    · rw [List.mem_singleton.1 hk]
      exact ⟨hpos, hpid⟩

theorem KillInv.forceKill (hi : KillInv s) {e : Bytes × CommandOptions} (he : e ∈ s.slaveList)
    (force : Bool) : KillInv (s.forceKill e.2 force) := by
  cases force with
  | false => exact hi
  | true => exact hi.kill (hi.slaves e he).1 (hi.slaves e he).2

theorem reply_slaveList (status : Int) (id : Bytes) :
    (s.reply status id).slaveList = s.slaveList := by
  unfold WorkerState.reply
  split <;> rfl

theorem reply_children (status : Int) (id : Bytes) :
    (s.reply status id).children = s.children := by
  unfold WorkerState.reply
  split <;> rfl

theorem reply_kills (status : Int) (id : Bytes) : (s.reply status id).kills = s.kills := by
  unfold WorkerState.reply
  split <;> rfl

theorem KillInv.reply (hi : KillInv s) (status : Int) (id : Bytes) :
    KillInv (s.reply status id) :=
  hi.congr (reply_slaveList status id) (by rw [WorkerState.pids, reply_children, WorkerState.pids])
    (reply_kills status id)

/-! ## Launching -/

theorem pids_fork (s : WorkerState) (pid : Int) : (s.fork pid).pids = s.pids ++ [pid] := by
  simp [pids, fork]

theorem KillInv.fork (hi : KillInv s) {pid : Int} (hpid : pid ∉ s.pids) :
    KillInv (s.fork pid) where
  slaves e he := by
    rw [pids_fork]
    exact ⟨(hi.slaves e he).1, List.mem_append_left _ (hi.slaves e he).2⟩
  distinct := hi.distinct
  pids := by
    rw [pids_fork]
    exact List.nodup_append.2 ⟨hi.pids, List.nodup_singleton _, fun a ha b hb hab =>
      hpid (List.mem_singleton.1 hb ▸ hab ▸ ha)⟩
  kills := hi.kills

theorem KillInv.insertSlave (hi : KillInv s) {o : CommandOptions} (hpos : 0 < o.pid)
    (hpid : o.pid ∈ s.pids) (hnew : ∀ e ∈ s.slaveList, e.2.pid ≠ o.pid) :
    KillInv (s.insertSlave o) := by
  unfold WorkerState.insertSlave
  split
  · exact hi
  · have hperm := List.perm_orderedInsert (fun a b : Bytes × CommandOptions => a.1 < b.1)
      (o.id, o) s.slaveList
    refine ⟨fun e he => ?_, ?_, hi.pids, hi.kills⟩
    · rcases List.mem_cons.1 (hperm.mem_iff.1 he) with rfl | he
      · exact ⟨hpos, hpid⟩
      · exact hi.slaves e he
    · refine ((hperm.map fun e => e.2.pid).nodup_iff).2
        (List.nodup_cons.2 ⟨fun hm => ?_, hi.distinct⟩)
      obtain ⟨e, he, heq⟩ := List.mem_map.1 hm
      exact hnew e he heq

theorem forkOk_spec {env : LaunchEnv} (h : s.forkOk env = true) (hnn : ¬ env.fork < 0) :
    0 < env.fork ∧ env.fork ∉ s.pids := by
  simp only [forkOk, Bool.or_eq_true, decide_eq_true_eq, Bool.and_eq_true, Bool.not_eq_true',
    List.contains_eq_mem, decide_eq_false_iff_not] at h
  rcases h with h | h
  · omega
  · exact h

/-- **A launcher that succeeds has forked a child that no entry has.** -/
theorem KillInv.launch (hi : KillInv s) {fifos : Nat} {env : LaunchEnv}
    (hfork : s.forkOk env = true) (o : CommandOptions) :
    KillInv (finishExecute (launch fifos env o s)).1 := by
  unfold Child.launch
  split
  · rename_i status hfind
    have hneg : status < 0 := by simpa using List.find?_some hfind
    simp only [finishExecute, if_neg (show status ≠ 0 by omega)]
    exact hi.reply status o.id
  · split
    · rename_i hneg
      simp only [finishExecute, if_neg (show env.fork ≠ 0 by omega)]
      exact hi.reply env.fork o.id
    · rename_i hnn
      obtain ⟨hpos, hnew⟩ := forkOk_spec hfork hnn
      have hmem : env.fork ∈ (s.fork env.fork).pids := by simp [pids_fork]
      have hfresh : ∀ e ∈ s.slaveList, e.2.pid ≠ env.fork :=
        fun e he heq => hnew (heq ▸ (hi.slaves e he).2)
      have hinsert := (hi.fork hnew).insertSlave (o := { o with pid := env.fork }) hpos hmem hfresh
      exact hinsert.reply 0 o.id

/-! ## Executing -/

/-- The commands that `execute` knows. -/
def knownCommand (command : Bytes) : Bool :=
  [cmdCreateAudioProcessor, cmdShutdown, cmdCallYtdlp, cmdCallSystem, cmdDlMusic].contains command

/-- A message that is no entry without a child: its command is known or its id is taken. -/
def launchesOrTaken (s : WorkerState) : WorkerAction → Bool
  | .message cmd _ _ =>
    match parseCommandToOptions cmd createCommandOptions with
    | none => true
    | some o => knownCommand o.command || (s.getSlave o.id).isSome
  | _ => true

theorem KillInv.execute (hi : KillInv s) {now : Int} {env : LaunchEnv} {o : CommandOptions}
    (hfork : s.forkOk env = true)
    (ho : (knownCommand o.command || (s.getSlave o.id).isSome) = true) :
    KillInv (execute now env o s).1 := by
  simp only [Child.execute]
  split
  · exact hi.reply errSlaveExist o.id
  split
  · exact hi.launch hfork o
  split
  · split
    · exact hi
    · exact hi.congr rfl rfl rfl
  split
  · exact hi.launch hfork o
  split
  · exact hi.launch hfork o
  split
  · exact hi.launch hfork o
  rename_i h1 h2 h3 h4 h5
  have htaken : (s.getSlave o.id).isSome = true := by
    simpa [knownCommand, h1, h2, h3, h4, h5] using ho
  simp only [finishExecute, if_true, WorkerState.insertSlave, htaken]
  exact hi.reply 0 o.id

/-! ## Waiting -/

theorem pids_eraseP {pid q : Int} (hq : q ∈ s.pids) (hne : q ≠ pid) :
    q ∈ ({ s with children := s.children.eraseP (·.pid = pid) } : WorkerState).pids := by
  obtain ⟨c, hc, rfl⟩ := List.mem_map.1 hq
  exact List.mem_map_of_mem (mem_eraseP_of_key_ne hc hne)

theorem getSlave_eq_some {id : Bytes} {o : CommandOptions} (h : s.getSlave id = some o) :
    ∃ e, s.slaveList.find? (·.1 = id) = some e ∧ e.2 = o ∧ e ∈ s.slaveList := by
  obtain ⟨e, he, rfl⟩ := Option.map_eq_some_iff.1 h
  exact ⟨e, he, rfl, List.mem_of_find?_eq_some he⟩

/-- Reaping the child of an entry and erasing the entry go together. -/
theorem KillInv.reap (hi : KillInv s) {id : Bytes} {e : Bytes × CommandOptions}
    (he : s.slaveList.find? (·.1 = id) = some e) :
    KillInv (({ s with children := s.children.eraseP (·.pid = e.2.pid) } : WorkerState).cleanUp id)
    where
  slaves d hd := by
    have hd' := List.mem_of_mem_eraseP hd
    have hperm := (perm_cons_eraseP he).map fun e => e.2.pid
    have hne : d.2.pid ≠ e.2.pid := fun h =>
      (List.nodup_cons.1 (hperm.nodup_iff.1 hi.distinct)).1 (List.mem_map.2 ⟨d, hd, h⟩)
    exact ⟨(hi.slaves d hd').1, pids_eraseP (hi.slaves d hd').2 hne⟩
  distinct := hi.distinct.sublist (List.eraseP_sublist.map _)
  pids := hi.pids.sublist (List.eraseP_sublist.map _)
  kills := hi.kills

/-- `call_waitpid_nohang` reaps the child, or nothing. -/
theorem callWaitpidNohang_cases (s : WorkerState) {pid : Int} (hpid : pid ≠ -1) :
    (∃ status, s.callWaitpidNohang pid = (s, status) ∧ (status = -1 ∨ status = -2)) ∨
      ∃ status : Nat, s.callWaitpidNohang pid =
        ({ s with children := s.children.eraseP (·.pid = pid) }, (status : Int)) := by
  simp only [callWaitpidNohang, if_neg hpid]
  split
  · exact .inl ⟨-2, rfl, .inr rfl⟩
  · split
    · exact .inl ⟨-1, rfl, .inl rfl⟩
    · exact .inr ⟨_, rfl⟩

/-- **One turn of the shutdown queue** kills a child if it kills, and erases the entry exactly
when it has reaped its child. -/
theorem KillInv.wait (hi : KillInv s) {id : Bytes} {force : Bool} {s' : WorkerState}
    {status : Int} (h : s.wait id force = (s', status)) :
    (status = -1 ∨ status = -2 → KillInv s') ∧
      (status ≠ -1 ∧ status ≠ -2 → KillInv (s'.cleanUp id)) := by
  unfold WorkerState.wait at h
  split at h
  · rename_i hnone
    cases h
    have herase : s.slaveList.eraseP (·.1 = id) = s.slaveList := by
      simp only [getSlave, Option.map_eq_none_iff] at hnone
      exact List.eraseP_of_forall_not fun a ha hp => List.find?_eq_none.1 hnone a ha hp
    exact ⟨fun _ => hi, fun _ => hi.congr herase rfl rfl⟩
  · rename_i o hsome
    obtain ⟨e, hfind, rfl, he⟩ := getSlave_eq_some hsome
    have hk := hi.forceKill he force
    have hslaves : (s.forceKill e.2 force).slaveList = s.slaveList := by
      cases force <;> rfl
    have hpos : e.2.pid ≠ -1 := by
      have := (hi.slaves e he).1
      omega
    rcases callWaitpidNohang_cases (s.forceKill e.2 force) hpos with ⟨st, hst, hneg⟩ | ⟨st, hst⟩
    · cases hst.symm.trans h
      exact ⟨fun _ => hk, fun hs => by omega⟩
    · cases hst.symm.trans h
      exact ⟨fun hs => by omega, fun _ => hk.reap (hslaves ▸ hfind)⟩

/-- One turn of `wait_all` leaves the entries it has not come to. -/
theorem EntriesInv.waitOne {pick : Nat} {e : Bytes × CommandOptions}
    {entries : List (Bytes × CommandOptions)} (hi : EntriesInv s (e :: entries)) :
    EntriesInv (s.waitOne pick e) entries := by
  obtain ⟨hpos, hpid⟩ := hi.slaves e List.mem_cons_self
  obtain ⟨hne, hdist⟩ := List.nodup_cons.1 hi.distinct
  have hk := hi.kill hpos hpid
  have hrest : EntriesInv (s.kill e.2.pid) entries :=
    ⟨fun d hd => hk.slaves d (List.mem_cons_of_mem e hd), hdist, hk.pids, hk.kills⟩
  simp only [WorkerState.waitOne, WorkerState.forceKill, if_true, callWaitpid,
    if_neg (show e.2.pid ≠ -1 by omega)]
  split
  · exact hrest
  · refine ⟨fun d hd => ?_, hdist, hi.pids.sublist (List.eraseP_sublist.map _), hrest.kills⟩
    obtain ⟨hdpos, hdpid⟩ := hrest.slaves d hd
    exact ⟨hdpos, pids_eraseP hdpid fun h => hne (List.mem_map.2 ⟨d, hd, h⟩)⟩

theorem EntriesInv.foldl (pick : Nat) :
    ∀ (entries : List (Bytes × CommandOptions)) {s : WorkerState}, EntriesInv s entries →
      EntriesInv (entries.foldl (WorkerState.waitOne pick) s) []
  | [], _, hi => hi
  | _ :: entries, _, hi => EntriesInv.foldl pick entries hi.waitOne

/-- **The end of the worker** kills each child of `slave_list` once, before it reaps it. -/
theorem KillInv.waitAll (hi : KillInv s) (pick : Nat) : KillInv (s.waitAll pick).cleanUpAll := by
  have h := EntriesInv.foldl pick s.slaveList hi
  exact ⟨fun _ he => (by cases he), List.nodup_nil, h.pids, h.kills⟩

/-! ## Runs of the worker -/

/-- A step that inserts no entry without a child. -/
def Launches (s : WorkerState) (a : WorkerAction) : Prop := launchesOrTaken s a = true

instance (s : WorkerState) (a : WorkerAction) : Decidable (Launches s a) :=
  inferInstanceAs (Decidable (_ = _))

/-- **Every such step keeps the invariant.** -/
theorem killInv_step {s' : WorkerState} {a : WorkerAction} (hi : KillInv s) (hc : Launches s a)
    (h : workerStep s a = some s') : KillInv s' := by
  cases a with
  | message cmd now env =>
    simp only [workerStep] at h
    split at h
    · rename_i hrun
      rw [Option.some.injEq] at h
      subst h
      simp only [Launches, launchesOrTaken] at hc
      unfold handleCommand
      cases hparse : parseCommandToOptions cmd createCommandOptions with
      | none => exact hi.congr rfl rfl rfl
      | some o =>
        simp only [hparse] at hc
        exact hi.execute hrun.2 hc
    · cases h
  | reapStart =>
    simp only [workerStep] at h
    split at h <;> cases h
    exact hi.congr rfl rfl rfl
  | reap now =>
    simp only [workerStep] at h
    split at h
    · split at h
      · cases h
        exact hi.congr rfl rfl rfl
      · rename_i o ho
        rcases hw : s.wait o.id (o.force || 30 < now - o.tsQueued) with ⟨s₁, status⟩
        simp only [hw] at h
        obtain ⟨hkeep, hclean⟩ := hi.wait hw
        split at h
        · rename_i hst
          cases h
          exact (hclean hst).congr rfl rfl rfl
        · rename_i hst
          cases h
          exact (hkeep (by omega)).congr rfl rfl rfl
    · cases h
  | childExit pid status =>
    cases h
    refine hi.congr rfl ?_ rfl
    simp only [WorkerState.pids, List.map_map]
    apply List.map_congr_left
    intro c _
    simp only [Function.comp_apply]
    split <;> rfl
  | exit pick =>
    simp only [workerStep] at h
    split at h <;> cases h
    exact (hi.waitAll pick).congr rfl rfl rfl

end

/-- **Every kill goes to a child that has not been reaped**, in every run in which each message
with an unknown command carries an id that is in `slave_list`. -/
theorem kills_children {l : List WorkerAction} {s : WorkerState}
    (hc : Along workerStep Launches {} l) (hrun : run workerStep {} l = some s) :
    ∀ k ∈ s.kills, 0 < k.pid ∧ k.pid ∈ k.children :=
  (run_inv (fun _ _ _ => killInv_step) killInv_init hc hrun).kills

/-! ## A child and an unknown command -/

/-- A search is started, shut down by force, and reaped when it has died. -/
def searchRun : List WorkerAction :=
  [.message (bytes "id=a;cmd=ytd;") 0 { fork := 100 },
    .message (bytes "id=a;cmd=shut;frc=1;") 0 {}, .reapStart, .reap 0, .reap 0, .reapStart,
    .childExit 100 9, .reap 1, .reap 1, .exit 0]

theorem kills_children_search :
    ∃ s, run workerStep {} searchRun = some s ∧ s.kills = [⟨100, [100]⟩, ⟨100, [100]⟩] ∧
      ∀ k ∈ s.kills, 0 < k.pid ∧ k.pid ∈ k.children := by
  refine ⟨_, rfl, rfl, kills_children (l := searchRun) ?_ rfl⟩
  decide

/-- An unknown command and the end of the worker: `kill (-1, SIGKILL)`. -/
theorem kills_everybody :
    ∃ s, run workerStep {} [.message (bytes "id=a;cmd=x;") 0 {}, .exit 0] = some s ∧
      s.kills = [⟨-1, []⟩] :=
  ⟨_, rfl, rfl⟩

end Musicat.Child
