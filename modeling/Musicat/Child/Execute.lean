import Musicat.Child.Killing

/-!
# What a message does

`execute` in one shape for all its commands, and from it what a message does to
the children, to `slave_list` and to `shutdown_queue`. A message with a launcher
forks whether or not its id is free; only the entry depends on that.
-/

namespace Musicat.Child

open WorkerState

/-- The fifos that the launcher of a command makes, for a command that has a launcher. -/
def launcherFifos (command : Bytes) : Option Nat :=
  if command = cmdCreateAudioProcessor then some 3
  else if command = cmdCallYtdlp ∨ command = cmdCallSystem ∨ command = cmdDlMusic then some 1
  else none

/-- A `mkfifo` or the `fork` of a launcher fails. -/
def LaunchEnv.fails (env : LaunchEnv) (fifos : Nat) : Bool :=
  (env.mkfifo.take fifos).any (· < 0) || env.fork < 0

/-- The launcher of a command, when it has one and the launch succeeds. -/
def launches (env : LaunchEnv) (o : CommandOptions) : Bool :=
  (launcherFifos o.command).any fun fifos => !env.fails fifos

/-- The id has an entry of the same command. -/
def WorkerState.sameSlave (s : WorkerState) (o : CommandOptions) : Bool :=
  (s.getSlave o.id).any (·.command = o.command)

/-- The message forks a child. -/
def forksChild (s : WorkerState) (env : LaunchEnv) (o : CommandOptions) : Bool :=
  !s.sameSlave o && launches env o

/-- The message inserts an entry in `slave_list`. -/
def insertsSlave (s : WorkerState) (env : LaunchEnv) (o : CommandOptions) : Bool :=
  (s.getSlave o.id).isNone && o.command ≠ cmdShutdown &&
    (launches env o || (launcherFifos o.command).isNone)

/-- The message queues a shutdown. -/
def queuesShutdown (s : WorkerState) (o : CommandOptions) : Bool :=
  !s.sameSlave o && o.command = cmdShutdown && (s.getSlave o.id).isSome

/-! ## The branches of `execute` -/

section
variable {s : WorkerState} {env : LaunchEnv} {o : CommandOptions} {now : Int}

theorem launcherFifos_shutdown : launcherFifos cmdShutdown = none := by decide

/-- `execute` on a command that its id does not run yet. -/
theorem execute_eq (h : s.sameSlave o = false) (hsh : o.command ≠ cmdShutdown) :
    execute now env o s =
      finishExecute (match launcherFifos o.command with
        | some fifos => launch fifos env o s
        | none => (s, o, 0)) := by
  unfold sameSlave at h
  unfold execute launcherFifos
  simp only [h, Bool.false_eq_true, if_false, if_neg hsh]
  by_cases h1 : o.command = cmdCreateAudioProcessor
  · simp only [h1, if_true]
    rfl
  · by_cases h2 : o.command = cmdCallYtdlp
    · simp only [h2, true_or, if_true]
      rfl
    · by_cases h3 : o.command = cmdCallSystem
      · simp only [h3, true_or, or_true, if_true]
        rfl
      · by_cases h4 : o.command = cmdDlMusic
        · simp only [h4, or_true, if_true]
          rfl
        · simp only [h1, h2, h3, h4, if_false, or_self]

theorem execute_same (h : s.sameSlave o = true) :
    (execute now env o s).1 = s.reply errSlaveExist o.id := by
  unfold sameSlave at h
  unfold execute
  simp only [h, if_true]

theorem execute_shutdown (h : s.sameSlave o = false) (hsh : o.command = cmdShutdown) :
    (execute now env o s).1 =
      if (s.getSlave o.id).isSome then
        { s with shutdownQueue := s.shutdownQueue ++ [{ o with tsQueued := now }] }
      else s := by
  unfold sameSlave at h
  unfold execute
  have hcap : cmdShutdown ≠ cmdCreateAudioProcessor := by decide
  simp only [h, Bool.false_eq_true, if_false]
  rw [if_neg (hsh ▸ hcap), if_pos hsh]
  cases s.getSlave o.id <;> rfl

theorem launch_fails {fifos : Nat} (h : env.fails fifos = true) :
    ∃ status : Int, status ≠ 0 ∧ launch fifos env o s = (s, o, status) := by
  unfold launch
  split
  · rename_i status hfind
    have hneg : status < 0 := by simpa using List.find?_some hfind
    exact ⟨status, by omega, rfl⟩
  · rename_i hnone
    have hfork : env.fork < 0 := by
      simp only [LaunchEnv.fails, Bool.or_eq_true, decide_eq_true_eq] at h
      refine h.resolve_left fun hany => ?_
      obtain ⟨status, hmem, hneg⟩ := List.any_eq_true.1 hany
      exact List.find?_eq_none.1 hnone status hmem hneg
    rw [if_pos hfork]
    exact ⟨env.fork, by omega, rfl⟩

theorem launch_succeeds {fifos : Nat} (h : env.fails fifos = false) :
    launch fifos env o s = (s.fork env.fork, { o with pid := env.fork }, 0) := by
  simp only [LaunchEnv.fails, Bool.or_eq_false_iff, decide_eq_false_iff_not] at h
  unfold launch
  split
  · rename_i status hfind
    have hany : (env.mkfifo.take fifos).any (· < 0) = true :=
      List.any_eq_true.2
        ⟨status, List.mem_of_find?_eq_some hfind, by simpa using List.find?_some hfind⟩
    rw [h.1] at hany
    cases hany
  · rw [if_neg h.2]

/-! ## What a message changes -/

@[simp] theorem reply_shutdownQueue (status : Int) (id : Bytes) :
    (s.reply status id).shutdownQueue = s.shutdownQueue := by
  unfold WorkerState.reply
  split <;> rfl

@[simp] theorem reply_pc (status : Int) (id : Bytes) : (s.reply status id).pc = s.pc := by
  unfold WorkerState.reply
  split <;> rfl

/-- The state of the worker before `execute` writes its reply. -/
def executed (s : WorkerState) (env : LaunchEnv) (now : Int) (o : CommandOptions) : WorkerState :=
  let forked := if forksChild s env o then s.fork env.fork else s
  let o' := if launches env o then { o with pid := env.fork } else o
  let inserted := if insertsSlave s env o then forked.insertSlave o' else forked
  if queuesShutdown s o then
    { inserted with shutdownQueue := s.shutdownQueue ++ [{ o with tsQueued := now }] }
  else inserted

/-- **What `execute` changes**, but for the reply. -/
theorem execute_executed :
    (execute now env o s).1.children = (executed s env now o).children ∧
      (execute now env o s).1.slaveList = (executed s env now o).slaveList ∧
      (execute now env o s).1.shutdownQueue = (executed s env now o).shutdownQueue ∧
      (execute now env o s).1.pc = (executed s env now o).pc := by
  cases hsame : s.sameSlave o with
  | true =>
    have hsome : (s.getSlave o.id).isNone = false := by
      unfold sameSlave at hsame
      cases hg : s.getSlave o.id <;> simp [hg] at hsame ⊢
    rw [execute_same hsame]
    simp [executed, forksChild, insertsSlave, queuesShutdown, hsame, hsome, reply_children,
      reply_slaveList]
  | false =>
    by_cases hsh : o.command = cmdShutdown
    · rw [execute_shutdown hsame hsh]
      have hnl : launches env o = false := by simp [launches, hsh, launcherFifos_shutdown]
      cases hg : (s.getSlave o.id).isSome <;>
        simp [executed, forksChild, insertsSlave, queuesShutdown, hsame, hsh, hg, hnl]
    · rw [execute_eq hsame hsh]
      have hq : queuesShutdown s o = false := by simp [queuesShutdown, hsh]
      cases hl : launcherFifos o.command with
      | none =>
        have hn : launches env o = false := by simp [launches, hl]
        have hi : insertsSlave s env o = (s.getSlave o.id).isNone := by
          simp [insertsSlave, hsh, hl]
        cases hg : s.getSlave o.id with
        | none =>
          simp [finishExecute, executed, forksChild, hsame, hn, hi, hg, hq, reply_children,
            reply_slaveList]
        | some e =>
          simp [finishExecute, executed, forksChild, hsame, hn, hi, hg, hq, reply_children,
            reply_slaveList, insertSlave]
      | some fifos =>
        cases hf : env.fails fifos with
        | true =>
          have hn : launches env o = false := by simp [launches, hl, hf]
          have hi : insertsSlave s env o = false := by simp [insertsSlave, hl, hn]
          obtain ⟨status, hst, hlaunch⟩ := launch_fails (o := o) (s := s) hf
          simp [hlaunch, finishExecute, hst, executed, forksChild, hn, hi, hq, reply_children,
            reply_slaveList]
        | false =>
          have hn : launches env o = true := by simp [launches, hl, hf]
          have hi : insertsSlave s env o = (s.getSlave o.id).isNone := by
            simp [insertsSlave, hsh, hn]
          have hfork : (s.fork env.fork).getSlave o.id = s.getSlave o.id := rfl
          simp only [launch_succeeds hf]
          cases hg : s.getSlave o.id with
          | none =>
            simp [finishExecute, executed, forksChild, hsame, hn, hi, hg, hq, reply_children,
              reply_slaveList, insertSlave, hfork]
          | some e =>
            simp [finishExecute, executed, forksChild, hsame, hn, hi, hg, hq, reply_children,
              reply_slaveList, insertSlave, hfork]

theorem execute_children : (execute now env o s).1.children =
    if forksChild s env o then s.children ++ [{ pid := env.fork }] else s.children := by
  rw [execute_executed.1]
  unfold executed insertSlave
  dsimp only
  repeat' split
  all_goals rfl

theorem execute_pc : (execute now env o s).1.pc = s.pc := by
  rw [execute_executed.2.2.2]
  unfold executed insertSlave
  dsimp only
  repeat' split
  all_goals rfl

theorem execute_shutdownQueue : (execute now env o s).1.shutdownQueue =
    if queuesShutdown s o then s.shutdownQueue ++ [{ o with tsQueued := now }]
    else s.shutdownQueue := by
  rw [execute_executed.2.2.1]
  unfold executed insertSlave
  dsimp only
  repeat' split
  all_goals rfl

theorem getSlave_insertSlave {e : CommandOptions} (h : s.getSlave e.id = none) (id : Bytes) :
    (s.insertSlave e).getSlave id = if id = e.id then some e else s.getSlave id := by
  have hnew : (s.insertSlave e).slaveList =
      s.slaveList.orderedInsert (·.1 < ·.1) (e.id, e) := by
    unfold insertSlave
    rw [if_neg (by simp [h])]
  unfold getSlave
  rw [hnew]
  split
  · rename_i hid
    subst hid
    rw [Lib.find?_orderedInsert_self (by simp)]
    · rfl
    · intro b hb
      simp only [getSlave, Option.map_eq_none_iff] at h
      simpa using List.find?_eq_none.1 h b hb
  · rename_i hid
    rw [Lib.find?_orderedInsert_of_neg (by simpa using Ne.symm hid)]

theorem execute_getSlave (id : Bytes) : (execute now env o s).1.getSlave id =
    if insertsSlave s env o && id = o.id then
      some (if launches env o then { o with pid := env.fork } else o)
    else s.getSlave id := by
  have hlist : (execute now env o s).1.getSlave id = (executed s env now o).getSlave id := by
    rw [getSlave, execute_executed.2.1, getSlave]
  rw [hlist]
  cases hi : insertsSlave s env o with
  | false =>
    unfold executed
    simp only [hi, Bool.false_and, Bool.false_eq_true, if_false]
    repeat' split
    all_goals rfl
  | true =>
    have hnone : s.getSlave o.id = none := by
      simp only [insertsSlave, Bool.and_eq_true, Option.isNone_iff_eq_none] at hi
      exact hi.1.1
    have hq : queuesShutdown s o = false := by simp [queuesShutdown, hnone]
    have hid : (if launches env o then { o with pid := env.fork } else o).id = o.id := by
      split <;> rfl
    unfold executed
    simp only [hi, hq, Bool.false_eq_true, if_false, if_true, Bool.true_and, decide_eq_true_eq]
    split
    · rw [getSlave_insertSlave (by rw [hid]; exact hnone), hid]
      rfl
    · rw [getSlave_insertSlave (by rw [hid]; exact hnone), hid]

end

/-! ## The steps of the worker -/

section
variable {s s' : WorkerState}

theorem getSlave_congr (h : s'.slaveList = s.slaveList) (id : Bytes) :
    s'.getSlave id = s.getSlave id := by
  unfold getSlave
  rw [h]

theorem waitAll_shutdownQueue (pick : Nat) : (s.waitAll pick).shutdownQueue = s.shutdownQueue := by
  have hone (s : WorkerState) (e : Bytes × CommandOptions) :
      (waitOne pick s e).shutdownQueue = s.shutdownQueue := by
    unfold waitOne callWaitpid
    repeat' split
    all_goals rfl
  unfold waitAll
  induction s.slaveList generalizing s with
  | nil => rfl
  | cons e l ih => rw [List.foldl_cons, ih, hone]

/-- A message that does not end the worker is executed. -/
theorem workerStep_message {cmd : Bytes} {now : Int} {env : LaunchEnv}
    (h : workerStep s (.message cmd now env) = some s') :
    s.pc = .running ∧ s.forkOk env = true ∧
      ((parseCommandToOptions cmd createCommandOptions = none ∧ s' = { s with pc := .crashed }) ∨
        ∃ o, parseCommandToOptions cmd createCommandOptions = some o ∧
          s' = (execute now env o s).1) := by
  simp only [workerStep] at h
  split at h
  · rename_i hrun
    rw [Option.some.injEq] at h
    subst h
    refine ⟨hrun.1, hrun.2, ?_⟩
    unfold handleCommand
    cases hparse : parseCommandToOptions cmd createCommandOptions with
    | none => exact .inl ⟨rfl, rfl⟩
    | some o => exact .inr ⟨o, rfl, rfl⟩
  · cases h

/-- What one turn of the walk over `shutdown_queue` does to the lists of the worker. -/
inductive ReapEffect (s s' : WorkerState) : Prop where
  | kept (slaves : s'.slaveList = s.slaveList) (children : s'.children = s.children)
      (queue : s'.shutdownQueue = s.shutdownQueue)
  | dropped (i : Nat) (o : CommandOptions) (pc : s.pc = .reaping i)
      (entry : s.shutdownQueue[i]? = some o) (queue : s'.shutdownQueue = s.shutdownQueue.eraseIdx i)
      (slaves : s'.slaveList = s.slaveList.eraseP (·.1 = o.id))
      (children : s'.children = s.children)
      (childless : ∀ e, s.getSlave o.id = some e → e.pid = -1)
  | reaped (i : Nat) (o e : CommandOptions) (pc : s.pc = .reaping i)
      (entry : s.shutdownQueue[i]? = some o) (queue : s'.shutdownQueue = s.shutdownQueue.eraseIdx i)
      (slaves : s'.slaveList = s.slaveList.eraseP (·.1 = o.id)) (slave : s.getSlave o.id = some e)
      (children : s'.children = s.children.eraseP (·.pid = e.pid))

/-- `wait` leaves the entries and the queue, and reaps the child of the entry or none. -/
theorem wait_cases {id : Bytes} {force : Bool} {status : Int}
    (h : s.wait id force = (s', status)) :
    s'.slaveList = s.slaveList ∧ s'.shutdownQueue = s.shutdownQueue ∧
      ((s'.children = s.children ∧
          (status = -1 ∨ status = -2 ∨ ∀ e, s.getSlave id = some e → e.pid = -1)) ∨
        ∃ e, s.getSlave id = some e ∧ 0 ≤ status ∧
          s'.children = s.children.eraseP (·.pid = e.pid)) := by
  unfold WorkerState.wait at h
  split at h
  · rename_i hnone
    cases h
    exact ⟨rfl, rfl, .inl ⟨rfl, .inr (.inr fun e he => by rw [hnone] at he; cases he)⟩⟩
  · rename_i e hsome
    have hforce : (s.forceKill e force).slaveList = s.slaveList ∧
        (s.forceKill e force).shutdownQueue = s.shutdownQueue ∧
        (s.forceKill e force).children = s.children := by
      cases force <;> exact ⟨rfl, rfl, rfl⟩
    obtain ⟨hs, hq, hc⟩ := hforce
    by_cases hpid : e.pid = -1
    · unfold callWaitpidNohang at h
      rw [if_pos hpid] at h
      cases h
      exact ⟨hs, hq, .inl ⟨hc, .inr (.inr fun e' he' => by
        rw [hsome, Option.some.injEq] at he'
        exact he' ▸ hpid)⟩⟩
    · rcases callWaitpidNohang_cases (s.forceKill e force) hpid with ⟨st, hst, hneg⟩ | ⟨st, hst⟩
      · cases hst.symm.trans h
        exact ⟨hs, hq, .inl ⟨hc, hneg.elim .inl fun h2 => .inr (.inl h2)⟩⟩
      · cases hst.symm.trans h
        exact ⟨hs, hq, .inr ⟨e, hsome, Int.natCast_nonneg st, by rw [← hc]⟩⟩

theorem wait_pc (id : Bytes) (force : Bool) : (s.wait id force).1.pc = s.pc := by
  have hcall (s : WorkerState) (pid : Int) : (s.callWaitpidNohang pid).1.pc = s.pc := by
    unfold callWaitpidNohang
    repeat' split
    all_goals rfl
  unfold WorkerState.wait
  split
  · rfl
  · rw [hcall]
    cases force <;> rfl

theorem reap_pc {now : Int} (h : workerStep s (.reap now) = some s') :
    (∃ i, s.pc = .reaping i) ∧ s'.pc ≠ .exited := by
  simp only [workerStep] at h
  split at h
  · rename_i i hpc
    refine ⟨⟨i, hpc⟩, ?_⟩
    split at h
    · cases h
      simp
    · split at h
      · cases h
        simp [WorkerState.cleanUp, wait_pc, hpc]
      · cases h
        simp
  · cases h

theorem reap_effect {now : Int} (h : workerStep s (.reap now) = some s') : ReapEffect s s' := by
  simp only [workerStep] at h
  split at h
  · rename_i i hpc
    split at h
    · cases h
      exact .kept rfl rfl rfl
    · rename_i o ho
      rcases hw : s.wait o.id (o.force || 30 < now - o.tsQueued) with ⟨s₁, status⟩
      simp only [hw] at h
      obtain ⟨hs, hq, hc⟩ := wait_cases hw
      split at h
      · rename_i hst
        cases h
        have hslaves : (s₁.cleanUp o.id).slaveList = s.slaveList.eraseP (·.1 = o.id) := by
          rw [WorkerState.cleanUp, hs]
        have hqueue : s₁.shutdownQueue.eraseIdx i = s.shutdownQueue.eraseIdx i := by rw [hq]
        rcases hc with ⟨hc, hneg⟩ | ⟨e, he, -, hc⟩
        · exact .dropped i o hpc ho hqueue hslaves hc
            ((hneg.resolve_left hst.1).resolve_left hst.2)
        · exact .reaped i o e hpc ho hqueue hslaves he hc
      · cases h
        rename_i hst
        rcases hc with ⟨hc, -⟩ | ⟨e, -, hnn, -⟩
        · exact .kept hs hc hq
        · exact absurd ⟨by omega, by omega⟩ hst
  · cases h

end

end Musicat.Child
