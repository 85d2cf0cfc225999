import Musicat.Lib.Lists
import Musicat.Lib.Run

/-!
# Downloads

`track_exist` asks whether a file is being waited for without the lock of
`waiting_file_download`, and `download` inserts it and queues it under one lock
each. The main loop starts the queued downloads, as many at a time as
`get_max_concurrent_download` says, and the task of a download takes its file
out of the set when it is done. The steps are those between two locks; what
`track_exist` returns and the download itself are left out.
-/

namespace Musicat.Player

open Lib

/-! ## The steps -/

/-- Where a call of `track_exist` for a missing file is. -/
inductive RequestPc where
  | testing
  | inserting
  | pushing
  | done
  deriving DecidableEq, Repr

/-- Where the task of a download is. -/
inductive TaskPc where
  | started
  | downloaded
  /-- The file is out of the set, `running_download` not yet decreased. -/
  | erased
  | done
  deriving DecidableEq, Repr

structure DownloadRequest where
  fname : String
  url : String
  pc : RequestPc := .testing
  deriving DecidableEq, Repr

structure DownloadTask where
  fname : String
  url : String
  pc : TaskPc := .started
  deriving DecidableEq, Repr

structure DownloadState where
  /-- The keys of `waiting_file_download`. -/
  waiting : List String := []
  /-- `download_q`. -/
  queue : List (String × String) := []
  requests : List DownloadRequest := []
  tasks : List DownloadTask := []
  /-- `running_download`. -/
  running : Int := 0
  /-- The main loop is in `check_download_queue`, past its test. -/
  checked : Bool := false
  deriving DecidableEq, Repr

/-- `get_max_concurrent_download`, with what `MAX_CONCURRENT_DOWNLOAD` is set to. -/
def getMaxConcurrentDownload (config : Int) : Int := if config = 0 then 3 else config

inductive DownloadAction where
  /-- `track_exist` is called and looks for the file. -/
  | trackExist (fname url : String) (fileExists noDownload : Bool)
  /-- `is_waiting_file_download`. -/
  | isWaiting (i : Nat)
  /-- The first section of `download`. -/
  | insert (i : Nat)
  /-- Its second section. -/
  | push (i : Nat)
  /-- The test of `check_download_queue`. -/
  | check
  /-- Its locked section. -/
  | start
  /-- The task has downloaded the file, or found it. -/
  | download (j : Nat)
  /-- Its locked section. -/
  | erase (j : Nat)
  /-- Its end. -/
  | finish (j : Nat)
  deriving DecidableEq, Repr

namespace DownloadState

def setRequest (s : DownloadState) (i : Nat) (r : DownloadRequest) (pc : RequestPc) :
    DownloadState :=
  { s with requests := s.requests.set i { r with pc } }

def setTask (s : DownloadState) (j : Nat) (t : DownloadTask) (pc : TaskPc) : DownloadState :=
  { s with tasks := s.tasks.set j { t with pc } }

/-- A step of a request that is at `pc`. -/
def request (s : DownloadState) (i : Nat) (pc : RequestPc)
    (f : DownloadRequest → DownloadState) : Option DownloadState :=
  match s.requests[i]? with
  | some r => if r.pc = pc then some (f r) else none
  | none => none

/-- A step of a task that is at `pc`. -/
def task (s : DownloadState) (j : Nat) (pc : TaskPc) (f : DownloadTask → DownloadState) :
    Option DownloadState :=
  match s.tasks[j]? with
  | some t => if t.pc = pc then some (f t) else none
  | none => none

end DownloadState

section
variable (config : Int)

def downloadStep (s : DownloadState) : DownloadAction → Option DownloadState
  | .trackExist fname url fileExists noDownload =>
    some (if fname.isEmpty || fileExists || noDownload then s
      else { s with requests := s.requests ++ [{ fname, url }] })
  | .isWaiting i =>
    s.request i .testing fun r =>
      s.setRequest i r (if s.waiting.contains r.fname then .done else .inserting)
  | .insert i =>
    s.request i .inserting fun r =>
      { s.setRequest i r .pushing with waiting := s.waiting.insert r.fname }
  | .push i =>
    s.request i .pushing fun r =>
      { s.setRequest i r .done with queue := s.queue ++ [(r.fname, r.url)] }
  | .check =>
    if s.checked then none
    else some { s with checked := s.running < getMaxConcurrentDownload config }
  | .start =>
    if s.checked then
      match s.queue with
      | [] => some { s with checked := false }
      | (fname, url) :: queue =>
        some { s with
          queue
          tasks := s.tasks ++ [{ fname, url }]
          running := s.running + 1
          checked := false }
    else none
  | .download j => s.task j .started fun t => s.setTask j t .downloaded
  | .erase j =>
    s.task j .downloaded fun t =>
      { s.setTask j t .erased with waiting := s.waiting.filter (· ≠ t.fname) }
  | .finish j =>
    s.task j .erased fun t => { s.setTask j t .done with running := s.running - 1 }

end

/-- `wait_for_download` returns now. -/
def waitForDownload (s : DownloadState) (fname : String) : Bool := !s.waiting.contains fname

/-- What a request has inserted and not yet queued. -/
def DownloadRequest.held (r : DownloadRequest) : List String :=
  if r.pc = .pushing then [r.fname] else []

/-- What a task is downloading, or has not yet taken out of the set. -/
def DownloadTask.held (t : DownloadTask) : List String :=
  if t.pc = .started ∨ t.pc = .downloaded then [t.fname] else []

namespace DownloadState

/-- The files whose download is queued or running. -/
def pending (s : DownloadState) : List String :=
  s.queue.map Prod.fst ++ s.tasks.flatMap DownloadTask.held

/-- The tasks that run. -/
def active (s : DownloadState) : Nat := s.tasks.countP (·.pc ≠ .done)

end DownloadState

/-- `download` inserts a file that nobody waits for yet. -/
def InsertsNew (s : DownloadState) : DownloadAction → Prop
  | .insert i => ∀ r ∈ s.requests[i]?, r.pc = .inserting → r.fname ∉ s.waiting
  | _ => True

instance (s : DownloadState) : (a : DownloadAction) → Decidable (InsertsNew s a)
  | .insert i => inferInstanceAs (Decidable (∀ r ∈ s.requests[i]?, _ → _))
  | .trackExist .. | .isWaiting _ | .push _ | .check | .start | .download _ | .erase _
  | .finish _ => isTrue trivial

/-! ## The names that are waited for -/

/-- What has been inserted and not yet taken out. -/
def DownloadState.names (s : DownloadState) : List String :=
  s.requests.flatMap DownloadRequest.held ++ s.pending

section
variable {config : Int} {s t : DownloadState}

theorem request_eq_some {i : Nat} {pc : RequestPc} {f : DownloadRequest → DownloadState}
    (h : s.request i pc f = some t) : ∃ r, s.requests[i]? = some r ∧ r.pc = pc ∧ f r = t := by
  unfold DownloadState.request at h
  split at h
  · rename_i r hr
    split at h
    · rename_i hpc
      exact ⟨r, hr, hpc, Option.some.inj h⟩
    · cases h
  · cases h

theorem task_eq_some {j : Nat} {pc : TaskPc} {f : DownloadTask → DownloadState}
    (h : s.task j pc f = some t) : ∃ r, s.tasks[j]? = some r ∧ r.pc = pc ∧ f r = t := by
  unfold DownloadState.task at h
  split at h
  · rename_i r hr
    split at h
    · rename_i hpc
      exact ⟨r, hr, hpc, Option.some.inj h⟩
    · cases h
  · cases h

/-- A step of a request changes its share of the names. -/
theorem names_setRequest {i : Nat} {r : DownloadRequest} (hr : s.requests[i]? = some r) :
    ∃ rest, s.names.Perm (r.held ++ rest) ∧
      ∀ pc, (s.setRequest i r pc).names.Perm (({ r with pc } : DownloadRequest).held ++ rest) := by
  obtain ⟨rest, hs, hset⟩ := flatMap_set_perm DownloadRequest.held hr
  refine ⟨rest ++ s.pending, ?_, fun pc => ?_⟩
  · rw [← List.append_assoc]
    exact hs.append_right _
  · rw [← List.append_assoc]
    exact (hset _).append_right _

/-- So does a step of a task. -/
theorem names_setTask {j : Nat} {r : DownloadTask} (hr : s.tasks[j]? = some r) :
    ∃ rest, s.names.Perm (r.held ++ rest) ∧
      ∀ pc, (s.setTask j r pc).names.Perm (({ r with pc } : DownloadTask).held ++ rest) := by
  obtain ⟨rest, hs, hset⟩ := flatMap_set_perm DownloadTask.held hr
  have hmove : ∀ held, (s.requests.flatMap DownloadRequest.held ++
      (s.queue.map Prod.fst ++ (held ++ rest))).Perm
        (held ++ (s.requests.flatMap DownloadRequest.held ++ (s.queue.map Prod.fst ++ rest))) :=
    fun held => ((List.perm_append_comm_assoc _ held rest).append_left _).trans
      (List.perm_append_comm_assoc _ held _)
  refine ⟨s.requests.flatMap DownloadRequest.held ++ (s.queue.map Prod.fst ++ rest), ?_,
    fun pc => ?_⟩
  · exact ((hs.append_left _).append_left _).trans (hmove _)
  · exact (((hset _).append_left _).append_left _).trans (hmove _)

/-- What a step does to the set and to the names. -/
inductive NamesStep (s : DownloadState) (a : DownloadAction) (t : DownloadState) : Prop where
  | keep (names : t.names.Perm s.names) (waiting : t.waiting = s.waiting)
  | insert (fname : String) (names : t.names.Perm (fname :: s.names))
      (waiting : t.waiting = s.waiting.insert fname)
      (fresh : InsertsNew s a → fname ∉ s.waiting)
  | erase (fname : String) (names : s.names.Perm (fname :: t.names))
      (waiting : t.waiting = s.waiting.filter (· ≠ fname))

theorem downloadStep_names {a : DownloadAction} (h : downloadStep config s a = some t) :
    NamesStep s a t := by
  cases a with
  | trackExist fname url fileExists noDownload =>
    cases h
    split
    · exact .keep (.refl _) rfl
    · refine .keep ?_ rfl
      simp [DownloadState.names, DownloadState.pending, DownloadRequest.held]
  | isWaiting i =>
    obtain ⟨r, hr, hpc, rfl⟩ := request_eq_some h
    obtain ⟨rest, hs, hset⟩ := names_setRequest hr
    refine .keep ((hset _).trans (.trans ?_ hs.symm)) rfl
    split <;> simp [DownloadRequest.held, hpc]
  | insert i =>
    obtain ⟨r, hr, hpc, rfl⟩ := request_eq_some h
    obtain ⟨rest, hs, hset⟩ := names_setRequest hr
    refine .insert r.fname ((hset .pushing).trans ?_) rfl fun hc => hc r hr hpc
    have hheld : r.held = [] := by simp [DownloadRequest.held, hpc]
    rw [hheld] at hs
    exact hs.symm.cons _
  | push i =>
    obtain ⟨r, hr, hpc, rfl⟩ := request_eq_some h
    obtain ⟨rest, hs, hset⟩ := flatMap_set_perm DownloadRequest.held hr
    have hheld : r.held = [r.fname] := by simp [DownloadRequest.held, hpc]
    refine .keep ?_ rfl
    -- the file moves from the request to the end of the queue
    rw [hheld] at hs
    have hnew :
        ((s.requests.set i { r with pc := .done }).flatMap DownloadRequest.held).Perm rest :=
      hset _
    refine List.perm_iff_count.2 fun f => ?_
    have hbefore := hs.count_eq f
    have hafter := hnew.count_eq f
    simp only [DownloadState.names, DownloadState.pending, DownloadState.setRequest,
      List.map_append, List.map_cons, List.map_nil, List.count_append] at hbefore ⊢
    omega
  | check =>
    simp only [downloadStep] at h
    split at h
    · cases h
    · cases h
      exact .keep (.of_eq rfl) rfl
  | start =>
    simp only [downloadStep] at h
    split at h
    · cases hq : s.queue with
      | nil =>
        simp only [hq] at h
        cases h
        exact .keep (.of_eq (by simp [DownloadState.names, DownloadState.pending, hq])) rfl
      | cons d queue =>
        rw [hq] at h
        cases h
        refine .keep ?_ rfl
        -- it moves on from the front of the queue to a task
        refine List.perm_iff_count.2 fun f => ?_
        simp only [DownloadState.names, DownloadState.pending, hq, List.map_cons,
          List.flatMap_append, List.flatMap_cons, List.flatMap_nil, DownloadTask.held, true_or,
          if_true, List.count_append, List.count_cons, List.count_nil]
        omega
    · cases h
  | download j =>
    obtain ⟨r, hr, hpc, rfl⟩ := task_eq_some h
    obtain ⟨rest, hs, hset⟩ := names_setTask hr
    refine .keep ((hset _).trans (.trans ?_ hs.symm)) rfl
    simp [DownloadTask.held, hpc]
  | erase j =>
    obtain ⟨r, hr, hpc, rfl⟩ := task_eq_some h
    obtain ⟨rest, hs, hset⟩ := names_setTask hr
    have hheld : r.held = [r.fname] := by simp [DownloadTask.held, hpc]
    rw [hheld] at hs
    exact .erase r.fname (hs.trans ((hset .erased).symm.cons _)) rfl
  | finish j =>
    obtain ⟨r, hr, hpc, rfl⟩ := task_eq_some h
    obtain ⟨rest, hs, hset⟩ := names_setTask hr
    refine .keep ((hset .done).trans (.trans ?_ hs.symm)) rfl
    simp [DownloadTask.held, hpc]

end

/-! ## One download per file -/

structure DownloadInv (s : DownloadState) : Prop where
  nodup : s.names.Nodup
  waiting : ∀ f, f ∈ s.waiting ↔ f ∈ s.names

section
variable {config : Int} {s t : DownloadState}

theorem downloadInv_step {a : DownloadAction} (hi : DownloadInv s) (hc : InsertsNew s a)
    (h : downloadStep config s a = some t) : DownloadInv t := by
  cases downloadStep_names h with
  | keep hnames hwaiting =>
    exact ⟨hnames.nodup_iff.2 hi.nodup, fun f => by rw [hwaiting, hi.waiting, hnames.mem_iff]⟩
  | insert fname hnames hwaiting hfresh =>
    have hnew : fname ∉ s.names := mt (hi.waiting fname).2 (hfresh hc)
    refine ⟨hnames.nodup_iff.2 (List.nodup_cons.2 ⟨hnew, hi.nodup⟩), fun f => ?_⟩
    rw [hwaiting, List.mem_insert_iff, hi.waiting, hnames.mem_iff, List.mem_cons]
  | erase fname hnames hwaiting =>
    have hnodup := hnames.nodup_iff.1 hi.nodup
    obtain ⟨hfresh, htail⟩ := List.nodup_cons.1 hnodup
    refine ⟨htail, fun f => ?_⟩
    rw [hwaiting, List.mem_filter, hi.waiting, hnames.mem_iff, List.mem_cons, decide_eq_true_eq]
    constructor
    · rintro ⟨rfl | hf, hne⟩
      · exact absurd rfl hne
      · exact hf
    · intro hf
      refine ⟨.inr hf, ?_⟩
      rintro rfl
      exact hfresh hf

/-! ## The counter -/

theorem active_setTask {j : Nat} {r : DownloadTask} (hr : s.tasks[j]? = some r) (pc : TaskPc) :
    (s.setTask j r pc).active + (if r.pc = .done then 0 else 1) =
      s.active + if pc = .done then 0 else 1 := by
  have hset := countP_set_add (fun t : DownloadTask => decide (t.pc ≠ .done)) hr { r with pc }
  simp only [decide_eq_true_eq, ne_eq, ite_not] at hset
  exact hset

variable (config) in
/-- `running_download` counts the tasks, and only the main loop increases it. -/
structure CountInv (s : DownloadState) : Prop where
  running : s.running = s.active
  bound : s.running = 0 ∨ s.running ≤ getMaxConcurrentDownload config
  checked : s.checked → s.running < getMaxConcurrentDownload config

theorem CountInv.setTask (hi : CountInv config s) {j : Nat} {r : DownloadTask} {pc : TaskPc}
    (hr : s.tasks[j]? = some r) (hold : r.pc ≠ .done) (hnew : pc ≠ .done) :
    CountInv config (s.setTask j r pc) := by
  have hactive := active_setTask hr pc
  rw [if_neg hold, if_neg hnew, Nat.add_right_cancel_iff] at hactive
  exact ⟨by rw [hactive]; exact hi.running, hi.bound, hi.checked⟩

theorem countInv_step {a : DownloadAction} (hi : CountInv config s)
    (h : downloadStep config s a = some t) : CountInv config t := by
  obtain ⟨hrunning, hbound, hchecked⟩ := hi
  cases a with
  | trackExist fname url fileExists noDownload =>
    cases h
    split
    · exact ⟨hrunning, hbound, hchecked⟩
    · exact ⟨hrunning, hbound, hchecked⟩
  | isWaiting i =>
    obtain ⟨r, _, _, rfl⟩ := request_eq_some h
    exact ⟨hrunning, hbound, hchecked⟩
  | insert i =>
    obtain ⟨r, _, _, rfl⟩ := request_eq_some h
    exact ⟨hrunning, hbound, hchecked⟩
  | push i =>
    obtain ⟨r, _, _, rfl⟩ := request_eq_some h
    exact ⟨hrunning, hbound, hchecked⟩
  | check =>
    simp only [downloadStep] at h
    split at h
    · cases h
    · cases h
      exact ⟨hrunning, hbound, fun hlt => by simpa using hlt⟩
  | start =>
    simp only [downloadStep] at h
    split at h
    · rename_i hc
      have hlt := hchecked hc
      cases hq : s.queue with
      | nil =>
        rw [hq] at h
        cases h
        exact ⟨hrunning, hbound, fun hf => by cases hf⟩
      | cons d queue =>
        rw [hq] at h
        cases h
        refine ⟨?_, .inr hlt, fun hf => by cases hf⟩
        rw [hrunning]
        simp [DownloadState.active]
    · cases h
  | download j =>
    obtain ⟨r, hr, hpc, rfl⟩ := task_eq_some h
    exact CountInv.setTask ⟨hrunning, hbound, hchecked⟩ hr (by simp [hpc]) (by simp)
  | erase j =>
    obtain ⟨r, hr, hpc, rfl⟩ := task_eq_some h
    have hset : CountInv config (s.setTask j r .erased) :=
      CountInv.setTask ⟨hrunning, hbound, hchecked⟩ hr (by simp [hpc]) (by simp)
    exact ⟨hset.running, hset.bound, hset.checked⟩
  | finish j =>
    obtain ⟨r, hr, hpc, rfl⟩ := task_eq_some h
    have hactive := active_setTask hr .done
    simp only [hpc, reduceCtorEq, if_false, if_true, Nat.add_zero] at hactive
    refine ⟨?_, ?_, fun hc => ?_⟩
    · show s.running - 1 = ((s.setTask j r .done).active : Int)
      omega
    · show s.running - 1 = 0 ∨ s.running - 1 ≤ _
      omega
    · have hlt := hchecked hc
      show s.running - 1 < _
      omega

/-- **No more downloads run at a time than the configuration says**, whatever the requests do. -/
theorem downloads_bounded {l : List DownloadAction} (h : run (downloadStep config) {} l = some s) :
    s.active = 0 ∨ (s.active : Int) ≤ getMaxConcurrentDownload config := by
  have hi : CountInv config ({} : DownloadState) :=
    { running := rfl, bound := .inl rfl, checked := fun h => by cases h }
  have hs := run_invariant (fun _ _ _ hi h => countInv_step hi h) hi h
  have hbound := hs.bound
  rw [hs.running] at hbound
  omega

end

/-! ## The main result -/

structure OneDownload (config : Int) (s : DownloadState) : Prop where
  unique : s.pending.Nodup
  waiting : ∀ f ∈ s.pending, f ∈ s.waiting
  returned : ∀ f, waitForDownload s f → f ∉ s.pending
  bounded : s.active = 0 ∨ (s.active : Int) ≤ getMaxConcurrentDownload config

/-- **One download per file**, in every run in which no two requests insert the same file. -/
theorem one_download_per_file {config : Int} {s : DownloadState}
    (h : ReachAlong (downloadStep config) InsertsNew {} s) : OneDownload config s := by
  have hi : DownloadInv ({} : DownloadState) := ⟨List.nodup_nil, fun f => Iff.rfl⟩
  obtain ⟨hnodup, hwaiting⟩ := h.inv (fun _ _ _ hi hc h => downloadInv_step hi hc h) hi
  have hmem : ∀ f ∈ s.pending, f ∈ s.waiting := fun f hf =>
    (hwaiting f).2 (List.mem_append_right _ hf)
  obtain ⟨l, _, hrun⟩ := h
  exact {
    unique := (List.nodup_append.1 hnodup).2.1
    waiting := hmem
    returned := fun f hreturns hf => by
      simp only [waitForDownload, Bool.not_eq_true', List.contains_eq_mem, decide_eq_false_iff_not]
        at hreturns
      exact hreturns (hmem f hf)
    bounded := downloads_bounded hrun }

/-- A download that is over while a second request for its file, which came in the meantime, is
turned away, and another file is queued. -/
def twoFiles : List DownloadAction :=
  [.trackExist "a" "u" false false, .isWaiting 0, .insert 0, .push 0,
    .trackExist "a" "u" false false, .isWaiting 1,
    .trackExist "b" "v" false false, .isWaiting 2, .insert 2, .push 2,
    .check, .start, .download 0, .erase 0, .finish 0]

theorem one_download_per_file_run :
    ∃ s, run (downloadStep 0) {} twoFiles = some s ∧ s.queue = [("b", "v")] ∧ OneDownload 0 s := by
  refine ⟨_, rfl, rfl, one_download_per_file ⟨twoFiles, ?_, rfl⟩⟩
  decide

/-- Two requests look before either inserts. -/
def bothInsert : List DownloadAction :=
  [.trackExist "a" "u" false false, .trackExist "a" "u" false false, .isWaiting 0, .isWaiting 1,
    .insert 0, .insert 1, .push 0, .push 1, .check, .start, .check, .start]

/-- The file is queued twice, and when the first download is over the second still runs and the
file is out of the set. -/
theorem download_twice :
    ∃ s t, run (downloadStep 0) {} bothInsert = some s ∧ ¬ s.pending.Nodup ∧
      run (downloadStep 0) s [.download 0, .erase 0] = some t ∧
      "a" ∈ t.pending ∧ "a" ∉ t.waiting ∧ waitForDownload t "a" := by
  refine ⟨_, _, rfl, ?_, rfl, ?_⟩ <;> decide

end Musicat.Player
