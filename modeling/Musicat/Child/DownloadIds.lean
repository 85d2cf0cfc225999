import Musicat.Child.Requests

/-!
# The ids of downloads

The id of a download is the start of the base64 text of the file name, 32
symbols, and so the id of its first 24 bytes (`downloadId_iff`). The name begins
with the title and ends with the id of the video: two tracks whose titles begin
alike have one id. Downloads whose ids differ do not meet: the worker refuses
none of their start commands (`SlotInv.accepts`), and a shutdown command queues
nothing but its own id.
-/

namespace Musicat.Child

open Lib WorkerState

/-! ## The id -/

/-- `get_filename_from_result`, on the title and the id of a track. -/
def getFilenameFromResult (title sid : Bytes) : Bytes :=
  if sid.isEmpty then []
  else (title ++ bytes "-" ++ sid ++ bytes ".opus").filter (· ≠ 47)

/-- `qid` of `do_download`. -/
def downloadId (fname : Bytes) : Bytes := maxLen (base64Encode fname) 32 false

/-- **The id of a download is that of the first 24 bytes of the name.** -/
theorem downloadId_eq (fname : Bytes) : downloadId fname = base64Encode (fname.take 24) := by
  rw [downloadId, maxLen]
  split
  · rename_i hlen
    rw [base64Encode, length_base64] at hlen
    rw [List.take_of_length_le (by omega)]
  · exact take_base64 8 fname

theorem downloadId_iff {f g : Bytes} : downloadId f = downloadId g ↔ f.take 24 = g.take 24 := by
  rw [downloadId_eq, downloadId_eq]
  exact ⟨base64_inj base64Symbol_distinct, congrArg _⟩

/-- `get_download_music_fifo_path`. -/
def getDownloadMusicFifoPath (localDir id : Bytes) : Bytes := localDir ++ id ++ bytes ".dlnotif"

theorem getDownloadMusicFifoPath_inj {localDir id id' : Bytes} :
    getDownloadMusicFifoPath localDir id = getDownloadMusicFifoPath localDir id' ↔ id = id' := by
  simp [getDownloadMusicFifoPath]

/-! ## The start command -/

def Request.isDownload : Request → Bool
  | .fetch .. => false
  | .download .. => true

theorem start_options {env : FetchEnv} {m : Sent} {r : Request} {o : CommandOptions}
    (hr : r.isDownload = true) (hcmd : m.cmd = r.childCmd env.url)
    (h : m.options = some o) : o.id = r.qid env.url ∧ o.command = cmdDlMusic := by
  have hparse := parse_of_options h
  cases r with
  | fetch query maxEntries isUrl => cases hr
  | download fname url filepath =>
    have hdebug (o : CommandOptions) : ∃ o', parseCommandToOptions
        (createArg keyDebug (bytes (if env.debug then "1" else "0"))) o = some o' ∧
          ∀ k : StringKey, k.get o' = k.get o := by
      have hplain : Plain keyDebug := plain_of_all rfl
      have hvalue : createArg keyDebug (bytes (if env.debug then "1" else "0")) =
          createArgSanitizeValue keyDebug (bytes (if env.debug then "1" else "0")) := by
        cases env.debug <;> decide
      refine ⟨{ o with debug := bytes (if env.debug then "1" else "0") = bytes "1" }, ?_,
        fun k => by cases k <;> rfl⟩
      rw [hvalue, parseCommandToOptions, scan_createArg hplain]
      rfl
    have hnul : (0 : UInt8) ∉ createArg keyDebug (bytes (if env.debug then "1" else "0")) := by
      cases env.debug <;> decide
    have hplain : createArg keyCommand cmdDlMusic =
        createArgSanitizeValue keyCommand cmdDlMusic := by decide
    have hargs : m.cmd = createArgSanitizeValue keyId (downloadId fname) ++
        (createArgSanitizeValue keyCommand cmdDlMusic ++
          (createArgs [(.filePath, filepath), (.ytdlpQuery, url), (.ytdlpUtilExe, env.ytdlpExe)] ++
            createArg keyDebug (bytes (if env.debug then "1" else "0")))) := by
      rw [hcmd, Request.childCmd, hplain]
      simp [createArgs, StringKey.name, List.append_assoc, Request.qid, downloadId, FetchEnv.url]
      rfl
    have hkeys : .id ∉ [(StringKey.filePath, filepath), (.ytdlpQuery, url),
          (.ytdlpUtilExe, env.ytdlpExe)].map Prod.fst ∧
        .command ∉ [(StringKey.filePath, filepath), (.ytdlpQuery, url),
          (.ytdlpUtilExe, env.ytdlpExe)].map Prod.fst := by
      simp
    obtain ⟨o', hparse', hid, hcommand⟩ := parse_first
      (zero_not_mem_qid env (.download fname url filepath))
      (by decide : (0 : UInt8) ∉ cmdDlMusic) hnul hdebug hkeys
    rw [hargs] at hparse
    obtain rfl : o' = o := Option.some.inj (hparse'.symm.trans hparse)
    exact ⟨hid, hcommand⟩

/-! ## The slots of the downloads -/

/-- The entry is the one that the start command of the request has made. -/
def FetchState.MadeFor (s : FetchState) (e : CommandOptions) (k : Nat) : Prop :=
  ∃ (i : Nat) (m : Sent) (o : CommandOptions), i < s.handled ∧ s.sent[i]? = some m ∧
    m.exit = false ∧ m.call = k ∧ m.options = some o ∧ ∃ pid, e = { o with pid }

/-- **The worker's entries are those of start commands it has handled**, one for each request. -/
structure SlotInv (env : FetchEnv) (rs : List Request) (s : FetchState) : Prop
    extends SentInv env rs s where
  entries : ∀ p ∈ s.worker.slaveList, ∃ k r, s.MadeFor p.2 k ∧ rs[k]? = some r ∧ p.1 = r.qid env

theorem mem_insertSlave {s : WorkerState} {o : CommandOptions} {p : Bytes × CommandOptions}
    (h : p ∈ (s.insertSlave o).slaveList) : p ∈ s.slaveList ∨ p = (o.id, o) := by
  rw [insertSlave] at h
  split at h
  · exact .inl h
  · rcases (List.mem_orderedInsert _).1 h with rfl | h
    · exact .inr rfl
    · exact .inl h

theorem mem_execute_slaveList {s : WorkerState} {env : LaunchEnv} {o : CommandOptions} {now : Int}
    {p : Bytes × CommandOptions} (h : p ∈ (execute now env o s).1.slaveList) :
    p ∈ s.slaveList ∨ p.1 = o.id ∧ o.command ≠ cmdShutdown ∧ ∃ pid, p.2 = { o with pid } := by
  rw [execute_executed.2.1] at h
  cases hi : insertsSlave s env o with
  | false =>
    have hsame : (executed s env now o).slaveList = s.slaveList := by
      unfold executed
      simp only [hi, Bool.false_eq_true, if_false]
      repeat' split
      all_goals rfl
    exact .inl (hsame ▸ h)
  | true =>
    have hinserted : (executed s env now o).slaveList =
        ((if forksChild s env o then s.fork env.fork else s).insertSlave
          (if launches env o then { o with pid := env.fork } else o)).slaveList := by
      unfold executed
      simp only [hi, if_true]
      split <;> rfl
    rw [hinserted] at h
    have hcommand : o.command ≠ cmdShutdown := by
      simp only [insertsSlave, Bool.and_eq_true, decide_eq_true_eq] at hi
      exact hi.1.2
    rcases mem_insertSlave h with h | rfl
    · refine .inl ?_
      split at h <;> exact h
    · refine .inr ⟨?_, hcommand, ?_⟩
      · split <;> rfl
      · split
        · exact ⟨_, rfl⟩
        · exact ⟨o.pid, rfl⟩

/-- Other than by a message the worker gets no entry. -/
theorem slaveList_of_not_message {s s' : WorkerState} {a : WorkerAction}
    (ha : isMessage a = false) (h : workerStep s a = some s') {p : Bytes × CommandOptions}
    (hp : p ∈ s'.slaveList) : p ∈ s.slaveList := by
  cases a with
  | message cmd now env => cases ha
  | reapStart =>
    simp only [workerStep] at h
    split at h <;> cases h
    exact hp
  | reap now =>
    cases reap_effect h with
    | kept slaves => exact slaves ▸ hp
    | dropped i o pc entry queue slaves => exact List.mem_of_mem_eraseP (slaves ▸ hp)
    | reaped i o e pc entry queue slaves => exact List.mem_of_mem_eraseP (slaves ▸ hp)
  | childExit pid status =>
    cases h
    exact hp
  | exit pick =>
    simp only [workerStep] at h
    split at h <;> cases h
    cases hp

section
variable {env : FetchEnv} {rs : List Request} {s s' : FetchState} {k : Nat}

/-- A step other than the worker's handling a command adds no entry. -/
theorem fetchStep_slaveList {a : FetchAction} (ha : ∀ now launch, a ≠ .work now launch)
    (h : fetchStep env s a = some s') {p : Bytes × CommandOptions}
    (hp : p ∈ s'.worker.slaveList) : p ∈ s.worker.slaveList := by
  cases fetchStep_effect h with
  | turnedAway r => exact hp
  | sent r => exact hp
  | handled now launch worker started => exact absurd rfl (ha now launch)
  | worker hmessage hstep => exact slaveList_of_not_message hmessage hstep hp
  | moved hcall pc failed hrequest hwork => exact hp
  | shutDown hcall pc hrequest hwork => exact hp

theorem FetchState.MadeFor.step {a : FetchAction} (h : fetchStep env s a = some s')
    {e : CommandOptions} (he : s.MadeFor e k) : s'.MadeFor e k := by
  obtain ⟨i, m, o, hlt, hm, hrest⟩ := he
  obtain ⟨hhandled, hsent⟩ := fetchStep_grows h
  exact ⟨i, m, o, Nat.lt_of_lt_of_le hlt hhandled, getElem?_of_prefix hsent hm, hrest⟩

/-- An entry made by the command handled is its own. -/
theorem entries_work (hi : SlotInv env.url rs s) (hrs : ∀ r ∈ rs, r.isDownload = true)
    {now : Int} {launch : LaunchEnv} (h : fetchStep env.url s (.work now launch) = some s')
    {p : Bytes × CommandOptions} (hp : p ∈ s'.worker.slaveList) :
    ∃ k r, s'.MadeFor p.2 k ∧ rs[k]? = some r ∧ p.1 = r.qid env.url := by
  have hold (hp : p ∈ s.worker.slaveList) :
      ∃ k r, s'.MadeFor p.2 k ∧ rs[k]? = some r ∧ p.1 = r.qid env.url := by
    obtain ⟨j, r, hmade, hr⟩ := hi.entries p hp
    exact ⟨j, r, hmade.step h, hr⟩
  have hgrows := fetchStep_grows h
  simp only [fetchStep] at h
  cases hm : s.sent[s.handled]? with
  | none =>
    rw [hm] at h
    cases h
  | some m =>
    obtain ⟨r, hr, hcmd⟩ := hi.sent m (List.mem_of_getElem? hm)
    simp only [hm] at h
    split at h
    · cases h
      exact hold hp
    · rename_i cmd hreceived
      obtain ⟨worker, hstep, rfl⟩ := Option.map_eq_some_iff.1 h
      obtain ⟨-, -, ⟨-, rfl⟩ | ⟨o, hparse, rfl⟩⟩ := workerStep_message hstep
      · exact hold hp
      · have hoptions : m.options = some o := by
          rw [Sent.options, hreceived, Option.bind_some, hparse]
        rcases mem_execute_slaveList hp with hp | ⟨hid, hcommand, hpid⟩
        · exact hold hp
        · cases hexit : m.exit with
          | true =>
            rw [hexit, if_pos rfl] at hcmd
            exact absurd (exit_options hcmd hoptions).2 hcommand
          | false =>
            rw [hexit, if_neg Bool.false_ne_true] at hcmd
            refine ⟨m.call, r, ?_, hr, ?_⟩
            · exact ⟨s.handled, m, o, Nat.lt_succ_self _, hm, hexit, rfl, hoptions, hpid⟩
            · rw [hid, (start_options (hrs r (List.mem_of_getElem? hr)) hcmd hoptions).1]

/-- **A step keeps the entries those of the start commands.** -/
theorem SlotInv.step {a : FetchAction} (hi : SlotInv env.url rs s)
    (hrs : ∀ r ∈ rs ++ a.request?.toList, r.isDownload = true)
    (h : fetchStep env.url s a = some s') : SlotInv env.url (rs ++ a.request?.toList) s' where
  toSentInv := hi.toSentInv.step h
  entries p hp := by
    by_cases ha : ∀ now launch, a ≠ .work now launch
    · obtain ⟨j, r, hmade, hr, hid⟩ := hi.entries p (fetchStep_slaveList ha h hp)
      refine ⟨j, r, hmade.step h, ?_, hid⟩
      exact getElem?_of_prefix (List.prefix_append rs _) hr
    · simp only [not_forall, not_not] at ha
      obtain ⟨now, launch, rfl⟩ := ha
      simp only [FetchAction.request?, Option.toList_none, List.append_nil] at hrs ⊢
      exact entries_work hi hrs h hp

theorem slotInv_run {l : List FetchAction} (hrs : ∀ r ∈ requests l, r.isDownload = true)
    (h : run (fetchStep env.url) {} l = some s) : SlotInv env.url (requests l) s := by
  refine run_history (I := fun l s => (∀ r ∈ requests l, r.isDownload = true) →
    SlotInv env.url (requests l) s) (fun l t a t' ih ht hrs => ?_) (fun _ => ?_) h hrs
  · rw [requests_append_singleton] at hrs ⊢
    exact (ih fun r hr => hrs r (List.mem_append_left _ hr)).step hrs ht
  · exact ⟨sentInv_nil _, fun p hp => by cases hp⟩

/-- **An entry under a request's id is its own**, where the ids differ. -/
theorem SlotInv.madeFor (hi : SlotInv env rs s) (hids : (rs.map (·.qid env)).Nodup)
    {r : Request} (hr : rs[k]? = some r) {p : Bytes × CommandOptions}
    (hp : p ∈ s.worker.slaveList) (hid : p.1 = r.qid env) : s.MadeFor p.2 k := by
  obtain ⟨j, r', hmade, hr', hid'⟩ := hi.entries p hp
  have hcall : j = k := by
    refine (List.getElem?_inj ?_ hids).1 ?_
    · rw [List.length_map]
      exact (List.getElem?_eq_some_iff.1 hr').1
    · rw [List.getElem?_map, List.getElem?_map, hr', hr, Option.map_some, Option.map_some, ← hid',
        hid]
  exact hcall ▸ hmade

theorem mem_of_getSlave {w : WorkerState} {id : Bytes} {e : CommandOptions}
    (h : w.getSlave id = some e) : (id, e) ∈ w.slaveList := by
  obtain ⟨p, hp, rfl⟩ := Option.map_eq_some_iff.1 h
  have hid : p.1 = id := by simpa using List.find?_some hp
  exact hid ▸ List.mem_of_find?_eq_some hp

/-- **No start command is refused.** -/
theorem SlotInv.accepts (hi : SlotInv env.url rs s) (hrs : ∀ r ∈ rs, r.isDownload = true)
    (hids : (rs.map (·.qid env.url)).Nodup) {m : Sent} (hm : s.sent[s.handled]? = some m)
    (hexit : m.exit = false) {o : CommandOptions} (ho : m.options = some o) :
    s.worker.sameSlave o = false := by
  obtain ⟨r, hr, hcmd⟩ := hi.sent m (List.mem_of_getElem? hm)
  rw [hexit, if_neg Bool.false_ne_true] at hcmd
  have hid := (start_options (hrs r (List.mem_of_getElem? hr)) hcmd ho).1
  cases he : s.worker.getSlave o.id with
  | none => rw [sameSlave, he, Option.any_none]
  | some e =>
    obtain ⟨i, m', o', hlt, hm', hexit', hcall, -⟩ :=
      hi.madeFor hids hr (mem_of_getSlave he) hid
    have hindex := hi.once i s.handled m' m hm' hm hexit' hexit hcall
    omega

/-- **A shutdown command is for the child of its own request.** -/
theorem SlotInv.shutsOwn (hi : SlotInv env.url rs s)
    (hids : (rs.map (·.qid env.url)).Nodup) {m : Sent} (hm : m ∈ s.sent) (hexit : m.exit = true)
    {o e : CommandOptions} (ho : m.options = some o) (he : s.worker.getSlave o.id = some e) :
    s.MadeFor e m.call := by
  obtain ⟨r, hr, hcmd⟩ := hi.sent m hm
  rw [hexit, if_pos rfl] at hcmd
  have hid := (exit_options hcmd ho).1
  exact hi.madeFor hids hr (mem_of_getSlave he) hid

end

/-! ## Two downloads -/

/-- The downloads of two files do not meet: in every run with one of each, no start command is
refused and a shutdown command is for the child of its own download; the ids and the fifos
differ. -/
structure Apart (env : FetchEnv) (localDir f g : Bytes) : Prop where
  ids : downloadId f ≠ downloadId g
  fifos : getDownloadMusicFifoPath localDir (downloadId f) ≠
    getDownloadMusicFifoPath localDir (downloadId g)
  accepted : ∀ (url filepath url' filepath' : Bytes) (l : List FetchAction) (s : FetchState),
    requests l = [.download f url filepath, .download g url' filepath'] →
    run (fetchStep env.url) {} l = some s → ∀ (m : Sent) (o : CommandOptions),
      s.sent[s.handled]? = some m → m.exit = false → m.options = some o →
        s.worker.sameSlave o = false
  exits : ∀ (url filepath url' filepath' : Bytes) (l : List FetchAction) (s : FetchState),
    requests l = [.download f url filepath, .download g url' filepath'] →
    run (fetchStep env.url) {} l = some s → ∀ (m : Sent) (o e : CommandOptions),
      m ∈ s.sent → m.exit = true → m.options = some o → s.worker.getSlave o.id = some e →
        s.MadeFor e m.call

/-- **Two downloads do not meet exactly when the first 24 bytes of their file names differ.** -/
theorem apart_iff (env : FetchEnv) (localDir f g : Bytes) :
    Apart env localDir f g ↔ f.take 24 ≠ g.take 24 := by
  refine ⟨fun h => mt downloadId_iff.2 h.ids, fun h => ?_⟩
  have hid : downloadId f ≠ downloadId g := mt downloadId_iff.1 h
  have hdownloads {url filepath url' filepath' : Bytes} {l : List FetchAction}
      (hl : requests l = [.download f url filepath, .download g url' filepath']) :
      (∀ r ∈ requests l, r.isDownload = true) ∧
        ((requests l).map (·.qid env.url)).Nodup := by
    rw [hl]
    refine ⟨by simp [Request.isDownload], ?_⟩
    have hqid : ([Request.download f url filepath, .download g url' filepath'].map
        (·.qid env.url)) = [downloadId f, downloadId g] := rfl
    simp [hqid, hid]
  exact {
    ids := hid
    fifos := mt getDownloadMusicFifoPath_inj.1 hid
    accepted url filepath url' filepath' l s hl hrun m o hm hexit ho := by
      obtain ⟨hrs, hids⟩ := hdownloads hl
      exact (slotInv_run hrs hrun).accepts hrs hids hm hexit ho
    exits url filepath url' filepath' l s hl hrun m o e hm hexit ho he := by
      obtain ⟨hrs, hids⟩ := hdownloads hl
      exact (slotInv_run hrs hrun).shutsOwn hids hm hexit ho he }

/-- Two tracks whose titles begin alike. -/
def fifth : Bytes :=
  getFilenameFromResult (bytes "Beethoven - Symphony No. 5") (bytes "fOk8Tm815lE")

def ninth : Bytes :=
  getFilenameFromResult (bytes "Beethoven - Symphony No. 9") (bytes "t3217H8JppI")

/-- Both are downloaded at once, and the worker refuses the second. -/
def bothStarted : List FetchAction :=
  [.call (.download fifth (bytes "u5") (bytes "f5")),
    .call (.download ninth (bytes "u9") (bytes "f9")), .work 0 { fork := 11 }]

set_option maxRecDepth 4096 in
theorem symphonies_meet : ¬ ∀ (env : FetchEnv) (localDir f g : Bytes), f ≠ g →
    Apart env localDir f g := by
  intro h
  have hapart := h { encode := base64Encode } [] fifth ninth (by decide)
  have haccepted := hapart.accepted _ _ _ _ bothStarted _ rfl rfl _ _ rfl rfl rfl
  revert haccepted
  decide

end Musicat.Child
