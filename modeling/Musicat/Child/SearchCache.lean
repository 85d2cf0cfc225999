import Musicat.Child.DownloadIds

/-!
# The result files of searches

The child of a search has `yt-dlp` write to a file that is named by the id of
the search; where the file is there already, the child answers with it as it is.
The id is cut out of the query, so that the file may hold what `yt-dlp` printed
for another one. No search returns the result of another as long as searches
with one id are for one run of `yt-dlp` (`search_own`).
-/

namespace Musicat.Child

open Lib

/-! ## The searches -/

/-- What `yt-dlp` is run on; the rest of its arguments are settings. -/
structure YtdlpRun where
  query : Bytes
  maxEntries : Option Int
  deriving DecidableEq, Repr

/-- The run that a request is for, when it is a search. -/
def Request.search? : Request → Option YtdlpRun
  | .fetch query maxEntries isUrl =>
    some ⟨(Request.fetch query maxEntries isUrl).query,
      if 1 ≤ maxEntries then some maxEntries else none⟩
  | .download .. => none

/-- `args` of `ytdlp::run`. -/
def CommandOptions.run (o : CommandOptions) : YtdlpRun :=
  ⟨o.ytdlpQuery, if 0 < o.ytdlpMaxEntries then some o.ytdlpMaxEntries else none⟩

/-- `get_ytdout_fifo_path`. -/
def getYtdoutFifoPath (localDir id : Bytes) : Bytes := localDir ++ id ++ bytes ".ytdout"

/-- `get_ytdout_json_out_filename`. -/
def getYtdoutJsonOutFilename (localDir id : Bytes) : Bytes :=
  localDir ++ id ++ bytes ".ytdres.json"

/-- `resopt` of `ytdlp::run`; `jsonout` is whether there is a file. -/
def resopt (localDir id : Bytes) (jsonout : Bool) : Bytes :=
  createArgSanitizeValue keyId id ++ createArg keyCommand cmdCallYtdlp ++
    createArg keyFilePath
      (if jsonout then sanitizeCommandValue (getYtdoutJsonOutFilename localDir id) else [])

/-! ## The children and the files -/

/-- Where the child of a search is. -/
inductive YtdlpPc where
  /-- About to open the fifo and to look for the file. -/
  | checking
  /-- In the run of `yt-dlp`. -/
  | running
  | answering (jsonout : Bool)
  | done
  deriving DecidableEq, Repr

structure YtdlpChild where
  options : CommandOptions
  pc : YtdlpPc := .checking
  deriving DecidableEq, Repr

structure SearchState where
  fetch : FetchState := {}
  children : List YtdlpChild := []
  /-- The run whose output is in a file. -/
  files : Bytes → Option YtdlpRun
  /-- The records written, each with the path of its fifo. -/
  records : List (Bytes × Bytes) := []
  /-- `cmd_buf` of each request, as a C string. -/
  cmdBuf : Nat → Bytes := fun _ => []
  /-- The results returned: the request, and the run whose output it is. -/
  results : List (Nat × YtdlpRun) := []

inductive SearchAction where
  /-- A step of `do_fetch`, but for its last two, of `do_download` or of the worker. -/
  | fetch (a : FetchAction)
  /-- The child opens its fifo and looks for the file. -/
  | check (i : Nat)
  /-- The child has `yt-dlp` write to the file, or cannot open it. -/
  | write (i : Nat) (opened : Bool)
  /-- The child writes `resopt` to its fifo. -/
  | answer (i : Nat)
  /-- The child ends, after a failure or because it is killed. -/
  | exit (i : Nat)
  /-- A search reads its fifo: the record at index `pick`, when there is something to read. -/
  | read (k : Nat) (size : Int) (pick : Nat)
  /-- A search reads the file, in which there is a JSON text or not. -/
  | load (k : Nat) (json : Bool)
  deriving DecidableEq, Repr

def SearchAction.request? : SearchAction → Option Request
  | .fetch a => a.request?
  | _ => none

/-- The requests of a run, in their order. -/
def searchRequests (l : List SearchAction) : List Request := l.filterMap SearchAction.request?

/-- The command handled has forked the child of a search. -/
def FetchState.spawns (s : FetchState) : FetchAction → Option CommandOptions
  | .work _ launch => (s.sent[s.handled]?).bind fun m =>
    m.options.filter fun o => forksChild s.worker launch o && o.command = cmdCallYtdlp
  | _ => none

namespace SearchState

section
variable (env : FetchEnv)

/-- The id of a search. -/
def searchId (s : SearchState) (k : Nat) : Option Bytes :=
  (s.fetch.calls k).bind fun c => c.request.search?.map fun _ => c.request.qid env

/-- The action is one of the last two of a search. -/
def ends (s : SearchState) : FetchAction → Bool
  | .read k _ | .load k _ => (s.searchId env k).isSome
  | _ => false

end

/-- A step of a child that is at `pc`. -/
def resume (s : SearchState) (i : Nat) (pc : YtdlpPc) (f : YtdlpChild → SearchState) :
    Option SearchState :=
  match s.children[i]? with
  | some c => if c.pc = pc then some (f c) else none
  | none => none

def setChild (s : SearchState) (i : Nat) (c : YtdlpChild) (pc : YtdlpPc) : SearchState :=
  { s with children := s.children.set i { c with pc } }

/-- What a search with the id `id` finds in its fifo. -/
def buffer (s : SearchState) (localDir id : Bytes) (size : Int) (pick : Nat) : Option Bytes :=
  if size ≤ 0 then some []
  else
    match s.records[pick]? with
    | some (path, record) =>
      if path = getYtdoutFifoPath localDir id then some (cString record) else none
    | none => none

/-- What `do_fetch` does with the file that is named in `cmd_buf`. -/
def load (s : SearchState) (k : Nat) (json : Bool) : SearchState :=
  match parseCommandToOptions (s.cmdBuf k) createCommandOptions with
  | none => s
  | some opt =>
    if opt.filePath.isEmpty then s
    else
      match s.files opt.filePath with
      | none => s
      | some a =>
        if json then { s with results := s.results ++ [(k, a)] }
        else { s with files := Function.update s.files opt.filePath none }

end SearchState

section
variable (env : FetchEnv) (localDir : Bytes)

def searchStep (s : SearchState) : SearchAction → Option SearchState
  | .fetch a =>
    if s.ends env a then none
    else (fetchStep env s.fetch a).map fun fetch =>
      { s with fetch, children := s.children ++ (s.fetch.spawns a).toList.map ({ options := · }) }
  | .check i =>
    s.resume i .checking fun c =>
      if (s.files (getYtdoutJsonOutFilename localDir c.options.id)).isSome then
        s.setChild i c (.answering true)
      else s.setChild i c .running
  | .write i opened =>
    s.resume i .running fun c =>
      { s.setChild i c (.answering opened) with
        files :=
          if opened then
            Function.update s.files (getYtdoutJsonOutFilename localDir c.options.id)
              (some c.options.run)
          else s.files }
  | .answer i =>
    match s.children[i]? with
    | some ⟨o, .answering jsonout⟩ =>
      some { s.setChild i ⟨o, .answering jsonout⟩ .done with
        records := s.records ++ (writeCommand (resopt localDir o.id jsonout) 0).toList.map
          (getYtdoutFifoPath localDir o.id, ·) }
    | _ => none
  | .exit i => (s.children[i]?).map fun c => s.setChild i c .done
  | .read k size pick =>
    (s.searchId env k).bind fun id => (fetchStep env s.fetch (.read k size)).bind fun fetch =>
      (s.buffer localDir id size pick).map fun text =>
        { s with fetch, cmdBuf := Function.update s.cmdBuf k text }
  | .load k json =>
    (s.searchId env k).bind fun _ => (fetchStep env s.fetch (.load k json)).map fun fetch =>
      { s with fetch }.load k json

/-- The file is the one that a search of `rs` has made. -/
def FileOf (rs : List Request) (path : Bytes) (a : YtdlpRun) : Prop :=
  ∃ r ∈ rs, r.search? = some a ∧ path = getYtdoutJsonOutFilename localDir (r.qid env)

/-- **The texts of searches have no NUL** in them. -/
structure NulFree (rs : List Request) : Prop where
  exe : (0 : UInt8) ∉ env.ytdlpUtilExe
  lib : (0 : UInt8) ∉ env.ytdlpLibPath
  dir : (0 : UInt8) ∉ localDir
  query : ∀ r ∈ rs, ∀ a ∈ r.search?, (0 : UInt8) ∉ a.query

/-- Searches with one id are for one run. -/
def IdsTell (rs : List Request) : Prop :=
  ∀ r ∈ rs, ∀ r' ∈ rs, ∀ a ∈ r.search?, ∀ a' ∈ r'.search?, r.qid env = r'.qid env → a = a'

end

/-! ## The commands of a search -/

theorem zero_not_mem_createArgs_append {args : List (StringKey × Bytes)} {tail : Bytes}
    (hargs : ∀ a ∈ args, (0 : UInt8) ∉ a.2) (htail : (0 : UInt8) ∉ tail) :
    (0 : UInt8) ∉ createArgs args ++ tail := fun h => by
  rcases List.mem_append.1 h with h | h
  · exact zero_not_mem_createArgs hargs h
  · exact htail h

/-- The limit of a search, as its command has it. -/
def maxEntriesArg (maxEntries : Int) : Bytes :=
  if 1 ≤ maxEntries then createArg keyYtdlpMaxEntries (bytes (toString maxEntries)) else []

theorem maxEntriesArg_eq {n : Nat} (hn : 1 ≤ n) :
    maxEntriesArg n = createArgSanitizeValue keyYtdlpMaxEntries (bytes (toString (n : Int))) := by
  have hplain : ∀ c ∈ bytes (toString (n : Int)), shouldSanitize c = false := by
    intro c hc
    have hdigit := isDigit_of_mem_bytes hc
    simp only [shouldSanitize, Bool.or_eq_false_iff, beq_eq_false_iff_ne]
    refine ⟨⟨?_, ?_⟩, ?_⟩ <;>
      · rintro rfl
        cases hdigit
  rw [maxEntriesArg, if_pos (by omega), createArgSanitizeValue, sanitizeCommandValue,
    escape_of_not_special hplain]

theorem zero_not_mem_maxEntriesArg (maxEntries : Int) : (0 : UInt8) ∉ maxEntriesArg maxEntries := by
  unfold maxEntriesArg
  split
  · rename_i hpos
    obtain ⟨n, rfl⟩ := Int.eq_ofNat_of_zero_le (show 0 ≤ maxEntries by omega)
    intro h
    simp only [createArg, List.mem_append, List.mem_singleton] at h
    rcases h with ((h | h) | h) | h
    · revert h
      decide
    · cases h
    · cases isDigit_of_mem_bytes h
    · cases h
  · exact List.not_mem_nil

/-- The limit is read as it was written. -/
theorem parse_maxEntriesArg {maxEntries : Int} {o o' : CommandOptions}
    (ho : o.ytdlpMaxEntries = -1)
    (h : parseCommandToOptions (maxEntriesArg maxEntries) o = some o') :
    (∀ k : StringKey, k.get o' = k.get o) ∧
      (if 0 < o'.ytdlpMaxEntries then some o'.ytdlpMaxEntries else none) =
        if 1 ≤ maxEntries then some maxEntries else none := by
  by_cases hpos : 1 ≤ maxEntries
  · obtain ⟨n, rfl⟩ := Int.eq_ofNat_of_zero_le (show 0 ≤ maxEntries by omega)
    have hplain : Plain keyYtdlpMaxEntries := plain_of_all rfl
    have hassign : assignCommandOptionKeyValue o keyYtdlpMaxEntries (bytes (toString (n : Int))) =
        (stoi (bytes (toString (n : Int)))).map fun i => { o with ytdlpMaxEntries := i } := rfl
    rw [maxEntriesArg_eq (by omega), parseCommandToOptions,
      scan_createArg hplain, hassign] at h
    cases hi : stoi (bytes (toString (n : Int))) with
    | none =>
      rw [hi] at h
      cases h
    | some i =>
      obtain rfl := stoi_toString hi
      rw [hi] at h
      obtain rfl : { o with ytdlpMaxEntries := (n : Int) } = o' := Option.some.inj h
      refine ⟨fun k => by cases k <;> rfl, ?_⟩
      rw [if_pos hpos]
      exact if_pos (show 0 < (n : Int) by omega)
  · rw [maxEntriesArg, if_neg hpos] at h
    obtain rfl : o = o' := Option.some.inj h
    refine ⟨fun k => rfl, ?_⟩
    rw [if_neg hpos, if_neg (by omega)]

/-- **The worker reads of the command of a search its id and its run.** -/
theorem search_options {env : FetchEnv} {m : Sent} {r : Request} {o : CommandOptions}
    {a : YtdlpRun} (hexe : (0 : UInt8) ∉ env.ytdlpUtilExe) (hlib : (0 : UInt8) ∉ env.ytdlpLibPath)
    (hquery : (0 : UInt8) ∉ a.query) (hr : r.search? = some a) (hcmd : m.cmd = r.childCmd env.url)
    (h : m.options = some o) : o.id = r.qid env.url ∧ o.run = a := by
  cases r with
  | download fname url filepath => cases hr
  | fetch query maxEntries isUrl =>
    obtain rfl := Option.some.inj hr
    let r := Request.fetch query maxEntries isUrl
    have hargs : m.cmd = createArgs [(.command, cmdCallYtdlp), (.id, r.qid env.url),
        (.ytdlpUtilExe, env.ytdlpUtilExe), (.ytdlpLibPath, env.ytdlpLibPath),
        (.ytdlpQuery, r.query)] ++ maxEntriesArg maxEntries := by
      have hplain : createArg keyCommand cmdCallYtdlp =
          createArgSanitizeValue keyCommand cmdCallYtdlp := by decide
      rw [hcmd, Request.childCmd, hplain]
      simp [createArgs, StringKey.name, r, maxEntriesArg, FetchEnv.url]
    have hnul : ∀ x ∈ [(StringKey.command, cmdCallYtdlp), (.id, r.qid env.url),
        (.ytdlpUtilExe, env.ytdlpUtilExe), (.ytdlpLibPath, env.ytdlpLibPath),
        (.ytdlpQuery, r.query)], (0 : UInt8) ∉ x.2 := by
      simp only [List.forall_mem_cons, List.not_mem_nil, false_implies, implies_true, and_true]
      exact ⟨by decide, zero_not_mem_qid env r, hexe, hlib, hquery⟩
    have hparse := parse_of_options h
    rw [hargs, cString_of_not_mem (zero_not_mem_createArgs_append hnul
      (zero_not_mem_maxEntriesArg maxEntries)), parse_createArgs_append] at hparse
    obtain ⟨hkeys, hlimit⟩ := parse_maxEntriesArg rfl hparse
    refine ⟨hkeys .id, ?_⟩
    rw [CommandOptions.run, hlimit, show o.ytdlpQuery = r.query from hkeys .ytdlpQuery]

/-- **A record names the file of its id**, or none. -/
theorem parse_resopt {localDir id : Bytes} (hdir : (0 : UInt8) ∉ localDir)
    (hid : (0 : UInt8) ∉ id) (jsonout : Bool) :
    ∃ o, parseCommandToOptions (cString (pad (resopt localDir id jsonout)))
        createCommandOptions = some o ∧
      o.filePath = if jsonout then getYtdoutJsonOutFilename localDir id else [] := by
  let path := if jsonout then getYtdoutJsonOutFilename localDir id else []
  have hpath : (0 : UInt8) ∉ path := by
    have hfile : (0 : UInt8) ∉ getYtdoutJsonOutFilename localDir id := by
      have hsuffix : (0 : UInt8) ∉ bytes ".ytdres.json" := by decide
      simp [getYtdoutJsonOutFilename, hdir, hid, hsuffix]
    cases jsonout
    · exact List.not_mem_nil
    · exact hfile
  have hargs : resopt localDir id jsonout =
      createArgs [(.id, id), (.command, cmdCallYtdlp), (.filePath, path)] := by
    have hplain : createArg keyCommand cmdCallYtdlp =
        createArgSanitizeValue keyCommand cmdCallYtdlp := by decide
    rw [resopt, hplain]
    cases jsonout <;>
      simp [createArgs, StringKey.name, path, createArgSanitizeValue, sanitizeCommandValue, escape]
  have hnul : ∀ x ∈ [(StringKey.id, id), (.command, cmdCallYtdlp), (.filePath, path)],
      (0 : UInt8) ∉ x.2 := by
    simp only [List.forall_mem_cons, List.not_mem_nil, false_implies, implies_true, and_true]
    exact ⟨hid, by decide, hpath⟩
  refine ⟨assignArgs [(.id, id), (.command, cmdCallYtdlp), (.filePath, path)]
    createCommandOptions, ?_, rfl⟩
  rw [hargs, cString_pad (zero_not_mem_createArgs hnul), parse_createArgs]

/-! ## Every run -/

/-- **Each file holds the output for a search of its id**, and each result is that of a search
with the id of its own. -/
structure SearchInv (env : FetchEnv) (localDir : Bytes) (earlier rs : List Request)
    (s : SearchState) : Prop where
  sent : SentInv env rs s.fetch
  files : ∀ path a, s.files path = some a → FileOf env localDir (earlier ++ rs) path a
  children : ∀ c ∈ s.children, ∃ r ∈ rs, r.search? = some c.options.run ∧
    c.options.id = r.qid env
  records : ∀ p ∈ s.records, ∃ id jsonout, (0 : UInt8) ∉ id ∧
    p.1 = getYtdoutFifoPath localDir id ∧ p.2 = pad (resopt localDir id jsonout)
  cmdBuf : ∀ k, s.cmdBuf k = [] ∨ ∃ r jsonout, rs[k]? = some r ∧
    s.cmdBuf k = cString (pad (resopt localDir (r.qid env) jsonout))
  results : ∀ p ∈ s.results, ∃ r a, rs[p.1]? = some r ∧ r.search? = some a ∧
    ∃ r' ∈ earlier ++ rs, r'.search? = some p.2 ∧ r.qid env = r'.qid env

section
variable {env : FetchEnv} {localDir : Bytes} {earlier rs : List Request} {s s' : SearchState}

theorem FileOf.mono {rs' : List Request} (hsub : rs ⊆ rs') {path : Bytes} {a : YtdlpRun}
    (h : FileOf env localDir rs path a) : FileOf env localDir rs' path a := by
  obtain ⟨r, hr, hrest⟩ := h
  exact ⟨r, hsub hr, hrest⟩

theorem NulFree.mono {rs' : List Request} (hsub : rs ⊆ rs') (h : NulFree env localDir rs') :
    NulFree env localDir rs where
  exe := h.exe
  lib := h.lib
  dir := h.dir
  query r hr := h.query r (hsub hr)

theorem getYtdoutFifoPath_inj {id id' : Bytes} :
    getYtdoutFifoPath localDir id = getYtdoutFifoPath localDir id' ↔ id = id' := by
  simp [getYtdoutFifoPath]

theorem searchId_eq_some {k : Nat} {id : Bytes} (h : s.searchId env k = some id) :
    ∃ c a, s.fetch.calls k = some c ∧ c.request.search? = some a ∧ id = c.request.qid env := by
  obtain ⟨c, hc, hid⟩ := Option.bind_eq_some_iff.1 h
  obtain ⟨a, ha, rfl⟩ := Option.map_eq_some_iff.1 hid
  exact ⟨c, a, hc, ha, rfl⟩

theorem SearchState.resume_eq_some {i : Nat} {pc : YtdlpPc} {f : YtdlpChild → SearchState}
    (h : s.resume i pc f = some s') : ∃ c, s.children[i]? = some c ∧ f c = s' := by
  unfold SearchState.resume at h
  split at h
  · rename_i c hc
    split at h
    · exact ⟨c, hc, Option.some.inj h⟩
    · cases h
  · cases h

/-- **A child is that of a search**, with its id and its run. -/
theorem spawns_search (hnul : NulFree env localDir rs) {fetch : FetchState}
    (hi : SentInv env.url rs fetch) {a : FetchAction} {o : CommandOptions}
    (h : fetch.spawns a = some o) : ∃ r ∈ rs, r.search? = some o.run ∧ o.id = r.qid env.url := by
  cases a with
  | work now launch =>
    obtain ⟨m, hm, ho⟩ := Option.bind_eq_some_iff.1 h
    obtain ⟨hoptions, hforks⟩ := Option.filter_eq_some_iff.1 ho
    have hcommand : o.command = cmdCallYtdlp := by
      simp only [Bool.and_eq_true, decide_eq_true_eq] at hforks
      exact hforks.2
    obtain ⟨r, hr, hcmd⟩ := hi.sent m (List.mem_of_getElem? hm)
    have hmem := List.mem_of_getElem? hr
    cases hexit : m.exit with
    | true =>
      rw [hexit, if_pos rfl] at hcmd
      have hshut := (exit_options hcmd hoptions).2
      rw [hcommand] at hshut
      exact absurd hshut (by decide)
    | false =>
      rw [hexit, if_neg Bool.false_ne_true] at hcmd
      cases ha : r.search? with
      | none =>
        have hdownload : r.isDownload = true := by
          cases r with
          | fetch query maxEntries isUrl => cases ha
          | download fname url filepath => rfl
        have hmusic := (start_options hdownload hcmd hoptions).2
        rw [hcommand] at hmusic
        exact absurd hmusic (by decide)
      | some b =>
        obtain ⟨hid, rfl⟩ :=
          search_options hnul.exe hnul.lib (hnul.query r hmem b ha) ha hcmd hoptions
        exact ⟨r, hmem, ha, hid⟩
  | call r => cases h
  | worker a => cases h
  | wait k status => cases h
  | openFifo k fd => cases h
  | read k size => cases h
  | load k ok => cases h

/-- A child moves on. -/
theorem SearchInv.setChild (hi : SearchInv env localDir earlier rs s) {i : Nat} {c : YtdlpChild}
    (hc : s.children[i]? = some c) (pc : YtdlpPc) :
    SearchInv env localDir earlier rs (s.setChild i c pc) := by
  refine { hi with children := fun d hd => ?_ }
  rcases List.mem_or_eq_of_mem_set hd with hd | rfl
  · exact hi.children d hd
  · exact hi.children c (List.mem_of_getElem? hc)

/-- A step of the requests or of the worker, with the child that it forks. -/
theorem SearchInv.fetch (hi : SearchInv env.url localDir earlier rs s)
    (hnul : NulFree env localDir rs) {a : FetchAction} {fetch : FetchState}
    (h : fetchStep env.url s.fetch a = some fetch) :
    SearchInv env.url localDir earlier (rs ++ a.request?.toList)
      { s with fetch, children :=
        s.children ++ (s.fetch.spawns a).toList.map ({ options := · }) } where
  sent := hi.sent.step h
  files path b hb := (hi.files path b hb).mono fun r hr => by
    rw [← List.append_assoc]
    exact List.mem_append_left _ hr
  children c hc := by
    have hspawned : ∃ r ∈ rs, r.search? = some c.options.run ∧ c.options.id = r.qid env.url := by
      rcases List.mem_append.1 hc with hc | hc
      · exact hi.children c hc
      · obtain ⟨o, ho, rfl⟩ := List.mem_map.1 hc
        exact spawns_search hnul hi.sent (Option.mem_toList.1 ho)
    obtain ⟨r, hr, hrest⟩ := hspawned
    exact ⟨r, List.mem_append_left _ hr, hrest⟩
  records := hi.records
  cmdBuf k := by
    refine (hi.cmdBuf k).imp_right fun ⟨r, jsonout, hr, htext⟩ => ?_
    exact ⟨r, jsonout, getElem?_of_prefix (List.prefix_append rs _) hr, htext⟩
  results p hp := by
    obtain ⟨r, b, hr, hb, r', hr', hrest⟩ := hi.results p hp
    refine ⟨r, b, getElem?_of_prefix (List.prefix_append rs _) hr, hb, r', ?_, hrest⟩
    rw [← List.append_assoc]
    exact List.mem_append_left _ hr'

/-- The child writes its file. -/
theorem SearchInv.write (hi : SearchInv env localDir earlier rs s) {i : Nat} {c : YtdlpChild}
    (hc : s.children[i]? = some c) :
    SearchInv env localDir earlier rs { s with
      files := Function.update s.files (getYtdoutJsonOutFilename localDir c.options.id)
        (some c.options.run) } := by
  refine { hi with files := fun path b hb => ?_ }
  by_cases hpath : path = getYtdoutJsonOutFilename localDir c.options.id
  · subst hpath
    simp only [Function.update_self, Option.some.injEq] at hb
    obtain ⟨r, hr, hrun, hid⟩ := hi.children c (List.mem_of_getElem? hc)
    exact ⟨r, List.mem_append_right _ hr, hb ▸ hrun, by rw [hid]⟩
  · simp only [Function.update_of_ne hpath] at hb
    exact hi.files path b hb

/-- A search reads the file that is named after its own id. -/
theorem SearchInv.load (hi : SearchInv env localDir earlier rs s)
    (hdir : (0 : UInt8) ∉ localDir) (hids : ∀ r ∈ rs, (0 : UInt8) ∉ r.qid env) {k : Nat}
    {r : Request} {a : YtdlpRun} (hr : rs[k]? = some r) (ha : r.search? = some a) (json : Bool) :
    SearchInv env localDir earlier rs (s.load k json) := by
  unfold SearchState.load
  split
  · exact hi
  · rename_i opt hparse
    split
    · exact hi
    · rename_i hpath
      split
      · exact hi
      · rename_i b hb
        split
        · refine { hi with results := fun p hp => ?_ }
          rcases List.mem_append.1 hp with hp | hp
          · exact hi.results p hp
          · obtain rfl := List.mem_singleton.1 hp
            refine ⟨r, a, hr, ha, ?_⟩
            rcases hi.cmdBuf k with htext | ⟨r', jsonout, hr', htext⟩
            · rw [htext] at hparse
              cases hparse
              exact absurd rfl hpath
            · obtain rfl : r = r' := Option.some.inj (hr.symm.trans hr')
              obtain ⟨opt', hparse', hfile⟩ :=
                parse_resopt hdir (hids r (List.mem_of_getElem? hr)) jsonout
              rw [htext] at hparse
              obtain rfl : opt' = opt := Option.some.inj (hparse'.symm.trans hparse)
              obtain ⟨r', hmem, hsearch, hname⟩ := hi.files _ b hb
              refine ⟨r', hmem, hsearch, ?_⟩
              cases jsonout
              · exact absurd (by rw [hfile]; rfl) hpath
              · rw [hfile, if_pos rfl] at hname
                simpa [getYtdoutJsonOutFilename] using hname
        · refine { hi with files := fun path c hc => ?_ }
          by_cases hp : path = opt.filePath
          · subst hp
            simp at hc
          · simp only [Function.update_of_ne hp] at hc
            exact hi.files path c hc

theorem SearchInv.step (hi : SearchInv env.url localDir earlier rs s)
    (hnul : NulFree env localDir rs) {a : SearchAction}
    (h : searchStep env.url localDir s a = some s') :
    SearchInv env.url localDir earlier (rs ++ a.request?.toList) s' := by
  cases a with
  | fetch a =>
    simp only [searchStep] at h
    split at h
    · cases h
    · obtain ⟨fetch, hfetch, rfl⟩ := Option.map_eq_some_iff.1 h
      exact hi.fetch hnul hfetch
  | check i =>
    simp only [SearchAction.request?, Option.toList_none, List.append_nil]
    obtain ⟨c, hc, rfl⟩ := SearchState.resume_eq_some h
    split <;> exact hi.setChild hc _
  | write i opened =>
    simp only [SearchAction.request?, Option.toList_none, List.append_nil]
    obtain ⟨c, hc, rfl⟩ := SearchState.resume_eq_some h
    cases opened
    · exact hi.setChild hc _
    · have hwritten := (hi.write hc).setChild hc (.answering true)
      exact hwritten
  | answer i =>
    simp only [SearchAction.request?, Option.toList_none, List.append_nil]
    simp only [searchStep] at h
    split at h
    · rename_i o jsonout hc
      cases h
      refine { hi.setChild hc .done with records := fun p hp => ?_ }
      rcases List.mem_append.1 hp with hp | hp
      · exact hi.records p hp
      · obtain ⟨record, hrecord, rfl⟩ := List.mem_map.1 hp
        obtain ⟨r, -, -, hid⟩ := hi.children _ (List.mem_of_getElem? hc)
        refine ⟨o.id, jsonout, ?_, rfl, ?_⟩
        · exact hid ▸ zero_not_mem_qid env r
        · rw [writeCommand, if_neg (by omega)] at hrecord
          split at hrecord
          · cases hrecord
          · exact (List.mem_singleton.1 hrecord)
    · cases h
  | exit i =>
    simp only [SearchAction.request?, Option.toList_none, List.append_nil]
    obtain ⟨c, hc, rfl⟩ := Option.map_eq_some_iff.1 h
    exact hi.setChild hc _
  | read k size pick =>
    obtain ⟨id, hid, h⟩ := Option.bind_eq_some_iff.1 h
    obtain ⟨fetch, hfetch, h⟩ := Option.bind_eq_some_iff.1 h
    obtain ⟨text, htext, rfl⟩ := Option.map_eq_some_iff.1 h
    obtain ⟨c, a, hc, -, rfl⟩ := searchId_eq_some hid
    have hr := hi.sent.calls k c hc
    simp only [SearchAction.request?, Option.toList_none, List.append_nil]
    refine { hi with
      sent := by simpa [FetchAction.request?] using hi.sent.step hfetch
      cmdBuf := fun j => ?_ }
    by_cases hj : j = k
    · subst hj
      simp only [Function.update_self]
      unfold SearchState.buffer at htext
      split at htext
      · exact .inl (Option.some.inj htext).symm
      · split at htext
        · rename_i path record hrecord
          split at htext
          · rename_i hpath
            obtain ⟨id, jsonout, -, hfifo, hpad⟩ := hi.records _ (List.mem_of_getElem? hrecord)
            obtain rfl := getYtdoutFifoPath_inj.1 (hfifo.symm.trans hpath)
            refine .inr ⟨c.request, jsonout, hr, ?_⟩
            rw [← hpad, ← Option.some.inj htext]
          · cases htext
        · cases htext
    · simp only [Function.update_of_ne hj]
      exact hi.cmdBuf j
  | load k json =>
    obtain ⟨id, hid, h⟩ := Option.bind_eq_some_iff.1 h
    obtain ⟨fetch, hfetch, rfl⟩ := Option.map_eq_some_iff.1 h
    obtain ⟨c, a, hc, ha, rfl⟩ := searchId_eq_some hid
    have hr := hi.sent.calls k c hc
    simp only [SearchAction.request?, Option.toList_none, List.append_nil]
    have hnext : SearchInv env.url localDir earlier rs { s with fetch } :=
      { hi with sent := by simpa [FetchAction.request?] using hi.sent.step hfetch }
    exact hnext.load hnul.dir (fun r _ => zero_not_mem_qid env r) hr ha json

theorem searchInv_run {files : Bytes → Option YtdlpRun} {l : List SearchAction}
    (hfiles : ∀ path a, files path = some a → FileOf env.url localDir earlier path a)
    (hnul : NulFree env localDir (searchRequests l))
    (h : run (searchStep env.url localDir) { files } l = some s) :
    SearchInv env.url localDir earlier (searchRequests l) s := by
  refine run_history (I := fun l s => NulFree env localDir (searchRequests l) →
    SearchInv env.url localDir earlier (searchRequests l) s)
    (fun l t a t' ih ht hnul => ?_) (fun _ => ?_) h hnul
  · have hsplit : searchRequests (l ++ [a]) = searchRequests l ++ a.request?.toList := by
      cases ha : a.request? <;> simp [searchRequests, ha]
    have hnul' : NulFree env localDir (searchRequests l) :=
      hnul.mono (hsplit ▸ List.subset_append_left _ _)
    rw [hsplit]
    exact (ih hnul').step hnul' ht
  · exact {
      sent := sentInv_nil _
      files path a ha := (hfiles path a ha).mono (List.subset_append_left _ _)
      children c hc := by cases hc
      records p hp := by cases hp
      cmdBuf k := .inl rfl
      results p hp := by cases hp }

/-- **No search returns the result of another**, whatever files earlier searches have left, as
long as searches with one id are for one run of `yt-dlp`. -/
theorem search_own {files : Bytes → Option YtdlpRun} {l : List SearchAction}
    (hfiles : ∀ path a, files path = some a → FileOf env.url localDir earlier path a)
    (hnul : NulFree env localDir (searchRequests l))
    (hids : IdsTell env.url (earlier ++ searchRequests l))
    (h : run (searchStep env.url localDir) { files } l = some s) {p : Nat × YtdlpRun}
    (hp : p ∈ s.results) :
    ∃ r, (searchRequests l)[p.1]? = some r ∧ r.search? = some p.2 := by
  obtain ⟨r, a, hr, ha, r', hr', ha', hid⟩ := (searchInv_run hfiles hnul h).results p hp
  have hmem : r ∈ earlier ++ searchRequests l :=
    List.mem_append_right _ (List.mem_of_getElem? hr)
  have hsame : a = p.2 := hids r hmem r' hr' a ha p.2 ha' hid
  exact ⟨r, hr, hsame ▸ ha⟩

end

/-- The id of a query of at most 30 bytes is its base64 text. -/
theorem qid_of_short {env : FetchEnv} {r : Request} {a : YtdlpRun} (hr : r.search? = some a)
    (hshort : a.query.length ≤ 30) : r.qid env.url = base64Encode a.query := by
  cases r with
  | download fname url filepath => cases hr
  | fetch query maxEntries isUrl =>
    obtain rfl := Option.some.inj hr
    refine if_pos ?_
    show (base64Encode _).length ≤ 40
    rw [base64Encode, length_base64]
    dsimp only at hshort
    omega

/-- **Short queries are told apart by their ids.** -/
theorem idsTell_of_short {env : FetchEnv} {rs : List Request}
    (hshort : ∀ r ∈ rs, ∀ a ∈ r.search?, a.query.length ≤ 30)
    (hlimit : ∀ r ∈ rs, ∀ r' ∈ rs, ∀ a ∈ r.search?, ∀ a' ∈ r'.search?,
      a.query = a'.query → a = a') : IdsTell env.url rs := by
  intro r hr r' hr' a ha a' ha' hid
  rw [qid_of_short ha (hshort r hr a ha), qid_of_short ha' (hshort r' hr' a' ha')] at hid
  exact hlimit r hr r' hr' a ha a' ha' (base64_inj base64Symbol_distinct hid)

/-! ## Two searches -/

/-- Two searches whose queries end alike. -/
def liveVersion : Request :=
  .fetch (bytes "live version of Bohemian Rhapsody by Queen (remastered)") 20 false

def demoVersion : Request :=
  .fetch (bytes "demo version of Bohemian Rhapsody by Queen (remastered)") 20 false

/-- What the first of them has left. -/
def leftBy (env : FetchEnv) (localDir : Bytes) (r : Request) (path : Bytes) : Option YtdlpRun :=
  if path = getYtdoutJsonOutFilename localDir (r.qid env) then r.search? else none

theorem fileOf_leftBy {env : FetchEnv} {localDir : Bytes} {r : Request} {path : Bytes}
    {a : YtdlpRun} (h : leftBy env localDir r path = some a) :
    FileOf env localDir [r] path a := by
  unfold leftBy at h
  split at h
  · rename_i hpath
    exact ⟨r, List.mem_singleton_self r, h, hpath⟩
  · cases h

/-- A search whose child finds a file. -/
def cachedSearch (r : Request) : List SearchAction :=
  [.fetch (.call r), .fetch (.work 0 { fork := 11 }), .check 0, .answer 0, .fetch (.wait 0 0),
    .fetch (.openFifo 0 3), .read 0 8192 0, .load 0 true]

/-- A search whose child runs `yt-dlp`. -/
def freshSearch (r : Request) : List SearchAction :=
  [.fetch (.call r), .fetch (.work 0 { fork := 11 }), .check 0, .write 0 true, .answer 0,
    .fetch (.wait 0 0), .fetch (.openFifo 0 3), .read 0 8192 0, .load 0 true]

def queen : Request := .fetch (bytes "queen") 5 false

set_option maxRecDepth 16384 in
theorem search_own_queen :
    ∃ r, (searchRequests (freshSearch queen))[0]? = some r ∧ r.search? = queen.search? :=
  @search_own { encode := base64Encode } [] [liveVersion] _
    (leftBy { encode := base64Encode } [] liveVersion) (freshSearch queen)
    (fun path a ha => fileOf_leftBy ha)
    ⟨by decide, by decide, by decide, by decide⟩
    (by unfold IdsTell; decide) rfl (0, ⟨queen.query, some 5⟩) List.mem_cons_self

set_option maxRecDepth 16384 in
theorem demo_is_live : ¬ ∀ (env : FetchEnv) (localDir : Bytes) (earlier : List Request)
    (files : Bytes → Option YtdlpRun) (l : List SearchAction) (s : SearchState),
    (∀ path a, files path = some a → FileOf env.url localDir earlier path a) →
    run (searchStep env.url localDir) { files } l = some s → ∀ p ∈ s.results,
      ∃ r, (searchRequests l)[p.1]? = some r ∧ r.search? = some p.2 := by
  intro h
  have hresults := h { encode := base64Encode } [] [liveVersion]
    (leftBy { encode := base64Encode } [] liveVersion) (cachedSearch demoVersion) _
    (fun path a ha => fileOf_leftBy ha) rfl (0, ⟨liveVersion.query, some 20⟩)
    List.mem_cons_self
  obtain ⟨r, hr, hsearch⟩ := hresults
  obtain rfl : demoVersion = r := Option.some.inj hr
  revert hsearch
  decide

end Musicat.Child
