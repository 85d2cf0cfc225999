import Mathlib.Data.List.Induction
import Musicat.Child.Fetch
import Musicat.Lib.Base64

/-!
# The commands of the requests

A request goes by its id, which is cut out of a base64 text: the id is the first
thing the worker reads of its commands, and no byte of it is a NUL. In every run
what has been sent are the commands of the requests of the run, and one start
command for each (`sentInv_run`).
-/

namespace Musicat.Child

open Lib WorkerState

/-! ## Base64 -/

def base64Alphabet : Bytes :=
  bytes "ABCDEFGHIJKLMNOPQRSTUVWXYZabcdefghijklmnopqrstuvwxyz0123456789-_"

def base64Symbol (n : Nat) : UInt8 := base64Alphabet[n]?.getD 0

/-- `util::base64::encode`, which is `cppcodec::base64_url_unpadded`. -/
def base64Encode (s : Bytes) : Bytes := base64 base64Symbol s

theorem base64Symbol_distinct : Distinct64 base64Symbol := by
  intro m n hm hn h
  have hlen : base64Alphabet.length = 64 := by decide
  have hnodup : base64Alphabet.Nodup := by decide +kernel
  have hm' : base64Alphabet[m]?.isSome = true := by simp [hlen, hm]
  have hn' : base64Alphabet[n]?.isSome = true := by simp [hlen, hn]
  obtain ⟨a, ha⟩ := Option.isSome_iff_exists.1 hm'
  obtain ⟨b, hb⟩ := Option.isSome_iff_exists.1 hn'
  rw [base64Symbol, base64Symbol, ha, hb] at h
  obtain rfl : a = b := h
  exact (List.getElem?_inj (by omega) hnodup).1 (ha.trans hb.symm)

theorem zero_not_mem_base64Encode (s : Bytes) : (0 : UInt8) ∉ base64Encode s := by
  have hsymbol (n : Nat) (hn : n < 64) : base64Symbol n ≠ 0 := by
    revert n
    decide +kernel
  rw [base64Encode]
  induction s using base64.induct with
  | case1 => simp [base64]
  | case2 a =>
    have ha := a.toNat_lt
    simp only [base64, List.mem_cons, List.not_mem_nil, or_false, not_or]
    exact ⟨(hsymbol _ (by omega)).symm, (hsymbol _ (by omega)).symm⟩
  | case3 a b =>
    have ha := a.toNat_lt
    have hb := b.toNat_lt
    simp only [base64, List.mem_cons, List.not_mem_nil, or_false, not_or]
    exact ⟨(hsymbol _ (by omega)).symm, (hsymbol _ (by omega)).symm, (hsymbol _ (by omega)).symm⟩
  | case4 a b c s ih =>
    have ha := a.toNat_lt
    have hb := b.toNat_lt
    have hc := c.toNat_lt
    simp only [base64, List.mem_cons, not_or]
    exact ⟨(hsymbol _ (by omega)).symm, (hsymbol _ (by omega)).symm, (hsymbol _ (by omega)).symm,
      (hsymbol _ (by omega)).symm, ih⟩

/-- The settings, with the encoding that is used. -/
def FetchEnv.url (env : FetchEnv) : FetchEnv := { env with encode := base64Encode }

theorem maxLen_subset (s : Bytes) (n : Nat) (cutFront : Bool) : maxLen s n cutFront ⊆ s := by
  rw [maxLen]
  split
  · exact List.Subset.refl s
  · split
    · exact List.drop_subset _ s
    · exact List.take_subset _ s

theorem zero_not_mem_qid (env : FetchEnv) (r : Request) : (0 : UInt8) ∉ r.qid env.url := by
  cases r with
  | fetch query maxEntries isUrl =>
    exact fun h => zero_not_mem_base64Encode _ (maxLen_subset _ 40 true h)
  | download fname url filepath =>
    exact fun h => zero_not_mem_base64Encode _ (maxLen_subset _ 32 false h)

/-! ## The commands as the worker reads them -/

/-- What the worker takes a command for. -/
def Sent.options (m : Sent) : Option CommandOptions :=
  (FetchState.received m).bind (parseCommandToOptions · createCommandOptions)

section
variable {env : FetchEnv} {m : Sent} {r : Request} {o : CommandOptions}

theorem received_eq {cmd : Bytes} (h : FetchState.received m = some cmd) :
    cmd = cString m.cmd := by
  rw [FetchState.received, writeCommand, if_neg (by omega)] at h
  split at h
  · cases h
  · exact (Option.some.inj h).symm.trans (cString_pad_eq m.cmd)

theorem parse_of_options (h : m.options = some o) :
    parseCommandToOptions (cString m.cmd) createCommandOptions = some o := by
  obtain ⟨cmd, hreceived, hparse⟩ := Option.bind_eq_some_iff.1 h
  exact received_eq hreceived ▸ hparse

/-- A command that begins with an id and a command has these, wherever it is cut off. -/
theorem parse_first {id command tail : Bytes} {args : List (StringKey × Bytes)}
    (hid : (0 : UInt8) ∉ id) (hcommand : (0 : UInt8) ∉ command) (hnul : (0 : UInt8) ∉ tail)
    (htail : ∀ o, ∃ o', parseCommandToOptions tail o = some o' ∧
      ∀ k : StringKey, k.get o' = k.get o)
    (hkeys : .id ∉ args.map Prod.fst ∧ .command ∉ args.map Prod.fst) :
    ∃ o, parseCommandToOptions (cString (createArgSanitizeValue keyId id ++
        (createArgSanitizeValue keyCommand command ++ (createArgs args ++ tail))))
          createCommandOptions = some o ∧ o.id = id ∧ o.command = command := by
  have hfirst : (0 : UInt8) ∉ createArgs [(.id, id), (.command, command)] :=
    zero_not_mem_createArgs (by simp [hid, hcommand])
  have hsplit : createArgSanitizeValue keyId id ++
      (createArgSanitizeValue keyCommand command ++ (createArgs args ++ tail)) =
      createArgs [(.id, id), (.command, command)] ++ (createArgs args ++ tail) := by
    simp [createArgs, StringKey.name]
  obtain ⟨o, hparse, hkeep⟩ := parse_cString hnul htail args
    (StringKey.command.set (StringKey.id.set createCommandOptions id) command)
  refine ⟨o, ?_, hkeep .id hkeys.1, hkeep .command hkeys.2⟩
  rw [hsplit, cString_append hfirst, createArgs, List.flatMap_cons, List.flatMap_cons,
    List.flatMap_nil, List.append_nil, List.append_assoc, parse_createArg_append,
    parse_createArg_append]
  exact hparse

theorem exit_options (hcmd : m.cmd = r.exitCmd env.url) (h : m.options = some o) :
    o.id = r.qid env.url ∧ o.command = cmdShutdown := by
  have hparse := parse_of_options h
  have hplain : createArg keyCommand cmdShutdown =
      createArgSanitizeValue keyCommand cmdShutdown := by decide
  have hargs : m.cmd = createArgSanitizeValue keyId (r.qid env.url) ++
      (createArgSanitizeValue keyCommand cmdShutdown ++ (createArgs [] ++ [])) := by
    rw [hcmd, Request.exitCmd, getExitCommand, hplain]
    simp [createArgs]
  obtain ⟨o', hparse', hid, hcommand⟩ := @parse_first _ _ [] []
    (zero_not_mem_qid env r) (by decide : (0 : UInt8) ∉ cmdShutdown) (by simp)
    (fun o => ⟨o, rfl, fun _ => rfl⟩) (by simp)
  rw [hargs] at hparse
  obtain rfl : o' = o := Option.some.inj (hparse'.symm.trans hparse)
  exact ⟨hid, hcommand⟩

end

/-! ## One step -/

def FetchAction.request? : FetchAction → Option Request
  | .call r => some r
  | _ => none

/-- The requests of a run, in their order. -/
def requests (l : List FetchAction) : List Request := l.filterMap FetchAction.request?

/-- **What a step does**: a new request is entered; or the worker takes a step; or a request moves
on, and may send its shutdown command. -/
inductive FetchEffect (env : FetchEnv) (s : FetchState) : FetchAction → FetchState → Prop where
  | turnedAway (r : Request) : FetchEffect env s (.call r) (s.add ⟨r, .returned⟩)
  | sent (r : Request) : FetchEffect env s (.call r)
      ((s.add ⟨r, .waiting⟩).send s.next (r.childCmd env) false)
  | handled (now : Int) (launch : LaunchEnv) (worker : WorkerState) (started : List Nat) :
      FetchEffect env s (.work now launch) { s with worker, handled := s.handled + 1, started }
  | worker {a : WorkerAction} {worker : WorkerState} (hmessage : isMessage a = false)
      (hstep : workerStep s.worker a = some worker) :
      FetchEffect env s (.worker a) { s with worker }
  | moved {a : FetchAction} {k : Nat} {c : RequestCall} (hcall : s.calls k = some c)
      (pc : RequestPc) (failed : List Nat) (hrequest : a.request? = none)
      (hwork : ∀ now launch, a ≠ .work now launch) :
      FetchEffect env s a { s.setPc k c pc with failed }
  | shutDown {a : FetchAction} {k : Nat} {c : RequestCall} (hcall : s.calls k = some c)
      (pc : RequestPc) (hrequest : a.request? = none) (hwork : ∀ now launch, a ≠ .work now launch) :
      FetchEffect env s a ((s.setPc k c pc).send k (c.request.exitCmd env) true)

theorem fetchStep_effect {env : FetchEnv} {s s' : FetchState} {a : FetchAction}
    (h : fetchStep env s a = some s') : FetchEffect env s a s' := by
  cases a with
  | call r =>
    simp only [fetchStep, Option.some.injEq] at h
    subst h
    split
    · exact .turnedAway r
    · exact .sent r
  | work now launch =>
    simp only [fetchStep] at h
    split at h
    · cases h
    · split at h
      · cases h
        exact .handled now launch s.worker s.started
      · obtain ⟨worker, -, rfl⟩ := Option.map_eq_some_iff.1 h
        exact .handled now launch worker _
  | worker a =>
    simp only [fetchStep] at h
    split at h
    · cases h
    · rename_i hmessage
      obtain ⟨worker, hstep, rfl⟩ := Option.map_eq_some_iff.1 h
      exact .worker (by simpa using hmessage) hstep
  | wait k status =>
    obtain ⟨c, hcall, -, rfl⟩ := FetchState.resume_eq_some h
    split
    · exact .moved hcall _ s.failed rfl fun _ _ => by simp
    · exact .moved hcall _ (s.failed ++ [k]) rfl fun _ _ => by simp
  | openFifo k fd =>
    obtain ⟨c, hcall, -, rfl⟩ := FetchState.resume_eq_some h
    split
    · exact .shutDown hcall _ rfl fun _ _ => by simp
    · exact .moved hcall _ s.failed rfl fun _ _ => by simp
  | read k size =>
    obtain ⟨c, hcall, -, rfl⟩ := FetchState.resume_eq_some h
    exact .shutDown hcall _ rfl fun _ _ => by simp
  | load k ok =>
    obtain ⟨c, hcall, -, rfl⟩ := FetchState.resume_eq_some h
    exact .moved hcall _ s.failed rfl fun _ _ => by simp

/-- The worker handles no command twice, and what has been sent stays sent. -/
theorem fetchStep_grows {env : FetchEnv} {s s' : FetchState} {a : FetchAction}
    (h : fetchStep env s a = some s') : s.handled ≤ s'.handled ∧ s.sent <+: s'.sent := by
  cases fetchStep_effect h with
  | turnedAway r => exact ⟨Nat.le_refl _, List.prefix_rfl⟩
  | sent r => exact ⟨Nat.le_refl _, List.prefix_append _ _⟩
  | handled now launch worker started => exact ⟨Nat.le_succ _, List.prefix_rfl⟩
  | worker hmessage hstep => exact ⟨Nat.le_refl _, List.prefix_rfl⟩
  | moved hcall pc failed hrequest hwork => exact ⟨Nat.le_refl _, List.prefix_rfl⟩
  | shutDown hcall pc hrequest hwork => exact ⟨Nat.le_refl _, List.prefix_append _ _⟩

/-! ## What has been sent -/

/-- **The commands are those of the requests**, one start command for each. -/
structure SentInv (env : FetchEnv) (rs : List Request) (s : FetchState) : Prop where
  next : s.next = rs.length
  calls : ∀ k c, s.calls k = some c → rs[k]? = some c.request
  sent : ∀ m ∈ s.sent, ∃ r, rs[m.call]? = some r ∧
    m.cmd = if m.exit then r.exitCmd env else r.childCmd env
  once : ∀ (i j : Nat) (m m' : Sent), s.sent[i]? = some m → s.sent[j]? = some m' →
    m.exit = false → m'.exit = false → m.call = m'.call → i = j

section
variable {env : FetchEnv} {rs : List Request} {s s' : FetchState} {k : Nat} {c : RequestCall}

theorem SentInv.setPc (hi : SentInv env rs s) (hc : s.calls k = some c) (pc : RequestPc) :
    SentInv env rs (s.setPc k c pc) where
  next := hi.next
  calls j d hd := by
    rcases FetchState.calls_setPc hd with ⟨rfl, rfl⟩ | ⟨-, hd⟩
    · exact hi.calls j c hc
    · exact hi.calls j d hd
  sent := hi.sent
  once := hi.once

/-- A command is sent; a start command is the first of its request. -/
theorem SentInv.send (hi : SentInv env rs s) (exit : Bool) {r : Request} (hr : rs[k]? = some r)
    (hfirst : exit = false → ∀ m ∈ s.sent, m.exit = false → m.call ≠ k) :
    SentInv env rs (s.send k (if exit then r.exitCmd env else r.childCmd env) exit) where
  next := hi.next
  calls := hi.calls
  sent m hm := by
    rcases List.mem_append.1 hm with hm | hm
    · exact hi.sent m hm
    · rw [List.mem_singleton.1 hm]
      exact ⟨r, hr, rfl⟩
  once i j m m' hm hm' hexit hexit' hcall := by
    rcases getElem?_concat_eq_some.1 hm with hm | ⟨hi', rfl⟩ <;>
      rcases getElem?_concat_eq_some.1 hm' with hm' | ⟨hj', rfl⟩
    · exact hi.once i j m m' hm hm' hexit hexit' hcall
    · exact absurd hcall (hfirst hexit' m (List.mem_of_getElem? hm) hexit)
    · exact absurd hcall.symm (hfirst hexit m' (List.mem_of_getElem? hm') hexit')
    · exact hi'.trans hj'.symm

/-- A request more; it has sent nothing yet. -/
theorem SentInv.add (hi : SentInv env rs s) (c : RequestCall) :
    SentInv env (rs ++ [c.request]) (s.add c) where
  next := by
    rw [List.length_append, List.length_singleton, ← hi.next]
    rfl
  calls j d hd := by
    rcases FetchState.calls_add hd with ⟨rfl, rfl⟩ | hd
    · rw [hi.next, List.getElem?_concat_length]
    · exact getElem?_concat_eq_some.2 (.inl (hi.calls j d hd))
  sent m hm := by
    obtain ⟨r', hr', hcmd⟩ := hi.sent m hm
    exact ⟨r', getElem?_concat_eq_some.2 (.inl hr'), hcmd⟩
  once := hi.once

/-- A shutdown command is sent. -/
theorem SentInv.shutDown (hi : SentInv env rs s) (hc : s.calls k = some c) (pc : RequestPc) :
    SentInv env rs ((s.setPc k c pc).send k (c.request.exitCmd env) true) :=
  (hi.setPc hc pc).send true (hi.calls k c hc) fun h => by cases h

/-- **A step keeps what has been sent the commands of the requests.** -/
theorem SentInv.step {a : FetchAction} (hi : SentInv env rs s)
    (h : fetchStep env s a = some s') : SentInv env (rs ++ a.request?.toList) s' := by
  cases fetchStep_effect h with
  | turnedAway r => exact hi.add ⟨r, .returned⟩
  | sent r =>
    have hnew : (rs ++ [r])[s.next]? = some r := by rw [hi.next, List.getElem?_concat_length]
    refine (hi.add ⟨r, .waiting⟩).send false hnew fun _ m hm _ hcall => ?_
    obtain ⟨r', hr', -⟩ := hi.sent m hm
    have hlt := (List.getElem?_eq_some_iff.1 hr').1
    rw [hcall, hi.next] at hlt
    exact Nat.lt_irrefl _ hlt
  | handled now launch worker started =>
    simp only [FetchAction.request?, Option.toList_none, List.append_nil]
    exact ⟨hi.next, hi.calls, hi.sent, hi.once⟩
  | worker hmessage hstep =>
    simp only [FetchAction.request?, Option.toList_none, List.append_nil]
    exact ⟨hi.next, hi.calls, hi.sent, hi.once⟩
  | moved hcall pc failed hrequest hwork =>
    rw [hrequest, Option.toList_none, List.append_nil]
    exact { hi.setPc hcall pc with }
  | shutDown hcall pc hrequest hwork =>
    rw [hrequest, Option.toList_none, List.append_nil]
    exact hi.shutDown hcall pc

theorem sentInv_nil (env : FetchEnv) : SentInv env [] {} := by
  constructor <;> simp

theorem requests_append_singleton (l : List FetchAction) (a : FetchAction) :
    requests (l ++ [a]) = requests l ++ a.request?.toList := by
  cases ha : a.request? <;> simp [requests, ha]

end

end Musicat.Child
