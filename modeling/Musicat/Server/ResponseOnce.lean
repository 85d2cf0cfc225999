import Musicat.Server.Response

/-!
# Every response once

A response is written to after the request was aborted when the list that says
so has been cleared in between, and a request is not answered when its response
is at the address of an aborted one that is still listed. A run in which neither
happens (`Safe`) answers every request once (`answeredOnce_run`), and a step
with which it does can be followed by such a failure (`not_safe_breaks`).
-/

namespace Musicat.Server

open Lib

namespace RespState

variable {s s' : RespState} {i : Nat} {r : Request}

/-! ## When every request is answered once -/

/-- If the next destructor is the last one, it finds nothing under way for an aborted request. -/
def NoneUnderWay (s : RespState) (l : List Request) : Prop :=
  s.activeEndCount = 1 → ∀ r ∈ l, r.aborted → r.stage = .finished

/-- The address of a new request is not one of an earlier request that was aborted, and a
destructor forgets no abort of a request that is still to be answered. -/
def Safe (s : RespState) : RespAction → Prop
  | .getGuilds res | .postLogin res => res ∉ s.abortedRes
  | .validate _ | .release | .destroy => s.NoneUnderWay s.requests
  | .answer i | .drop i => s.NoneUnderWay (s.requests.eraseIdx i)
  | .refuse _ | .handle _ | .handOff _ | .start _ | .finish _ | .respond _ | .abort _ => True

instance (s : RespState) (l : List Request) : Decidable (s.NoneUnderWay l) :=
  inferInstanceAs (Decidable (_ = _ → ∀ r ∈ l, r.aborted = true → r.stage = .finished))

instance (s : RespState) : (a : RespAction) → Decidable (s.Safe a)
  | .getGuilds res | .postLogin res => inferInstanceAs (Decidable (res ∉ s.abortedRes))
  | .validate _ | .release | .destroy => inferInstanceAs (Decidable (s.NoneUnderWay s.requests))
  | .answer i | .drop i => inferInstanceAs (Decidable (s.NoneUnderWay (s.requests.eraseIdx i)))
  | .refuse _ | .handle _ | .handOff _ | .start _ | .finish _ | .respond _ | .abort _ =>
    inferInstanceAs (Decidable True)

end RespState

/-- The list tells whether the request was aborted, for as long as that is asked. -/
structure Request.Kept (r : Request) (aborted : List Nat) : Prop where
  listed : r.aborted → r.stage ≠ .finished → r.res ∈ aborted
  unlisted : r.isOpen → r.res ∉ aborted
  unanswered : r.stage ≠ .finished → r.ends = 0
  answered : r.stage = .finished → r.aborted = false → r.ends = 1
  early : r.lateWrite = false

namespace Request.Kept

variable {r : Request} {aborted : List Nat}

theorem refused (res : Nat) (aborted : List Nat) :
    { res, stage := .finished, ends := 1 : Request }.Kept aborted where
  listed := nofun
  unlisted := nofun
  unanswered hs := absurd rfl hs
  answered _ _ := rfl
  early := rfl

theorem new {res : Nat} {stage : Stage} (hres : res ∉ aborted) (hs : stage ≠ .finished) :
    { res, stage : Request }.Kept aborted where
  listed := nofun
  unlisted _ := hres
  unanswered _ := rfl
  answered hf := absurd hf hs
  early := rfl

/-- An unfinished request is listed exactly when it was aborted. -/
theorem mem_iff (h : r.Kept aborted) (hs : r.stage ≠ .finished) :
    r.res ∈ aborted ↔ r.aborted = true := by
  refine ⟨fun hm => ?_, fun ha => h.listed ha hs⟩
  by_contra ha
  exact h.unlisted (by simp [isOpen, ha, h.unanswered hs]) hm

theorem withStage (h : r.Kept aborted) {stage : Stage} (hs : r.stage ≠ .finished)
    (hs' : stage ≠ .finished) : { r with stage }.Kept aborted where
  listed ha _ := h.listed ha hs
  unlisted := h.unlisted
  unanswered _ := h.unanswered hs
  answered hf := absurd hf hs'
  early := h.early

theorem clear (h : r.Kept aborted) {c : Prop} [Decidable c]
    (hc : ¬ c → r.aborted → r.stage = .finished) : r.Kept (if c then aborted else []) := by
  split
  · exact h
  · rename_i hnc
    exact { h with
      listed := fun ha hs => absurd (hc hnc ha) hs
      unlisted := fun _ => List.not_mem_nil }

theorem append (h : r.Kept aborted) {res : Nat} (hres : r.isOpen → r.res ≠ res) :
    r.Kept (aborted ++ [res]) where
  listed ha hs := List.mem_append_left _ (h.listed ha hs)
  unlisted ho hm := by
    rcases List.mem_append.1 hm with hm | hm
    · exact h.unlisted ho hm
    · exact hres ho (List.mem_singleton.1 hm)
  unanswered := h.unanswered
  answered := h.answered
  early := h.early

/-- The destructor of the request's `end_t`, whatever it leaves of the list. -/
theorem ended (h : r.Kept aborted) (hs : r.stage ≠ .finished) (aborted' : List Nat) :
    { if aborted.contains r.res then r else r.write with stage := .finished }.Kept aborted' := by
  have hends := h.unanswered hs
  have hmem := h.mem_iff hs
  cases ha : r.aborted with
  | true =>
    rw [if_pos (by simpa using hmem.2 ha)]
    refine ⟨fun _ hf => absurd rfl hf, fun ho => ?_, fun hf => absurd rfl hf, fun _ hf => ?_,
      h.early⟩
    · simp [isOpen, ha] at ho
    · exact absurd (ha.symm.trans hf) nofun
  | false =>
    have hm : r.res ∉ aborted := fun hm => absurd (ha.symm.trans (hmem.1 hm)) nofun
    rw [if_neg (by simpa using hm)]
    refine ⟨fun _ hf => absurd rfl hf, fun ho => ?_, fun hf => absurd rfl hf, fun _ _ => ?_, ?_⟩
    · simp [isOpen, write, hends] at ho
    · simp [write, hends]
    · simp [write, h.early, ha]

end Request.Kept

namespace RespState

variable {s s' : RespState} {i : Nat} {r : Request}

/-- No two open responses have one address, and the list is right about every request. -/
structure OnceInv (s : RespState) : Prop where
  ends : s.EndsInv
  distinct : ∀ (i j : Nat) (r r' : Request), s.requests[i]? = some r → s.requests[j]? = some r' →
    r.isOpen → r'.isOpen → r.res = r'.res → i = j
  kept : ∀ r ∈ s.requests, r.Kept s.abortedRes

theorem onceInv_init : OnceInv {} where
  ends := endsInv_init
  distinct _ _ _ _ h := by simp at h
  kept _ h := (List.not_mem_nil h).elim

theorem OnceInv.goes (hi : s.OnceInv) (he : s'.EndsInv) (hr : s.requests[i]? = some r)
    {r' : Request} (hreq : s'.requests = s.requests.set i r') (hres : r'.res = r.res)
    (hopen : r'.isOpen → r.isOpen) (hr' : r'.Kept s'.abortedRes)
    (hrest : ∀ q ∈ s.requests.eraseIdx i, q.Kept s.abortedRes → q.Kept s'.abortedRes) :
    s'.OnceInv where
  ends := he
  distinct j k q q' hq hq' ho ho' heq := by
    -- each was there before, open and at its address
    have hold : ∀ (j : Nat) (q : Request), s'.requests[j]? = some q → q.isOpen →
        ∃ p : Request, s.requests[j]? = some p ∧ p.isOpen ∧ p.res = q.res := by
      intro j q hq ho
      rw [hreq] at hq
      by_cases hij : i = j
      · rw [← hij, List.getElem?_set_self', hr] at hq
        obtain rfl := Option.some.inj hq
        exact ⟨r, hij ▸ hr, hopen ho, hres.symm⟩
      · rw [List.getElem?_set_ne hij] at hq
        exact ⟨q, hq, ho, rfl⟩
    obtain ⟨p, hp, hpo, hpq⟩ := hold j q hq ho
    obtain ⟨p', hp', hpo', hpq'⟩ := hold k q' hq' ho'
    exact hi.distinct j k p p' hp hp' hpo hpo' (by rw [hpq, hpq', heq])
  kept q hq := by
    rw [hreq] at hq
    rcases mem_set_imp hq with rfl | hq
    · exact hr'
    · exact hrest q hq (hi.kept q (List.mem_of_mem_eraseIdx hq))

/-- Only the stage changes. -/
theorem OnceInv.withStage (hi : s.OnceInv) (he : s'.EndsInv) (hr : s.requests[i]? = some r)
    {stage : Stage} (hreq : s'.requests = s.requests.set i { r with stage })
    (hlist : s'.abortedRes = s.abortedRes) (hs : r.stage ≠ .finished)
    (hs' : stage ≠ .finished) : s'.OnceInv := by
  have hk := hi.kept r (List.mem_of_getElem? hr)
  refine hi.goes he hr hreq rfl id ?_ fun q _ hq => ?_
  · rw [hlist]
    exact hk.withStage hs hs'
  · rw [hlist]
    exact hq

theorem OnceInv.arrive (hi : s.OnceInv) (he : s'.EndsInv) (hfree : s.isFree r.res)
    (hr : r.Kept s.abortedRes) (hreq : s'.requests = s.requests ++ [r])
    (hlist : s'.abortedRes = s.abortedRes) : s'.OnceInv := by
  have hne : ∀ q ∈ s.requests, q.isOpen → q.res ≠ r.res := by
    intro q hq ho heq
    have hfree := List.all_eq_true.1 hfree q hq
    simp [heq, ho] at hfree
  refine ⟨he, fun j k q q' hq hq' ho ho' heq => ?_, fun q hq => ?_⟩
  · rw [hreq] at hq hq'
    rcases getElem?_concat_eq_some.1 hq with hq | ⟨rfl, rfl⟩ <;>
      rcases getElem?_concat_eq_some.1 hq' with hq' | ⟨rfl, rfl⟩
    · exact hi.distinct j k q q' hq hq' ho ho' heq
    · exact absurd heq (hne q (List.mem_of_getElem? hq) ho)
    · exact absurd heq.symm (hne q' (List.mem_of_getElem? hq') ho')
    · rfl
  · rw [hlist]
    rw [hreq] at hq
    rcases List.mem_append.1 hq with hq | hq
    · exact hi.kept q hq
    · rw [List.mem_singleton.1 hq]
      exact hr

/-- What a destructor leaves of the list. -/
theorem NoneUnderWay.cleared {l : List Request} (h : s.NoneUnderWay l) (hpos : 0 < s.activeEndCount)
    {q : Request} (hq : q ∈ l) (hk : q.Kept s.abortedRes) : q.Kept s.clearAborted.abortedRes :=
  hk.clear fun hc ha => h (by omega) q hq ha

theorem OnceInv.cleared (hi : s.OnceInv) (he : s'.EndsInv) (hsafe : s.NoneUnderWay s.requests)
    (hpos : 0 < s.activeEndCount) (hreq : s'.requests = s.requests)
    (hlist : s'.abortedRes = s.clearAborted.abortedRes) : s'.OnceInv where
  ends := he
  distinct := by
    rw [hreq]
    exact hi.distinct
  kept q hq := by
    rw [hreq] at hq
    rw [hlist]
    exact hsafe.cleared hpos hq (hi.kept q hq)

theorem OnceInv.destroyEnd (hi : s.OnceInv) (he : s'.EndsInv) (hr : s.requests[i]? = some r)
    (hlive : r.stage.live) (hsafe : s.NoneUnderWay (s.requests.eraseIdx i))
    (hreq : s'.requests = (s.destroyEnd i r).requests)
    (hlist : s'.abortedRes = s.clearAborted.abortedRes) : s'.OnceInv := by
  have hpos := hi.ends.pos hr hlive
  have hs : r.stage ≠ .finished := by
    intro hs
    rw [hs] at hlive
    cases hlive
  refine hi.goes he hr hreq ?_ (fun ho => ?_) ?_ fun q hq hk => ?_
  · split <;> rfl
  · split at ho
    · exact ho
    · simp [Request.isOpen, Request.write] at ho
  · exact (hi.kept r (List.mem_of_getElem? hr)).ended hs _
  · rw [hlist]
    exact hsafe.cleared hpos hq hk

theorem OnceInv.abort (hi : s.OnceInv) (he : s'.EndsInv) (hr : s.requests[i]? = some r)
    (ho : r.isOpen) {stage : Stage} (hs : stage ≠ .finished → r.stage ≠ .finished)
    (hreq : s'.requests = s.requests.set i { r with stage, aborted := true })
    (hlist : s'.abortedRes = s.abortedRes ++ [r.res]) : s'.OnceInv := by
  have hk := hi.kept r (List.mem_of_getElem? hr)
  refine hi.goes he hr hreq rfl (fun _ => ho) ?_ fun q hq hkq => ?_
  · rw [hlist]
    exact {
      listed := fun _ _ => List.mem_append_right _ (List.mem_singleton_self _)
      unlisted := fun h => absurd h (by simp [Request.isOpen])
      unanswered := fun h => hk.unanswered (hs h)
      answered := nofun
      early := hk.early }
  · obtain ⟨j, hj, hq⟩ := List.mem_eraseIdx_iff_getElem?.1 hq
    rw [hlist]
    exact hkq.append fun hoq heq => hj (hi.distinct j i q r hq hr hoq ho heq)

theorem OnceInv.step {a : RespAction} (hi : s.OnceInv) (ha : s.Safe a)
    (h : respStep s a = some s') : s'.OnceInv := by
  have he := hi.ends.step h
  cases a with
  | refuse res =>
    obtain ⟨⟨-, hfree⟩, rfl⟩ := arrive_eq_some.1 h
    exact hi.arrive he hfree (.refused res _)
      rfl rfl
  | getGuilds res =>
    obtain ⟨u, hu, rfl⟩ := Option.map_eq_some_iff.1 h
    obtain ⟨⟨-, hfree⟩, rfl⟩ := arrive_eq_some.1 hu
    exact hi.arrive he hfree (.new ha (by simp)) rfl rfl
  | postLogin res =>
    obtain ⟨⟨-, hfree⟩, rfl⟩ := arrive_eq_some.1 h
    exact hi.arrive he hfree (.new ha (by simp)) rfl rfl
  | validate i =>
    obtain ⟨r, hr, hp, rfl⟩ := go_eq_some.1 h
    have hstage : r.stage = .validating := by simpa using hp
    have hpos := hi.ends.pos hr (by rw [hstage]; rfl)
    have hmem := List.mem_of_getElem? hr
    refine hi.goes he hr rfl rfl id ?_ fun q hq hk => ?_
    · exact (ha.cleared hpos hmem (hi.kept r hmem)).withStage (by simp [hstage]) (by simp)
    · exact ha.cleared hpos (List.mem_of_mem_eraseIdx hq) hk
  | handle i =>
    obtain ⟨r, hr, hp, rfl⟩ := go_eq_some.1 h
    simp only [Bool.or_eq_true, Bool.and_eq_true, beq_iff_eq] at hp
    have hs : r.stage ≠ .finished := by
      rcases hp with hs | ⟨-, hs⟩ <;> simp [hs]
    exact hi.withStage he hr rfl rfl hs (by simp)
  | answer i =>
    obtain ⟨r, hr, hp, rfl⟩ := go_eq_some.1 h
    simp only [Bool.or_eq_true, beq_iff_eq] at hp
    have hlive : r.stage.live := by
      rcases hp with (hs | hs) | hs <;> rw [hs] <;> rfl
    exact hi.destroyEnd he hr hlive ha rfl rfl
  | handOff i =>
    obtain ⟨r, hr, hp, rfl⟩ := go_eq_some.1 h
    have hstage : r.stage = .handling := by simpa using hp
    exact hi.withStage he hr rfl rfl (by simp [hstage]) (by simp)
  | release =>
    simp only [respStep] at h
    split at h
    · rename_i hrel
      cases h
      have hc := hi.ends.count
      rw [hrel, show ServerPC.releasing.emptyEnds = 1 from rfl] at hc
      exact hi.cleared he ha (by omega) rfl rfl
    · cases h
  | start i =>
    obtain ⟨r, hr, hp, rfl⟩ := go_eq_some.1 h
    have hstage : r.stage = .queued := by simpa using hp
    exact hi.withStage he hr rfl rfl (by simp [hstage]) (by simp)
  | finish i =>
    obtain ⟨r, hr, hp, rfl⟩ := go_eq_some.1 h
    have hstage : r.stage = .working := by simpa using hp
    unfold destroyDeferEnd at he ⊢
    split
    · rename_i hab
      rw [if_pos hab] at he
      exact hi.withStage he hr rfl rfl (by simp [hstage]) (by simp)
    · rename_i hab
      rw [if_neg hab] at he
      exact hi.withStage he hr rfl rfl (by simp [hstage]) (by simp)
  | drop i =>
    obtain ⟨r, hr, hp, rfl⟩ := go_eq_some.1 h
    have hstage : r.stage = .dropping := by simpa using hp
    exact hi.destroyEnd he hr (by rw [hstage]; rfl) ha rfl rfl
  | destroy =>
    simp only [respStep] at h
    split at h
    · cases h
      have hc := hi.ends.count
      exact hi.cleared he ha (by omega) rfl rfl
    · cases h
  | respond i =>
    obtain ⟨r, hr, hp, rfl⟩ := go_eq_some.1 h
    simp only [Bool.and_eq_true, beq_iff_eq] at hp
    exact hi.withStage he hr rfl rfl (by simp [hp.2]) (by simp)
  | abort i =>
    obtain ⟨r, hr, hp, rfl⟩ := go_eq_some.1 h
    simp only [Bool.and_eq_true] at hp
    refine hi.abort he hr hp.2 (fun hs hf => hs ?_) rfl rfl
    rw [hf]
    rfl

end RespState

/-- It has been written to only while it was open, and unless it was aborted it has been ended once
when nothing is under way any more. -/
structure Request.AnsweredOnce (r : Request) : Prop where
  early : r.lateWrite = false
  ends : r.aborted = false → r.ends = if r.stage = .finished then 1 else 0

theorem Request.Kept.answeredOnce {r : Request} {aborted : List Nat} (h : r.Kept aborted) :
    r.AnsweredOnce := by
  refine ⟨h.early, fun ha => ?_⟩
  split
  · exact h.answered ‹_› ha
  · exact h.unanswered ‹_›

namespace RespState

variable {s s' : RespState} {i : Nat} {r : Request}

/-- **Nothing is written after an abort, and every other request is ended exactly once**, in a run
that takes no address of an aborted request while it is known and forgets none too early. -/
theorem answeredOnce_run {l : List RespAction} (hl : Along respStep Safe {} l)
    (h : run respStep {} l = some s) : ∀ r ∈ s.requests, r.AnsweredOnce :=
  have hi := run_inv (I := OnceInv) (fun _ _ _ hi ha hs => OnceInv.step hi ha hs) onceInv_init hl h
  fun r hr => (hi.kept r hr).answeredOnce

/-- Two requests are left to tasks and the first is aborted. -/
def abortQueued : List RespAction :=
  [.getGuilds 1, .validate 0, .handle 0, .handOff 0, .release,
    .postLogin 2, .handle 1, .handOff 1, .release, .abort 0]

/-- The task of the aborted request starts before that of the other ends. -/
theorem answeredOnce_abortQueued :
    ∃ s, run respStep {} (abortQueued ++ [.start 0, .start 1, .finish 0, .finish 1, .destroy,
        .respond 1, .answer 1, .drop 0]) = some s ∧ ∀ r ∈ s.requests, r.AnsweredOnce :=
  ⟨_, rfl, @answeredOnce_run _ (abortQueued ++ [.start 0, .start 1, .finish 0, .finish 1, .destroy,
    .respond 1, .answer 1, .drop 0]) (by decide) rfl⟩

/-! ## When one is not answered once -/

/-- The other task ends first, and the task of the aborted request answers it. The next client's
request comes on the address of an aborted one that is still listed, and is never answered. -/
theorem abort_forgotten_and_stale :
    (∃ s, run respStep {} (abortQueued ++ [.start 1, .finish 1, .destroy, .start 0, .finish 0,
        .destroy, .respond 0, .answer 0]) = some s ∧
      ∃ r ∈ s.requests, r.aborted = true ∧ r.lateWrite = true) ∧
    ∃ s, run respStep {} (abortQueued ++ [.getGuilds 1, .answer 2]) = some s ∧
      ∃ r ∈ s.requests, r.aborted = false ∧ r.stage = .finished ∧ r.ends = 0 :=
  ⟨⟨_, rfl, _, List.mem_cons_self, rfl, rfl⟩,
    ⟨_, rfl, _, List.mem_cons_of_mem _ (List.mem_cons_of_mem _ List.mem_cons_self), rfl, rfl, rfl⟩⟩

/-- The abort of request `k` is not listed any more, and nothing has kept its answer. -/
structure Forgotten (s : RespState) (k : Nat) : Prop where
  list : s.abortedRes = []
  request : ∃ r, s.requests[k]? = some r ∧ r.aborted = true ∧
    (r.stage = .finished → r.lateWrite = true)

theorem clearAborted_nil (h : s.abortedRes = []) : s.clearAborted.abortedRes = [] := by
  simp [clearAborted, h]

theorem Forgotten.goes {k : Nat} (hf : s.Forgotten k) (hr : s.requests[i]? = some r)
    {r' : Request} (hreq : s'.requests = s.requests.set i r') (hlist : s'.abortedRes = [])
    (hab : r'.aborted = r.aborted)
    (hlate : r'.stage = .finished → r.aborted = true → r'.lateWrite = true) :
    s'.Forgotten k := by
  obtain ⟨q, hq, ha, hw⟩ := hf.request
  refine ⟨hlist, ?_⟩
  rw [hreq]
  by_cases hik : i = k
  · rw [← hik, hr, Option.some.injEq] at hq
    refine ⟨r', ?_, hab.trans (hq ▸ ha), fun hs => hlate hs (hq ▸ ha)⟩
    rw [← hik, List.getElem?_set_self', hr]
    rfl
  · exact ⟨q, by rw [List.getElem?_set_ne hik, hq], ha, hw⟩

theorem Forgotten.destroyEnd {k : Nat} (hf : s.Forgotten k) (hr : s.requests[i]? = some r)
    (hreq : s'.requests = (s.destroyEnd i r).requests)
    (hlist : s'.abortedRes = s.clearAborted.abortedRes) : s'.Forgotten k := by
  have hnot : s.isAborted r.res = false := by simp [isAborted, hf.list]
  refine hf.goes hr hreq (hlist.trans (clearAborted_nil hf.list)) ?_ fun _ ha => ?_
  · simp [hnot, Request.write]
  · simp [hnot, Request.write, ha]

theorem Forgotten.step {k : Nat} {a : RespAction} (hf : s.Forgotten k) (ha : a.isWork)
    (h : respStep s a = some s') : s'.Forgotten k := by
  cases a with
  | refuse | getGuilds | postLogin | abort => cases ha
  | validate i =>
    obtain ⟨r, hr, -, rfl⟩ := go_eq_some.1 h
    exact hf.goes hr rfl (clearAborted_nil hf.list) rfl nofun
  | handle i | handOff i | start i | respond i =>
    obtain ⟨r, hr, -, rfl⟩ := go_eq_some.1 h
    exact hf.goes hr rfl hf.list rfl nofun
  | answer i | drop i =>
    obtain ⟨r, hr, -, rfl⟩ := go_eq_some.1 h
    exact hf.destroyEnd hr rfl rfl
  | finish i =>
    obtain ⟨r, hr, -, rfl⟩ := go_eq_some.1 h
    unfold destroyDeferEnd
    split
    · exact hf.goes hr rfl hf.list rfl nofun
    · exact hf.goes hr rfl hf.list rfl nofun
  | release | destroy =>
    simp only [respStep] at h
    split at h
    · cases h
      exact ⟨clearAborted_nil hf.list, hf.request⟩
    · cases h

/-- A request whose abort is forgotten is written to. -/
theorem Forgotten.written {k : Nat} (hi : s.EndsInv) (hf : s.Forgotten k) :
    ∃ l t, run respStep s l = some t ∧ ∃ r ∈ t.requests, ¬ r.AnsweredOnce := by
  obtain ⟨l, t, hl, hrun, hall⟩ := hi.finishes rfl
  have hwork : Along respStep (fun _ a => a.isWork) s l := along_of_mem s fun a ha _ => hl a ha
  have hf' : t.Forgotten k :=
    run_inv (I := (Forgotten · k)) (fun _ _ _ hf ha h => Forgotten.step hf ha h) hf hwork hrun
  obtain ⟨r, hr, -, hw⟩ := hf'.request
  have hmem := List.mem_of_getElem? hr
  refine ⟨l, t, hrun, r, hmem, fun h => ?_⟩
  exact absurd ((hw (hall r hmem)).symm.trans h.early) nofun

/-- A request whose address is listed is not answered. -/
theorem stale_answer (hr : s.requests[i]? = some r)
    (hs : r.stage = .validating ∨ r.stage = .handling) (ha : r.aborted = false)
    (hends : r.ends = 0) (hm : r.res ∈ s.abortedRes) :
    ∃ t, respStep s (.answer i) = some t ∧ ∃ r ∈ t.requests, ¬ r.AnsweredOnce := by
  have hab : s.isAborted r.res = true := by simpa [isAborted] using hm
  refine ⟨_, go_eq_some.2 ⟨r, hr, ?_, rfl⟩, { r with stage := .finished }, ?_, fun h => ?_⟩
  · rcases hs with hs | hs <;> simp [hs]
  · obtain ⟨hlt, -⟩ := List.getElem?_eq_some_iff.1 hr
    simp only [RespState.destroyEnd, hab, if_true]
    exact List.mem_set hlt _
  · have hone := h.ends ha
    rw [if_pos rfl] at hone
    exact absurd (hends.symm.trans hone) Nat.zero_ne_one

theorem not_noneUnderWay {l : List Request} : ¬ s.NoneUnderWay l ↔
    s.activeEndCount = 1 ∧ ∃ r ∈ l, r.aborted = true ∧ r.stage ≠ .finished := by
  simp [NoneUnderWay]

/-- What the last destructor forgets. -/
theorem forgotten_of_clear {k : Nat} {q : Request} (hone : s.activeEndCount = 1)
    (hlist : s'.abortedRes = s.clearAborted.abortedRes) (hq : s'.requests[k]? = some q)
    (ha : q.aborted = true) (hs : q.stage ≠ .finished) : s'.Forgotten k where
  list := by simp [hlist, clearAborted, hone]
  request := ⟨q, hq, ha, fun hf => absurd hf hs⟩

/-- **The condition is exact**: after every other step the run can go on to a request that is not
answered once. -/
theorem not_safe_breaks {l : List RespAction} {a : RespAction} (hrun : run respStep {} l = some s)
    (ha : ¬ s.Safe a) (h : respStep s a = some s') :
    ∃ l' t, run respStep s' l' = some t ∧ ∃ r ∈ t.requests, ¬ r.AnsweredOnce := by
  have hi' := (endsInv_run hrun).step h
  cases a with
  | refuse | handle | handOff | start | finish | respond | abort => exact absurd trivial ha
  | getGuilds res =>
    have hm : res ∈ s.abortedRes := not_not.1 ha
    obtain ⟨u, hu, rfl⟩ := Option.map_eq_some_iff.1 h
    obtain ⟨-, rfl⟩ := arrive_eq_some.1 hu
    have hget : (s.requests ++ [{ res, stage := .validating }])[s.requests.length]? =
      some { res, stage := .validating } := List.getElem?_concat_length
    obtain ⟨t, ht, hno⟩ := stale_answer
      (s := { initEnd { s with requests := s.requests ++ [_] } with server := .busy }) hget
      (.inl rfl) rfl rfl hm
    exact ⟨[.answer s.requests.length], t, (run_cons ht []).trans rfl, hno⟩
  | postLogin res =>
    have hm : res ∈ s.abortedRes := not_not.1 ha
    obtain ⟨⟨hidle, -⟩, rfl⟩ := arrive_eq_some.1 h
    obtain ⟨u, hu, hreq, hlist⟩ : ∃ u,
        respStep { s with requests := s.requests ++ [{ res, stage := .receiving }] }
          (.handle s.requests.length) = some u ∧
        u.requests = s.requests ++ [{ res, stage := .handling }] ∧ u.abortedRes = s.abortedRes := by
      refine ⟨_, go_eq_some.2 ⟨_, List.getElem?_concat_length, ?_, rfl⟩, ?_, rfl⟩
      · simp [hidle]
      · simp [initEnd, set]
    obtain ⟨t, ht, hno⟩ := stale_answer (hreq ▸ List.getElem?_concat_length) (.inr rfl) rfl rfl
      (hlist ▸ hm)
    exact ⟨[.handle s.requests.length, .answer s.requests.length], t,
      (run_cons hu _).trans (run_cons ht []), hno⟩
  | validate i =>
    obtain ⟨r, hr, -, rfl⟩ := go_eq_some.1 h
    obtain ⟨hone, q, hq, hab, hs⟩ := not_noneUnderWay.1 ha
    obtain ⟨k, hk⟩ := List.mem_iff_getElem?.1 hq
    by_cases hik : i = k
    · have hrq : r = q := Option.some.inj (hr.symm.trans (hik ▸ hk))
      refine Forgotten.written hi' (forgotten_of_clear (s := s) (k := i)
        (q := { r with stage := .validated }) hone rfl ?_ (hrq ▸ hab) (by simp))
      exact (List.getElem?_set_self' ..).trans (by rw [hr]; rfl)
    · refine Forgotten.written hi' (forgotten_of_clear (s := s) (k := k) hone rfl ?_ hab hs)
      exact (List.getElem?_set_ne hik).trans hk
  | answer i | drop i =>
    obtain ⟨r, hr, -, rfl⟩ := go_eq_some.1 h
    obtain ⟨hone, q, hq, hab, hs⟩ := not_noneUnderWay.1 ha
    obtain ⟨k, hik, hk⟩ := List.mem_eraseIdx_iff_getElem?.1 hq
    refine Forgotten.written hi' (forgotten_of_clear (s := s) (k := k) hone rfl ?_ hab hs)
    exact (List.getElem?_set_ne hik.symm).trans hk
  | release | destroy =>
    simp only [respStep] at h
    split at h
    · cases h
      obtain ⟨hone, q, hq, hab, hs⟩ := not_noneUnderWay.1 ha
      obtain ⟨k, hk⟩ := List.mem_iff_getElem?.1 hq
      exact Forgotten.written hi' (forgotten_of_clear (s := s) hone rfl hk hab hs)
    · cases h

end RespState

end Musicat.Server
