import Musicat.Lib.Lists
import Musicat.Lib.Run

/-!
# Responses

A response is ended by the destructor of an `end_t`: in the request's handler,
or, after a task has done the work, in a callback that `defer_end_t` puts on the
server's loop. What has been aborted in between is known by its address, in
`aborted_res`; the destructor that finds no other `end_t` alive clears that
list. A step is what one thread does between two accesses to the list or to the
count of `end_t`s. The server thread runs one callback after another, and
requests come, go on and are aborted between its callbacks.
-/

namespace Musicat.Server

open Lib

/-! ## State -/

/-- Where the answer to a request is. -/
inductive Stage where
  /-- The `end_t` of `validate_token`. -/
  | validating
  | validated
  /-- `post_login` waits for the body. -/
  | receiving
  /-- The `end_t` of `get_guilds` or of `handle_post_login_body`. -/
  | handling
  /-- The task waits for a thread. -/
  | queued
  /-- The `end_t` of the task. -/
  | working
  /-- The same, after `defer_end_t` found the request aborted. -/
  | dropping
  /-- The callback waits for the server thread. -/
  | deferred
  /-- The `end_t` of the callback. -/
  | responding
  | finished
  deriving DecidableEq

/-- An `end_t` holds the response. -/
def Stage.live : Stage → Bool
  | validating | handling | working | dropping | responding => true
  | validated | receiving | queued | deferred | finished => false

/-- The server thread is in a callback of the request. -/
def Stage.onServer : Stage → Bool
  | validating | validated | handling | responding => true
  | _ => false

structure Request where
  /-- The address of its response. -/
  res : Nat
  stage : Stage
  aborted : Bool := false
  ends : Nat := 0
  /-- It was written to after it was aborted. -/
  lateWrite : Bool := false
  deriving DecidableEq

namespace Request

/-- uWebSockets still holds the response. -/
def isOpen (r : Request) : Bool := !r.aborted && r.ends == 0

/-- `writeStatus` and `end`. -/
def write (r : Request) : Request :=
  { r with ends := r.ends + 1, lateWrite := r.lateWrite || r.aborted }

end Request

inductive ServerPC where
  | idle
  /-- In a callback of the request whose stage says so. -/
  | busy
  /-- At the end of a handler, with an `end_t` whose `res` is null. -/
  | releasing
  deriving DecidableEq

/-- The `end_t`s with a null `res` that the server thread holds. -/
def ServerPC.emptyEnds : ServerPC → Nat
  | releasing => 1
  | idle | busy => 0

/-- The requests that the server thread is in a callback of. -/
def ServerPC.callbacks : ServerPC → Nat
  | busy => 1
  | idle | releasing => 0

structure RespState where
  requests : List Request := []
  server : ServerPC := .idle
  /-- The `end_t`s of tasks whose `res` is null. -/
  emptyEnds : Nat := 0
  activeEndCount : Nat := 0
  abortedRes : List Nat := []
  deriving DecidableEq

namespace RespState

def set (s : RespState) (i : Nat) (r : Request) : RespState :=
  { s with requests := s.requests.set i r }

/-! ## `end_t` -/

def isAborted (s : RespState) (res : Nat) : Bool := s.abortedRes.contains res

def markAborted (res : Nat) (s : RespState) : RespState :=
  { s with abortedRes := s.abortedRes ++ [res] }

/-- The constructor of `end_t`. -/
def initEnd (s : RespState) : RespState := { s with activeEndCount := s.activeEndCount + 1 }

/-- What `clear_aborted` does; it is all that the destructor of `end_t` does when `res` is null. -/
def clearAborted (s : RespState) : RespState :=
  { s with
    activeEndCount := s.activeEndCount - 1
    abortedRes := if s.activeEndCount - 1 ≠ 0 then s.abortedRes else [] }

/-- The destructor of the `end_t` that holds the response of request `i`. -/
def destroyEnd (i : Nat) (r : Request) (s : RespState) : RespState :=
  let r := if s.isAborted r.res then r else r.write
  (s.set i { r with stage := .finished }).clearAborted

/-- The destructor of the task's `defer_end_t`. -/
def destroyDeferEnd (i : Nat) (r : Request) (s : RespState) : RespState :=
  if s.isAborted r.res then s.set i { r with stage := .dropping }
  else { s.set i { r with stage := .deferred } with emptyEnds := s.emptyEnds + 1 }

/-- No open response is at the address. -/
def isFree (s : RespState) (res : Nat) : Bool := s.requests.all fun r => r.res != res || !r.isOpen

end RespState

/-! ## Steps -/

inductive RespAction where
  /-- A request that `cors` ends. -/
  | refuse (res : Nat)
  /-- A request to `get_guilds`, or to `post_login`, with its address. -/
  | getGuilds (res : Nat)
  | postLogin (res : Nat)
  /-- `validate_token` has found a user. -/
  | validate (i : Nat)
  /-- `get_guilds` goes on, or the last part of the body comes. -/
  | handle (i : Nat)
  /-- The server thread answers: no valid token, nothing to fetch, or the deferred callback. -/
  | answer (i : Nat)
  /-- The handler leaves the answer to a task. -/
  | handOff (i : Nat)
  | release
  /-- The task runs, and ends. -/
  | start (i : Nat)
  | finish (i : Nat)
  /-- The task's `end_t` is destroyed: of an aborted request, or with a null `res`. -/
  | drop (i : Nat)
  | destroy
  /-- The deferred callback runs. -/
  | respond (i : Nat)
  /-- uWebSockets finds the request aborted. -/
  | abort (i : Nat)
  deriving DecidableEq

namespace RespState

/-- A request that comes when the server thread is free, on an address that is. -/
def arrive (s : RespState) (r : Request) : Option RespState :=
  if s.server = .idle ∧ s.isFree r.res then some { s with requests := s.requests ++ [r] } else none

/-- A step of request `i`, if it is at one of the stages. -/
def go (s : RespState) (i : Nat) (p : Request → Bool) (f : Request → RespState) :
    Option RespState :=
  s.requests[i]?.bind fun r => if p r then some (f r) else none

end RespState

open RespState in
def respStep (s : RespState) : RespAction → Option RespState
  | .refuse res => s.arrive { res, stage := .finished, ends := 1 }
  | .getGuilds res =>
    (s.arrive { res, stage := .validating }).map fun s => { s.initEnd with server := .busy }
  | .postLogin res => s.arrive { res, stage := .receiving }
  | .validate i =>
    s.go i (·.stage == .validating) fun r => (s.set i { r with stage := .validated }).clearAborted
  | .handle i =>
    s.go i (fun r => r.stage == .validated || s.server == .idle && r.stage == .receiving) fun r =>
      { (s.set i { r with stage := .handling }).initEnd with server := .busy }
  | .answer i =>
    s.go i (fun r => r.stage == .validating || r.stage == .handling || r.stage == .responding)
      fun r => { s.destroyEnd i r with server := .idle }
  | .handOff i =>
    s.go i (·.stage == .handling) fun r =>
      { s.set i { r with stage := .queued } with server := .releasing }
  | .release => if s.server = .releasing then some { s.clearAborted with server := .idle } else none
  | .start i => s.go i (·.stage == .queued) fun r => (s.set i { r with stage := .working }).initEnd
  | .finish i => s.go i (·.stage == .working) fun r => s.destroyDeferEnd i r
  | .drop i => s.go i (·.stage == .dropping) fun r => s.destroyEnd i r
  | .destroy =>
    if 0 < s.emptyEnds then some { s.clearAborted with emptyEnds := s.emptyEnds - 1 } else none
  | .respond i =>
    s.go i (fun r => s.server == .idle && r.stage == .deferred) fun r =>
      { (s.set i { r with stage := .responding }).initEnd with server := .busy }
  | .abort i =>
    s.go i (fun r => s.server == .idle && r.isOpen) fun r =>
      -- what waits for the body is dropped with it
      let stage := if r.stage = .receiving then .finished else r.stage
      (s.set i { r with stage, aborted := true }).markAborted r.res

namespace RespState

variable {s s' : RespState} {i : Nat} {r : Request}

theorem arrive_eq_some : s.arrive r = some s' ↔
    (s.server = .idle ∧ s.isFree r.res) ∧ s' = { s with requests := s.requests ++ [r] } := by
  rw [arrive, Option.ite_none_right_eq_some, Option.some.injEq, eq_comm (a := s')]

theorem go_eq_some {p : Request → Bool} {f : Request → RespState} :
    s.go i p f = some s' ↔ ∃ r, s.requests[i]? = some r ∧ p r ∧ s' = f r := by
  simp only [go, Option.bind_eq_some_iff]
  constructor
  · rintro ⟨r, hr, h⟩
    split at h
    · exact ⟨r, hr, ‹_›, (Option.some.inj h).symm⟩
    · cases h
  · rintro ⟨r, hr, hp, rfl⟩
    exact ⟨r, hr, if_pos hp⟩

/-! ## What is counted -/

/-- `active_end_count` counts the `end_t`s, and the server thread is in the callback of at most one
request. -/
structure EndsInv (s : RespState) : Prop where
  count : s.activeEndCount =
    s.requests.countP (·.stage.live) + s.emptyEnds + s.server.emptyEnds
  server : s.requests.countP (·.stage.onServer) = s.server.callbacks

theorem endsInv_init : EndsInv {} := ⟨rfl, rfl⟩

/-- Request `i` goes to another stage. -/
theorem EndsInv.goes (hi : s.EndsInv) {r' : Request} (hr : s.requests[i]? = some r)
    (hreq : s'.requests = s.requests.set i r')
    (hcount : s'.activeEndCount + (if r.stage.live then 1 else 0) + s.emptyEnds +
        s.server.emptyEnds =
      s.activeEndCount + (if r'.stage.live then 1 else 0) + s'.emptyEnds + s'.server.emptyEnds)
    (hserver : s'.server.callbacks + (if r.stage.onServer then 1 else 0) =
      s.server.callbacks + if r'.stage.onServer then 1 else 0) :
    s'.EndsInv := by
  have hlive := countP_set_add (fun r => r.stage.live) hr r'
  have hon := countP_set_add (fun r => r.stage.onServer) hr r'
  have hc := hi.count
  have hs := hi.server
  constructor
  · rw [hreq]
    omega
  · rw [hreq]
    omega

theorem EndsInv.arrive (hi : s.EndsInv) (hlive : r.stage.live = false)
    (hserver : r.stage.onServer = false) (h : s.arrive r = some s') : s'.EndsInv := by
  obtain ⟨-, rfl⟩ := arrive_eq_some.1 h
  constructor
  · simp [hlive, hi.count]
  · simp [hserver, hi.server]

/-- A request that the server thread is at keeps it busy. -/
theorem EndsInv.busy (hi : s.EndsInv) (hr : s.requests[i]? = some r) (h : r.stage.onServer) :
    s.server = .busy := by
  have hpos : 0 < s.requests.countP (·.stage.onServer) :=
    List.countP_pos_iff.2 ⟨r, List.mem_of_getElem? hr, h⟩
  rw [hi.server] at hpos
  cases hb : s.server <;> simp_all [ServerPC.callbacks]

/-- An `end_t` is counted. -/
theorem EndsInv.pos (hi : s.EndsInv) (hr : s.requests[i]? = some r) (h : r.stage.live) :
    0 < s.activeEndCount := by
  have hpos : 0 < s.requests.countP (·.stage.live) :=
    List.countP_pos_iff.2 ⟨r, List.mem_of_getElem? hr, h⟩
  have hc := hi.count
  omega

theorem EndsInv.destroyEnd (hi : s.EndsInv) (hr : s.requests[i]? = some r) (h : r.stage.live)
    {u : RespState} (hu : u = { s.destroyEnd i r with server := u.server })
    (hrel : u.server.emptyEnds = s.server.emptyEnds)
    (hbusy : u.server.callbacks + (if r.stage.onServer then 1 else 0) = s.server.callbacks) :
    u.EndsInv := by
  have hpos := hi.pos hr h
  rw [hu]
  refine hi.goes hr (show _ = s.requests.set i
    { if s.isAborted r.res then r else r.write with stage := .finished } from rfl) ?_ ?_
  · simp only [RespState.destroyEnd, clearAborted, set, hrel, if_pos h]
    simp [Stage.live]
    omega
  · simpa [Stage.onServer] using hbusy

theorem EndsInv.step {a : RespAction} (hi : s.EndsInv) (h : respStep s a = some s') :
    s'.EndsInv := by
  cases a with
  | refuse res => exact hi.arrive rfl rfl h
  | postLogin res => exact hi.arrive rfl rfl h
  | getGuilds res =>
    obtain ⟨u, hu, rfl⟩ := Option.map_eq_some_iff.1 h
    obtain ⟨⟨hidle, -⟩, rfl⟩ := arrive_eq_some.1 hu
    have hc := hi.count
    have hs := hi.server
    rw [hidle] at hc hs
    constructor
    · simp only [initEnd, List.countP_append, List.countP_singleton]
      simp only [hc, ServerPC.emptyEnds, show Stage.validating.live = true from rfl, if_true]
      omega
    · simp only [initEnd, List.countP_append, List.countP_singleton, hs]
      rfl
  | validate i =>
    obtain ⟨r, hr, hp, rfl⟩ := go_eq_some.1 h
    have hstage : r.stage = .validating := by simpa using hp
    have hpos := hi.pos hr (by rw [hstage]; rfl)
    refine hi.goes hr rfl ?_ ?_
    · simp [hstage, clearAborted, set, Stage.live]
      omega
    · simp [hstage, clearAborted, set, Stage.onServer]
  | handle i =>
    obtain ⟨r, hr, hp, rfl⟩ := go_eq_some.1 h
    simp only [Bool.or_eq_true, Bool.and_eq_true, beq_iff_eq] at hp
    rcases hp with hstage | ⟨hidle, hstage⟩
    · have hbusy := hi.busy hr (by rw [hstage]; rfl)
      refine hi.goes hr rfl ?_ ?_
      · simp [hstage, hbusy, initEnd, set, Stage.live, ServerPC.emptyEnds]
      · simp [hstage, hbusy, Stage.onServer, ServerPC.callbacks]
    · refine hi.goes hr rfl ?_ ?_
      · simp [hstage, hidle, initEnd, set, Stage.live, ServerPC.emptyEnds]
      · simp [hstage, hidle, Stage.onServer, ServerPC.callbacks]
  | answer i =>
    obtain ⟨r, hr, hp, rfl⟩ := go_eq_some.1 h
    simp only [Bool.or_eq_true, beq_iff_eq] at hp
    have hon : r.stage.live ∧ r.stage.onServer := by
      rcases hp with (hstage | hstage) | hstage <;> rw [hstage] <;> exact ⟨rfl, rfl⟩
    have hbusy := hi.busy hr hon.2
    refine hi.destroyEnd hr hon.1 rfl ?_ ?_
    · rw [hbusy]
      rfl
    · rw [hbusy, if_pos hon.2]
      rfl
  | handOff i =>
    obtain ⟨r, hr, hp, rfl⟩ := go_eq_some.1 h
    have hstage : r.stage = .handling := by simpa using hp
    have hbusy := hi.busy hr (by rw [hstage]; rfl)
    refine hi.goes hr rfl ?_ ?_
    · simp [hstage, hbusy, set, Stage.live, ServerPC.emptyEnds]
      omega
    · simp [hstage, hbusy, Stage.onServer, ServerPC.callbacks]
  | release =>
    simp only [respStep] at h
    split at h
    · rename_i hrel
      cases h
      have hc := hi.count
      have hs := hi.server
      rw [hrel] at hc hs
      constructor
      · simp [clearAborted, hc, ServerPC.emptyEnds]
      · exact hs
    · cases h
  | start i =>
    obtain ⟨r, hr, hp, rfl⟩ := go_eq_some.1 h
    have hstage : r.stage = .queued := by simpa using hp
    refine hi.goes hr rfl ?_ ?_
    · simp [hstage, initEnd, set, Stage.live]
    · simp [hstage, initEnd, set, Stage.onServer]
  | finish i =>
    obtain ⟨r, hr, hp, rfl⟩ := go_eq_some.1 h
    have hstage : r.stage = .working := by simpa using hp
    unfold destroyDeferEnd
    split
    · refine hi.goes hr rfl ?_ ?_
      · simp [hstage, set, Stage.live]
      · simp [hstage, set, Stage.onServer]
    · refine hi.goes hr rfl ?_ ?_
      · simp [hstage, set, Stage.live]
        omega
      · simp [hstage, set, Stage.onServer]
  | drop i =>
    obtain ⟨r, hr, hp, rfl⟩ := go_eq_some.1 h
    have hstage : r.stage = .dropping := by simpa using hp
    refine hi.destroyEnd hr (by rw [hstage]; rfl) rfl rfl ?_
    simp [RespState.destroyEnd, clearAborted, set, hstage, Stage.onServer]
  | destroy =>
    simp only [respStep] at h
    split at h
    · cases h
      have hc := hi.count
      constructor
      · simp only [clearAborted]
        omega
      · exact hi.server
    · cases h
  | respond i =>
    obtain ⟨r, hr, hp, rfl⟩ := go_eq_some.1 h
    simp only [Bool.and_eq_true, beq_iff_eq] at hp
    obtain ⟨hidle, hstage⟩ := hp
    refine hi.goes hr rfl ?_ ?_
    · simp [hstage, hidle, initEnd, set, Stage.live, ServerPC.emptyEnds]
    · simp [hstage, hidle, Stage.onServer, ServerPC.callbacks]
  | abort i =>
    obtain ⟨r, hr, hp, rfl⟩ := go_eq_some.1 h
    refine hi.goes hr rfl ?_ ?_
    · by_cases hstage : r.stage = .receiving
      · simp [hstage, markAborted, set, Stage.live]
      · simp [hstage, markAborted, set]
    · by_cases hstage : r.stage = .receiving
      · simp [hstage, markAborted, set, Stage.onServer]
      · simp [hstage, markAborted, set]

theorem endsInv_run {l : List RespAction} (h : run respStep {} l = some s) : s.EndsInv :=
  run_invariant (fun _ _ _ hi hs => EndsInv.step hi hs) endsInv_init h

/-! ## What is under way can go on -/

end RespState

/-- How far the answer still has to go. -/
def Stage.rank : Stage → Nat
  | validating => 7
  | validated | receiving => 6
  | handling => 5
  | queued => 4
  | working => 3
  | deferred => 2
  | dropping | responding => 1
  | finished => 0

/-- Neither a request that comes nor one that is aborted. -/
def RespAction.isWork : RespAction → Bool
  | refuse _ | getGuilds _ | postLogin _ | abort _ => false
  | _ => true

namespace RespState

variable {s s' : RespState} {i : Nat} {r : Request}

def rank (s : RespState) : Nat :=
  (s.requests.map (·.stage.rank)).sum + s.server.emptyEnds

theorem rank_lt {r' : Request} (hr : s.requests[i]? = some r)
    (hreq : s'.requests = s.requests.set i r') (hlt : r'.stage.rank < r.stage.rank)
    (hserver : s'.server.emptyEnds ≤ s.server.emptyEnds) : s'.rank < s.rank := by
  have hsum := sum_map_set_add (fun r => r.stage.rank) hr r'
  rw [rank, rank, hreq]
  omega

/-- The server thread ends the callback that it is in. -/
theorem EndsInv.serverProgress (hi : s.EndsInv) (hserver : s.server ≠ .idle) :
    ∃ a s', RespAction.isWork a ∧ respStep s a = some s' ∧ s'.rank < s.rank := by
  cases hb : s.server with
  | idle => exact absurd hb hserver
  | releasing =>
    refine ⟨.release, { s.clearAborted with server := .idle }, rfl, if_pos hb, ?_⟩
    simp [rank, clearAborted, hb, ServerPC.emptyEnds]
  | busy =>
    have hpos : 0 < s.requests.countP (·.stage.onServer) := by
      rw [hi.server, hb]
      exact Nat.one_pos
    obtain ⟨r, hr, hon⟩ := List.countP_pos_iff.1 hpos
    obtain ⟨i, hr⟩ := List.mem_iff_getElem?.1 hr
    cases hs : r.stage with
    | validating =>
      refine ⟨.validate i, _, rfl, go_eq_some.2 ⟨r, hr, by simp [hs], rfl⟩,
        rank_lt hr rfl ?_ le_rfl⟩
      simp [hs, Stage.rank]
    | validated =>
      refine ⟨.handle i, _, rfl, go_eq_some.2 ⟨r, hr, by simp [hs], rfl⟩, rank_lt hr rfl ?_ ?_⟩
      · simp [hs, Stage.rank]
      · exact Nat.zero_le _
    | handling | responding =>
      refine ⟨.answer i, _, rfl, go_eq_some.2 ⟨r, hr, by simp [hs], rfl⟩, rank_lt hr rfl ?_ ?_⟩
      · simp [hs, Stage.rank]
      · exact Nat.zero_le _
    | receiving | queued | working | dropping | deferred | finished =>
      rw [hs] at hon
      cases hon

theorem EndsInv.progress (hi : s.EndsInv) (hr : s.requests[i]? = some r)
    (hs : r.stage ≠ .finished) :
    ∃ a s', RespAction.isWork a ∧ respStep s a = some s' ∧ s'.rank < s.rank := by
  by_cases hidle : s.server = .idle
  swap
  · exact hi.serverProgress hidle
  cases hst : r.stage with
  | finished => exact absurd hst hs
  | receiving =>
    refine ⟨.handle i, _, rfl, go_eq_some.2 ⟨r, hr, by simp [hst, hidle], rfl⟩,
      rank_lt hr rfl ?_ ?_⟩
    · simp [hst, Stage.rank]
    · exact Nat.zero_le _
  | queued =>
    refine ⟨.start i, _, rfl, go_eq_some.2 ⟨r, hr, by simp [hst], rfl⟩, rank_lt hr rfl ?_ le_rfl⟩
    simp [hst, Stage.rank]
  | working =>
    refine ⟨.finish i, _, rfl, go_eq_some.2 ⟨r, hr, by simp [hst], rfl⟩, ?_⟩
    unfold destroyDeferEnd
    split
    · exact rank_lt hr rfl (by simp [hst, Stage.rank]) le_rfl
    · exact rank_lt hr rfl (by simp [hst, Stage.rank]) le_rfl
  | dropping =>
    refine ⟨.drop i, _, rfl, go_eq_some.2 ⟨r, hr, by simp [hst], rfl⟩, rank_lt hr rfl ?_ le_rfl⟩
    simp [hst, Stage.rank]
  | deferred =>
    refine ⟨.respond i, _, rfl, go_eq_some.2 ⟨r, hr, by simp [hst, hidle], rfl⟩,
      rank_lt hr rfl ?_ ?_⟩
    · simp [hst, Stage.rank]
    · exact Nat.zero_le _
  | validating | validated | handling | responding =>
    have hbusy := hi.busy hr (by rw [hst]; rfl)
    rw [hidle] at hbusy
    cases hbusy

/-- **Nothing waits for ever**: whatever was aborted or forgotten, the server thread and the tasks
can go on until every request is finished. -/
theorem EndsInv.finishes {n : Nat} (hi : s.EndsInv) (hn : s.rank = n) :
    ∃ l s', (∀ a ∈ l, a.isWork) ∧ run respStep s l = some s' ∧
      ∀ r ∈ s'.requests, r.stage = .finished := by
  induction n using Nat.strong_induction_on generalizing s with
  | _ n ih =>
    by_cases hall : ∀ r ∈ s.requests, r.stage = .finished
    · exact ⟨[], s, nofun, rfl, hall⟩
    · push Not at hall
      obtain ⟨r, hr, hs⟩ := hall
      obtain ⟨i, hr⟩ := List.mem_iff_getElem?.1 hr
      obtain ⟨a, s', ha, hstep, hlt⟩ := hi.progress hr hs
      obtain ⟨l, t, hl, hrun, hall⟩ := ih _ (hn ▸ hlt) (hi.step hstep) rfl
      refine ⟨a :: l, t, fun b hb => ?_, (run_cons hstep l).trans hrun, hall⟩
      rcases List.mem_cons.1 hb with rfl | hb
      · exact ha
      · exact hl b hb

end RespState

end Musicat.Server
