import Mathlib.Algebra.Ring.Int.Defs
import Musicat.Lib.Locks
import Musicat.Lib.Run

/-!
# OAuth states and their timers

`generate_oauth_state` registers the timer of a new state while it holds
`_oauth_states_m`. The sweeps over the timers hold `oauth_timers_m` while they
call back into the states. Each step of a thread goes to its next point at a
mutex; a loop of a sweep takes one step per timer.
-/

namespace Musicat.Server

open Lib

/-! ## States and timers -/

/-- A generated state: the bytes that `generate_oauth_state` appended. -/
abbrev OAuthState := List Char

/-- `oauth_timer_t`. `remove_fn` is `remove_oauth_state` in every timer; `shouldBreak` says whether
`should_break` is set, and then it is `should_break_oauth_states`. -/
structure OAuthTimer where
  ts : Int
  secondSleep : Int
  val : OAuthState
  shouldBreak : Bool
  deriving DecidableEq

/-- `STATE_LIFETIME`. -/
def stateLifetime : Int := 600

/-- `remove_oauth_state` under its mutex: the status, the redirect it found, the states left. -/
def removeOauthState (state : OAuthState) (states : List (OAuthState × String)) :
    Int × Option String × List (OAuthState × String) :=
  match states.find? (·.1 = state) with
  | none => (-1, none, states)
  | some i => (0, some i.2, states.eraseP (·.1 = state))

def shouldBreakOauthStates (val : OAuthState) (states : List (OAuthState × String)) : Bool :=
  (states.find? (·.1 = val)).isNone

/-- `register_timer` under its mutex. -/
def registerTimer (t : OAuthTimer) (timers : List OAuthTimer) : Int × List OAuthTimer :=
  if timers.contains t then (-1, timers) else (0, timers ++ [t])

def token : List Char := "0123456789abcdefghijklmnopqrstuvwxyzABCDEFGHIJKLMNOPQRSTUVWXYZ".toList

/-- A string that one turn of the loop of `generate_oauth_state` can draw. -/
def drawable (state : OAuthState) : Bool :=
  80 ≤ state.length && state.length ≤ 160 && state.all token.contains

/-- The timer has slept for more than its seconds. -/
def OAuthTimer.passed (t : OAuthTimer) (now : Int) : Bool :=
  decide (now - t.ts > t.secondSleep * 1000000000)

/-! ## Threads -/

inductive OAuthLock where
  /-- `_oauth_states_m`. -/
  | states
  /-- `oauth_timers_m`. -/
  | timers
  deriving DecidableEq

/-- The functions that walk over the timers. -/
inductive Sweep where
  | removeTimer (t : OAuthTimer)
  | checkTimers
  | removeAllTimers

/-- What a call returned. -/
inductive OAuthReturn where
  | none
  | status (n : Int)
  | removed (n : Int) (redirect : Option String)
  | state (s : OAuthState)

/-- Where a thread is. A point named after a mutex is in front of that mutex. -/
inductive OAuthPC where
  | done (r : OAuthReturn)
  /-- `remove_oauth_state`, called by itself. -/
  | remove (state : OAuthState)
  | removing (state : OAuthState)
  /-- `generate_oauth_state`. -/
  | generate (redirect : String)
  | drawing (redirect : String)
  /-- `register_timer`, called by itself or for a state just generated. -/
  | register (t : OAuthTimer) (generated : Option OAuthState)
  | registering (t : OAuthTimer) (generated : Option OAuthState)
  | generated (state : OAuthState)
  /-- `remove_timer`, `check_timers` or `remove_all_timers`, and its loop at timer `i`. -/
  | sweep (k : Sweep)
  | loop (k : Sweep) (i : Nat) (status : Int)
  /-- The call of `should_break` for timer `i`, which is `t`. -/
  | shouldBreak (t : OAuthTimer) (i : Nat)
  | breaking (t : OAuthTimer) (i : Nat)
  | clock (t : OAuthTimer) (i : Nat)
  /-- The call of `remove_fn` for timer `i`, which is `t`. -/
  | removeFn (k : Sweep) (t : OAuthTimer) (i : Nat) (status : Int)
  | removingFn (k : Sweep) (t : OAuthTimer) (i : Nat) (status : Int)

namespace OAuthPC

def isDone : OAuthPC → Bool
  | done _ => true
  | _ => false

def waits : OAuthPC → Option OAuthLock
  | remove _ | generate _ | shouldBreak _ _ | removeFn _ _ _ _ => some .states
  | register _ _ | sweep _ => some .timers
  | _ => none

def holds : OAuthPC → OAuthLock → Bool
  | removing _, .states | drawing _, .states | generated _, .states => true
  | register _ (some _), .states | registering _ (some _), .states => true
  | breaking _ _, .states | removingFn _ _ _ _, .states => true
  | registering _ _, .timers | loop _ _ _, .timers | clock _ _, .timers => true
  | shouldBreak _ _, .timers | breaking _ _, .timers => true
  | removeFn _ _ _ _, .timers | removingFn _ _ _ _, .timers => true
  | _, _ => false

/-- In `generate_oauth_state`, between its two mutexes. -/
def generating : OAuthPC → Bool
  | drawing _ | register _ (some _) => true
  | _ => false

/-- At `generate_oauth_state`, in front of its first mutex. -/
def isGenerate : OAuthPC → Bool
  | generate _ => true
  | _ => false

/-- In a callback of a sweep, in front of `_oauth_states_m`. -/
def callingBack : OAuthPC → Bool
  | shouldBreak _ _ | removeFn _ _ _ _ => true
  | _ => false

end OAuthPC

def oauthView : LockView OAuthPC OAuthLock where
  done p := p.isDone
  waits := OAuthPC.waits
  holds p l := p.holds l
  not_holds_of_done {p l} h := by cases p <;> cases l <;> simp_all [OAuthPC.isDone, OAuthPC.holds]
  not_holds_of_waits {p l} h := by
    cases p <;> cases l <;> simp_all [OAuthPC.waits, OAuthPC.holds]

structure OAuthSystem where
  threads : Threads Nat OAuthPC OAuthLock
  oauthStates : List (OAuthState × String)
  oauthTimers : List OAuthTimer

def OAuthSystem.init : OAuthSystem := ⟨⟨fun _ => .done .none, fun _ => none⟩, [], []⟩

/-- The functions a thread may call. -/
inductive OAuthCall where
  | generateOauthState (redirect : String)
  | removeOauthState (state : OAuthState)
  | registerTimer (t : OAuthTimer)
  | sweep (k : Sweep)

def OAuthCall.entry : OAuthCall → OAuthPC
  | generateOauthState redirect => .generate redirect
  | removeOauthState state => .remove state
  | registerTimer t => .register t none
  | sweep k => .sweep k

/-- The status a sweep starts with. -/
def Sweep.status : Sweep → Int
  | removeTimer _ | checkTimers => -1
  | removeAllTimers => 0

/-- What a sweep does with timer `i`, which is `t`. -/
def Sweep.visit (k : Sweep) (t : OAuthTimer) (i : Nat) (status : Int) : OAuthPC :=
  match k with
  | removeTimer t' => if t' = t then .removeFn k t i 0 else .loop k (i + 1) status
  | checkTimers => if t.shouldBreak then .shouldBreak t i else .clock t i
  | removeAllTimers => .removeFn k t i status

inductive OAuthAction where
  | call (t : Nat) (c : OAuthCall)
  /-- Thread `t` goes on; `now` is the clock and `drawn` the string it may draw. -/
  | go (t : Nat) (now : Int) (drawn : OAuthState)

/-- The thread that acts. -/
def OAuthAction.thread : OAuthAction → Nat
  | call t _ => t
  | go t _ _ => t

namespace OAuthSystem

/-- Thread `t` goes on. -/
def go (s : OAuthSystem) (t : Nat) (now : Int) (drawn : OAuthState) : Option OAuthSystem :=
  let goto p := some { s with threads := s.threads.goto t p }
  let take l p := (s.threads.take t l p).map fun threads => { s with threads }
  match s.threads.pc t with
  | .done _ => none
  | .remove state => take .states (.removing state)
  | .removing state =>
    let (n, redirect, states) := removeOauthState state s.oauthStates
    some ⟨s.threads.drop t .states (.done (.removed n redirect)), states, s.oauthTimers⟩
  | .generate redirect => take .states (.drawing redirect)
  | .drawing redirect =>
    if !drawable drawn then none
    -- a state that exists is drawn again
    else if !shouldBreakOauthStates drawn s.oauthStates then goto (.drawing redirect)
    else
      some ⟨s.threads.goto t (.register ⟨now, stateLifetime, drawn, true⟩ (some drawn)),
        (drawn, redirect) :: s.oauthStates, s.oauthTimers⟩
  | .register tm g => take .timers (.registering tm g)
  | .registering tm g =>
    let (n, timers) := registerTimer tm s.oauthTimers
    let p := match g with
      | none => .done (.status n)
      | some state => .generated state
    some ⟨s.threads.drop t .timers p, s.oauthStates, timers⟩
  | .generated state => some { s with threads := s.threads.drop t .states (.done (.state state)) }
  | .sweep k => take .timers (.loop k 0 k.status)
  | .loop k i status =>
    match s.oauthTimers[i]? with
    | none => some { s with threads := s.threads.drop t .timers (.done (.status status)) }
    | some tm => goto (k.visit tm i status)
  | .shouldBreak tm i => take .states (.breaking tm i)
  | .breaking tm i =>
    if shouldBreakOauthStates tm.val s.oauthStates then
      some ⟨s.threads.drop t .states (.loop .checkTimers i (-1)), s.oauthStates,
        s.oauthTimers.eraseIdx i⟩
    else some { s with threads := s.threads.drop t .states (.clock tm i) }
  | .clock tm i =>
    if tm.passed now then goto (.removeFn .checkTimers tm i (-1))
    else goto (.loop .checkTimers (i + 1) (-1))
  | .removeFn k tm i status => take .states (.removingFn k tm i status)
  | .removingFn k tm i status =>
    some ⟨s.threads.drop t .states (.loop k i status), (removeOauthState tm.val s.oauthStates).2.2,
      s.oauthTimers.eraseIdx i⟩

/-- In its next step thread `t` calls back into the states. -/
def callsBack (s : OAuthSystem) (t : Nat) (now : Int) : Bool :=
  match s.threads.pc t with
  | .loop k i status => s.oauthTimers[i]?.any fun tm => (k.visit tm i status).callingBack
  | .clock tm _ => tm.passed now
  | _ => false

/-- The owner of `l`, if there is one, is at a point with `q`. -/
def ownerAt (s : OAuthSystem) (l : OAuthLock) (q : OAuthPC → Bool) : Bool :=
  (s.threads.owner l).any fun u => q (s.threads.pc u)

end OAuthSystem

def oauthStep (s : OAuthSystem) : OAuthAction → Option OAuthSystem
  | .call t c =>
    if (s.threads.pc t).isDone then some { s with threads := s.threads.goto t c.entry } else none
  | .go t now drawn => s.go t now drawn

namespace OAuthSystem

/-! ## The mutexes in two orders -/

/-- A sweep calls back only when no `generate_oauth_state` is between its mutexes, and
`generate_oauth_state` takes its first mutex only when no sweep waits in a callback. -/
def Apart (s : OAuthSystem) : OAuthAction → Prop
  | .call _ _ => True
  | .go t now _ =>
    (s.callsBack t now → s.ownerAt .states OAuthPC.generating = false) ∧
      ((s.threads.pc t).isGenerate → s.ownerAt .timers OAuthPC.callingBack = false)

instance (s : OAuthSystem) (a : OAuthAction) : Decidable (s.Apart a) :=
  match a with
  | .call _ _ => isTrue trivial
  | .go t now _ => inferInstanceAs (Decidable
      ((s.callsBack t now → s.ownerAt .states OAuthPC.generating = false) ∧
        ((s.threads.pc t).isGenerate →
          s.ownerAt .timers OAuthPC.callingBack = false)))

variable {s s' : OAuthSystem}

theorem visit_spec (k : Sweep) (t : OAuthTimer) (i : Nat) (status : Int) :
    (∀ l, (k.visit t i status).holds l = (OAuthPC.loop k i status).holds l) ∧
      (k.visit t i status).generating = false := by
  cases k <;> simp only [Sweep.visit] <;> (try split) <;>
    exact ⟨fun l => by cases l <;> rfl, rfl⟩

/-- Thread `t` goes to `p`; it gets between the mutexes only from `generate`, and into a callback
only by `callsBack`. -/
structure Goes (s : OAuthSystem) (t : Nat) (now : Int) (p : OAuthPC) (s' : OAuthSystem) : Prop where
  moves : s.threads.Moves oauthView t p s'.threads
  generating : p.generating → (s.threads.pc t).generating ∨ (s.threads.pc t).isGenerate
  callingBack : p.callingBack → s.callsBack t now

section
variable {t : Nat} {now : Int} {p q : OAuthPC} {l : OAuthLock}
  (hpc : s.threads.pc t = q)
  (hg : p.generating → q.generating ∨ q.isGenerate) (hc : p.callingBack = false)
include hpc hg hc

theorem goes_take {threads : Threads Nat OAuthPC OAuthLock}
    (h : s.threads.take t l p = some threads)
    (hp : ∀ k, p.holds k = (k == l || q.holds k)) : s.Goes t now p { s with threads } where
  moves := .take h fun k => by simp [oauthView, hpc, hp]
  generating := hpc ▸ hg
  callingBack h := by simp [hc] at h

theorem goes_drop (hl : q.holds l) (hp : ∀ k, p.holds k = (k != l && q.holds k))
    (states : List (OAuthState × String)) (timers : List OAuthTimer) :
    s.Goes t now p ⟨s.threads.drop t l p, states, timers⟩ where
  moves := .drop (hpc ▸ hl) fun k => by simp [oauthView, hpc, hp]
  generating := hpc ▸ hg
  callingBack h := by simp [hc] at h

theorem goes_goto (hp : ∀ k, p.holds k = q.holds k) (states : List (OAuthState × String))
    (timers : List OAuthTimer) : s.Goes t now p ⟨s.threads.goto t p, states, timers⟩ where
  moves := .goto fun k => by simp [oauthView, hpc, hp]
  generating := hpc ▸ hg
  callingBack h := by simp [hc] at h

end

/-- What a step does to the program counters. -/
theorem go_goes {t : Nat} {now : Int} {drawn : OAuthState} (h : s.go t now drawn = some s') :
    ∃ p, s.Goes t now p s' := by
  cases hpc : s.threads.pc t <;> simp only [go, hpc] at h
  case done r => cases h
  case remove state =>
    obtain ⟨threads, ht, rfl⟩ := Option.map_eq_some_iff.1 h
    exact ⟨_, goes_take hpc (by nofun) rfl ht fun k => by cases k <;> rfl⟩
  case removing state =>
    cases h
    exact ⟨_, goes_drop hpc (by nofun) rfl rfl (fun k => by cases k <;> rfl) _ _⟩
  case generate redirect =>
    obtain ⟨threads, ht, rfl⟩ := Option.map_eq_some_iff.1 h
    exact ⟨_, goes_take hpc (fun _ => .inr rfl) rfl ht fun k => by cases k <;> rfl⟩
  case drawing redirect =>
    split at h
    · cases h
    split at h <;> cases h
    · exact ⟨_, goes_goto hpc (fun _ => .inl rfl) rfl (fun k => rfl) _ _⟩
    · exact ⟨_, goes_goto hpc (fun _ => .inl rfl) rfl (fun k => by cases k <;> rfl) _ _⟩
  case register tm g =>
    obtain ⟨threads, ht, rfl⟩ := Option.map_eq_some_iff.1 h
    exact ⟨_, goes_take hpc (by nofun) rfl ht fun k => by cases k <;> cases g <;> rfl⟩
  case registering tm g =>
    cases h
    cases g with
    | none => exact ⟨_, goes_drop hpc (by nofun) rfl rfl (fun k => by cases k <;> rfl) _ _⟩
    | some state => exact ⟨_, goes_drop hpc (by nofun) rfl rfl (fun k => by cases k <;> rfl) _ _⟩
  case generated state =>
    cases h
    exact ⟨_, goes_drop hpc (by nofun) rfl rfl (fun k => by cases k <;> rfl) _ _⟩
  case sweep k =>
    obtain ⟨threads, ht, rfl⟩ := Option.map_eq_some_iff.1 h
    exact ⟨_, goes_take hpc (by nofun) rfl ht fun k => by cases k <;> rfl⟩
  case loop k i status =>
    split at h
    · cases h
      exact ⟨_, goes_drop hpc (by nofun) rfl rfl (fun k => by cases k <;> rfl) _ _⟩
    · rename_i tm htm
      cases h
      obtain ⟨hh, hg⟩ := visit_spec k tm i status
      exact ⟨_, .goto fun l => by simp only [oauthView, hpc, hh], by simp [hg],
        fun hc => by simpa [callsBack, hpc, htm] using hc⟩
  case shouldBreak tm i =>
    obtain ⟨threads, ht, rfl⟩ := Option.map_eq_some_iff.1 h
    exact ⟨_, goes_take hpc (by nofun) rfl ht fun k => by cases k <;> rfl⟩
  case breaking tm i =>
    split at h <;> cases h
    · exact ⟨_, goes_drop hpc (by nofun) rfl rfl (fun k => by cases k <;> rfl) _ _⟩
    · exact ⟨_, goes_drop hpc (by nofun) rfl rfl (fun k => by cases k <;> rfl) _ _⟩
  case clock tm i =>
    split at h <;> rename_i hp <;> cases h
    · exact ⟨_, .goto fun k => by cases k <;> simp [oauthView, hpc, OAuthPC.holds], nofun,
        fun _ => by simpa [callsBack, hpc] using hp⟩
    · exact ⟨_, goes_goto hpc (by nofun) rfl (fun k => by cases k <;> rfl) _ _⟩
  case removeFn k tm i status =>
    obtain ⟨threads, ht, rfl⟩ := Option.map_eq_some_iff.1 h
    exact ⟨_, goes_take hpc (by nofun) rfl ht fun k => by cases k <;> rfl⟩
  case removingFn k tm i status =>
    cases h
    exact ⟨_, goes_drop hpc (by nofun) rfl rfl (fun k => by cases k <;> rfl) _ _⟩

/-! ## Along steps that stay apart -/

/-- The owners are right, and no `generate_oauth_state` between its mutexes meets a callback. -/
structure ApartInv (s : OAuthSystem) : Prop where
  owned : s.threads.Owned oauthView
  apart : ∀ t u, (s.threads.pc t).generating → ¬ (s.threads.pc u).callingBack

theorem apartInv_init : ApartInv init where
  owned t l := by simp [init, oauthView, OAuthPC.holds]
  apart _ _ h := by cases h

theorem holds_of_generating {p : OAuthPC} (h : p.generating) : p.holds .states := by
  cases p with
  | drawing => rfl
  | register t g => cases g <;> trivial
  | _ => cases h

theorem holds_of_callingBack {p : OAuthPC} (h : p.callingBack) : p.holds .timers := by
  cases p with
  | shouldBreak => rfl
  | removeFn => rfl
  | _ => cases h

theorem not_callingBack_of_generating {p : OAuthPC} (h : p.generating) : ¬ p.callingBack := by
  cases p with
  | drawing => nofun
  | register => nofun
  | _ => cases h

theorem generating_of_waits {p : OAuthPC} (h : p.holds .states)
    (hw : p.waits = some .timers) : p.generating := by
  cases p with
  | register t g => cases g with
    | none => cases h
    | some state => rfl
  | sweep k => cases h
  | _ => cases hw

theorem callingBack_of_waits {p : OAuthPC} (h : p.holds .timers)
    (hw : p.waits = some .states) : p.callingBack := by
  cases p with
  | shouldBreak => rfl
  | removeFn => rfl
  | remove => cases h
  | generate => cases h
  | _ => cases hw

/-- **One move**: it keeps the invariant if it starts to hold the states only with no callback
about, and calls back only with no `generate_oauth_state` between its mutexes. -/
theorem ApartInv.moves (hi : s.ApartInv) {t : Nat} {p : OAuthPC}
    (h : s.threads.Moves oauthView t p s'.threads)
    (hg : p.generating → (s.threads.pc t).generating ∨
      s.ownerAt .timers OAuthPC.callingBack = false)
    (hc : p.callingBack → s.ownerAt .states OAuthPC.generating = false) : s'.ApartInv where
  owned := h.owned hi.owned
  apart :=
    h.apart (·.generating) (·.generating) (·.callingBack) hi.owned
      (fun _ => holds_of_generating) (fun _ => holds_of_callingBack)
      (fun _ => not_callingBack_of_generating) (fun _ _ hu => hu) hi.apart
      (fun hp => (hg hp).imp_right fun hn u hu => by simpa [ownerAt, hu] using hn)
      (fun hp u hu => by simpa [ownerAt, hu] using hc hp)

/-- A call starts at a point that holds nothing. -/
theorem holds_entry (c : OAuthCall) (l : OAuthLock) : c.entry.holds l = false := by
  cases c <;> cases l <;> rfl

theorem call_moves {t : Nat} {c : OAuthCall} (h : oauthStep s (.call t c) = some s') :
    (s.threads.pc t).isDone ∧ s.threads.Moves oauthView t c.entry s'.threads := by
  simp only [oauthStep] at h
  split at h
  · rename_i hdone
    cases h
    refine ⟨hdone, .goto fun k => ?_⟩
    have hnot := oauthView.not_holds_of_done (l := k) hdone
    simp only [hnot, iff_false]
    simp [oauthView, holds_entry]
  · cases h

theorem ApartInv.step (hi : s.ApartInv) {a : OAuthAction} (ha : s.Apart a)
    (h : oauthStep s a = some s') : s'.ApartInv := by
  cases a with
  | call t c => exact hi.moves (call_moves h).2 (by cases c <;> nofun) (by cases c <;> nofun)
  | go t now drawn =>
    obtain ⟨p, hgo⟩ := go_goes h
    exact hi.moves hgo.moves (fun hp => (hgo.generating hp).imp_right ha.2)
      fun hp => ha.1 (hgo.callingBack hp)

/-- **No deadlock** in a run in which the callbacks of the sweeps stay apart from
`generate_oauth_state`. -/
theorem oauth_no_deadlock {l : List OAuthAction} (hl : Along oauthStep Apart init l)
    (h : run oauthStep init l = some s) : ¬ s.threads.Deadlock oauthView := by
  have hi : s.ApartInv := run_inv (fun _ _ _ hi ha hs => hi.step ha hs) apartInv_init hl h
  have hall : ∀ l : OAuthLock, l = .states ∨ l = .timers := fun l => by cases l <;> simp
  exact hi.owned.not_deadlock hall (by decide) (fun _ => generating_of_waits)
    (fun _ => callingBack_of_waits) hi.apart

/-! ## Steps that do not -/

theorem take_of_owner {t u : Nat} {l : OAuthLock} (h : s.threads.owner l = some u) (p : OAuthPC) :
    s.threads.take t l p = none := by
  simp [Threads.take, h]

theorem go_callingBack {u v : Nat} {now : Int} {drawn : OAuthState}
    (hu : (s.threads.pc u).callingBack) (hv : s.threads.owner .states = some v) :
    s.go u now drawn = none := by
  cases hpc : s.threads.pc u with
  | shouldBreak tm i => simp [go, hpc, take_of_owner hv]
  | removeFn k tm i status => simp [go, hpc, take_of_owner hv]
  | _ => rw [hpc] at hu; cases hu

theorem go_generating {t v : Nat} {now : Int} {drawn : OAuthState} (h : s.go t now drawn = some s')
    (ht : (s.threads.pc t).generating) (hv : s.threads.owner .timers = some v) :
    (s'.threads.pc t).generating := by
  cases hpc : s.threads.pc t with
  | drawing redirect =>
    simp only [go, hpc] at h
    split at h
    · cases h
    split at h <;> cases h
    · simp [Threads.goto, OAuthPC.generating]
    · simp [Threads.goto, OAuthPC.generating]
  | register tm g =>
    simp [go, hpc, take_of_owner hv] at h
  | _ => rw [hpc] at ht; cases ht

theorem step_moves {a : OAuthAction} (h : oauthStep s a = some s') :
    ∃ p, s.threads.Moves oauthView a.thread p s'.threads := by
  cases a with
  | call t c => exact ⟨_, (call_moves h).2⟩
  | go t now drawn =>
    obtain ⟨p, hgo⟩ := go_goes h
    exact ⟨p, hgo.moves⟩

/-- A thread that does not act stays where it is. -/
theorem step_pc {a : OAuthAction} (h : oauthStep s a = some s') {t : Nat} (ht : a.thread ≠ t) :
    s'.threads.pc t = s.threads.pc t := by
  obtain ⟨p, hp⟩ := step_moves h
  rw [hp.pc]
  exact Function.update_of_ne (Ne.symm ht) _ _

theorem owner_ne_of_done (hown : s.threads.Owned oauthView) {t : Nat}
    (h : (s.threads.pc t).isDone) {l : OAuthLock} : s.threads.owner l ≠ some t :=
  fun ho => oauthView.not_holds_of_done h ((hown t l).1 ho)

/-- **A `generate_oauth_state` between its mutexes and a callback that have met never finish.** -/
theorem crossed_forever {l : List OAuthAction} {t u : Nat} (hown : s.threads.Owned oauthView)
    (ht : (s.threads.pc t).generating) (hu : (s.threads.pc u).callingBack)
    (h : run oauthStep s l = some s') :
    (s'.threads.pc t).generating ∧ (s'.threads.pc u).callingBack := by
  refine (run_invariant (I := fun s => s.threads.Owned oauthView ∧
    (s.threads.pc t).generating ∧ (s.threads.pc u).callingBack) ?_ ⟨hown, ht, hu⟩ h).2
  rintro s a s' ⟨hown, ht, hu⟩ hs
  have hstates := (hown t .states).2 (holds_of_generating ht)
  have htimers := (hown u .timers).2 (holds_of_callingBack hu)
  obtain ⟨p, hp⟩ := step_moves hs
  refine ⟨hp.owned hown, ?_, ?_⟩
  · by_cases hat : a.thread = t
    · cases a with
      | call v c =>
        obtain rfl : v = t := hat
        exact absurd hstates (owner_ne_of_done hown (call_moves hs).1)
      | go v now drawn =>
        obtain rfl : v = t := hat
        exact go_generating hs ht htimers
    · rwa [step_pc hs hat]
  · by_cases hau : a.thread = u
    · cases a with
      | call v c =>
        obtain rfl : v = u := hau
        exact absurd htimers (owner_ne_of_done hown (call_moves hs).1)
      | go v now drawn =>
        obtain rfl : v = u := hau
        simp only [oauthStep, go_callingBack hu hstates] at hs
        cases hs
    · rwa [step_pc hs hau]

/-! ## Two threads -/

def sampleState : OAuthState := List.replicate 80 '0'

def sampleState' : OAuthState := List.replicate 80 '1'

/-- Thread 0 generates a state; thread 1 then checks its timer. -/
def checkedAfter : List OAuthAction :=
  [.call 0 (.generateOauthState "/"), .go 0 0 [], .go 0 0 sampleState, .go 0 0 [], .go 0 0 [],
    .go 0 0 [], .call 1 (.sweep .checkTimers), .go 1 1 [], .go 1 1 [], .go 1 1 [], .go 1 1 []]

theorem oauth_no_deadlock_checkedAfter :
    ∃ s, run oauthStep init checkedAfter = some s ∧ ¬ s.threads.Deadlock oauthView :=
  have ⟨s, hs⟩ := Option.isSome_iff_exists.1
    (by decide +kernel : (run oauthStep init checkedAfter).isSome)
  ⟨s, hs, oauth_no_deadlock (l := checkedAfter) (by decide +kernel) hs⟩

/-- Thread 0 generates another state, and has its first mutex when thread 1 gets to the callback. -/
def checkedMeanwhile : List OAuthAction :=
  [.call 0 (.generateOauthState "/"), .go 0 0 [], .go 0 0 sampleState, .go 0 0 [], .go 0 0 [],
    .go 0 0 [], .call 0 (.generateOauthState "/"), .go 0 1 [], .call 1 (.sweep .checkTimers),
    .go 1 1 [], .go 1 1 [], .go 0 1 sampleState']

theorem oauth_deadlock_checkedMeanwhile :
    ∃ s, run oauthStep init checkedMeanwhile = some s ∧ s.threads.Deadlock oauthView := by
  obtain ⟨s, hs, hw⟩ := (Option.any_eq_true _ _).1 (by decide +kernel :
    (run oauthStep init checkedMeanwhile).any (fun s => ¬ (s.threads.pc 0).isDone ∧
      (s.threads.pc 0).waits = some .timers ∧ s.threads.owner .timers = some 1 ∧
        (s.threads.pc 1).waits = some .states ∧ s.threads.owner .states = some 0))
  obtain ⟨hd₀, hw₀, ho₀, hw₁, ho₁⟩ := of_decide_eq_true hw
  refine ⟨s, hs, Threads.deadlock_of_crossed Nat.zero_ne_one hd₀ hw₀ ho₀ hw₁ ho₁ fun t h0 h1 => ?_⟩
  rw [Threads.run_pc (t := t) OAuthSystem.threads OAuthAction.thread step_moves ?_ hs]
  · rfl
  · simp [checkedMeanwhile, OAuthAction.thread, Ne.symm h0, Ne.symm h1]

end OAuthSystem

end Musicat.Server
