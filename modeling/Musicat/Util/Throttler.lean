import Musicat.Lib.Run
import Musicat.Lib.Weigh

/-!
# `throttler_t`

Any number of threads construct and destroy a `throttle_sync_t` of one
throttler. The constructor waits on `c_cv` while `c >= max_c`; the destructor
gives its place back under `c_m` and calls `notify_one` after it released the
mutex. What happens under `c_m` is one step; a notification wakes any of the
threads in `wait`, and a thread may wake for no reason.

The condition that carries the absence of lost wake-ups is `Throttler.Woken`:
when a thread is asleep, every free place is matched by a notification that is
still to come or by a thread that is awake and has not looked yet.
-/

namespace Musicat.Util

open Lib

/-- Where a thread is in the life of its `throttle_sync_t`. -/
inductive Caller where
  | outside
  /-- In the constructor, about to take `c_m` for the first time. -/
  | entering
  /-- In `c_cv.wait`. -/
  | asleep
  /-- Out of `c_cv.wait`, about to take `c_m` again. -/
  | woken
  /-- The constructor has returned. -/
  | holding
  /-- The destructor has released `c_m`, and `notify_one` is next. -/
  | notifying
  deriving DecidableEq, Repr

/-- The throttler and the threads `τ` that use it. -/
structure Throttler (τ : Type*) where
  c : Int := 0
  maxC : Int := 2
  caller : τ → Caller := fun _ => .outside

inductive ThrottlerAction (τ : Type*) where
  /-- `throttle ()` is called. -/
  | throttle (t : τ)
  /-- The constructor has `c_m` and evaluates `t->c >= t->max_c`. -/
  | evaluate (t : τ)
  /-- `c_cv.wait` returns without a notification. -/
  | wake (t : τ)
  /-- The block of the destructor that holds `c_m`. -/
  | release (t : τ)
  /-- `notify_one`, which wakes the thread `u` if there is one to wake. -/
  | notifyOne (t : τ) (u : Option τ)
  deriving DecidableEq, Repr

namespace Throttler

section
variable {τ : Type*}

/-- `throttler_t (int max_run = 2)`. -/
def new (maxRun : Int) : Throttler τ := { maxC := maxRun }

/-- `will_block`. -/
def willBlock (s : Throttler τ) : Bool := s.c ≥ s.maxC

variable [DecidableEq τ]

/-- Thread `t` goes to `p`. -/
def goto (s : Throttler τ) (t : τ) (p : Caller) : Throttler τ :=
  { s with caller := Function.update s.caller t p }

/-- What the constructor does with `c_m`: it goes to sleep, or takes a place. -/
def evaluate (s : Throttler τ) (t : τ) : Throttler τ :=
  if s.c ≥ s.maxC then s.goto t .asleep
  else { s with c := s.c + 1 }.goto t .holding

/-- `notify_one`: some thread that is in `wait`, and none only when there is none. -/
def notifyOne [Fintype τ] (s : Throttler τ) (t : τ) : Option τ → Option (Throttler τ)
  | some u =>
    if s.caller u = .asleep then some ((s.goto t .outside).goto u .woken) else none
  | none =>
    if ∀ u, s.caller u ≠ .asleep then some (s.goto t .outside) else none

/-- A step of one thread. -/
def step [Fintype τ] (s : Throttler τ) : ThrottlerAction τ → Option (Throttler τ)
  | .throttle t => if s.caller t = .outside then some (s.goto t .entering) else none
  | .evaluate t =>
    if s.caller t = .entering ∨ s.caller t = .woken then some (s.evaluate t) else none
  | .wake t => if s.caller t = .asleep then some (s.goto t .woken) else none
  | .release t =>
    if s.caller t = .holding then some ({ s with c := s.c - 1 }.goto t .notifying) else none
  | .notifyOne t u => if s.caller t = .notifying then s.notifyOne t u else none

end

/-! ## What a step does -/

section
variable {τ : Type*} [DecidableEq τ]

@[simp] theorem goto_c (s : Throttler τ) (t : τ) (p : Caller) : (s.goto t p).c = s.c := rfl

@[simp] theorem goto_maxC (s : Throttler τ) (t : τ) (p : Caller) : (s.goto t p).maxC = s.maxC := rfl

theorem goto_caller_of_ne {s : Throttler τ} {t u : τ} {p : Caller} (h : u ≠ t) :
    (s.goto t p).caller u = s.caller u := Function.update_of_ne h _ _

/-- Who moves from where to where, and what becomes of `c`. -/
inductive Steps (s : Throttler τ) : ThrottlerAction τ → Throttler τ → Prop where
  | throttle {t : τ} (h : s.caller t = .outside) : Steps s (.throttle t) (s.goto t .entering)
  | sleep {t : τ} (h : s.caller t = .entering ∨ s.caller t = .woken) (hc : s.c ≥ s.maxC) :
      Steps s (.evaluate t) (s.goto t .asleep)
  | enter {t : τ} (h : s.caller t = .entering ∨ s.caller t = .woken) (hc : s.c < s.maxC) :
      Steps s (.evaluate t) ({ s with c := s.c + 1 }.goto t .holding)
  | wake {t : τ} (h : s.caller t = .asleep) : Steps s (.wake t) (s.goto t .woken)
  | release {t : τ} (h : s.caller t = .holding) :
      Steps s (.release t) ({ s with c := s.c - 1 }.goto t .notifying)
  | notify {t u : τ} (h : s.caller t = .notifying) (hu : s.caller u = .asleep) :
      Steps s (.notifyOne t (some u)) ((s.goto t .outside).goto u .woken)
  | nobody {t : τ} (h : s.caller t = .notifying) (hu : ∀ u, s.caller u ≠ .asleep) :
      Steps s (.notifyOne t none) (s.goto t .outside)

theorem step_cases [Fintype τ] {s s' : Throttler τ} {a : ThrottlerAction τ}
    (h : s.step a = some s') : s.Steps a s' := by
  cases a with
  | throttle t =>
    simp only [step, Option.ite_none_right_eq_some, Option.some.injEq] at h
    obtain ⟨ht, rfl⟩ := h
    exact .throttle ht
  | evaluate t =>
    simp only [step, evaluate, Option.ite_none_right_eq_some, Option.some.injEq] at h
    obtain ⟨ht, rfl⟩ := h
    split
    · exact .sleep ht ‹_›
    · exact .enter ht (not_le.1 ‹_›)
  | wake t =>
    simp only [step, Option.ite_none_right_eq_some, Option.some.injEq] at h
    obtain ⟨ht, rfl⟩ := h
    exact .wake ht
  | release t =>
    simp only [step, Option.ite_none_right_eq_some, Option.some.injEq] at h
    obtain ⟨ht, rfl⟩ := h
    exact .release ht
  | notifyOne t u =>
    cases u with
    | none =>
      simp only [step, notifyOne, Option.ite_none_right_eq_some, Option.some.injEq] at h
      obtain ⟨ht, hu, rfl⟩ := h
      exact .nobody ht hu
    | some u =>
      simp only [step, notifyOne, Option.ite_none_right_eq_some, Option.some.injEq] at h
      obtain ⟨ht, hu, rfl⟩ := h
      exact .notify ht hu

end

/-! ## The threads at a place -/

def isHolding : Caller → Nat
  | .holding => 1
  | _ => 0

def isAsleep : Caller → Nat
  | .asleep => 1
  | _ => 0

/-- Those that look at `c` again, or make another thread look, whatever the others do. -/
def isStirring : Caller → Nat
  | .woken | .notifying => 1
  | _ => 0

/-- How far a thread is from the end of its destructor. A notification takes two from the thread
that gives it and gives one to the thread that is woken. -/
def toGo : Caller → Nat
  | .outside => 0
  | .entering => 4
  | .asleep => 3
  | .woken => 4
  | .holding => 3
  | .notifying => 2

section
variable {τ : Type*} [Fintype τ]

def holders (s : Throttler τ) : Nat := weigh isHolding s.caller

def sleepers (s : Throttler τ) : Nat := weigh isAsleep s.caller

def stirring (s : Throttler τ) : Nat := weigh isStirring s.caller

def distance (s : Throttler τ) : Nat := weigh toGo s.caller

/-- `c` counts the threads whose constructor has returned, and they are no more than `max_c`. -/
structure Counted (s : Throttler τ) : Prop where
  c_eq : s.c = s.holders
  le : 0 < s.c → s.c ≤ s.maxC

/-- **No lost wake-up**: when a thread sleeps, every free place has somebody who will see it. -/
def Woken (s : Throttler τ) : Prop := s.sleepers ≠ 0 → s.maxC ≤ s.c + s.stirring

theorem sleepers_ne_zero {s : Throttler τ} {t : τ} (h : s.caller t = .asleep) :
    s.sleepers ≠ 0 := by
  have hle : isAsleep (s.caller t) ≤ s.sleepers := le_weigh (w := isAsleep) t
  rw [h] at hle
  exact Nat.one_le_iff_ne_zero.1 hle

theorem sleepers_eq_zero {s : Throttler τ} (h : ∀ t, s.caller t ≠ .asleep) : s.sleepers = 0 :=
  weigh_eq_zero.2 fun t => by
    have := h t
    cases ht : s.caller t <;> simp_all [isAsleep]

theorem counted_new (maxRun : Int) : (new maxRun : Throttler τ).Counted :=
  ⟨(congrArg Nat.cast (weigh_const (τ := τ) Caller.outside rfl)).symm, fun h => absurd h (lt_irrefl 0)⟩

theorem woken_new (maxRun : Int) : (new maxRun : Throttler τ).Woken := fun h =>
  absurd (weigh_const (τ := τ) Caller.outside rfl) h

variable [DecidableEq τ] {s s' : Throttler τ}

theorem weigh_goto (w : Caller → Nat) {t : τ} {p : Caller} (h : s.caller t = p) (q : Caller) :
    weigh w (s.goto t q).caller + w p = weigh w s.caller + w q :=
  h ▸ weigh_update t q

/-- The two threads of a notification. -/
theorem weigh_notify (w : Caller → Nat) {t u : τ} (h : s.caller t = .notifying)
    (hu : s.caller u = .asleep) :
    weigh w ((s.goto t .outside).goto u .woken).caller + w .notifying + w .asleep =
      weigh w s.caller + w .outside + w .woken := by
  have hne : u ≠ t := fun he => by simp [he, h] at hu
  have ht := weigh_goto w h .outside
  have hu := weigh_goto w (s := s.goto t .outside) ((goto_caller_of_ne hne).trans hu) .woken
  omega

/-! ## What every step keeps -/

theorem step_maxC {a : ThrottlerAction τ} (h : s.step a = some s') : s'.maxC = s.maxC := by
  cases step_cases h <;> rfl

/-- A place is taken by the constructor's last step and given back by the destructor's first. -/
theorem step_holders {a : ThrottlerAction τ} (h : s.step a = some s') :
    s'.c + s.holders = s.c + s'.holders ∧ (s.c < s'.c → s'.c ≤ s.maxC) := by
  unfold holders
  cases step_cases h with
  | throttle ht =>
    have hw := weigh_goto isHolding ht .entering
    simp only [isHolding, goto_c] at hw ⊢
    omega
  | sleep ht hfull =>
    rcases ht with ht | ht <;> have hw := weigh_goto isHolding ht .asleep <;>
      simp only [isHolding, goto_c] at hw ⊢ <;> omega
  | enter ht hfree =>
    rcases ht with ht | ht <;>
      have hw := weigh_goto (s := { s with c := s.c + 1 }) isHolding ht .holding <;>
      simp only [isHolding, goto_c] at hw ⊢ <;> omega
  | wake ht =>
    have hw := weigh_goto isHolding ht .woken
    simp only [isHolding, goto_c] at hw ⊢
    omega
  | release ht =>
    have hw := weigh_goto (s := { s with c := s.c - 1 }) isHolding ht .notifying
    simp only [isHolding, goto_c] at hw ⊢
    omega
  | notify ht hu =>
    have hw := weigh_notify isHolding ht hu
    simp only [isHolding, goto_c] at hw ⊢
    omega
  | nobody ht hu =>
    have hw := weigh_goto isHolding ht .outside
    simp only [isHolding, goto_c] at hw ⊢
    omega

theorem Counted.step {a : ThrottlerAction τ} (hi : s.Counted) (h : s.step a = some s') :
    s'.Counted := by
  obtain ⟨hc, hle⟩ := hi
  obtain ⟨hh, hmax⟩ := step_holders h
  have hm := step_maxC h
  refine ⟨by omega, fun hpos => ?_⟩
  rcases lt_or_ge s.c s'.c with hlt | hge
  · exact hm ▸ hmax hlt
  · exact hm ▸ hge.trans (hle (by omega))

theorem Woken.step {a : ThrottlerAction τ} (hi : s.Woken) (h : s.step a = some s') :
    s'.Woken := by
  unfold Woken sleepers stirring at hi ⊢
  cases step_cases h with
  | throttle ht =>
    have hsleep := weigh_goto isAsleep ht .entering
    have hstir := weigh_goto isStirring ht .entering
    simp only [isAsleep, isStirring, goto_c, goto_maxC] at hsleep hstir ⊢
    omega
  | sleep ht hfull =>
    intro _
    simp only [goto_c, goto_maxC]
    omega
  | enter ht hfree =>
    rcases ht with ht | ht <;>
      have hsleep := weigh_goto (s := { s with c := s.c + 1 }) isAsleep ht .holding <;>
      have hstir := weigh_goto (s := { s with c := s.c + 1 }) isStirring ht .holding <;>
      simp only [isAsleep, isStirring, goto_c, goto_maxC] at hsleep hstir ⊢ <;> omega
  | wake ht =>
    have hsleep := sleepers_ne_zero ht
    have hstir := weigh_goto isStirring ht .woken
    unfold sleepers at hsleep
    simp only [isStirring, goto_c, goto_maxC] at hstir ⊢
    omega
  | release ht =>
    have hsleep := weigh_goto (s := { s with c := s.c - 1 }) isAsleep ht .notifying
    have hstir := weigh_goto (s := { s with c := s.c - 1 }) isStirring ht .notifying
    simp only [isAsleep, isStirring, goto_c, goto_maxC] at hsleep hstir ⊢
    omega
  | notify ht hu =>
    have hsleep := sleepers_ne_zero hu
    have hstir := weigh_notify isStirring ht hu
    unfold sleepers at hsleep
    simp only [isStirring, goto_c, goto_maxC] at hstir ⊢
    omega
  | nobody ht hu =>
    have hsleep := weigh_goto isAsleep ht .outside
    have hnone := sleepers_eq_zero hu
    unfold sleepers at hnone
    simp only [isAsleep] at hsleep
    omega

/-! ## The end of a run -/

/-- The steps of the threads that are in: nobody new comes, and nobody wakes for no reason. -/
def IsOwn : ThrottlerAction τ → Prop
  | .throttle _ | .wake _ => False
  | _ => True

theorem step_distance {a : ThrottlerAction τ} (ha : IsOwn a) (h : s.step a = some s') :
    s'.distance < s.distance := by
  unfold distance
  cases step_cases h with
  | throttle ht => exact ha.elim
  | wake ht => exact ha.elim
  | sleep ht hfull =>
    rcases ht with ht | ht <;> have hw := weigh_goto toGo ht .asleep <;>
      simp only [toGo] at hw <;> omega
  | enter ht hfree =>
    rcases ht with ht | ht <;>
      have hw := weigh_goto (s := { s with c := s.c + 1 }) toGo ht .holding <;>
      simp only [toGo] at hw <;> omega
  | release ht =>
    have hw := weigh_goto (s := { s with c := s.c - 1 }) toGo ht .notifying
    simp only [toGo] at hw
    omega
  | notify ht hu =>
    have hw := weigh_notify toGo ht hu
    simp only [toGo] at hw
    omega
  | nobody ht hu =>
    have hw := weigh_goto toGo ht .outside
    simp only [toGo] at hw
    omega

/-- Where no thread that is in can take a step, all that are in are asleep. -/
theorem asleep_of_stuck (h : ∀ a, IsOwn a → s.step a = none) (t : τ) :
    s.caller t = .outside ∨ s.caller t = .asleep := by
  cases ht : s.caller t with
  | outside => exact .inl rfl
  | asleep => exact .inr rfl
  | entering => simpa [step, ht] using h (.evaluate t) trivial
  | woken => simpa [step, ht] using h (.evaluate t) trivial
  | holding => simpa [step, ht] using h (.release t) trivial
  | notifying =>
    by_cases hu : ∃ u, s.caller u = .asleep
    · obtain ⟨u, hu⟩ := hu
      simpa [step, notifyOne, ht, hu] using h (.notifyOne t (some u)) trivial
    · have hnone : ∀ u, s.caller u ≠ .asleep := fun u hc => hu ⟨u, hc⟩
      simpa [step, notifyOne, ht, hnone] using h (.notifyOne t none) trivial

theorem outside_of_stuck (hc : s.Counted) (hw : s.Woken) (hm : 1 ≤ s.maxC)
    (h : ∀ a, IsOwn a → s.step a = none) (t : τ) : s.caller t = .outside := by
  have hall := asleep_of_stuck h
  have hholders : s.holders = 0 := weigh_eq_zero.2 fun u => by
    rcases hall u with hu | hu <;> rw [hu] <;> rfl
  have hstir : s.stirring = 0 := weigh_eq_zero.2 fun u => by
    rcases hall u with hu | hu <;> rw [hu] <;> rfl
  refine (hall t).resolve_right fun ht => ?_
  have hle := hw (sleepers_ne_zero ht)
  have hceq := hc.c_eq
  omega

/-! ## Runs -/

theorem run_maxC {maxRun : Int} {l : List (ThrottlerAction τ)}
    (h : run step (new maxRun) l = some s) : s.maxC = maxRun :=
  run_invariant (I := fun s => s.maxC = maxRun) (fun _ _ _ hi hs => (step_maxC hs).trans hi) rfl h

theorem run_counted {maxRun : Int} {l : List (ThrottlerAction τ)}
    (h : run step (new maxRun) l = some s) : s.Counted :=
  run_invariant (fun _ _ _ hi hs => hi.step hs) (counted_new maxRun) h

theorem run_woken {maxRun : Int} {l : List (ThrottlerAction τ)}
    (h : run step (new maxRun) l = some s) : s.Woken :=
  run_invariant (fun _ _ _ hi hs => hi.step hs) (woken_new maxRun) h

/-- **In every run no more than `max_run` constructors have returned and not been undone; while a
thread sleeps, every free place is matched by a thread that is woken or about to notify.** -/
theorem throttle_bounded {maxRun : Int} {l : List (ThrottlerAction τ)}
    (h : run step (new maxRun) l = some s) :
    s.c = s.holders ∧ (0 < s.holders → (s.holders : Int) ≤ maxRun) ∧
      (s.willBlock = false ↔ (s.holders : Int) < maxRun) ∧
      (s.sleepers ≠ 0 → maxRun ≤ s.holders + s.stirring) := by
  obtain ⟨hc, hle⟩ := run_counted h
  have hw := run_woken h
  have hm := run_maxC h
  unfold Woken at hw
  refine ⟨hc, fun hpos => by omega, ?_, fun hs => by omega⟩
  simp [willBlock, hc, hm]

/-- Three threads and one place: the second goes to sleep, is notified, and finds the place taken
by the third. -/
def overtaken : List (ThrottlerAction (Fin 3)) :=
  [.throttle 0, .evaluate 0, .throttle 1, .evaluate 1, .release 0, .throttle 2, .notifyOne 0 (some 1),
    .evaluate 2, .evaluate 1]

theorem throttle_bounded_overtaken :
    ∃ s, run step (new 1) overtaken = some s ∧
      s.c = s.holders ∧ (0 < s.holders → (s.holders : Int) ≤ 1) ∧
      (s.willBlock = false ↔ (s.holders : Int) < 1) ∧
      (s.sleepers ≠ 0 → (1 : Int) ≤ s.holders + s.stirring) := by
  have h : run step (new 1) overtaken = some _ := rfl
  exact ⟨_, h, throttle_bounded h⟩

/-- **Every thread that waits gets its place**: left to themselves the threads that are in take at
most four steps for each thread there is, all together, and where none is left to take, all of them
are out. -/
theorem throttle_ends {maxRun : Int} (hm : 1 ≤ maxRun) {l l' : List (ThrottlerAction τ)}
    (h : run step (new maxRun) l = some s) (hl : ∀ a ∈ l', IsOwn a)
    (h' : run step s l' = some s') :
    l'.length ≤ 4 * Fintype.card τ ∧
      ((∀ a, IsOwn a → s'.step a = none) → ∀ t, s'.caller t = .outside) := by
  have hrun : run step (new maxRun) (l ++ l') = some s' := by
    rw [run_append, h]
    exact h'
  constructor
  · have hbound : s.distance ≤ 4 * Fintype.card τ := weigh_le_mul fun p => by cases p <;> decide
    exact (run_length_le IsOwn distance (fun _ _ _ => step_distance) hl h').trans hbound
  · exact outside_of_stuck (run_counted hrun) (run_woken hrun) ((run_maxC hrun).symm ▸ hm)

/-- The same threads, from where the second sleeps again, to the end. -/
def leaving : List (ThrottlerAction (Fin 3)) :=
  [.release 2, .notifyOne 2 (some 1), .evaluate 1, .release 1, .notifyOne 1 none]

theorem throttle_ends_overtaken :
    ∃ s s', run step (new 1) overtaken = some s ∧ run step s leaving = some s' ∧
      leaving.length ≤ 4 * Fintype.card (Fin 3) ∧
      ((∀ a, IsOwn a → s'.step a = none) → ∀ t, s'.caller t = .outside) := by
  have h : run step (new 1) overtaken = some _ := rfl
  refine ⟨_, _, h, rfl, ?_⟩
  exact throttle_ends (by decide) h (by simp [leaving, IsOwn]) rfl

end

end Throttler

end Musicat.Util
