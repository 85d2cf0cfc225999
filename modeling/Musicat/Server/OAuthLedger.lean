import Musicat.Lib.Ghost
import Musicat.Server.OAuthStates

/-!
# What becomes of a generated state

Beside a run stands a record of the states that `generate_oauth_state` put into
the map, of those that a call of `remove_oauth_state` took out, with what it
returned, and of those that a sweep took out. `oauth_ledger` balances the three
against the map. `oauth_timed` finds for each state in the map the timer it was
generated with, and `sweep_expires` what a sweep of `check_timers` leaves.
-/

namespace Musicat.Server

open Lib

deriving instance DecidableEq for Sweep, OAuthReturn, OAuthPC

/-! ## The map -/

theorem not_mem_of_break {val : OAuthState} {states : List (OAuthState × String)}
    (h : shouldBreakOauthStates val states) : val ∉ states.map Prod.fst := by
  simp only [shouldBreakOauthStates, Option.isNone_iff_eq_none, List.find?_eq_none,
    decide_eq_true_eq] at h
  intro hm
  obtain ⟨e, he, rfl⟩ := List.mem_map.1 hm
  exact h e he rfl

/-- `remove_oauth_state` finds nothing, or it takes an entry of the state and returns its
redirect. -/
theorem removeOauthState_cases (state : OAuthState) (states : List (OAuthState × String)) :
    (states.find? (·.1 = state) = none ∧ state ∉ states.map Prod.fst ∧
        removeOauthState state states = (-1, none, states)) ∨
      ∃ redirect as bs, states.find? (·.1 = state) = some (state, redirect) ∧
        states = as ++ (state, redirect) :: bs ∧
        removeOauthState state states = (0, some redirect, as ++ bs) := by
  unfold removeOauthState
  cases hf : states.find? (·.1 = state) with
  | none => exact .inl ⟨rfl, not_mem_of_break (by simp [shouldBreakOauthStates, hf]), rfl⟩
  | some e =>
    obtain ⟨hp, as, bs, rfl, hno⟩ := List.find?_eq_some_iff_append.1 hf
    obtain ⟨state', redirect⟩ := e
    obtain rfl : state' = state := of_decide_eq_true hp
    have hne : ∀ b ∈ as, ¬ decide (b.1 = state') = true := fun b hb => by simpa using hno b hb
    exact .inr ⟨redirect, as, bs, rfl, rfl, by simp [List.eraseP_append_right _ hne]⟩

/-- What is in the map after a removal was in it before, and is not the state removed. -/
theorem mem_removed {state : OAuthState} {states : List (OAuthState × String)}
    (h : (states.map Prod.fst).Nodup) {e : OAuthState × String}
    (he : e ∈ (removeOauthState state states).2.2) : e ∈ states ∧ e.1 ≠ state := by
  rcases removeOauthState_cases state states with ⟨-, hno, hr⟩ | ⟨redirect, as, bs, -, rfl, hr⟩ <;>
    rw [hr] at he
  · exact ⟨he, fun h => hno (List.mem_map.2 ⟨e, he, h⟩)⟩
  · have hn : state ∉ (as ++ bs).map Prod.fst :=
      (List.nodup_cons.1 ((List.perm_middle.map Prod.fst).nodup_iff.1 h)).1
    exact ⟨(List.sublist_cons_self _ _).append_left as |>.subset he,
      fun h => hn (List.mem_map.2 ⟨e, he, h⟩)⟩

namespace OAuthPC

/-- The timer that a `generate_oauth_state` still has to register. -/
def registers : OAuthPC → Option OAuthTimer
  | register tm (some _) | registering tm (some _) => some tm
  | _ => none

/-- The timer that a sweep has in hand, and its index. -/
def inHand : OAuthPC → Option (OAuthTimer × Nat)
  | shouldBreak tm i | breaking tm i | clock tm i => some (tm, i)
  | removeFn _ tm i _ | removingFn _ tm i _ => some (tm, i)
  | _ => none

/-- The number of timers that `check_timers` has been through. -/
def checkedTo : OAuthPC → Option Nat
  | loop .checkTimers i _ | removeFn .checkTimers _ i _ | removingFn .checkTimers _ i _ => some i
  | shouldBreak _ i | breaking _ i | clock _ i => some i
  | _ => none

/-- At a removal from the map, about to make it. -/
def takes : OAuthPC → Bool
  | removing _ | removingFn _ _ _ _ => true
  | _ => false

theorem registers_of_done {p : OAuthPC} (h : p.isDone) : p.registers = none := by
  cases p <;> first | rfl | cases h

theorem holds_of_inHand {p : OAuthPC} {x : OAuthTimer × Nat} (h : p.inHand = some x) :
    p.holds .timers := by
  cases p <;> first | rfl | cases h

theorem holds_of_checkedTo {p : OAuthPC} {i : Nat} (h : p.checkedTo = some i) :
    p.holds .timers := by
  cases p <;> first | rfl | cases h

end OAuthPC

namespace OAuthSystem

variable {s s' : OAuthSystem} {t : Nat} {now : Int} {drawn : OAuthState}

/-! ## What a step does to the map and the timers -/

/-- The timer of a state drawn at `now`. -/
def timerOf (state : OAuthState) (now : Int) : OAuthTimer := ⟨now, stateLifetime, state, true⟩

/-- What a step that leaves the map and the timers may do to its thread's point. -/
structure Quiet (s : OAuthSystem) (now : Int) (q p : OAuthPC) : Prop where
  takes : q.takes = false
  registers : p.registers = q.registers
  inHand : ∀ tm i, p.inHand = some (tm, i) →
    q.inHand = some (tm, i) ∨ s.oauthTimers[i]? = some tm ∧ q.holds .timers
  checkedTo : ∀ i, p.checkedTo = some i → i = 0 ∨ q.checkedTo = some i ∨
    ∃ tm j, q = .clock tm j ∧ i = j + 1 ∧ tm.passed now = false

inductive Acts (s : OAuthSystem) (t : Nat) (now : Int) (drawn : OAuthState) : OAuthSystem → Prop
  where
  | issue {redirect : String} (hpc : s.threads.pc t = .drawing redirect)
      (hnew : shouldBreakOauthStates drawn s.oauthStates) :
      Acts s t now drawn ⟨s.threads.goto t (.register (timerOf drawn now) (some drawn)),
        (drawn, redirect) :: s.oauthStates, s.oauthTimers⟩
  | redeem {state : OAuthState} (hpc : s.threads.pc t = .removing state) :
      Acts s t now drawn ⟨s.threads.drop t .states (.done (.removed
          (removeOauthState state s.oauthStates).1 (removeOauthState state s.oauthStates).2.1)),
        (removeOauthState state s.oauthStates).2.2, s.oauthTimers⟩
  | expire {k : Sweep} {tm : OAuthTimer} {i : Nat} {status : Int}
      (hpc : s.threads.pc t = .removingFn k tm i status) :
      Acts s t now drawn ⟨s.threads.drop t .states (.loop k i status),
        (removeOauthState tm.val s.oauthStates).2.2, s.oauthTimers.eraseIdx i⟩
  | forget {tm : OAuthTimer} {i : Nat} (hpc : s.threads.pc t = .breaking tm i)
      (hbreak : shouldBreakOauthStates tm.val s.oauthStates) :
      Acts s t now drawn ⟨s.threads.drop t .states (.loop .checkTimers i (-1)), s.oauthStates,
        s.oauthTimers.eraseIdx i⟩
  | register {tm : OAuthTimer} {g : Option OAuthState} {p : OAuthPC}
      (hpc : s.threads.pc t = .registering tm g) (hp : p.registers = none ∧ p.inHand = none ∧
        p.checkedTo = none) :
      Acts s t now drawn ⟨s.threads.drop t .timers p, s.oauthStates,
        (registerTimer tm s.oauthTimers).2⟩
  | quiet {p : OAuthPC} {threads : Threads Nat OAuthPC OAuthLock}
      (hpc : threads.pc = Function.update s.threads.pc t p) (hq : Quiet s now (s.threads.pc t) p) :
      Acts s t now drawn { s with threads }

theorem Quiet.of_eq {p q : OAuthPC} (ht : q.takes = false) (hr : p.registers = q.registers)
    (hi : p.inHand = q.inHand) (hc : p.checkedTo = q.checkedTo) : Quiet s now q p where
  takes := ht
  registers := hr
  inHand _ _ h := .inl (hi ▸ h)
  checkedTo _ h := .inr (.inl (hc ▸ h))

theorem Quiet.of_none {p q : OAuthPC} (ht : q.takes = false) (hr : p.registers = q.registers)
    (hi : p.inHand = none) (hc : ∀ i, p.checkedTo = some i → i = 0 ∨ q.checkedTo = some i ∨
      ∃ tm j, q = .clock tm j ∧ i = j + 1 ∧ tm.passed now = false) : Quiet s now q p where
  takes := ht
  registers := hr
  inHand _ _ h := absurd (hi.symm.trans h) (Option.some_ne_none _).symm
  checkedTo := hc

theorem quiet_visit (k : Sweep) {tm : OAuthTimer} {i : Nat} (status : Int)
    (h : s.oauthTimers[i]? = some tm) : Quiet s now (.loop k i status) (k.visit tm i status) where
  takes := rfl
  registers := by cases k <;> simp only [Sweep.visit] <;> (try split) <;> rfl
  inHand := by
    intro tm' j hj
    refine .inr ⟨?_, rfl⟩
    cases k <;> simp only [Sweep.visit] at hj <;> (try split at hj) <;>
      simp [OAuthPC.inHand] at hj <;> obtain ⟨rfl, rfl⟩ := hj <;> exact h
  checkedTo := by
    intro j hj
    cases k <;> simp only [Sweep.visit] at hj <;> (try split at hj) <;>
      simp_all [OAuthPC.checkedTo]

theorem go_acts (h : s.go t now drawn = some s') : Acts s t now drawn s' := by
  cases hpc : s.threads.pc t <;> simp only [go, hpc] at h
  case done r => cases h
  case remove state =>
    obtain ⟨threads, ht, rfl⟩ := Option.map_eq_some_iff.1 h
    exact .quiet (p := .removing state) (by rw [(Threads.take_eq_some ht).2])
      (hpc ▸ .of_eq rfl rfl rfl rfl)
  case removing state =>
    cases h
    exact .redeem hpc
  case generate redirect =>
    obtain ⟨threads, ht, rfl⟩ := Option.map_eq_some_iff.1 h
    exact .quiet (p := .drawing redirect) (by rw [(Threads.take_eq_some ht).2])
      (hpc ▸ .of_eq rfl rfl rfl rfl)
  case drawing redirect =>
    split at h
    · cases h
    split at h <;> rename_i hb <;> cases h
    · exact .quiet (p := .drawing redirect) rfl (by rw [hpc]; exact .of_eq rfl rfl rfl rfl)
    · exact .issue hpc (by simpa using hb)
  case register tm g =>
    obtain ⟨threads, ht, rfl⟩ := Option.map_eq_some_iff.1 h
    exact .quiet (p := .registering tm g) (by rw [(Threads.take_eq_some ht).2])
      (hpc ▸ .of_eq rfl (by cases g <;> rfl) rfl rfl)
  case registering tm g =>
    cases h
    cases g with
    | none => exact .register hpc ⟨rfl, rfl, rfl⟩
    | some state => exact .register hpc ⟨rfl, rfl, rfl⟩
  case generated state =>
    cases h
    exact .quiet (p := .done (.state state)) rfl (hpc ▸ .of_eq rfl rfl rfl rfl)
  case sweep k =>
    obtain ⟨threads, ht, rfl⟩ := Option.map_eq_some_iff.1 h
    refine .quiet (p := .loop k 0 k.status) (by rw [(Threads.take_eq_some ht).2]) (hpc ▸ ?_)
    refine .of_none rfl rfl rfl fun i hi => .inl ?_
    cases k <;> simp_all [OAuthPC.checkedTo]
  case loop k i status =>
    split at h
    · cases h
      refine .quiet (p := .done (.status status)) rfl (hpc ▸ .of_none rfl rfl rfl fun _ hj => ?_)
      cases hj
    · rename_i tm htm
      cases h
      exact .quiet (p := k.visit tm i status) rfl (hpc ▸ quiet_visit k status htm)
  case shouldBreak tm i =>
    obtain ⟨threads, ht, rfl⟩ := Option.map_eq_some_iff.1 h
    exact .quiet (p := .breaking tm i) (by rw [(Threads.take_eq_some ht).2])
      (hpc ▸ .of_eq rfl rfl rfl rfl)
  case breaking tm i =>
    split at h <;> rename_i hb <;> cases h
    · exact .forget hpc hb
    · exact .quiet (p := .clock tm i) rfl (hpc ▸ .of_eq rfl rfl rfl rfl)
  case clock tm i =>
    split at h <;> rename_i hp <;> cases h
    · exact .quiet (p := .removeFn .checkTimers tm i (-1)) rfl (hpc ▸ .of_eq rfl rfl rfl rfl)
    · refine .quiet (p := .loop .checkTimers (i + 1) (-1)) rfl
        (hpc ▸ .of_none rfl rfl rfl fun j hj => ?_)
      obtain rfl : i + 1 = j := Option.some.inj hj
      exact .inr (.inr ⟨tm, i, rfl, rfl, by simpa using hp⟩)
  case removeFn k tm i status =>
    obtain ⟨threads, ht, rfl⟩ := Option.map_eq_some_iff.1 h
    exact .quiet (p := .removingFn k tm i status) (by rw [(Threads.take_eq_some ht).2])
      (hpc ▸ .of_eq rfl rfl rfl (by cases k <;> rfl))
  case removingFn k tm i status =>
    cases h
    exact .expire hpc

/-! ## The record -/

/-- What was put into the map, what a call took out of it and returned, what a sweep took out of
it, and when a state was drawn last. -/
structure OAuthLedger where
  issued : List (OAuthState × String) := []
  redeemed : List (OAuthState × String) := []
  expired : List (OAuthState × String) := []
  born : OAuthState → Int := fun _ => 0

/-- A call of `remove_oauth_state` that returns 0 is recorded with the redirect it returns. -/
def note (s : OAuthSystem) (a : OAuthAction) (s' : OAuthSystem) (g : OAuthLedger) : OAuthLedger :=
  match a with
  | .call _ _ => g
  | .go t now _ =>
    match s.threads.pc t, s'.threads.pc t with
    | .drawing redirect, .register _ (some state) =>
      { g with issued := (state, redirect) :: g.issued, born := Function.update g.born state now }
    | .removing state, .done (.removed n redirect) =>
      if n = 0 then { g with redeemed := redirect.toList.map (Prod.mk state) ++ g.redeemed } else g
    | .removingFn _ tm _ _, _ =>
      { g with expired := (s.oauthStates.find? (·.1 = tm.val)).toList ++ g.expired }
    | _, _ => g

variable {g : OAuthLedger}

theorem note_quiet {p : OAuthPC} (hp : s'.threads.pc t = p)
    (hq : Quiet s now (s.threads.pc t) p) : note s (.go t now drawn) s' g = g := by
  have htakes := hq.takes
  have hreg := hq.registers
  subst hp
  simp only [note]
  split
  · rename_i hd hp
    rw [hd, hp] at hreg
    cases hreg
  · rename_i hd hp
    rw [hd] at htakes
    cases htakes
  · rename_i hd
    rw [hd] at htakes
    cases htakes
  · rfl

/-- **The balance**: what was issued is in the map, or was redeemed, or has expired. -/
structure Balanced (s : OAuthSystem) (g : OAuthLedger) : Prop where
  perm : g.issued.Perm (s.oauthStates ++ (g.redeemed ++ g.expired))
  nodup : (s.oauthStates.map Prod.fst).Nodup

theorem perm_move {α : Type*} {issued as bs rest rest' : List α} {e : α}
    (h : issued.Perm ((as ++ e :: bs) ++ rest)) (hr : (e :: rest).Perm rest') :
    issued.Perm ((as ++ bs) ++ rest') := by
  refine h.trans (((List.perm_middle.append_right rest)).trans ?_)
  exact (List.perm_middle.symm.trans (List.Perm.append_left _ hr))

theorem Balanced.go (hi : Balanced s g) (h : s.go t now drawn = some s') :
    Balanced s' (note s (.go t now drawn) s' g) := by
  cases go_acts h with
  | issue hpc hnew =>
    simp only [note, hpc, Threads.goto, Function.update_self]
    exact ⟨hi.perm.cons _, List.nodup_cons.2 ⟨not_mem_of_break hnew, hi.nodup⟩⟩
  | redeem hpc =>
    rename_i state
    simp only [note, hpc, Threads.drop, Function.update_self]
    rcases removeOauthState_cases state s.oauthStates with
      ⟨-, -, he⟩ | ⟨redirect, as, bs, -, hst, he⟩ <;> rw [he]
    · exact ⟨hi.perm, hi.nodup⟩
    · have hp := hi.perm
      have hn := hi.nodup
      rw [hst] at hp hn
      exact ⟨perm_move hp (.refl _),
        hn.sublist (((List.sublist_cons_self _ _).append_left as).map _)⟩
  | expire hpc =>
    rename_i k tm i status
    simp only [note, hpc]
    rcases removeOauthState_cases tm.val s.oauthStates with
      ⟨hf, -, he⟩ | ⟨redirect, as, bs, hf, hst, he⟩ <;> rw [he, hf]
    · exact ⟨hi.perm, hi.nodup⟩
    · have hp := hi.perm
      have hn := hi.nodup
      rw [hst] at hp hn
      exact ⟨perm_move hp List.perm_middle.symm,
        hn.sublist (((List.sublist_cons_self _ _).append_left as).map _)⟩
  | forget hpc hbreak =>
    simp only [note, hpc, Threads.drop, Function.update_self]
    exact ⟨hi.perm, hi.nodup⟩
  | register hpc hp =>
    simp only [note, hpc, Threads.drop, Function.update_self]
    exact ⟨hi.perm, hi.nodup⟩
  | quiet hpc hq =>
    rw [note_quiet (by rw [hpc, Function.update_self]) hq]
    exact ⟨hi.perm, hi.nodup⟩

theorem call_data {c : OAuthCall} (h : oauthStep s (.call t c) = some s') :
    s'.oauthStates = s.oauthStates ∧ s'.oauthTimers = s.oauthTimers ∧
      s'.threads.pc = Function.update s.threads.pc t c.entry := by
  simp only [oauthStep] at h
  split at h
  · cases h
    exact ⟨rfl, rfl, rfl⟩
  · cases h

theorem balanced_init : Balanced init {} := ⟨.refl _, List.nodup_nil⟩

theorem Balanced.step {a : OAuthAction} (hi : Balanced s g) (h : oauthStep s a = some s') :
    Balanced s' (note s a s' g) := by
  cases a with
  | call t c =>
    obtain ⟨hst, -, -⟩ := call_data h
    exact ⟨hst ▸ hi.perm, hst ▸ hi.nodup⟩
  | go t now drawn => exact hi.go h

theorem run_balanced {l : List OAuthAction}
    (h : run (noted oauthStep note) (init, {}) l = some (s, g)) : Balanced s g :=
  noted_inv (C := fun _ _ => True) (fun _ _ _ _ hi _ hs => hi.step hs) balanced_init
    (along_of_forall (fun _ _ => trivial) l _) h

/-- **Whatever `generate_oauth_state` put into the map is still there, or one call of
`remove_oauth_state` returned it with the redirect it was generated for, or a sweep dropped it**;
and a state is drawn only when it is not in the map. -/
theorem oauth_ledger {l : List OAuthAction}
    (h : run (noted oauthStep note) (init, {}) l = some (s, g)) :
    g.issued.Perm (s.oauthStates ++ (g.redeemed ++ g.expired)) ∧
      (s.oauthStates.map Prod.fst).Nodup :=
  have hb := run_balanced h
  ⟨hb.perm, hb.nodup⟩

/-- Thread 0 generates a state, and thread 1 redeems it. -/
def redeemedOnce : List OAuthAction :=
  [.call 0 (.generateOauthState "/"), .go 0 0 [], .go 0 0 sampleState, .go 0 0 [], .go 0 0 [],
    .go 0 0 [], .call 1 (.removeOauthState sampleState), .go 1 1 [], .go 1 1 []]

theorem oauth_ledger_redeemedOnce :
    ∃ s g, run (noted oauthStep note) (init, {}) redeemedOnce = some (s, g) ∧
      g.redeemed = [(sampleState, "/")] ∧
      g.issued.Perm (s.oauthStates ++ (g.redeemed ++ g.expired)) ∧
      (s.oauthStates.map Prod.fst).Nodup := by
  obtain ⟨⟨s, g⟩, hs, hw⟩ := (Option.any_eq_true _ _).1 (by decide +kernel :
    (run (noted oauthStep note) (init, {}) redeemedOnce).any
      fun x => x.2.redeemed = [(sampleState, "/")])
  exact ⟨s, g, hs, of_decide_eq_true hw, oauth_ledger hs⟩

/-! ## The timers -/

/-- Every state in the map has the timer it was generated with, or its `generate_oauth_state` is
about to register it; and a sweep has in hand what is in the list. -/
structure Timed (s : OAuthSystem) (born : OAuthState → Int) : Prop where
  owned : s.threads.Owned oauthView
  inHand : ∀ t tm i, (s.threads.pc t).inHand = some (tm, i) → s.oauthTimers[i]? = some tm
  timed : ∀ e ∈ s.oauthStates, timerOf e.1 (born e.1) ∈ s.oauthTimers ∨
    ∃ t, (s.threads.pc t).registers = some (timerOf e.1 (born e.1))

variable {born : OAuthState → Int}

theorem mem_eraseIdx_of_ne {α : Type*} {l : List α} {i : Nat} {x y : α} (hx : x ∈ l)
    (hy : l[i]? = some y) (hne : x ≠ y) : x ∈ l.eraseIdx i := by
  obtain ⟨j, hj⟩ := List.mem_iff_getElem?.1 hx
  refine List.mem_eraseIdx_iff_getElem?.2 ⟨j, fun hij => hne ?_, hj⟩
  subst hij
  exact Option.some.inj (hj.symm.trans hy)

theorem mem_registerTimer {tm x : OAuthTimer} {timers : List OAuthTimer} :
    x ∈ (registerTimer tm timers).2 ↔ x = tm ∨ x ∈ timers := by
  unfold registerTimer
  split
  · rename_i h
    exact ⟨.inr, fun hx => hx.elim (fun he => he ▸ by simpa using h) id⟩
  · simp [or_comm]

/-- A step of a thread that registers nothing and has nothing in hand afterwards. The timers change
only when it holds them, and a state in the map afterwards was in it before, with its timer. -/
theorem Timed.goes (hi : Timed s born) {p : OAuthPC}
    (hpc : s'.threads.pc = Function.update s.threads.pc t p) (hown : s'.threads.Owned oauthView)
    (hin : p.inHand = none)
    (htimers : s'.oauthTimers = s.oauthTimers ∨ (s.threads.pc t).holds .timers)
    (hkept : ∀ e ∈ s'.oauthStates, e ∈ s.oauthStates ∧
      ∀ tm, tm = timerOf e.1 (born e.1) → tm ∈ s.oauthTimers ∨
        (s.threads.pc t).registers = some tm → tm ∈ s'.oauthTimers) :
    Timed s' born where
  owned := hown
  inHand u tm i hu := by
    rw [hpc] at hu
    by_cases hut : u = t
    · rw [hut, Function.update_self, hin] at hu
      cases hu
    · rw [Function.update_of_ne hut] at hu
      rcases htimers with h | h
      · exact h ▸ hi.inHand u tm i hu
      · exact absurd (hi.owned.unique (OAuthPC.holds_of_inHand hu) h) hut
  timed e he := by
    obtain ⟨hmem, hkeep⟩ := hkept e he
    rcases hi.timed e hmem with hm | ⟨u, hu⟩
    · exact .inl (hkeep _ rfl (.inl hm))
    · by_cases hut : u = t
      · exact .inl (hkeep _ rfl (.inr (hut ▸ hu)))
      · exact .inr ⟨u, by rwa [hpc, Function.update_of_ne hut]⟩

theorem note_born (h : ∀ redirect, s.threads.pc t ≠ .drawing redirect) :
    (note s (.go t now drawn) s' g).born = g.born := by
  simp only [note]
  split
  · rename_i hd hp
    exact absurd hd (h _)
  · split <;> rfl
  · rfl
  · rfl

theorem Timed.go (hi : Timed s g.born) (hn : (s.oauthStates.map Prod.fst).Nodup)
    (h : s.go t now drawn = some s') : Timed s' (note s (.go t now drawn) s' g).born := by
  obtain ⟨q, hgo⟩ := go_goes h
  have hown := hgo.moves.owned hi.owned
  cases go_acts h with
  | issue hpc hnew =>
    simp only [note, hpc, Threads.goto, Function.update_self]
    refine ⟨hown, fun u tm i hu => ?_, fun e he => ?_⟩
    · by_cases hut : u = t
      · simp [hut, OAuthPC.inHand] at hu
      · simp only [Function.update_of_ne hut] at hu
        exact hi.inHand u tm i hu
    · rcases List.mem_cons.1 he with rfl | he
      · exact .inr ⟨t, by simp [OAuthPC.registers]⟩
      · have hne : e.1 ≠ drawn := fun h => not_mem_of_break hnew (List.mem_map.2 ⟨e, he, h⟩)
        simp only [Function.update_of_ne hne]
        refine (hi.timed e he).imp_right ?_
        rintro ⟨u, hu⟩
        refine ⟨u, ?_⟩
        have hut : u ≠ t := fun h => by rw [h, hpc] at hu; cases hu
        simpa only [Function.update_of_ne hut] using hu
  | redeem hpc =>
    rw [note_born (by rw [hpc]; exact fun _ h => by cases h)]
    refine hi.goes rfl hown rfl (.inl rfl) fun e he => ⟨(mem_removed hn he).1, ?_⟩
    exact fun tm _ hm => hm.elim id fun hr => by rw [hpc] at hr; cases hr
  | expire hpc =>
    rename_i k tm i status
    rw [note_born (by rw [hpc]; exact fun _ h => by cases h)]
    refine hi.goes rfl hown rfl (.inr (by rw [hpc]; rfl)) fun e he => ⟨(mem_removed hn he).1, ?_⟩
    rintro tm' rfl (hm | hr)
    · refine mem_eraseIdx_of_ne hm (hi.inHand t tm i (by rw [hpc]; rfl)) fun h => ?_
      exact (mem_removed hn he).2 (congrArg OAuthTimer.val h)
    · rw [hpc] at hr
      cases hr
  | forget hpc hbreak =>
    rename_i tm i
    rw [note_born (by rw [hpc]; exact fun _ h => by cases h)]
    refine hi.goes rfl hown rfl (.inr (by rw [hpc]; rfl)) fun e he => ⟨he, ?_⟩
    rintro tm' rfl (hm | hr)
    · refine mem_eraseIdx_of_ne hm (hi.inHand t tm i (by rw [hpc]; rfl)) fun h => ?_
      exact not_mem_of_break hbreak (List.mem_map.2 ⟨e, he, congrArg OAuthTimer.val h⟩)
    · rw [hpc] at hr
      cases hr
  | register hpc hp =>
    rename_i tm gen p
    rw [note_born (by rw [hpc]; exact fun _ h => by cases h)]
    refine hi.goes rfl hown hp.2.1 (.inr (by rw [hpc]; cases gen <;> rfl)) fun e he => ⟨he, ?_⟩
    rintro tm' - (hm | hr)
    · exact mem_registerTimer.2 (.inr hm)
    · rw [hpc] at hr
      cases gen <;> cases hr
      exact mem_registerTimer.2 (.inl rfl)
  | quiet hpc hq =>
    rename_i p threads
    rw [note_quiet (by rw [hpc, Function.update_self]) hq]
    refine ⟨hown, fun u tm i hu => ?_, fun e he => ?_⟩
    · simp only [hpc] at hu
      by_cases hut : u = t
      · rw [hut, Function.update_self] at hu
        rcases hq.inHand tm i hu with h | h
        · exact hi.inHand t tm i h
        · exact h.1
      · rw [Function.update_of_ne hut] at hu
        exact hi.inHand u tm i hu
    · refine (hi.timed e he).imp_right ?_
      rintro ⟨u, hu⟩
      refine ⟨u, ?_⟩
      simp only [hpc]
      by_cases hut : u = t
      · rw [hut, Function.update_self, hq.registers]
        exact hut ▸ hu
      · rwa [Function.update_of_ne hut]

theorem holds_entry_none (c : OAuthCall) : c.entry.inHand = none ∧ c.entry.checkedTo = none := by
  cases c <;> exact ⟨rfl, rfl⟩

theorem Timed.step {a : OAuthAction} (hi : Timed s g.born) (hn : (s.oauthStates.map Prod.fst).Nodup)
    (h : oauthStep s a = some s') : Timed s' (note s a s' g).born := by
  cases a with
  | call t c =>
    obtain ⟨hst, htm, hpc⟩ := call_data h
    obtain ⟨hdone, hmoves⟩ := call_moves h
    refine hi.goes hpc (hmoves.owned hi.owned) (holds_entry_none c).1 (.inl htm) fun e he =>
      ⟨hst ▸ he, fun tm _ hm => htm ▸ hm.elim id fun hr => ?_⟩
    rw [OAuthPC.registers_of_done hdone] at hr
    cases hr
  | go t now drawn => exact hi.go hn h

theorem timed_init (born : OAuthState → Int) : Timed init born where
  owned := apartInv_init.owned
  inHand _ _ _ h := by cases h
  timed _ h := by cases h

/-- The state and its record after any run. -/
theorem run_timed {l : List OAuthAction}
    (h : run (noted oauthStep note) (init, {}) l = some (s, g)) :
    Balanced s g ∧ Timed s g.born := by
  refine noted_inv (I := fun s g => Balanced s g ∧ Timed s g.born) (C := fun _ _ => True)
    (fun s a s' g hi _ hs => ?_) ⟨balanced_init, timed_init _⟩
    (along_of_forall (fun _ _ => trivial) l _) h
  exact ⟨hi.1.step hs, hi.2.step hi.1.nodup hs⟩

/-! ## A sweep of `check_timers` -/

/-- The clock does not show less than `T`. -/
def NotBefore (T : Int) (_ : OAuthSystem) : OAuthAction → Prop
  | .call _ _ => True
  | .go _ now _ => T ≤ now

/-- The timers that thread `u` has been through had not passed at `T`. -/
def CheckedBy (T : Int) (u : Nat) (s : OAuthSystem) : Prop :=
  ∀ i, (s.threads.pc u).checkedTo = some i → ∀ j < i, ∀ tm, s.oauthTimers[j]? = some tm →
    tm.passed T = false

theorem passed_mono {tm : OAuthTimer} {T : Int} (hT : T ≤ now) (h : tm.passed now = false) :
    tm.passed T = false := by
  simp only [OAuthTimer.passed, decide_eq_false_iff_not] at h ⊢
  omega

/-- A step of another thread leaves the timers when `u` holds them. -/
theorem CheckedBy.other {T : Int} {u : Nat} (hi : CheckedBy T u s)
    (hown : s.threads.Owned oauthView) {p : OAuthPC} (hut : u ≠ t)
    (hpc : s'.threads.pc = Function.update s.threads.pc t p)
    (htimers : s'.oauthTimers = s.oauthTimers ∨ (s.threads.pc t).holds .timers) :
    CheckedBy T u s' := by
  intro i hc j hj tm htm
  rw [hpc, Function.update_of_ne hut] at hc
  rcases htimers with he | hh
  · exact hi i hc j hj tm (he ▸ htm)
  · exact absurd (hown.unique (OAuthPC.holds_of_checkedTo hc) hh) hut

/-- The sweep takes timer `i` out, with nothing behind it touched. -/
theorem CheckedBy.erase {T : Int} {i : Nat} {p : OAuthPC} (hi : CheckedBy T t s)
    (hpc : s'.threads.pc t = p) (hp : ∀ j, p.checkedTo = some j →
      j = i ∧ (s.threads.pc t).checkedTo = some i)
    (htimers : s'.oauthTimers = s.oauthTimers.eraseIdx i) : CheckedBy T t s' := by
  intro j hc k hk tm htm
  obtain ⟨rfl, hq⟩ := hp j (hpc ▸ hc)
  rw [htimers, List.getElem?_eraseIdx_of_lt hk] at htm
  exact hi j hq k hk tm htm

theorem CheckedBy.go {T : Int} {u : Nat} (hi : CheckedBy T u s) (ht : Timed s born)
    (hT : T ≤ now) (h : s.go t now drawn = some s') : CheckedBy T u s' := by
  cases go_acts h with
  | issue hpc hnew =>
    by_cases hut : u = t
    · intro i hc
      simp [hut, Threads.goto, OAuthPC.checkedTo] at hc
    · exact hi.other ht.owned hut rfl (.inl rfl)
  | redeem hpc =>
    by_cases hut : u = t
    · intro i hc
      simp [hut, Threads.drop, OAuthPC.checkedTo] at hc
    · exact hi.other ht.owned hut rfl (.inl rfl)
  | expire hpc =>
    rename_i k tm i status
    by_cases hut : u = t
    · subst hut
      refine hi.erase (Function.update_self ..) (fun j hj => ?_) rfl
      rw [hpc]
      cases k <;> simp [OAuthPC.checkedTo] at hj ⊢
      exact hj.symm
    · exact hi.other ht.owned hut rfl (.inr (by rw [hpc]; rfl))
  | forget hpc hbreak =>
    by_cases hut : u = t
    · subst hut
      refine hi.erase (Function.update_self ..) (fun j hj => ?_) rfl
      rw [hpc]
      exact ⟨(Option.some.inj hj).symm, rfl⟩
    · exact hi.other ht.owned hut rfl (.inr (by rw [hpc]; rfl))
  | register hpc hp =>
    rename_i tm gen p
    by_cases hut : u = t
    · intro i hc
      simp [hut, Threads.drop, hp.2.2] at hc
    · exact hi.other ht.owned hut rfl (.inr (by rw [hpc]; cases gen <;> rfl))
  | quiet hpc hq =>
    rename_i p threads
    by_cases hut : u = t
    · intro i hc j hj tm htm
      simp only [hpc, hut, Function.update_self] at hc
      rcases hq.checkedTo i hc with rfl | hcq | ⟨tm', k, hq', rfl, hpass⟩
      · omega
      · exact hi i (hut ▸ hcq) j hj tm htm
      · rcases Nat.lt_succ_iff_lt_or_eq.1 hj with hlt | rfl
        · exact hi k (by rw [hut, hq']; rfl) j hlt tm htm
        · have hhand := ht.inHand t tm' j (by rw [hq']; rfl)
          obtain rfl : tm' = tm := Option.some.inj (hhand.symm.trans htm)
          exact passed_mono hT hpass
    · exact hi.other ht.owned hut hpc (.inl rfl)

theorem CheckedBy.step {T : Int} {u : Nat} {a : OAuthAction} (hi : CheckedBy T u s)
    (ht : Timed s born) (ha : NotBefore T s a) (h : oauthStep s a = some s') :
    CheckedBy T u s' := by
  cases a with
  | call t c =>
    obtain ⟨-, htm, hpc⟩ := call_data h
    by_cases hut : u = t
    · intro i hc
      simp [hpc, hut, (holds_entry_none c).2] at hc
    · exact hi.other ht.owned hut hpc (.inl htm)
  | go t now drawn => exact hi.go ht ha h

/-- **A sweep of `check_timers` that started at `T` leaves no state that was drawn more than
`STATE_LIFETIME` seconds before `T`**, but one whose `generate_oauth_state` has not yet registered
its timer, whatever the other threads do meanwhile. -/
theorem sweep_expires {l l' : List OAuthAction} {s₀ : OAuthSystem} {g₀ : OAuthLedger} {T : Int}
    {u i : Nat} {status : Int} (h : run (noted oauthStep note) (init, {}) l = some (s₀, g₀))
    (hstart : s₀.threads.pc u = .sweep .checkTimers) (hT : Along oauthStep (NotBefore T) s₀ l')
    (h' : run (noted oauthStep note) (s₀, g₀) l' = some (s, g))
    (hend : s.threads.pc u = .loop .checkTimers i status) (hlast : s.oauthTimers[i]? = none) :
    ∀ e ∈ s.oauthStates, T - g.born e.1 ≤ stateLifetime * 1000000000 ∨
      ∃ t, (s.threads.pc t).registers = some (timerOf e.1 (g.born e.1)) := by
  have hchecked : (Balanced s g ∧ Timed s g.born) ∧ CheckedBy T u s := by
    refine noted_inv (I := fun s g => (Balanced s g ∧ Timed s g.born) ∧ CheckedBy T u s)
      (fun s a s' g hi ha hs => ?_) ⟨run_timed h, fun i hc => ?_⟩ hT h'
    · obtain ⟨⟨hb, ht⟩, hc⟩ := hi
      exact ⟨⟨hb.step hs, ht.step hb.nodup hs⟩, hc.step ht ha hs⟩
    · rw [hstart] at hc
      cases hc
  obtain ⟨⟨-, htimed⟩, hc⟩ := hchecked
  intro e he
  refine (htimed.timed e he).imp_left fun hm => ?_
  obtain ⟨j, hj⟩ := List.mem_iff_getElem?.1 hm
  have hji : j < i := by
    by_contra hge
    rw [List.getElem?_eq_none ((List.getElem?_eq_none_iff.1 hlast).trans (not_lt.1 hge))] at hj
    cases hj
  have hpassed := hc i (by rw [hend]; rfl) j hji _ hj
  simpa [OAuthTimer.passed, timerOf] using hpassed

instance (T : Int) (s : OAuthSystem) (a : OAuthAction) : Decidable (NotBefore T s a) :=
  match a with
  | .call _ _ => isTrue trivial
  | .go _ now _ => inferInstanceAs (Decidable (T ≤ now))

/-- Thread 0 generates a state at 0 and another one 600 seconds later, and thread 1 is to sweep. -/
def generatedTwice : List OAuthAction :=
  [.call 0 (.generateOauthState "/"), .go 0 0 [], .go 0 0 sampleState, .go 0 0 [], .go 0 0 [],
    .go 0 0 [], .call 0 (.generateOauthState "/late"), .go 0 600000000000 [],
    .go 0 600000000000 sampleState', .go 0 600000000000 [], .go 0 600000000000 [],
    .go 0 600000000000 [], .call 1 (.sweep .checkTimers)]

/-- It sweeps a nanosecond later: the first state goes, the second stays. -/
def sweptOnce : List OAuthAction := List.replicate 11 (.go 1 600000000001 [])

theorem sweep_expires_oneDropped :
    ∃ s₀ g₀ s g, run (noted oauthStep note) (init, {}) generatedTwice = some (s₀, g₀) ∧
      run (noted oauthStep note) (s₀, g₀) sweptOnce = some (s, g) ∧
      g.expired = [(sampleState, "/")] ∧ s.oauthStates = [(sampleState', "/late")] ∧
      ∀ e ∈ s.oauthStates, 600000000001 - g.born e.1 ≤ stateLifetime * 1000000000 ∨
        ∃ t, (s.threads.pc t).registers = some (timerOf e.1 (g.born e.1)) := by
  obtain ⟨⟨s₀, g₀⟩, h₀, hw⟩ := (Option.any_eq_true _ _).1 (by decide +kernel :
    (run (noted oauthStep note) (init, {}) generatedTwice).any fun x =>
      x.1.threads.pc 1 = .sweep .checkTimers ∧
        Along oauthStep (NotBefore 600000000001) x.1 sweptOnce ∧
        (run (noted oauthStep note) x sweptOnce).any fun y =>
          y.1.threads.pc 1 = .loop .checkTimers 1 (-1) ∧ y.1.oauthTimers[1]? = none ∧
            y.2.expired = [(sampleState, "/")] ∧ y.1.oauthStates = [(sampleState', "/late")])
  obtain ⟨hstart, hT, hany⟩ := of_decide_eq_true hw
  obtain ⟨⟨s, g⟩, h, hw'⟩ := (Option.any_eq_true _ _).1 hany
  obtain ⟨hend, hlast, hexpired, hleft⟩ := of_decide_eq_true hw'
  exact ⟨s₀, g₀, s, g, h₀, h, hexpired, hleft, sweep_expires h₀ hstart hT h hend hlast⟩

end OAuthSystem

end Musicat.Server
