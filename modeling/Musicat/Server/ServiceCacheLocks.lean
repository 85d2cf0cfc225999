import Musicat.Lib.Locks
import Musicat.Server.ServiceCache

/-!
# The mutexes of the service cache

The sections of `Musicat.Server.ServiceCache` with the mutexes they take. The
loop of `check_timers` holds `_timers_m` and takes `cache_m` in `remove`; the
loop of a guild handler holds `cache_m` and takes `_timers_m` in
`remove_invalidate_timer`. A call that runs by itself does to the data what its
sections do.
-/

namespace Musicat.Server

open Lib

inductive CacheLock where
  /-- `cache_m`. -/
  | cache
  /-- `_timers_m`. -/
  | timers
  deriving DecidableEq

/-- The mutex a section begins with. -/
def Section.lock : Section → CacheLock
  | set _ _ | get _ | remove _ | guild _ => .cache
  | removeTimer _ | pushTimer _ _ | checkTimers => .timers

/-- A section that takes no second mutex. -/
def Section.single : Section → Bool
  | checkTimers | guild _ => false
  | _ => true

/-- Where a thread is: the sections `l` of its call that are still to come, what the call returns,
and the point in the section it is in. -/
inductive CachePC where
  /-- In front of the mutex of the first section; without one the call is over. -/
  | todo (l : List Section) (r : Json)
  | inside (x : { x : Section // x.single }) (l : List Section) (r : Json)
  /-- The loop of `check_timers` at timer `i`, and its `remove` for that timer, which is `t`. -/
  | checkLoop (i : Nat) (l : List Section) (r : Json)
  | checkRemove (t : InvalidateTimer) (i : Nat) (l : List Section) (r : Json)
  | checkRemoving (t : InvalidateTimer) (i : Nat) (l : List Section) (r : Json)
  /-- The loop of a guild handler at entry `i`, and its `remove_invalidate_timer` for `key`. -/
  | guildLoop (members : List Nat) (i : Nat) (l : List Section) (r : Json)
  | guildTimer (members : List Nat) (key : Key) (i : Nat) (l : List Section) (r : Json)
  | guildTimering (members : List Nat) (key : Key) (i : Nat) (l : List Section) (r : Json)

namespace CachePC

def isDone : CachePC → Bool
  | todo [] _ => true
  | _ => false

def waits : CachePC → Option CacheLock
  | todo (x :: _) _ => some x.lock
  | checkRemove _ _ _ _ => some .cache
  | guildTimer _ _ _ _ _ => some .timers
  | _ => none

def holds : CachePC → CacheLock → Bool
  | inside x _ _, l => x.1.lock = l
  | checkLoop _ _ _, .timers | checkRemove _ _ _ _, .timers => true
  | guildLoop _ _ _ _, .cache | guildTimer _ _ _ _ _, .cache => true
  | checkRemoving _ _ _ _, _ | guildTimering _ _ _ _ _, _ => true
  | _, _ => false

/-- The point behind the mutex of `x`. -/
def enter (l : List Section) (r : Json) : Section → CachePC
  | .checkTimers => checkLoop 0 l r
  | .guild members => guildLoop members 0 l r
  | .set key value => inside ⟨.set key value, rfl⟩ l r
  | .get key => inside ⟨.get key, rfl⟩ l r
  | .remove key => inside ⟨.remove key, rfl⟩ l r
  | .removeTimer key => inside ⟨.removeTimer key, rfl⟩ l r
  | .pushTimer key age => inside ⟨.pushTimer key age, rfl⟩ l r

/-- At the `remove` of `check_timers`, in front of `cache_m`. -/
def removing : CachePC → Bool
  | checkRemove _ _ _ _ => true
  | _ => false

/-- In the loop of a guild handler, with an entry of a member still to come. -/
def erasing (toSnowflake : Key → Nat) (cache : List (Key × Json)) : CachePC → Bool
  | guildLoop members i _ _ => (cache.drop i).any (isMembers toSnowflake members ·.1)
  | guildTimer _ _ _ _ _ => true
  | guildTimering members _ i _ _ => (cache.drop (i + 1)).any (isMembers toSnowflake members ·.1)
  | _ => false

end CachePC

def cacheView : LockView CachePC CacheLock where
  done p := p.isDone
  waits := CachePC.waits
  holds p l := p.holds l
  not_holds_of_done {p l} h := by
    cases p with
    | todo => cases l <;> nofun
    | _ => cases h
  not_holds_of_waits {p l} h := by
    cases p with
    | todo => cases l <;> nofun
    | checkRemove => cases h; nofun
    | guildTimer => cases h; nofun
    | _ => cases h

structure CacheSystem where
  threads : Threads Nat CachePC CacheLock
  data : CacheData

def CacheSystem.init : CacheSystem := ⟨⟨fun _ => .todo [] .null, fun _ => none⟩, {}⟩

inductive CacheThreadAction where
  | call (t : Nat) (c : CacheCall)
  /-- Thread `t` goes on; `now` is the clock. -/
  | go (t : Nat) (now : Int)

def CacheThreadAction.thread : CacheThreadAction → Nat
  | call t _ => t
  | go t _ => t

namespace CacheSystem

section
variable (toSnowflake : Key → Nat) (s : CacheSystem)

/-- Thread `t` goes on. -/
def go (t : Nat) (now : Int) : Option CacheSystem :=
  let goto p := some { s with threads := s.threads.goto t p }
  let take l p := (s.threads.take t l p).map fun threads => { s with threads }
  match s.threads.pc t with
  | .todo [] _ => none
  | .todo (x :: l) r => take x.lock (.enter l r x)
  | .inside x l r =>
    some ⟨s.threads.drop t x.1.lock (.todo l (x.1.returned s.data r)),
      x.1.body toSnowflake (fun _ => now) s.data⟩
  | .checkLoop i l r =>
    match s.data.timers[i]? with
    | none => some { s with threads := s.threads.drop t .timers (.todo l r) }
    | some tm =>
      if tm.passed now then goto (.checkRemove tm i l r) else goto (.checkLoop (i + 1) l r)
  | .checkRemove tm i l r => take .cache (.checkRemoving tm i l r)
  | .checkRemoving tm i l r =>
    some ⟨s.threads.drop t .cache (.checkLoop i l r),
      ⟨(s.data.remove tm.key).cache, s.data.timers.eraseIdx i⟩⟩
  | .guildLoop members i l r =>
    match s.data.cache[i]? with
    | none => some { s with threads := s.threads.drop t .cache (.todo l r) }
    | some e =>
      if isMembers toSnowflake members e.1 then goto (.guildTimer members e.1 i l r)
      else goto (.guildLoop members (i + 1) l r)
  | .guildTimer members key i l r => take .timers (.guildTimering members key i l r)
  | .guildTimering members key i l r =>
    some ⟨s.threads.drop t .timers (.guildLoop members i l r),
      ⟨s.data.cache.eraseIdx i, (s.data.removeInvalidateTimer key).timers⟩⟩

/-- In its next step thread `t` gets to the `remove` of `check_timers`. -/
def getsToRemove (t : Nat) (now : Int) : Bool :=
  match s.threads.pc t with
  | .checkLoop i _ _ => s.data.timers[i]?.any (·.passed now)
  | _ => false

/-- In its next step thread `t` enters the loop of a guild handler, with a member's entry cached. -/
def entersGuild (t : Nat) : Bool :=
  match s.threads.pc t with
  | .todo (.guild members :: _) _ => s.data.cache.any (isMembers toSnowflake members ·.1)
  | _ => false

/-- The owner of `l`, if there is one, is at a point with `q`. -/
def ownerAt (l : CacheLock) (q : CachePC → Bool) : Bool :=
  (s.threads.owner l).any fun u => q (s.threads.pc u)

/-- `check_timers` gets to its `remove` only when no guild handler that holds `cache_m` has an entry
of a member still to come, and such a handler takes `cache_m` only when no `check_timers` is at its
`remove`. -/
def Apart : CacheThreadAction → Prop
  | .call _ _ => True
  | .go t now =>
    (s.getsToRemove t now → s.ownerAt .cache (CachePC.erasing toSnowflake s.data.cache) = false) ∧
      (s.entersGuild toSnowflake t → s.ownerAt .timers CachePC.removing = false)

instance (a : CacheThreadAction) : Decidable (s.Apart toSnowflake a) :=
  match a with
  | .call _ _ => isTrue trivial
  | .go t now => inferInstanceAs (Decidable
      ((s.getsToRemove t now →
          s.ownerAt .cache (CachePC.erasing toSnowflake s.data.cache) = false) ∧
        (s.entersGuild toSnowflake t → s.ownerAt .timers CachePC.removing = false)))

end

end CacheSystem

def cacheThreadStep (toSnowflake : Key → Nat) (s : CacheSystem) :
    CacheThreadAction → Option CacheSystem
  | .call t c =>
    if (s.threads.pc t).isDone then
      some { s with threads := s.threads.goto t (.todo c.sections .null) }
    else none
  | .go t now => s.go toSnowflake t now

namespace CacheSystem

variable {toSnowflake : Key → Nat} {s s' : CacheSystem} {t : Nat} {now : Int}

/-! ## What a step does -/

theorem holds_enter (x : Section) (l : List Section) (r : Json) (k : CacheLock) :
    (CachePC.enter l r x).holds k = (k == x.lock) := by
  cases x <;> cases k <;> rfl

/-- Thread `t` goes to `p`. The cache changes under `cache_m` only; `t` is in a loop with a member's
entry to come only if it was or enters it now, and gets to `remove` only by `getsToRemove`. -/
structure Goes (toSnowflake : Key → Nat) (s : CacheSystem) (t : Nat) (now : Int) (p : CachePC)
    (s' : CacheSystem) : Prop where
  moves : s.threads.Moves cacheView t p s'.threads
  cache : ¬ (s.threads.pc t).holds .cache → s'.data.cache = s.data.cache
  erasing : p.erasing toSnowflake s'.data.cache →
    (s.threads.pc t).erasing toSnowflake s.data.cache ∨ s.entersGuild toSnowflake t
  removing : p.removing → s.getsToRemove t now

/-- A section without a second mutex changes the entries under `cache_m` only. -/
theorem body_cache (x : { x : Section // x.single }) (h : x.1.lock ≠ .cache) (d : CacheData) :
    (x.1.body toSnowflake (fun _ => now) d).cache = d.cache := by
  obtain ⟨x, hx⟩ := x
  cases x with
  | set | get | remove => exact absurd rfl h
  | removeTimer | pushTimer => rfl
  | checkTimers | guild => cases hx

theorem any_drop_of_succ {members : List Nat} {i : Nat} {cache : List (Key × Json)}
    (h : (cache.drop (i + 1)).any (isMembers toSnowflake members ·.1)) :
    (cache.drop i).any (isMembers toSnowflake members ·.1) := by
  rw [List.any_eq_true] at h ⊢
  obtain ⟨e, he, hm⟩ := h
  rw [← List.drop_drop] at he
  exact ⟨e, List.mem_of_mem_drop he, hm⟩

section
variable {p q : CachePC} {k : CacheLock} (hpc : s.threads.pc t = q) (hr : p.removing = false)
include hpc hr

theorem goes_take {threads : Threads Nat CachePC CacheLock}
    (h : s.threads.take t k p = some threads) (hp : ∀ k', p.holds k' = (k' == k || q.holds k'))
    (he : p.erasing toSnowflake s.data.cache →
      q.erasing toSnowflake s.data.cache ∨ s.entersGuild toSnowflake t) :
    s.Goes toSnowflake t now p { s with threads } where
  moves := .take h fun k => by simp [cacheView, hpc, hp]
  cache _ := rfl
  erasing := hpc ▸ he
  removing h := by simp [hr] at h

theorem goes_drop (hk : q.holds k) (hp : ∀ k', p.holds k' = (k' != k && q.holds k'))
    (data : CacheData) (hc : ¬ q.holds .cache → data.cache = s.data.cache)
    (he : p.erasing toSnowflake data.cache → q.erasing toSnowflake s.data.cache) :
    s.Goes toSnowflake t now p ⟨s.threads.drop t k p, data⟩ where
  moves := .drop (hpc ▸ hk) fun k => by simp [cacheView, hpc, hp]
  cache := hpc ▸ hc
  erasing := hpc ▸ fun h => .inl (he h)
  removing h := by simp [hr] at h

theorem goes_goto (hp : ∀ k', p.holds k' = q.holds k')
    (he : p.erasing toSnowflake s.data.cache → q.erasing toSnowflake s.data.cache) :
    s.Goes toSnowflake t now p { s with threads := s.threads.goto t p } where
  moves := .goto fun k => by simp [cacheView, hpc, hp]
  cache _ := rfl
  erasing := hpc ▸ fun h => .inl (he h)
  removing h := by simp [hr] at h

end

/-- What a step does. -/
theorem go_goes (h : s.go toSnowflake t now = some s') : ∃ p, s.Goes toSnowflake t now p s' := by
  cases hpc : s.threads.pc t with
  | todo l r =>
    cases l with
    | nil => simp [go, hpc] at h
    | cons x l =>
      simp only [go, hpc] at h
      obtain ⟨threads, ht, rfl⟩ := Option.map_eq_some_iff.1 h
      refine ⟨_, goes_take hpc ?_ ht (fun k => ?_) fun he => .inr ?_⟩
      · cases x <;> rfl
      · rw [holds_enter, show (CachePC.todo (x :: l) r).holds k = false by cases k <;> rfl,
          Bool.or_false]
      · cases x with
        | guild members => simpa [entersGuild, hpc, CachePC.enter, CachePC.erasing] using he
        | _ => cases he
  | inside x l r =>
    simp only [go, hpc] at h
    cases h
    refine ⟨_, goes_drop hpc rfl ?_ (fun k => ?_) _ (fun hc => ?_) nofun⟩
    · simp [CachePC.holds]
    · simp [CachePC.holds, bne, Bool.beq_eq_decide_eq, eq_comm]
    · exact body_cache x (by simpa [CachePC.holds] using hc) s.data
  | checkLoop i l r =>
    simp only [go, hpc] at h
    split at h
    · cases h
      exact ⟨_, goes_drop hpc rfl rfl (fun k => by cases k <;> rfl) s.data (fun _ => rfl) nofun⟩
    · rename_i tm htm
      split at h <;> rename_i hp <;> cases h
      · refine ⟨.checkRemove tm i l r, .goto fun k => ?_, fun _ => rfl, nofun, fun _ => ?_⟩
        · cases k <;> simp [cacheView, hpc, CachePC.holds]
        · simp [getsToRemove, hpc, htm, hp]
      · exact ⟨_, goes_goto hpc rfl (fun k => by cases k <;> rfl) nofun⟩
  | checkRemove tm i l r =>
    simp only [go, hpc] at h
    obtain ⟨threads, ht, rfl⟩ := Option.map_eq_some_iff.1 h
    exact ⟨_, goes_take hpc rfl ht (fun k => by cases k <;> rfl) nofun⟩
  | checkRemoving tm i l r =>
    simp only [go, hpc] at h
    cases h
    exact ⟨_, goes_drop hpc rfl rfl (fun k => by cases k <;> rfl) _ (fun hc => absurd rfl hc) nofun⟩
  | guildLoop members i l r =>
    simp only [go, hpc] at h
    split at h
    · cases h
      exact ⟨_, goes_drop hpc rfl rfl (fun k => by cases k <;> rfl) s.data (fun _ => rfl) nofun⟩
    · rename_i e he
      split at h <;> rename_i hm <;> cases h
      · refine ⟨_, goes_goto hpc rfl (fun k => by cases k <;> rfl) fun _ => ?_⟩
        refine List.any_eq_true.2 ⟨e, List.mem_of_getElem? (i := 0) ?_, hm⟩
        rw [List.getElem?_drop]
        exact he
      · exact ⟨_, goes_goto hpc rfl (fun k => by cases k <;> rfl) any_drop_of_succ⟩
  | guildTimer members key i l r =>
    simp only [go, hpc] at h
    obtain ⟨threads, ht, rfl⟩ := Option.map_eq_some_iff.1 h
    exact ⟨_, goes_take hpc rfl ht (fun k => by cases k <;> rfl) fun _ => .inl rfl⟩
  | guildTimering members key i l r =>
    simp only [go, hpc] at h
    cases h
    refine ⟨_, goes_drop hpc rfl rfl (fun k => by cases k <;> rfl) _ (fun hc => absurd rfl hc)
      fun he => ?_⟩
    simpa only [CachePC.erasing, drop_eraseIdx_self] using he

/-- A call starts at a point that holds nothing. -/
theorem call_moves {c : CacheCall} (h : cacheThreadStep toSnowflake s (.call t c) = some s') :
    (s.threads.pc t).isDone ∧
      s.threads.Moves cacheView t (.todo c.sections .null) s'.threads ∧ s'.data = s.data := by
  simp only [cacheThreadStep] at h
  split at h
  · rename_i hdone
    cases h
    refine ⟨hdone, .goto fun k => ?_, rfl⟩
    have := cacheView.not_holds_of_done (l := k) hdone
    simp only [this, iff_false]
    cases k <;> nofun
  · cases h

/-! ## Along steps that stay apart -/

/-- The owners are right, and no guild handler with an entry of a member still to come meets the
`remove` of `check_timers`. -/
structure ApartInv (toSnowflake : Key → Nat) (s : CacheSystem) : Prop where
  owned : s.threads.Owned cacheView
  apart : ∀ t u, (s.threads.pc t).erasing toSnowflake s.data.cache →
    ¬ (s.threads.pc u).removing

theorem apartInv_init : ApartInv toSnowflake init where
  owned t l := by cases l <;> simp [init, cacheView, CachePC.holds]
  apart _ _ h := by cases h

theorem holds_of_erasing {cache : List (Key × Json)} {p : CachePC}
    (h : p.erasing toSnowflake cache) : p.holds .cache := by
  cases p with
  | guildLoop | guildTimer | guildTimering => rfl
  | _ => cases h

theorem holds_of_removing {p : CachePC} (h : p.removing) : p.holds .timers := by
  cases p with
  | checkRemove => rfl
  | _ => cases h

theorem not_removing_of_erasing {cache : List (Key × Json)} {p : CachePC}
    (h : p.erasing toSnowflake cache) : ¬ p.removing := by
  cases p with
  | guildLoop | guildTimer | guildTimering => nofun
  | _ => cases h

/-- At a point that holds `cache_m` and waits for `_timers_m` a handler has an entry to erase. -/
theorem erasing_of_waits {p : CachePC} (h : p.holds .cache) (hw : p.waits = some .timers)
    (cache : List (Key × Json)) : p.erasing toSnowflake cache := by
  cases p with
  | guildTimer => rfl
  | todo => cases h
  | _ => cases hw

theorem removing_of_waits {p : CachePC} (h : p.holds .timers) (hw : p.waits = some .cache) :
    p.removing := by
  cases p with
  | checkRemove => rfl
  | todo => cases h
  | _ => cases hw

theorem ApartInv.step {a : CacheThreadAction} (hi : s.ApartInv toSnowflake)
    (ha : s.Apart toSnowflake a) (h : cacheThreadStep toSnowflake s a = some s') :
    s'.ApartInv toSnowflake := by
  cases a with
  | call t c =>
    obtain ⟨-, hm, hd⟩ := call_moves h
    refine ⟨hm.owned hi.owned, ?_⟩
    rw [hd]
    exact hm.apart (·.erasing toSnowflake s.data.cache) (·.erasing toSnowflake s.data.cache)
      (·.removing) hi.owned (fun _ => holds_of_erasing) (fun _ => holds_of_removing)
      (fun _ => not_removing_of_erasing) (fun _ _ he => he) hi.apart nofun nofun
  | go t now =>
    obtain ⟨p, hgo⟩ := go_goes h
    refine ⟨hgo.moves.owned hi.owned, hgo.moves.apart (·.erasing toSnowflake s.data.cache)
      (·.erasing toSnowflake s'.data.cache) (·.removing) hi.owned (fun _ => holds_of_erasing)
      (fun _ => holds_of_removing) (fun _ => not_removing_of_erasing) (fun u hu he => ?_) hi.apart
      (fun hp => (hgo.erasing hp).imp_right fun hg u hu => ?_) fun hp u hu => ?_⟩
    · -- another handler holds `cache_m`, so `t` did not touch the entries
      rwa [hgo.cache fun ht => hu (hi.owned.unique (holds_of_erasing he) ht)] at he
    · simpa [ownerAt, hu] using ha.2 hg
    · simpa [ownerAt, hu] using ha.1 (hgo.removing hp)

/-- **No deadlock** in a run in which the sweeps and the guild handlers stay apart. -/
theorem cache_no_deadlock {l : List CacheThreadAction}
    (hl : Along (cacheThreadStep toSnowflake) (Apart toSnowflake) init l)
    (h : run (cacheThreadStep toSnowflake) init l = some s) :
    ¬ s.threads.Deadlock cacheView := by
  have hi : s.ApartInv toSnowflake :=
    run_inv (fun _ _ _ hi ha hs => hi.step ha hs) apartInv_init hl h
  have hall : ∀ l : CacheLock, l = .cache ∨ l = .timers := fun l => by cases l <;> simp
  exact hi.owned.not_deadlock hall (by decide) (fun _ ht hw => erasing_of_waits ht hw _)
    (fun _ => removing_of_waits) hi.apart

/-! ## Sections by themselves -/

/-- Thread `t`, alone, gets from `s` to `s'`. -/
def Alone (toSnowflake : Key → Nat) (t : Nat) (s s' : CacheSystem) : Prop :=
  ∃ acts : List CacheThreadAction, (∀ a ∈ acts, a.thread = t) ∧
    run (cacheThreadStep toSnowflake) s acts = some s'

theorem Alone.refl (s : CacheSystem) : Alone toSnowflake t s s := ⟨[], nofun, rfl⟩

theorem Alone.step {u : CacheSystem} (now : Int) (h : s.go toSnowflake t now = some u)
    (h' : Alone toSnowflake t u s') : Alone toSnowflake t s s' := by
  obtain ⟨acts, ht, hr⟩ := h'
  refine ⟨.go t now :: acts, fun a ha => ?_, (run_cons (a := .go t now) h acts).trans hr⟩
  rcases List.mem_cons.1 ha with rfl | ha
  · rfl
  · exact ht a ha

/-- No mutex is taken. -/
def free : CacheLock → Option Nat := fun _ => none

section
variable (pc : Nat → CachePC) (t : Nat)

/-- Thread `t` is at `p`, and `held` says who owns the mutexes. -/
def atPC (p : CachePC) (held : CacheLock → Option Nat) (d : CacheData) : CacheSystem :=
  ⟨⟨Function.update pc t p, held⟩, d⟩

variable {pc t} {l : List Section} {r : Json} {d : CacheData}

theorem single_alone {x : Section} (hx : x.single) (now : Int) :
    Alone toSnowflake t (atPC pc t (.todo (x :: l) r) free d)
      (atPC pc t (.todo l (x.returned d r)) free (x.body toSnowflake (fun _ => now) d)) := by
  have henter : CachePC.enter l r x = .inside ⟨x, hx⟩ l r := by
    cases x with
    | checkTimers | guild => cases hx
    | _ => rfl
  refine .step (u := atPC pc t (.inside ⟨x, hx⟩ l r) (Function.update free x.lock (some t)) d)
    now ?_ (.step now ?_ (.refl _))
  · simp [go, atPC, Threads.take, free, henter]
  · simp [go, atPC, Threads.drop, free]

/-- The loop of `check_timers`, behind the timers `pre` that it has left. -/
theorem checkLoop_alone (rest : List InvalidateTimer) :
    ∀ (clock : Nat → Int) (pre : List InvalidateTimer) (cache : List (Key × Json)),
      Alone toSnowflake t
        (atPC pc t (.checkLoop pre.length l r) (Function.update free .timers (some t))
          ⟨cache, pre ++ rest⟩)
        (atPC pc t (.todo l r) free
          ⟨(checkTimers clock cache rest).cache,
            pre ++ (checkTimers clock cache rest).timers⟩) := by
  induction rest with
  | nil =>
    intro clock pre cache
    refine .step (clock 0) ?_ (.refl _)
    simp [go, atPC, Threads.drop, checkTimers, free]
  | cons tm rest ih =>
    intro clock pre cache
    simp only [checkTimers]
    split
    · rename_i hp
      refine .step (u := atPC pc t (.checkRemove tm pre.length l r)
        (Function.update free .timers (some t)) ⟨cache, pre ++ tm :: rest⟩) (clock 0) ?_ ?_
      · simp [go, atPC, Threads.goto, hp]
      refine .step (u := atPC pc t (.checkRemoving tm pre.length l r)
        (Function.update (Function.update free .timers (some t)) .cache (some t))
        ⟨cache, pre ++ tm :: rest⟩) (clock 0) ?_ ?_
      · simp [go, atPC, Threads.take, free]
      refine .step (clock 0) ?_ (ih (fun n => clock (n + 1)) pre _)
      simp [go, atPC, Threads.drop, free, CacheData.remove,
        List.eraseIdx_append_of_length_le (Nat.le_refl pre.length)]
    · rename_i hp
      refine .step (u := atPC pc t (.checkLoop (pre ++ [tm]).length l r)
        (Function.update free .timers (some t)) ⟨cache, (pre ++ [tm]) ++ rest⟩) (clock 0) ?_ ?_
      · simp [go, atPC, Threads.goto, hp]
      · simpa using ih (fun n => clock (n + 1)) (pre ++ [tm]) cache

/-- The loop of a guild handler, behind the entries `pre` that it has left. -/
theorem guildLoop_alone {members : List Nat} (rest : List (Key × Json)) :
    ∀ (pre : List (Key × Json)) (timers : List InvalidateTimer),
      Alone toSnowflake t
        (atPC pc t (.guildLoop members pre.length l r) (Function.update free .cache (some t))
          ⟨pre ++ rest, timers⟩)
        (atPC pc t (.todo l r) free
          ⟨pre ++ (guildLoop toSnowflake members rest timers).cache,
            (guildLoop toSnowflake members rest timers).timers⟩) := by
  induction rest with
  | nil =>
    intro pre timers
    refine .step 0 ?_ (.refl _)
    simp [go, atPC, Threads.drop, guildLoop, free]
  | cons e rest ih =>
    intro pre timers
    simp only [guildLoop]
    split
    · rename_i hm
      refine .step (u := atPC pc t (.guildTimer members e.1 pre.length l r)
        (Function.update free .cache (some t)) ⟨pre ++ e :: rest, timers⟩) 0 ?_ ?_
      · simp [go, atPC, Threads.goto, hm]
      refine .step (u := atPC pc t (.guildTimering members e.1 pre.length l r)
        (Function.update (Function.update free .cache (some t)) .timers (some t))
        ⟨pre ++ e :: rest, timers⟩) 0 ?_ ?_
      · simp [go, atPC, Threads.take, free]
      refine .step 0 ?_ (ih pre _)
      simp [go, atPC, Threads.drop, free, CacheData.removeInvalidateTimer,
        List.eraseIdx_append_of_length_le (Nat.le_refl pre.length)]
    · rename_i hm
      refine .step (u := atPC pc t (.guildLoop members (pre ++ [e]).length l r)
        (Function.update free .cache (some t)) ⟨(pre ++ [e]) ++ rest, timers⟩) 0 ?_ ?_
      · simp [go, atPC, Threads.goto, hm]
      · simpa using ih (pre ++ [e]) timers

/-- **A section that runs by itself does to the data what its body says.** -/
theorem section_alone (x : Section) (clock : Nat → Int) :
    Alone toSnowflake t (atPC pc t (.todo (x :: l) r) free d)
      (atPC pc t (.todo l (x.returned d r)) free (x.body toSnowflake clock d)) := by
  cases x with
  | checkTimers =>
    refine .step (u := atPC pc t (.checkLoop 0 l r) (Function.update free .timers (some t)) d) 0 ?_
      (checkLoop_alone d.timers clock [] d.cache)
    simp [go, atPC, Threads.take, free, Section.lock, CachePC.enter]
  | guild members =>
    refine .step (u := atPC pc t (.guildLoop members 0 l r)
      (Function.update free .cache (some t)) d) 0 ?_ (guildLoop_alone d.cache [] d.timers)
    simp [go, atPC, Threads.take, free, Section.lock, CachePC.enter]
  | _ => exact single_alone rfl (clock 0)

end

/-- The threads of the calls of `s`, each in front of its next section. -/
def ofSections (s : ServiceCache) : CacheSystem :=
  ⟨⟨fun i => (s.calls[i]?).elim (.todo [] .null) fun c => .todo c.todo c.returned, free⟩, s.data⟩

/-- A step in sections is a run of the threads. -/
theorem ofSections_step {s s' : ServiceCache} {a : CacheAction}
    (h : cacheStep toSnowflake s a = some s') :
    ∃ acts, run (cacheThreadStep toSnowflake) (ofSections s) acts = some (ofSections s') := by
  cases a with
  | call c =>
    cases h
    refine ⟨[.call s.calls.length c], ?_⟩
    simp only [run, cacheThreadStep, ofSections, Threads.goto, List.getElem?_length, Option.elim,
      CachePC.isDone, if_true, Option.bind_some]
    congr 3
    funext i
    by_cases hi : i = s.calls.length
    · simp [hi]
    · rw [Function.update_of_ne hi]
      rcases Nat.lt_or_gt_of_ne hi with hi | hi
      · rw [List.getElem?_append_left hi]
      · rw [List.getElem?_append_right (by omega), List.getElem?_eq_none (by omega),
          List.getElem?_eq_none (by simp; omega)]
  | go i clock =>
    simp only [cacheStep] at h
    split at h
    · rename_i x todo r hx
      cases h
      have hpc : (ofSections s).threads.pc i = .todo (x :: todo) r := by simp [ofSections, hx]
      have halone : Alone toSnowflake i
          (atPC (ofSections s).threads.pc i (.todo (x :: todo) r) free s.data) _ :=
        section_alone x clock
      obtain ⟨acts, -, hr⟩ := halone
      rw [atPC, ← hpc, Function.update_eq_self] at hr
      refine ⟨acts, hr.trans ?_⟩
      simp only [atPC, ofSections]
      congr 3
      funext j
      by_cases hj : j = i
      · subst hj
        simp [(List.getElem?_eq_some_iff.1 hx).1]
      · rw [Function.update_of_ne hj, List.getElem?_set_ne (Ne.symm hj)]
    · cases h

/-- **Every run in sections is a run of the threads.** -/
theorem ofSections_run {acts : List CacheAction} :
    ∀ {s s' : ServiceCache}, run (cacheStep toSnowflake) s acts = some s' →
      ∃ acts', run (cacheThreadStep toSnowflake) (ofSections s) acts' = some (ofSections s') := by
  induction acts with
  | nil =>
    intro s s' h
    cases h
    exact ⟨[], rfl⟩
  | cons a acts ih =>
    intro s s' h
    obtain ⟨s₁, hs, hr⟩ := run_cons_eq_some.1 h
    obtain ⟨l₁, h₁⟩ := ofSections_step hs
    obtain ⟨l₂, h₂⟩ := ih hr
    refine ⟨l₁ ++ l₂, ?_⟩
    rw [run_append, h₁]
    exact h₂

/-! ## A sweep and a guild handler -/

theorem step_moves {a : CacheThreadAction} (h : cacheThreadStep toSnowflake s a = some s') :
    ∃ p, s.threads.Moves cacheView a.thread p s'.threads := by
  cases a with
  | call t c => exact ⟨_, (call_moves h).2.1⟩
  | go t now =>
    obtain ⟨p, hgo⟩ := go_goes h
    exact ⟨p, hgo.moves⟩

/-- Thread 0 caches the guilds of user 7, and thread 1 is to take `cache_m` for a guild that user 7
is in. -/
def guildCreated : List CacheThreadAction :=
  [.call 0 (.setCachedUserGuilds ['7'] .null), .go 0 0, .go 0 0, .go 0 0, .go 0 0, .go 0 0, .go 0 0,
    .call 1 (.handleGuildCreate ⟨1, 9, [7]⟩), .go 1 0, .go 1 0, .go 1 0, .go 1 0,
    .call 2 .checkTimers]

/-- The sweep is over before the handler takes `cache_m`. -/
theorem cache_no_deadlock_guildCreated :
    ∃ s, run (cacheThreadStep fun _ => 7) init
        (guildCreated ++ [.go 2 0, .go 2 0, .go 2 0, .go 1 0, .go 1 0]) = some s ∧
      ¬ s.threads.Deadlock cacheView :=
  ⟨_, rfl, @cache_no_deadlock (fun _ => 7) _
    (guildCreated ++ [.go 2 0, .go 2 0, .go 2 0, .go 1 0, .go 1 0]) (by decide) rfl⟩

/-- The handler takes `cache_m` while the sweep finds the entry too old. -/
def guildMeanwhile : List CacheThreadAction :=
  guildCreated ++ [.go 1 0, .go 2 0, .go 2 86400000000001, .go 1 0]

theorem cache_deadlock_guildMeanwhile :
    ∃ s, run (cacheThreadStep fun _ => 7) init guildMeanwhile = some s ∧
      s.threads.Deadlock cacheView := by
  obtain ⟨s, hs, hw⟩ := (Option.any_eq_true _ _).1 (by decide :
    (run (cacheThreadStep fun _ => 7) init guildMeanwhile).any (fun s =>
      (s.threads.pc 0).isDone ∧ (s.threads.pc 1).waits = some .timers ∧
        s.threads.owner .timers = some 2 ∧ (s.threads.pc 2).waits = some .cache ∧
        s.threads.owner .cache = some 1 ∧ ¬ (s.threads.pc 1).isDone))
  obtain ⟨hd₀, hw₁, ho₁, hw₂, ho₂, hd₁⟩ := of_decide_eq_true hw
  refine ⟨s, hs, Threads.deadlock_of_crossed (by decide : (1 : Nat) ≠ 2) hd₁ hw₁ ho₁ hw₂ ho₂
    fun t h1 h2 => ?_⟩
  by_cases h0 : t = 0
  · exact h0 ▸ hd₀
  · rw [Threads.run_pc (t := t) CacheSystem.threads CacheThreadAction.thread step_moves ?_ hs]
    · rfl
    · simp [guildMeanwhile, guildCreated, CacheThreadAction.thread, Ne.symm h0, Ne.symm h1,
        Ne.symm h2]

end CacheSystem

end Musicat.Server
