import Mathlib.Tactic.Common
import Musicat.Lib.Locks

/-!
# The Python contexts of the threads

`get_context` initialises Python unless it is initialised, and gives the calling
thread its context, a new one if it has none; a thread that ends removes its
own; `shutdown` removes all and finalises Python. Each takes the mutex of
`contexts`, which is not recursive. `on_thread_done` calls `shutdown` with the
mutex held when it has removed the last context, and blocks for good
(`own_mutex_locked`); in a run in which no thread end removes the last one, no
thread takes the mutex twice (`contexts_clean`).

The functions of Python are what they do to the interpreter, and succeed.
-/

namespace Musicat.Threads

open Lib

/-- The functions that take the mutex. -/
inductive CtxOp where
  | getContext
  | onThreadDone
  | shutdown
  deriving DecidableEq, Repr

/-- Where a thread is. -/
inductive CtxPc where
  | outside
  /-- In front of the mutex. -/
  | locking (op : CtxOp)
  /-- In `get_context`, before `global_init`, and before the context is found or made. -/
  | initialising
  | finding
  | erasing
  /-- In front of the mutex of the `shutdown` that `on_thread_done` calls with the mutex held. -/
  | relocking
  | clearing
  | unlocking (op : CtxOp)
  /-- The thread has ended. -/
  | ended
  deriving DecidableEq, Repr

def CtxPc.holds : CtxPc → Bool
  | initialising | finding | erasing | relocking | clearing | unlocking _ => true
  | _ => false

/-- The first point behind the mutex. -/
def CtxOp.start : CtxOp → CtxPc
  | getContext => .initialising
  | onThreadDone => .erasing
  | shutdown => .clearing

/-- Where a thread is when the function has returned. -/
def CtxOp.returned : CtxOp → CtxPc
  | onThreadDone => .ended
  | _ => .outside

def ctxView : LockView CtxPc Unit where
  done p := p = .outside ∨ p = .ended
  waits p := match p with
    | .locking _ => some ()
    | _ => none
  holds p _ := p.holds
  not_holds_of_done h := by rcases h with rfl | rfl <;> nofun
  not_holds_of_waits {p _} h := by
    cases p with
    | locking => nofun
    | _ => cases h

structure CtxState where
  threads : Threads Nat CtxPc Unit := ⟨fun _ => .outside, fun _ => none⟩
  /-- The keys of `contexts`. -/
  contexts : List Nat := []
  globalInitialized : Bool := false
  mainInterpreter : Bool := false
  /-- The calls of `Py_InitializeFromConfig` and of `Py_FinalizeEx`. -/
  inits : Nat := 0
  finals : Nat := 0
  /-- The threads whose `get_context` has returned and which have not ended, nor has a shutdown
  removed all contexts since. -/
  entitled : Nat → Bool := fun _ => false
  /-- A thread end has removed the last context, and `get_context` has not begun since. -/
  lastRemoved : Bool := false

namespace CtxState

/-- `global_init`, with `cache_main_interpreter`. -/
def globalInit (s : CtxState) : CtxState :=
  if s.globalInitialized then s
  else { s with inits := s.inits + 1, globalInitialized := true, mainInterpreter := true }

/-- The body of `shutdown`. -/
def clear (s : CtxState) : CtxState :=
  let s := { s with contexts := [], entitled := fun _ => false }
  if s.mainInterpreter then
    { s with finals := s.finals + 1, globalInitialized := false, mainInterpreter := false }
  else s

/-- `contexts.get ().erase (i)`. -/
def erase (s : CtxState) (t : Nat) : CtxState :=
  { s with
    contexts := s.contexts.erase t
    entitled := Function.update s.entitled t false
    lastRemoved := s.contexts.erase t = [] }

def goto (s : CtxState) (t : Nat) (p : CtxPc) : CtxState :=
  { s with threads := s.threads.goto t p }

/-- Thread `t` goes on. -/
def turn (s : CtxState) (t : Nat) : Option CtxState :=
  match s.threads.pc t with
  | .outside | .ended => none
  | .locking op => (s.threads.take t () op.start).map fun threads => { s with threads }
  | .initialising => some ({ s.globalInit with lastRemoved := false }.goto t .finding)
  | .finding =>
    some ({ s with contexts := if t ∈ s.contexts then s.contexts else s.contexts ++ [t] }.goto t
      (.unlocking .getContext))
  | .erasing =>
    if t ∈ s.contexts then
      some ((s.erase t).goto t
        (if s.contexts.erase t = [] then .relocking else .unlocking .onThreadDone))
    else some (s.goto t (.unlocking .onThreadDone))
  | .relocking => (s.threads.take t () .clearing).map fun threads => { s with threads }
  | .clearing => some (s.clear.goto t (.unlocking .shutdown))
  | .unlocking op =>
    some { s with
      threads := s.threads.drop t () op.returned
      entitled := if op = .getContext then Function.update s.entitled t true else s.entitled }

end CtxState

inductive CtxAction where
  | call (t : Nat) (op : CtxOp)
  | turn (t : Nat)
  deriving DecidableEq, Repr

def ctxStep (s : CtxState) : CtxAction → Option CtxState
  | .call t op => if s.threads.pc t = .outside then some (s.goto t (.locking op)) else none
  | .turn t => s.turn t

/-- No thread end removes the last context. -/
def NotLast (s : CtxState) : CtxAction → Prop
  | .turn t => s.threads.pc t = .erasing → s.contexts.erase t = [] → t ∉ s.contexts
  | .call _ _ => True

instance (s : CtxState) (a : CtxAction) : Decidable (NotLast s a) :=
  match a with
  | .turn _ => inferInstanceAs (Decidable (_ → _ → _))
  | .call _ _ => isTrue trivial

/-- What the contexts are used by. -/
structure CleanContexts (s : CtxState) : Prop where
  /-- No thread in front of the mutex holds it. -/
  notOwn : ∀ t, s.threads.owner () = some t →
    s.threads.pc t ≠ .relocking ∧ ∀ op, s.threads.pc t ≠ .locking op
  kept : ∀ t, s.entitled t = true → t ∈ s.contexts
  /-- When a thread end has removed the last context and returned, Python is finalised. -/
  finalised : s.lastRemoved = true → s.threads.owner () = none → s.globalInitialized = false
  /-- Every initialisation but the one in force has been finalised, once. -/
  once : s.inits = s.finals + s.globalInitialized.toNat
  initialised : s.contexts ≠ [] → s.globalInitialized = true

structure CtxInv (s : CtxState) : Prop where
  owned : s.threads.Owned ctxView
  notRelocking : ∀ t, s.threads.pc t ≠ .relocking
  kept : ∀ t, s.entitled t = true → t ∈ s.contexts
  found : ∀ t, s.threads.pc t = .unlocking .getContext → t ∈ s.contexts
  main : s.mainInterpreter = s.globalInitialized
  ready : ∀ t, s.threads.pc t = .finding → s.globalInitialized = true
  once : s.inits = s.finals + s.globalInitialized.toNat
  initialised : s.contexts ≠ [] → s.globalInitialized = true
  notLast : s.lastRemoved = false

section
variable {s s' : CtxState} {t : Nat} {p q : CtxPc} {op : CtxOp}

theorem ctxInv_init : CtxInv {} where
  owned _ _ := ⟨nofun, nofun⟩
  notRelocking _ := nofun
  kept _ := nofun
  found _ := nofun
  main := rfl
  ready _ := nofun
  once := rfl
  initialised h := absurd rfl h
  notLast := rfl

theorem CtxInv.clean (hi : CtxInv s) : CleanContexts s where
  notOwn t ht := by
    have hholds : (s.threads.pc t).holds = true := (hi.owned t ()).1 ht
    refine ⟨hi.notRelocking t, fun op hop => ?_⟩
    rw [hop] at hholds
    cases hholds
  kept := hi.kept
  finalised h := by
    rw [hi.notLast] at h
    cases h
  once := hi.once
  initialised := hi.initialised

/-- After a step of the holder, a thread that holds the mutex is the holder. -/
theorem only_holder (hown : s.threads.Owned ctxView) (ht : (s.threads.pc t).holds = true) {u : Nat}
    (hu : Function.update s.threads.pc t p u = q) (hq : q.holds = true) : u = t ∧ p = q := by
  by_cases hut : u = t
  · subst hut
    rw [Function.update_self] at hu
    exact ⟨rfl, hu⟩
  · rw [Function.update_of_ne hut] at hu
    have huh : ctxView.holds (s.threads.pc u) () := by
      rw [hu]
      exact hq
    exact absurd (hown.unique huh ht) hut

/-- The program counters after a step of a thread that does not hold the mutex before it. -/
theorem pc_of_update {u : Nat} (hu : Function.update s.threads.pc t p u = q) (hp : p ≠ q) :
    s.threads.pc u = q := by
  by_cases hut : u = t
  · subst hut
    rw [Function.update_self] at hu
    exact absurd hu hp
  · rwa [Function.update_of_ne hut] at hu

theorem owned_goto (hown : s.threads.Owned ctxView) (h : p.holds = (s.threads.pc t).holds) :
    (s.threads.goto t p).Owned ctxView :=
  hown.goto fun _ => by
    show p.holds = true ↔ (s.threads.pc t).holds = true
    rw [h]

namespace CtxInv

theorem call (hi : CtxInv s) (h : ctxStep s (.call t op) = some s') : CtxInv s' := by
  simp only [ctxStep] at h
  split at h
  · rename_i hpc
    cases h
    have hown := owned_goto (p := .locking op) hi.owned (by rw [hpc]; rfl)
    exact { hi with
      owned := hown
      notRelocking := fun u hu => hi.notRelocking u (pc_of_update hu nofun)
      found := fun u hu => hi.found u (pc_of_update hu nofun)
      ready := fun u hu => hi.ready u (pc_of_update hu nofun) }
  · cases h

/-- The mutex is taken. -/
theorem take (hi : CtxInv s) (hpc : s.threads.pc t = .locking op) {threads : Threads Nat CtxPc Unit}
    (h : s.threads.take t () op.start = some threads) : CtxInv { s with threads } := by
  have hstart : op.start.holds = true ∧ op.start ≠ .relocking ∧ op.start ≠ .finding ∧
      op.start ≠ .unlocking .getContext := by
    cases op <;> exact ⟨rfl, nofun, nofun, nofun⟩
  obtain ⟨hholds, hr, hf, hu⟩ := hstart
  have hpcs : threads.pc = Function.update s.threads.pc t op.start := by
    rw [(Threads.take_eq_some h).2]
  refine { hi with
    owned := hi.owned.take h fun k => ?_
    notRelocking := fun u hu' => ?_
    found := fun u hu' => ?_
    ready := fun u hu' => ?_ }
  · exact ⟨fun _ => .inl rfl, fun _ => hholds⟩
  · rw [hpcs] at hu'
    exact hi.notRelocking u (pc_of_update hu' hr)
  · rw [hpcs] at hu'
    exact hi.found u (pc_of_update hu' hu)
  · rw [hpcs] at hu'
    exact hi.ready u (pc_of_update hu' hf)

theorem globalInit (hi : CtxInv s) :
    s.globalInit.globalInitialized = true ∧ s.globalInit.mainInterpreter = true ∧
      s.globalInit.inits = s.globalInit.finals + 1 := by
  have honce := hi.once
  have hmain := hi.main
  unfold CtxState.globalInit
  split
  · rename_i hinit
    rw [hinit] at honce hmain
    exact ⟨hinit, hmain, honce⟩
  · rename_i hinit
    rw [Bool.eq_false_iff.2 hinit] at honce
    exact ⟨rfl, rfl, by simpa using honce⟩

theorem initialise (hi : CtxInv s) (hpc : s.threads.pc t = .initialising) :
    CtxInv ({ s.globalInit with lastRemoved := false }.goto t .finding) := by
  have hh : (s.threads.pc t).holds = true := by rw [hpc]; rfl
  obtain ⟨hinit, hmain, honce⟩ := hi.globalInit
  have hkeeps : s.globalInit.threads = s.threads ∧ s.globalInit.contexts = s.contexts ∧
      s.globalInit.entitled = s.entitled := by
    unfold CtxState.globalInit
    split <;> exact ⟨rfl, rfl, rfl⟩
  obtain ⟨hthreads, hcontexts, hentitled⟩ := hkeeps
  have hpcs : ∀ u, ({ s.globalInit with lastRemoved := false }.goto t .finding).threads.pc u =
      Function.update s.threads.pc t .finding u := fun u => by
    rw [← hthreads]; rfl
  constructor
  · show (s.globalInit.threads.goto t .finding).Owned ctxView
    rw [hthreads]
    exact owned_goto hi.owned hh.symm
  · intro u hu
    rw [hpcs] at hu
    exact hi.notRelocking u (pc_of_update hu nofun)
  · show ∀ u, s.globalInit.entitled u = true → u ∈ s.globalInit.contexts
    rw [hcontexts, hentitled]
    exact hi.kept
  · intro u hu
    rw [hpcs] at hu
    exact absurd (only_holder hi.owned hh hu rfl).2 nofun
  · exact hmain.trans hinit.symm
  · exact fun _ _ => hinit
  · show s.globalInit.inits = s.globalInit.finals + s.globalInit.globalInitialized.toNat
    rw [hinit]
    exact honce
  · exact fun _ => hinit
  · rfl

theorem find (hi : CtxInv s) (hpc : s.threads.pc t = .finding) :
    CtxInv ({ s with contexts := if t ∈ s.contexts then s.contexts else s.contexts ++ [t] }.goto t
      (.unlocking .getContext)) := by
  have hh : (s.threads.pc t).holds = true := by rw [hpc]; rfl
  have hsub : ∀ u, u ∈ s.contexts →
      u ∈ if t ∈ s.contexts then s.contexts else s.contexts ++ [t] := by
    intro u hu
    split
    · exact hu
    · exact List.mem_append_left _ hu
  have hmem : t ∈ if t ∈ s.contexts then s.contexts else s.contexts ++ [t] := by
    split
    · assumption
    · exact List.mem_append_right _ (List.mem_singleton_self t)
  exact {
    owned := owned_goto hi.owned hh.symm
    notRelocking := fun u hu => hi.notRelocking u (pc_of_update hu nofun)
    kept := fun u hu => hsub u (hi.kept u hu)
    found := fun u hu => by
      obtain ⟨rfl, -⟩ := only_holder hi.owned hh hu rfl
      exact hmem
    main := hi.main
    ready := fun u hu => hi.ready u (pc_of_update hu nofun)
    once := hi.once
    initialised := fun _ => hi.ready t hpc
    notLast := hi.notLast }

/-- A thread end that leaves a context of another thread, or finds none of its own. -/
theorem erase (hi : CtxInv s) (hpc : s.threads.pc t = .erasing)
    (hlast : s.contexts.erase t = [] → t ∉ s.contexts) (hmem : t ∈ s.contexts) :
    CtxInv ((s.erase t).goto t (.unlocking .onThreadDone)) := by
  have hh : (s.threads.pc t).holds = true := by rw [hpc]; rfl
  have hne : s.contexts.erase t ≠ [] := fun h => hlast h hmem
  exact {
    owned := owned_goto hi.owned hh.symm
    notRelocking := fun u hu => hi.notRelocking u (pc_of_update hu nofun)
    kept := fun u hu => by
      have hu : Function.update s.entitled t false u = true := hu
      by_cases hut : u = t
      · subst hut
        rw [Function.update_self] at hu
        cases hu
      · rw [Function.update_of_ne hut] at hu
        exact (List.mem_erase_of_ne hut).2 (hi.kept u hu)
    found := fun u hu => absurd (only_holder hi.owned hh hu rfl).2 nofun
    main := hi.main
    ready := fun u hu => hi.ready u (pc_of_update hu nofun)
    once := hi.once
    initialised := fun _ => hi.initialised (List.ne_nil_of_mem hmem)
    notLast := decide_eq_false hne }

theorem finishErase (hi : CtxInv s) (hpc : s.threads.pc t = .erasing) :
    CtxInv (s.goto t (.unlocking .onThreadDone)) := by
  have hh : (s.threads.pc t).holds = true := by rw [hpc]; rfl
  exact { hi with
    owned := owned_goto hi.owned hh.symm
    notRelocking := fun u hu => hi.notRelocking u (pc_of_update hu nofun)
    found := fun u hu => absurd (only_holder hi.owned hh hu rfl).2 nofun
    ready := fun u hu => hi.ready u (pc_of_update hu nofun) }

theorem clear (hi : CtxInv s) (hpc : s.threads.pc t = .clearing) :
    CtxInv (s.clear.goto t (.unlocking .shutdown)) := by
  have hh : (s.threads.pc t).holds = true := by rw [hpc]; rfl
  have honce := hi.once
  have hmain := hi.main
  have hclear : s.clear.threads = s.threads ∧ s.clear.contexts = [] ∧
      s.clear.entitled = (fun _ => false) ∧ s.clear.globalInitialized = false ∧
      s.clear.mainInterpreter = false ∧ s.clear.inits = s.clear.finals ∧
      s.clear.lastRemoved = s.lastRemoved := by
    unfold CtxState.clear
    simp only
    split
    · rename_i hm
      rw [← hmain, hm] at honce
      exact ⟨rfl, rfl, rfl, rfl, rfl, honce, rfl⟩
    · rename_i hm
      rw [← hmain, Bool.eq_false_iff.2 hm] at honce
      exact ⟨rfl, rfl, rfl, hmain.symm.trans (Bool.eq_false_iff.2 hm), Bool.eq_false_iff.2 hm,
        honce, rfl⟩
  obtain ⟨hthreads, hcontexts, hentitled, hinit, hmain, hfinals, hlast⟩ := hclear
  have hpcs : ∀ u, (s.clear.goto t (.unlocking .shutdown)).threads.pc u =
      Function.update s.threads.pc t (.unlocking .shutdown) u := fun u => by
    rw [← hthreads]; rfl
  constructor
  · show (s.clear.threads.goto t _).Owned ctxView
    rw [hthreads]
    exact owned_goto hi.owned hh.symm
  · intro u hu
    rw [hpcs] at hu
    exact hi.notRelocking u (pc_of_update hu nofun)
  · intro u hu
    have hu : s.clear.entitled u = true := hu
    rw [hentitled] at hu
    cases hu
  · intro u hu
    rw [hpcs] at hu
    exact absurd (only_holder hi.owned hh hu rfl).2 nofun
  · exact hmain.trans hinit.symm
  · intro u hu
    rw [hpcs] at hu
    exact absurd (only_holder hi.owned hh hu rfl).2 nofun
  · show s.clear.inits = s.clear.finals + s.clear.globalInitialized.toNat
    rw [hinit]
    exact hfinals
  · exact fun h => absurd hcontexts h
  · exact hlast.trans hi.notLast

theorem unlock (hi : CtxInv s) (hpc : s.threads.pc t = .unlocking op) :
    CtxInv { s with
      threads := s.threads.drop t () op.returned
      entitled := if op = .getContext then Function.update s.entitled t true else s.entitled } := by
  have hh : (s.threads.pc t).holds = true := by rw [hpc]; rfl
  have hret : op.returned.holds = false := by cases op <;> rfl
  have hpcs : ∀ {q u}, q.holds = true → Function.update s.threads.pc t op.returned u = q →
      s.threads.pc u = q := fun hq hu => pc_of_update hu (by rintro rfl; rw [hret] at hq; cases hq)
  refine { hi with
    owned := hi.owned.drop hh fun k => ?_
    notRelocking := fun u hu => hi.notRelocking u (hpcs rfl hu)
    kept := fun u hu => ?_
    found := fun u hu => hi.found u (hpcs rfl hu)
    ready := fun u hu => hi.ready u (hpcs rfl hu) }
  · show op.returned.holds = true ↔ _
    rw [hret]
    exact ⟨nofun, fun h => absurd rfl h.1⟩
  · simp only at hu
    split at hu
    · rename_i hop
      by_cases hut : u = t
      · subst hut
        exact hi.found u (by rw [hpc, hop])
      · rw [Function.update_of_ne hut] at hu
        exact hi.kept u hu
    · exact hi.kept u hu

/-- **Every step but a thread end that removes the last context keeps the invariant.** -/
theorem step {a : CtxAction} (hi : CtxInv s) (hc : NotLast s a) (h : ctxStep s a = some s') :
    CtxInv s' := by
  cases a with
  | call t op => exact hi.call h
  | turn t =>
    have h : s.turn t = some s' := h
    unfold CtxState.turn at h
    split at h
    · cases h
    · cases h
    · rename_i op hpc
      obtain ⟨threads, ht, rfl⟩ := Option.map_eq_some_iff.1 h
      exact hi.take hpc ht
    · rename_i hpc
      cases h
      exact hi.initialise hpc
    · rename_i hpc
      cases h
      exact hi.find hpc
    · rename_i hpc
      split at h
      · rename_i hmem
        have hlast := hc hpc
        rw [if_neg fun hnil => hlast hnil hmem] at h
        cases h
        exact hi.erase hpc hlast hmem
      · cases h
        exact hi.finishErase hpc
    · rename_i hpc
      exact absurd hpc (hi.notRelocking t)
    · rename_i hpc
      cases h
      exact hi.clear hpc
    · rename_i op hpc
      cases h
      exact hi.unlock hpc

end CtxInv

/-- **In a run in which no thread end removes the last context, the contexts are clean.** -/
theorem contexts_clean {l : List CtxAction} (hc : Along ctxStep NotLast {} l)
    (h : run ctxStep {} l = some s) : CleanContexts s :=
  (run_inv (fun _ _ _ hi hc hs => CtxInv.step hi hc hs) ctxInv_init hc h).clean

/-- Two threads get their contexts, and one of them ends. -/
def twoContexts : List CtxAction :=
  [.call 0 .getContext, .call 1 .getContext, .turn 0, .turn 0, .turn 0, .turn 0, .turn 1, .turn 1,
    .turn 1, .turn 1, .call 0 .onThreadDone, .turn 0, .turn 0, .turn 0]

theorem contexts_clean_two : ∃ s, run ctxStep {} twoContexts = some s ∧ CleanContexts s :=
  ⟨_, rfl, contexts_clean (l := twoContexts) (by decide) rfl⟩

end

/-- The only thread with a context ends. -/
theorem own_mutex_locked :
    ¬∀ (l : List CtxAction) (s : CtxState), run ctxStep {} l = some s → CleanContexts s := by
  intro h
  have hs := h [.call 0 .getContext, .turn 0, .turn 0, .turn 0, .turn 0, .call 0 .onThreadDone,
    .turn 0, .turn 0] _ rfl
  exact (hs.notOwn 0 rfl).1 rfl

end Musicat.Threads
