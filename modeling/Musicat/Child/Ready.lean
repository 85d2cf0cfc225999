import Mathlib.Data.List.Nodup
import Mathlib.Logic.Function.Basic
import Musicat.Child.Command
import Musicat.Lib.Run

/-!
# Waiting for a child to be ready

A caller sends a command and calls `wait_slave_ready` with its id; the worker
replies once to each command, and `mark_slave_ready` puts the reply under the id
in `slave_ready_queue`, where the waiters leave their placeholders too. A call
is numbered when it sends, and each locked section of `wait_slave_ready` is one
step. `Slot.owner`, the call a reply answers, and `arrived` are not in the code.
-/

namespace Musicat.Child

open Lib

/-- An entry of `slave_ready_queue`. -/
structure Slot where
  ready : Bool
  status : Int
  /-- The call whose command the entry replies to; a placeholder has none. -/
  owner : Option Nat
  deriving DecidableEq, Repr

/-- `std::make_pair (false, -1)`. -/
def Slot.placeholder : Slot := ⟨false, -1, none⟩

def Slot.reply (k : Nat) (status : Int) : Slot := ⟨true, status, some k⟩

/-- Where a call of `wait_slave_ready` is: before it, in `wait_until`, behind it, or returned. -/
inductive CallPc where
  | sent
  | waiting
  | woken (timedOut : Bool)
  | returned (status : Int) (timedOut : Bool)
  deriving DecidableEq, Repr

structure Call where
  id : Bytes
  pc : CallPc := .sent
  deriving DecidableEq, Repr

/-- Between the first and the last section. -/
def Call.inside (c : Call) : Bool :=
  match c.pc with
  | .waiting | .woken _ => true
  | _ => false

/-- A reply on its way: the call it answers, its id and its status. -/
structure Reply where
  call : Nat
  id : Bytes
  status : Int
  deriving DecidableEq, Repr

structure ReadyState where
  calls : Nat → Option Call := fun _ => none
  next : Nat := 0
  /-- The commands the worker has not handled yet, with their calls. -/
  commands : List (Nat × Bytes) := []
  replies : List Reply := []
  slot : Bytes → Option Slot := fun _ => none
  /-- The replies `mark_slave_ready` has stored. -/
  arrived : List (Nat × Int) := []

namespace ReadyState

def setPc (s : ReadyState) (k : Nat) (c : Call) (pc : CallPc) : ReadyState :=
  { s with calls := Function.update s.calls k (some { c with pc }) }

def setSlot (s : ReadyState) (id : Bytes) (e : Option Slot) : ReadyState :=
  { s with slot := Function.update s.slot id e }

section
variable (s : ReadyState) (k : Nat) (c : Call) (pc : CallPc) (id : Bytes) (e : Option Slot)

@[simp] theorem setPc_slot : (s.setPc k c pc).slot = s.slot := rfl

@[simp] theorem setPc_calls_self : (s.setPc k c pc).calls k = some { c with pc } :=
  Function.update_self ..

theorem setPc_calls_of_ne {j : Nat} (h : j ≠ k) : (s.setPc k c pc).calls j = s.calls j :=
  Function.update_of_ne h ..

@[simp] theorem setSlot_slot_self : (s.setSlot id e).slot id = e := Function.update_self ..

theorem setSlot_slot_of_ne {id' : Bytes} (h : id' ≠ id) :
    (s.setSlot id e).slot id' = s.slot id' :=
  Function.update_of_ne h ..

theorem setSlot_same : s.setSlot id (s.slot id) = s := by
  simp [setSlot]

end

end ReadyState

inductive ReadyAction where
  /-- A caller sends a command for the id. -/
  | send (id : Bytes)
  /-- The worker handles the next command and replies. -/
  | work (status : Int)
  /-- The next reply arrives: `mark_slave_ready`. -/
  | mark
  /-- The first section of `wait_slave_ready`. -/
  | enter (k : Nat)
  /-- `wait_until` returns because its predicate holds. -/
  | wake (k : Nat)
  | timeout (k : Nat)
  /-- The last section. -/
  | collect (k : Nat)
  deriving DecidableEq, Repr

/-- The predicate of `wait_until`. -/
def wakes : Option Slot → Bool
  | none => true
  | some e => e.ready

def readyStep (s : ReadyState) : ReadyAction → Option ReadyState
  | .send id =>
    some { s with
      calls := Function.update s.calls s.next (some { id })
      next := s.next + 1
      commands := s.commands ++ [(s.next, id)] }
  | .work status =>
    match s.commands with
    | [] => none
    | (k, id) :: commands => some { s with commands, replies := s.replies ++ [⟨k, id, status⟩] }
  | .mark =>
    match s.replies with
    | [] => none
    | r :: replies =>
      some ({ s with replies, arrived := s.arrived ++ [(r.call, r.status)] }.setSlot r.id
        (some (.reply r.call r.status)))
  | .enter k =>
    (s.calls k).bind fun c =>
      if c.pc = .sent then
        match s.slot c.id with
        | some e => some ((s.setSlot c.id none).setPc k c (.returned e.status false))
        | none => some ((s.setSlot c.id (some .placeholder)).setPc k c .waiting)
      else none
  | .wake k =>
    (s.calls k).bind fun c =>
      if c.pc = .waiting ∧ wakes (s.slot c.id) then some (s.setPc k c (.woken false)) else none
  | .timeout k =>
    (s.calls k).bind fun c =>
      if c.pc = .waiting then some (s.setPc k c (.woken true)) else none
  | .collect k =>
    (s.calls k).bind fun c =>
      match c.pc with
      | .woken timedOut =>
        match s.slot c.id with
        | none => some (s.setPc k c (.returned (-1) timedOut))
        | some e => some ((s.setSlot c.id none).setPc k c (.returned e.status timedOut))
      | _ => none

/-! ## One call to an id -/

/-- A call enters where there is no entry, or the reply to its own command; a reply is stored
while no other call with its id is inside. -/
def SlotOwned (s : ReadyState) : ReadyAction → Prop
  | .enter k => ∀ c e, s.calls k = some c → s.slot c.id = some e → e.owner = some k
  | .mark => ∀ r replies, s.replies = r :: replies →
      ∀ k c, s.calls k = some c → c.inside = true → c.id = r.id → k = r.call
  | _ => True

/-- The entry under an id is the reply to `k`. -/
def OwnReply (s : ReadyState) (id : Bytes) (k : Nat) : Prop :=
  ∃ status, s.slot id = some (.reply k status)

/-- The entry under an id is a placeholder or the reply to `k`. -/
def OwnSlot (s : ReadyState) (id : Bytes) (k : Nat) : Prop :=
  s.slot id = some .placeholder ∨ OwnReply s id k

/-- What a call may rely on, by where it is. -/
def CallOk (s : ReadyState) (k : Nat) (c : Call) : Prop :=
  match c.pc with
  | .sent => True
  | .waiting | .woken true => OwnSlot s c.id k
  | .woken false => OwnReply s c.id k
  | .returned status timedOut =>
    (status ≠ -1 → (k, status) ∈ s.arrived) ∧ (timedOut = false → ∃ st, (k, st) ∈ s.arrived)

structure ReadyInv (s : ReadyState) : Prop where
  calls : ∀ k c, s.calls k = some c → CallOk s k c
  alone : ∀ k k' c c', s.calls k = some c → s.calls k' = some c' → c.inside = true →
    c'.inside = true → c.id = c'.id → k = k'
  slots : ∀ id e k, s.slot id = some e → e.owner = some k → (k, e.status) ∈ s.arrived

section
variable {s : ReadyState} {k : Nat} {c : Call}

theorem CallOk.ownSlot (h : CallOk s k c) (hin : c.inside = true) : OwnSlot s c.id k := by
  obtain ⟨id, pc⟩ := c
  cases pc with
  | sent | returned => cases hin
  | waiting => exact h
  | woken timedOut =>
    cases timedOut with
    | true => exact h
    | false => exact .inr h

/-- A call keeps what it relies on while its entry stays and replies only arrive. -/
theorem CallOk.mono {s' : ReadyState} (h : CallOk s k c)
    (hslot : c.inside = true → s'.slot c.id = s.slot c.id)
    (harr : ∀ a ∈ s.arrived, a ∈ s'.arrived) : CallOk s' k c := by
  obtain ⟨id, pc⟩ := c
  cases pc with
  | sent => trivial
  | waiting => simpa only [CallOk, OwnSlot, OwnReply, hslot rfl] using h
  | woken timedOut =>
    cases timedOut <;> simpa only [CallOk, OwnSlot, OwnReply, hslot rfl] using h
  | returned status timedOut =>
    exact ⟨fun hs => harr _ (h.1 hs), fun ht => (h.2 ht).imp fun _ => harr _⟩

end

open ReadyState

section
variable {s s' : ReadyState} {k : Nat} {c : Call}

/-- Call `k` moves on and may change its entry, which no other call inside relies on. -/
theorem ReadyInv.move (hi : ReadyInv s) {e : Option Slot} (pc : CallPc)
    (hok : CallOk ((s.setSlot c.id e).setPc k c pc) k { c with pc })
    (hothers : ∀ j d, j ≠ k → s.calls j = some d → d.inside = true → d.id ≠ c.id)
    (hslot : ∀ e' j, e = some e' → e'.owner = some j → (j, e'.status) ∈ s.arrived) :
    ReadyInv ((s.setSlot c.id e).setPc k c pc) where
  calls j d hj := by
    by_cases hjk : j = k
    · subst hjk
      rw [setPc_calls_self, Option.some.injEq] at hj
      exact hj ▸ hok
    · rw [setPc_calls_of_ne _ _ _ _ hjk] at hj
      refine (hi.calls j d hj).mono (fun hin => ?_) fun a ha => ha
      exact setSlot_slot_of_ne _ _ _ (hothers j d hjk hj hin)
  alone j j' d d' hj hj' hin hin' hid := by
    by_cases hjk : j = k <;> by_cases hjk' : j' = k
    · exact hjk.trans hjk'.symm
    · subst hjk
      rw [setPc_calls_self, Option.some.injEq] at hj
      rw [setPc_calls_of_ne _ _ _ _ hjk'] at hj'
      subst hj
      exact absurd hid.symm (hothers j' d' hjk' hj' hin')
    · subst hjk'
      rw [setPc_calls_self, Option.some.injEq] at hj'
      rw [setPc_calls_of_ne _ _ _ _ hjk] at hj
      subst hj'
      exact absurd hid (hothers j d hjk hj hin)
    · rw [setPc_calls_of_ne _ _ _ _ hjk] at hj
      rw [setPc_calls_of_ne _ _ _ _ hjk'] at hj'
      exact hi.alone j j' d d' hj hj' hin hin' hid
  slots id e' j he' hj := by
    by_cases hid : id = c.id
    · subst hid
      rw [setPc_slot, setSlot_slot_self] at he'
      exact hslot e' j he' hj
    · rw [setPc_slot, setSlot_slot_of_ne _ _ _ hid] at he'
      exact hi.slots id e' j he' hj

/-- A call that is inside is the only one inside with its id. -/
theorem ReadyInv.others (hi : ReadyInv s) (hk : s.calls k = some c) (hin : c.inside = true) :
    ∀ j d, j ≠ k → s.calls j = some d → d.inside = true → d.id ≠ c.id :=
  fun j d hjk hj hd hid => hjk (hi.alone j k d c hj hk hd hin hid)

/-- A wait that is inside finds its placeholder or its own reply. -/
theorem ReadyInv.reply (hi : ReadyInv s) {status : Int}
    (h : s.slot c.id = some (.reply k status)) : (k, status) ∈ s.arrived :=
  hi.slots _ _ k h rfl

theorem readyInv_enter (hi : ReadyInv s) (hc : SlotOwned s (.enter k))
    (h : readyStep s (.enter k) = some s') : ReadyInv s' := by
  simp only [readyStep, Option.bind_eq_some_iff] at h
  obtain ⟨c, hk, h⟩ := h
  split at h
  · rename_i hpc
    split at h <;> cases h
    · rename_i e he
      have harr := hi.slots _ e k he (hc c e hk he)
      refine hi.move _ ⟨fun _ => harr, fun _ => ⟨_, harr⟩⟩ (fun j d hjk hj hd hid => ?_)
        fun _ _ he' => by cases he'
      rcases (hi.calls j d hj).ownSlot hd with hs | ⟨st, hs⟩
      · rw [hid, he, Option.some.injEq] at hs
        have ho := hc c e hk he
        rw [hs] at ho
        cases ho
      · rw [hid, he, Option.some.injEq] at hs
        have ho := hc c e hk he
        rw [hs] at ho
        exact hjk (Option.some.inj ho)
    · rename_i he
      refine hi.move _ (.inl (by simp)) (fun j d hjk hj hd hid => ?_)
        fun _ _ he' ho => by cases he'; cases ho
      rcases (hi.calls j d hj).ownSlot hd with hs | ⟨st, hs⟩ <;>
        rw [hid, he] at hs <;> cases hs
  · cases h

theorem readyInv_wake (hi : ReadyInv s) (h : readyStep s (.wake k) = some s') : ReadyInv s' := by
  simp only [readyStep, Option.bind_eq_some_iff] at h
  obtain ⟨c, hk, h⟩ := h
  split at h <;> cases h
  rename_i hw
  obtain ⟨hpc, hwakes⟩ := hw
  have hin : c.inside = true := by simp [Call.inside, hpc]
  have hown : OwnReply s c.id k := by
    rcases (hi.calls k c hk).ownSlot hin with hs | hs
    · rw [hs] at hwakes
      cases hwakes
    · exact hs
  have hmove := hi.move (e := s.slot c.id) (k := k) (c := c) (.woken false)
    (by rw [setSlot_same]; exact hown) (hi.others hk hin) fun e' j he' => hi.slots _ e' j he'
  rwa [setSlot_same] at hmove

theorem readyInv_timeout (hi : ReadyInv s) (h : readyStep s (.timeout k) = some s') :
    ReadyInv s' := by
  simp only [readyStep, Option.bind_eq_some_iff] at h
  obtain ⟨c, hk, h⟩ := h
  split at h <;> cases h
  rename_i hpc
  have hin : c.inside = true := by simp [Call.inside, hpc]
  have hmove := hi.move (e := s.slot c.id) (k := k) (c := c) (.woken true)
    (by rw [setSlot_same]; exact (hi.calls k c hk).ownSlot hin) (hi.others hk hin)
    fun e' j he' => hi.slots _ e' j he'
  rwa [setSlot_same] at hmove

theorem readyInv_collect (hi : ReadyInv s) (h : readyStep s (.collect k) = some s') :
    ReadyInv s' := by
  simp only [readyStep, Option.bind_eq_some_iff] at h
  obtain ⟨c, hk, h⟩ := h
  split at h
  · rename_i timedOut hpc
    have hin : c.inside = true := by simp [Call.inside, hpc]
    have hown := (hi.calls k c hk).ownSlot hin
    split at h <;> cases h
    · rename_i he
      rcases hown with hs | ⟨st, hs⟩ <;> rw [he] at hs <;> cases hs
    · rename_i e he
      refine hi.move _ ?_ (hi.others hk hin) fun _ _ he' => by cases he'
      have hreply : ∀ st, s.slot c.id = some (.reply k st) →
          e.status = st ∧ (k, st) ∈ s.arrived := fun st hs => by
        refine ⟨?_, hi.reply hs⟩
        rw [he, Option.some.injEq] at hs
        rw [hs]
        rfl
      constructor
      · intro hne
        rcases hown with hs | ⟨st, hs⟩
        · rw [he, Option.some.injEq] at hs
          exact absurd (by rw [hs]; rfl) hne
        · obtain ⟨hst, harr⟩ := hreply st hs
          exact hst ▸ harr
      · rintro rfl
        have hok := hi.calls k c hk
        simp only [CallOk, hpc] at hok
        obtain ⟨st, hs⟩ := hok
        exact ⟨st, (hreply st hs).2⟩
  · cases h

theorem readyInv_mark (hi : ReadyInv s) (hc : SlotOwned s .mark)
    (h : readyStep s .mark = some s') : ReadyInv s' := by
  simp only [readyStep] at h
  split at h
  · cases h
  · rename_i r replies hr
    cases h
    have harr : ∀ a ∈ s.arrived, a ∈ s.arrived ++ [(r.call, r.status)] :=
      fun a ha => List.mem_append_left _ ha
    refine ⟨fun j d hj => ?_, hi.alone, fun id e j he hj => ?_⟩
    · by_cases hown : d.inside = true ∧ d.id = r.id
      · obtain rfl := hc r replies hr j d hj hown.1 hown.2
        obtain ⟨id, pc⟩ := d
        have hreply : OwnReply ({ s with
            replies, arrived := s.arrived ++ [(r.call, r.status)] }.setSlot r.id
            (some (.reply r.call r.status))) id r.call := ⟨r.status, by simp [← hown.2]⟩
        cases pc with
        | sent | returned => cases hown.1
        | waiting => exact .inr hreply
        | woken timedOut => cases timedOut <;> first | exact hreply | exact .inr hreply
      · refine (hi.calls j d hj).mono (fun hin => ?_) harr
        exact setSlot_slot_of_ne _ _ _ fun hid => hown ⟨hin, hid⟩
    · by_cases hid : id = r.id
      · subst hid
        rw [setSlot_slot_self, Option.some.injEq] at he
        subst he
        cases hj
        exact List.mem_append_right _ (List.mem_singleton_self _)
      · rw [setSlot_slot_of_ne _ _ _ hid] at he
        exact harr _ (hi.slots id e j he hj)

/-- **Every step that keeps one call to an id keeps the invariant.** -/
theorem readyInv_step {a : ReadyAction} (hi : ReadyInv s) (hc : SlotOwned s a)
    (h : readyStep s a = some s') : ReadyInv s' := by
  cases a with
  | send id =>
    cases h
    refine ⟨fun j d hj => ?_, fun j j' d d' hj hj' hin hin' hid => ?_, hi.slots⟩
    · by_cases hjn : j = s.next
      · subst hjn
        simp only [Function.update_self, Option.some.injEq] at hj
        subst hj
        trivial
      · simp only [Function.update_of_ne hjn] at hj
        exact (hi.calls j d hj).mono (fun _ => rfl) fun a ha => ha
    · have hold : ∀ {j d}, Function.update s.calls s.next (some { id }) j = some d →
          d.inside = true → s.calls j = some d := fun {j d} hj hin => by
        by_cases hjn : j = s.next
        · subst hjn
          rw [Function.update_self, Option.some.injEq] at hj
          subst hj
          cases hin
        · rwa [Function.update_of_ne hjn] at hj
      exact hi.alone j j' d d' (hold hj hin) (hold hj' hin') hin hin' hid
  | work status =>
    simp only [readyStep] at h
    split at h <;> cases h
    exact ⟨fun j d hj => (hi.calls j d hj).mono (fun _ => rfl) fun a ha => ha, hi.alone, hi.slots⟩
  | mark => exact readyInv_mark hi hc h
  | enter k => exact readyInv_enter hi hc h
  | wake k => exact readyInv_wake hi h
  | timeout k => exact readyInv_timeout hi h
  | collect k => exact readyInv_collect hi h

/-! ## One reply to a command -/

/-- The calls whose commands are on their way to the worker, answered, or replied to. -/
def ReadyState.sentCalls (s : ReadyState) : List Nat :=
  s.commands.map Prod.fst ++ (s.replies.map Reply.call ++ s.arrived.map Prod.fst)

/-- No command is there twice. -/
def OneReply (s : ReadyState) : Prop := s.sentCalls.Nodup ∧ ∀ k ∈ s.sentCalls, k < s.next

theorem OneReply.of_perm (hi : OneReply s) (hp : s'.sentCalls.Perm s.sentCalls)
    (hn : s'.next = s.next) : OneReply s' :=
  ⟨hp.nodup_iff.2 hi.1, fun k hk => hn ▸ hi.2 k (hp.mem_iff.1 hk)⟩

theorem oneReply_step {a : ReadyAction} (hi : OneReply s) (h : readyStep s a = some s') :
    OneReply s' := by
  cases a with
  | send id =>
    cases h
    have hp : (s.next :: s.sentCalls).Perm
        ((s.commands ++ [(s.next, id)]).map Prod.fst ++
          (s.replies.map Reply.call ++ s.arrived.map Prod.fst)) := by
      simp only [List.map_append, List.map_cons, List.map_nil, List.append_assoc,
        List.singleton_append]
      exact List.perm_middle.symm
    refine ⟨hp.nodup_iff.1 (List.nodup_cons.2 ⟨fun hk => Nat.lt_irrefl _ (hi.2 _ hk), hi.1⟩),
      fun k hk => ?_⟩
    rcases List.mem_cons.1 (hp.mem_iff.2 hk) with rfl | hk
    · exact Nat.lt_succ_self _
    · exact Nat.lt_succ_of_lt (hi.2 k hk)
  | work status =>
    simp only [readyStep] at h
    split at h <;> cases h
    rename_i k id commands hq
    refine hi.of_perm ?_ rfl
    simp only [ReadyState.sentCalls, hq, List.map_append, List.map_cons, List.map_nil,
      List.append_assoc, List.cons_append]
    rw [← List.append_assoc, ← List.append_assoc]
    exact List.perm_middle
  | mark =>
    simp only [readyStep] at h
    split at h <;> cases h
    rename_i r replies hr
    refine hi.of_perm ?_ rfl
    simp only [ReadyState.sentCalls, ReadyState.setSlot, hr, List.map_append, List.map_cons,
      List.map_nil, List.cons_append]
    refine List.Perm.append_left _ ?_
    rw [← List.append_assoc]
    exact List.perm_append_singleton _ _
  | enter k =>
    simp only [readyStep, Option.bind_eq_some_iff] at h
    obtain ⟨c, -, h⟩ := h
    split at h
    · split at h <;> cases h <;> exact hi
    · cases h
  | wake k | timeout k =>
    simp only [readyStep, Option.bind_eq_some_iff] at h
    obtain ⟨c, -, h⟩ := h
    split at h <;> cases h
    exact hi
  | collect k =>
    simp only [readyStep, Option.bind_eq_some_iff] at h
    obtain ⟨c, -, h⟩ := h
    split at h
    · split at h <;> cases h <;> exact hi
    · cases h

theorem OneReply.status_eq (hi : OneReply s) {k : Nat} {st st' : Int}
    (h : (k, st) ∈ s.arrived) (h' : (k, st') ∈ s.arrived) : st' = st := by
  have hnd : (s.arrived.map Prod.fst).Nodup :=
    (List.nodup_append.1 (List.nodup_append.1 hi.1).2.1).2.1
  exact congrArg Prod.snd (List.inj_on_of_nodup_map hnd h' h rfl)

end

/-! ## Runs -/

theorem readyInv_init : ReadyInv {} where
  calls _ _ h := by cases h
  alone _ _ _ _ h := by cases h
  slots _ _ _ h := by cases h

theorem oneReply_init : OneReply {} := ⟨List.nodup_nil, fun _ h => by cases h⟩

/-- **`wait_slave_ready` returns its own command's status**, in every run in which a wait starts
with no entry of another call under its id and a reply is stored with no other call waiting under
its id: a status other than `-1` is the one replied to the command of this caller, and a wait that
has not timed out does not return before that reply arrived. -/
theorem returns_own_status {l : List ReadyAction} {s : ReadyState}
    (hc : Along readyStep SlotOwned {} l) (hrun : run readyStep {} l = some s)
    {k : Nat} {c : Call} {status : Int} {timedOut : Bool} (hk : s.calls k = some c)
    (hpc : c.pc = .returned status timedOut) :
    (status ≠ -1 → (k, status) ∈ s.arrived ∧ ∀ st, (k, st) ∈ s.arrived → st = status) ∧
      (timedOut = false → ∃ st, (k, st) ∈ s.arrived) := by
  obtain ⟨hi, hone⟩ := run_inv (I := fun s => ReadyInv s ∧ OneReply s)
    (fun _ _ _ hi hc hs => ⟨readyInv_step hi.1 hc hs, oneReply_step hi.2 hs⟩)
    ⟨readyInv_init, oneReply_init⟩ hc hrun
  have hok := hi.calls k c hk
  simp only [CallOk, hpc] at hok
  exact ⟨fun hs => ⟨hok.1 hs, fun _ => hone.status_eq (hok.1 hs)⟩, hok.2⟩

/-! ## A prompt reply and a late one -/

/-- A call whose reply is there before it waits. -/
def promptReply : List ReadyAction := [.send (bytes "q"), .work 0, .mark, .enter 0]

theorem slotOwned_promptReply : Along readyStep SlotOwned {} promptReply := by
  refine ⟨trivial, fun _ h => ?_⟩
  cases h
  refine ⟨trivial, fun _ h => ?_⟩
  cases h
  refine ⟨fun r replies hr k c hk hin _ => ?_, fun _ h => ?_⟩
  · simp only [Function.update_apply] at hk
    split at hk <;> cases hk
    cases hin
  · cases h
    refine ⟨fun c e hk he => ?_, fun _ _ => trivial⟩
    cases hk
    cases he
    rfl

theorem returns_own_status_prompt :
    ∃ s, run readyStep {} promptReply = some s ∧
      s.calls 0 = some ⟨bytes "q", .returned 0 false⟩ ∧
      ((0 : Int) ≠ -1 → (0, 0) ∈ s.arrived ∧ ∀ st, (0, st) ∈ s.arrived → st = 0) ∧
      (false = false → ∃ st, (0, st) ∈ s.arrived) :=
  ⟨_, rfl, rfl, returns_own_status (k := 0) (c := ⟨bytes "q", .returned 0 false⟩)
    slotOwned_promptReply rfl rfl rfl⟩

/-- A call whose wait times out before its reply. -/
def lateReply : List ReadyAction :=
  [.send (bytes "q"), .enter 0, .timeout 0, .collect 0, .work 0, .mark]

/-- The next call with the id takes the late reply of the first for its own, and a second waiter
takes the placeholder of the first. -/
theorem returns_stale_status :
    (∃ s, run readyStep {} (lateReply ++ [.send (bytes "q"), .enter 1]) = some s ∧
      s.calls 1 = some ⟨bytes "q", .returned 0 false⟩ ∧ s.arrived = [(0, 0)]) ∧
    (∃ s, run readyStep {} [.send (bytes "q"), .send (bytes "q"), .enter 0, .enter 1] = some s ∧
      s.calls 1 = some ⟨bytes "q", .returned (-1) false⟩ ∧ s.arrived = []) :=
  ⟨⟨_, rfl, rfl, rfl⟩, ⟨_, rfl, rfl, rfl⟩⟩

end Musicat.Child
