import Mathlib.Data.List.Basic

/-!
# Transducers with a buffer

A transducer takes inputs and gives outputs, as many and as late as it likes; a
flush makes it give the rest. `Buffered` keeps the outputs that have not been
taken, and `owed` is what is still to be taken when the inputs to come are known.
-/

namespace Musicat.Lib

variable {σ φ π : Type*}

structure Transducer (σ φ π : Type*) where
  init : σ
  feed : σ → φ → σ × List π
  flush : σ → List π

structure Buffered (σ π : Type*) where
  state : σ
  ready : List π := []
  flushed : Bool := false
  deriving DecidableEq, Repr

/-- What is received from a buffer. -/
inductive Received (π : Type*) where
  | output (o : π)
  /-- Nothing until there is more input. -/
  | again
  | ended

namespace Transducer

variable (t : Transducer σ φ π)

/-- The state after the inputs `l`. -/
def after : σ → List φ → σ
  | s, [] => s
  | s, i :: l => after (t.feed s i).1 l

/-- What the inputs `l` make it give. -/
def body : σ → List φ → List π
  | _, [] => []
  | s, i :: l => (t.feed s i).2 ++ body (t.feed s i).1 l

/-- What it gives for `l` altogether. -/
def output (l : List φ) : List π := t.body t.init l ++ t.flush (t.after t.init l)

end Transducer

namespace Buffered

/-- Takes the next output. -/
def receive (b : Buffered σ π) : Received π × Buffered σ π :=
  match b.ready with
  | o :: ready => (.output o, { b with ready })
  | [] => (if b.flushed then .ended else .again, b)

section
variable (t : Transducer σ φ π)

/-- An input, or `none` for a flush; `none` when it is flushed already. -/
def send (b : Buffered σ π) (i : Option φ) : Option (Buffered σ π) :=
  if b.flushed then none
  else
    match i with
    | some i =>
      some { b with state := (t.feed b.state i).1, ready := b.ready ++ (t.feed b.state i).2 }
    | none => some { b with ready := b.ready ++ t.flush b.state, flushed := true }

/-- What is still to be taken when `l` is still to come. -/
def owed (b : Buffered σ π) (l : List φ) : List π := b.ready ++ t.body b.state l

variable {t} {b : Buffered σ π}

/-- What is received: the output that waits first, or else whether there was a flush. -/
theorem receive_cases (b : Buffered σ π) :
    (∃ o ready, b.ready = o :: ready ∧ b.receive = (.output o, { b with ready })) ∨
      b.ready = [] ∧ (b.flushed = false ∧ b.receive = (.again, b) ∨
        b.flushed = true ∧ b.receive = (.ended, b)) := by
  unfold receive
  cases b.ready with
  | nil =>
    cases b.flushed with
    | false => exact .inr ⟨rfl, .inl ⟨rfl, rfl⟩⟩
    | true => exact .inr ⟨rfl, .inr ⟨rfl, rfl⟩⟩
  | cons o ready => exact .inl ⟨o, ready, rfl, rfl⟩

theorem owed_cons {o : π} {ready : List π} (h : b.ready = o :: ready) (l : List φ) :
    b.owed t l = o :: owed t { b with ready } l := by
  unfold owed
  rw [h]
  rfl

theorem send_some (hf : b.flushed = false) (i : φ) (l : List φ) :
    ∃ b', b.send t (some i) = some b' ∧ b'.flushed = false ∧
      b'.owed t l = b.owed t (i :: l) ∧ t.after b'.state l = t.after b.state (i :: l) := by
  unfold send
  rw [if_neg (by simp [hf])]
  exact ⟨_, rfl, hf, by simp [owed, Transducer.body], rfl⟩

theorem send_none (hf : b.flushed = false) :
    ∃ b', b.send t none = some b' ∧ b'.flushed = true ∧
      b'.ready = b.ready ++ t.flush b.state := by
  unfold send
  rw [if_neg (by simp [hf])]
  exact ⟨_, rfl, rfl, rfl⟩

end

end Buffered

end Musicat.Lib
