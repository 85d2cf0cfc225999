import Musicat.Lib.Run

/-!
# Runs with a record beside them

`noted step note` takes the steps of `step` and keeps a record: `note s a s' g`
is the record after the action `a` took `s` to `s'`. The record never decides a
step, so an invariant of both is proved from the steps of the system
(`noted_inv`).
-/

namespace Musicat.Lib

section
variable {σ ι γ : Type*} (step : σ → ι → Option σ) (note : σ → ι → σ → γ → γ)

/-- A step, and what is recorded of it. -/
def noted (p : σ × γ) (a : ι) : Option (σ × γ) :=
  (step p.1 a).map fun s' => (s', note p.1 a s' p.2)

variable {step note}

theorem noted_eq_some {s t : σ} {g g' : γ} {a : ι} :
    noted step note (s, g) a = some (t, g') ↔ step s a = some t ∧ note s a t g = g' := by
  simp only [noted, Option.map_eq_some_iff, Prod.mk.injEq]
  constructor
  · rintro ⟨u, hu, rfl, hg⟩
    exact ⟨hu, hg⟩
  · rintro ⟨hu, hg⟩
    exact ⟨t, hu, rfl, hg⟩

theorem along_noted {C : σ → ι → Prop} {l : List ι} {s : σ} (hc : Along step C s l) (g : γ) :
    Along (noted step note) (fun p => C p.1) (s, g) l := by
  induction l generalizing s g with
  | nil => trivial
  | cons a l ih =>
    refine ⟨hc.1, fun ⟨u, gu⟩ hu => ?_⟩
    exact ih (hc.2 u (noted_eq_some.1 hu).1) gu

/-- **An invariant of the system and its record**, along a condition on the system alone. -/
theorem noted_inv {C : σ → ι → Prop} {I : σ → γ → Prop}
    (hstep : ∀ s a s' g, I s g → C s a → step s a = some s' → I s' (note s a s' g))
    {l : List ι} {s t : σ} {g g' : γ} (hi : I s g) (hc : Along step C s l)
    (h : run (noted step note) (s, g) l = some (t, g')) : I t g' := by
  refine run_inv (I := fun p => I p.1 p.2) (fun p a p' hi hc hs => ?_) hi (along_noted hc g) h
  obtain ⟨ht, hg⟩ := noted_eq_some.1 hs
  exact hg ▸ hstep p.1 a p'.1 p.2 hi hc ht

end

end Musicat.Lib
