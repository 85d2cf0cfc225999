import Mathlib.Data.List.Induction
import Mathlib.Logic.Function.Basic

/-!
# Runs of a guarded step function

`step s a` is the state after the action `a`, or `none` when `a` is not
enabled in `s`. `run step s l` takes the actions of `l` in order. `Along step C
s l` says that every action of `l` met `C` in the state it was taken from.
`run_inv` is the induction over a run: an invariant kept by every step that
meets `C` holds at the end of every run along `C`; `run_invariant` is the case
without a condition, and `run_history` the one for an invariant of the state and
of the actions that led to it.
-/

namespace Musicat.Lib

section
variable {σ ι : Type*} (step : σ → ι → Option σ)

/-- The state after the actions `l`; `none` when one of them is not enabled. -/
def run : σ → List ι → Option σ
  | s, [] => some s
  | s, a :: l => (step s a).bind fun s' => run s' l

/-- Every action of `l` meets `C` where it is taken. -/
def Along (C : σ → ι → Prop) : σ → List ι → Prop
  | _, [] => True
  | s, a :: l => C s a ∧ ∀ s', step s a = some s' → Along C s' l

/-- `s'` is reached from `s` along actions that all meet `C`. -/
def ReachAlong (C : σ → ι → Prop) (s s' : σ) : Prop :=
  ∃ l, Along step C s l ∧ run step s l = some s'

variable {step}

theorem run_cons {s s' : σ} {a : ι} (h : step s a = some s') (l : List ι) :
    run step s (a :: l) = run step s' l := by
  simp [run, h]

theorem run_cons_eq_some {s t : σ} {a : ι} {l : List ι} :
    run step s (a :: l) = some t ↔ ∃ s', step s a = some s' ∧ run step s' l = some t := by
  simp [run, Option.bind_eq_some_iff]

theorem run_append (l₁ l₂ : List ι) (s : σ) :
    run step s (l₁ ++ l₂) = (run step s l₁).bind fun s' => run step s' l₂ := by
  induction l₁ generalizing s with
  | nil => rfl
  | cons a l ih =>
    simp only [List.cons_append, run]
    cases step s a with
    | none => rfl
    | some s' => exact ih s'

/-- **An invariant of every step along `C` is one of every run along `C`.** -/
theorem run_inv {C : σ → ι → Prop} {I : σ → Prop}
    (hstep : ∀ s a s', I s → C s a → step s a = some s' → I s') :
    ∀ {l : List ι} {s t : σ}, I s → Along step C s l → run step s l = some t → I t
  | [], _, _, hi, _, h => by cases h; exact hi
  | a :: l, s, t, hi, hc, h => by
    obtain ⟨s', hs, hr⟩ := run_cons_eq_some.1 h
    exact run_inv hstep (hstep s a s' hi hc.1 hs) (hc.2 s' hs) hr

/-- The induction over a run for an invariant that speaks of the actions taken. -/
theorem run_history {I : List ι → σ → Prop} {s : σ}
    (hstep : ∀ l t a t', I l t → step t a = some t' → I (l ++ [a]) t') (hi : I [] s)
    {l : List ι} {t : σ} (h : run step s l = some t) : I l t := by
  induction l using List.reverseRecOn generalizing t with
  | nil =>
    cases h
    exact hi
  | append_singleton l a ih =>
    rw [run_append] at h
    obtain ⟨u, hu, hlast⟩ := Option.bind_eq_some_iff.1 h
    obtain ⟨v, hv, hnil⟩ := run_cons_eq_some.1 hlast
    cases hnil
    exact hstep l u a _ (ih hu) hv

theorem ReachAlong.inv {C : σ → ι → Prop} {I : σ → Prop} {s t : σ} (h : ReachAlong step C s t)
    (hstep : ∀ s a s', I s → C s a → step s a = some s' → I s') (hi : I s) : I t := by
  obtain ⟨l, hc, hr⟩ := h
  exact run_inv hstep hi hc hr

theorem along_of_mem {C : σ → ι → Prop} :
    ∀ {l : List ι} (s : σ), (∀ a ∈ l, ∀ s, C s a) → Along step C s l
  | [], _, _ => trivial
  | _ :: _, _, h =>
    ⟨h _ List.mem_cons_self _, fun s' _ =>
      along_of_mem s' fun a ha => h a (List.mem_cons_of_mem _ ha)⟩

/-- A side condition that holds everywhere restricts no run. -/
theorem along_of_forall {C : σ → ι → Prop} (h : ∀ s a, C s a) (l : List ι) (s : σ) :
    Along step C s l :=
  along_of_mem s fun a _ s => h s a

/-- Conditions that agree in every state with an invariant hold along the same runs from one. -/
theorem along_congr_inv {C D : σ → ι → Prop} {I : σ → Prop}
    (hstep : ∀ s a s', I s → step s a = some s' → I s') (h : ∀ s a, I s → (C s a ↔ D s a)) :
    ∀ (l : List ι) {s : σ}, I s → (Along step C s l ↔ Along step D s l)
  | [], _, _ => Iff.rfl
  | a :: l, s, hi =>
    and_congr (h s a hi) (forall_congr' fun s' => forall_congr' fun hs =>
      along_congr_inv hstep h l (hstep s a s' hi hs))

/-- Conditions that agree at every step hold along the same runs. -/
theorem along_congr {C D : σ → ι → Prop} (h : ∀ s a, C s a ↔ D s a) (l : List ι) (s : σ) :
    Along step C s l ↔ Along step D s l :=
  along_congr_inv (I := fun _ => True) (fun _ _ _ _ _ => trivial) (fun s a _ => h s a) l trivial

/-- Where every step that is taken meets `C`, the last action decides whether a run is along `C`. -/
theorem along_append_singleton {C : σ → ι → Prop} {I : σ → Prop}
    (h : ∀ s a s', I s → step s a = some s' → C s a ∧ I s') :
    ∀ {l : List ι} {s t : σ} {a : ι}, I s → run step s l = some t →
      (Along step C s (l ++ [a]) ↔ C t a)
  | [], _, _, a, _, hr => by
    cases hr
    exact ⟨And.left, fun hc => ⟨hc, fun _ _ => trivial⟩⟩
  | b :: l, s, t, a, hi, hr => by
    obtain ⟨s', hs, hr⟩ := run_cons_eq_some.1 hr
    obtain ⟨hb, hi'⟩ := h s b s' hi hs
    have ih := along_append_singleton h (a := a) hi' hr
    refine ⟨fun hc => ih.1 (hc.2 s' hs), fun hc => ⟨hb, fun u hu => ?_⟩⟩
    rw [hs] at hu
    cases hu
    exact ih.2 hc

/-- **An invariant of every step is one of every run.** -/
theorem run_invariant {I : σ → Prop} (hstep : ∀ s a s', I s → step s a = some s' → I s')
    {l : List ι} {s t : σ} (hi : I s) (h : run step s l = some t) : I t :=
  run_inv (C := fun _ _ => True) (fun s a s' hi _ hs => hstep s a s' hi hs) hi
    (along_of_forall (fun _ _ => trivial) l s) h

/-- **A run of actions that each bring a measure down is no longer than the measure.** -/
theorem run_length_le (P : ι → Prop) (μ : σ → Nat)
    (hstep : ∀ s a s', P a → step s a = some s' → μ s' < μ s) {l : List ι} {s t : σ}
    (hl : ∀ a ∈ l, P a) (h : run step s l = some t) : l.length ≤ μ s := by
  induction l generalizing s with
  | nil => exact Nat.zero_le _
  | cons a l ih =>
    obtain ⟨s', hs, hr⟩ := run_cons_eq_some.1 h
    have hlt := hstep s a s' (hl a List.mem_cons_self) hs
    have hle := ih (fun b hb => hl b (List.mem_cons_of_mem a hb)) hr
    exact Nat.succ_le_of_lt (Nat.lt_of_le_of_lt hle hlt)

/-- A run keeps `I` along `C`, or it leaves `C` once, and `B` holds from then on. -/
theorem run_inv_or_broken {C : σ → ι → Prop} {I B : σ → Prop}
    (hkeep : ∀ s a s', I s → C s a → step s a = some s' → I s')
    (hbreak : ∀ s a s', I s → ¬ C s a → step s a = some s' → B s')
    (hbroken : ∀ s a s', B s → step s a = some s' → B s') {l : List ι} {s t : σ} (hi : I s)
    (h : run step s l = some t) :
    (Along step C s l ∧ I t) ∨ (¬ Along step C s l ∧ B t) := by
  induction l generalizing s with
  | nil =>
    cases h
    exact .inl ⟨trivial, hi⟩
  | cons a l ih =>
    obtain ⟨s', hs, hr⟩ := run_cons_eq_some.1 h
    by_cases hc : C s a
    · have hrest : Along step C s (a :: l) ↔ Along step C s' l :=
        ⟨fun hl => hl.2 s' hs, fun hl => ⟨hc, fun u hu => Option.some.inj (hs.symm.trans hu) ▸ hl⟩⟩
      rw [hrest]
      exact ih (hkeep s a s' hi hc hs) hr
    · refine .inr ⟨fun hl => hc hl.1, ?_⟩
      exact run_invariant hbroken (hbreak s a s' hi hc hs) hr

/-- `Along` can be checked by taking the steps. -/
instance decidableAlong {C : σ → ι → Prop} [∀ s a, Decidable (C s a)] :
    ∀ (s : σ) (l : List ι), Decidable (Along step C s l)
  | _, [] => isTrue trivial
  | s, a :: l =>
    match h : step s a with
    | none => decidable_of_iff (C s a) ⟨fun hc => ⟨hc, by simp [h]⟩, And.left⟩
    | some s' =>
      have := decidableAlong (C := C) s' l
      decidable_of_iff (C s a ∧ Along step C s' l) (by simp [Along, h])

end

end Musicat.Lib
