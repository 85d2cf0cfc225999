import Mathlib.Data.List.Basic
import Musicat.Lib.Run

/-!
# Independent clients of one system

Every action belongs to one client, named by `key`, and `view k s` is what the
state holds of the client `k`. Where an action is a step of its own client
(`client`) and leaves what the state holds of the others, a run of the system is
for each client a run of that client's own actions, in their order; and the
system can take the actions whenever each client can take its own.
-/

namespace Musicat.Lib

section
variable {σ ι κ τ : Type*} (step : σ → ι → Option σ) (key : ι → κ) (view : κ → σ → τ)
  (client : τ → ι → Option τ) (I : σ → Prop)

structure Clients : Prop where
  inv : ∀ {s s' : σ} {a : ι}, I s → step s a = some s' → I s'
  own : ∀ {s : σ} {a : ι}, I s → (step s a).map (view (key a)) = client (view (key a) s) a
  others : ∀ {s s' : σ} {a : ι} {k : κ}, I s → step s a = some s' → k ≠ key a →
    view k s' = view k s

variable {step key view client I} [DecidableEq κ]

namespace Clients

/-- What one step is for the client `k`. -/
theorem step_view (h : Clients step key view client I) {s s' : σ} {a : ι} (hi : I s)
    (hs : step s a = some s') (k : κ) :
    run client (view k s) ([a].filter (key · = k)) = some (view k s') := by
  by_cases hk : key a = k
  · subst hk
    have hown := h.own (a := a) hi
    rw [hs, Option.map_some] at hown
    simp [run, ← hown]
  · rw [h.others hi hs (Ne.symm hk)]
    simp [run, hk]

/-- **For each client a run is a run of its own actions.** -/
theorem run_view (h : Clients step key view client I) (k : κ) :
    ∀ {l : List ι} {s t : σ}, I s → run step s l = some t →
      run client (view k s) (l.filter (key · = k)) = some (view k t)
  | [], s, t, _, hr => by
    cases hr
    rfl
  | a :: l, s, t, hi, hr => by
    obtain ⟨s', hs, hr⟩ := run_cons_eq_some.1 hr
    rw [← List.singleton_append, List.filter_append, run_append, h.step_view hi hs k]
    exact h.run_view k (h.inv hi hs) hr

/-- **What every client can do on its own, all can do together.** -/
theorem exists_run (h : Clients step key view client I) :
    ∀ {l : List ι} {s : σ}, I s →
      (∀ k, ∃ v, run client (view k s) (l.filter (key · = k)) = some v) →
      ∃ t, run step s l = some t
  | [], s, _, _ => ⟨s, rfl⟩
  | a :: l, s, hi, hall => by
    obtain ⟨v, hv⟩ := hall (key a)
    rw [List.filter_cons_of_pos (by simp)] at hv
    obtain ⟨w, hw, -⟩ := run_cons_eq_some.1 hv
    obtain ⟨s', hs, -⟩ := Option.map_eq_some_iff.1 ((h.own (a := a) hi).trans hw)
    obtain ⟨t, ht⟩ := h.exists_run (l := l) (h.inv hi hs) fun k => by
      obtain ⟨v, hv⟩ := hall k
      rw [← List.singleton_append, List.filter_append, run_append, h.step_view hi hs k] at hv
      exact ⟨v, hv⟩
    exact ⟨t, (run_cons hs l).trans ht⟩

end Clients

end

end Musicat.Lib
