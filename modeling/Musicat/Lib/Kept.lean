import Mathlib.Data.List.Perm.Subperm
import Musicat.Lib.Ghost

/-!
# What a collection keeps

`Kept keep new old` compares a collection with what it held and was given:
nothing is in `new` more often than in `old`, and where `keep` holds nothing
went missing either. It composes along a run (`Kept.run`): what a system holds
in the end against what it held first and all that entered it.
-/

namespace Musicat.Lib

section
variable {α β : Type*} {keep keep' : Prop} {new mid old : List α}

/-- `new` has nothing that `old` has not as often, and all of it where `keep` holds. -/
def Kept (keep : Prop) (new old : List α) : Prop :=
  new.Subperm old ∧ (keep → new.Perm old)

namespace Kept

theorem of_perm (h : new.Perm old) : Kept keep new old := ⟨h.subperm, fun _ => h⟩

theorem refl (l : List α) : Kept keep l l := of_perm (.refl l)

theorem of_eq (h : new = old) : Kept keep new old := h ▸ refl new

theorem nothing_entered (l : List α) : Kept keep l (l ++ []) := of_eq (List.append_nil l).symm

theorem of_sublist (h : new.Sublist old) (hk : keep → new.Perm old) : Kept keep new old :=
  ⟨h.subperm, hk⟩

theorem mono (h : Kept keep new old) (hk : keep' → keep) : Kept keep' new old :=
  ⟨h.1, fun hk' => h.2 (hk hk')⟩

theorem trans (h : Kept keep new mid) (h' : Kept keep mid old) : Kept keep new old :=
  ⟨h.1.trans h'.1, fun hk => (h.2 hk).trans (h'.2 hk)⟩

theorem map (f : α → β) (h : Kept keep new old) : Kept keep (new.map f) (old.map f) :=
  have ⟨l, hperm, hsub⟩ := h.1
  ⟨⟨l.map f, hperm.map f, hsub.map f⟩, fun hk => (h.2 hk).map f⟩

theorem cons (a : α) (h : Kept keep new old) : Kept keep (a :: new) (a :: old) :=
  ⟨(List.subperm_cons a).2 h.1, fun hk => (h.2 hk).cons a⟩

theorem append_right (h : Kept keep new old) (l : List α) :
    Kept keep (new ++ l) (old ++ l) :=
  ⟨(List.subperm_append_right l).2 h.1, fun hk => (h.2 hk).append_right l⟩

end Kept

end

section
variable {σ ι α : Type*} {step : σ → ι → Option σ} {entered : σ → ι → List α} {C : σ → ι → Prop}

/-- Records what enters. -/
def noteEntered (entered : σ → ι → List α) (s : σ) (a : ι) (_ : σ) (g : List α) : List α :=
  g ++ entered s a

/-- **What is held after a run**, against what was held before it and what entered during it;
nothing went missing when every step met `C`. -/
theorem Kept.run (view : σ → List α) (hstep : ∀ s a s', step s a = some s' →
      Kept (C s a) (view s') (view s ++ entered s a)) :
    ∀ {l : List ι} {s t : σ} {g g' : List α},
      Lib.run (noted step (noteEntered entered)) (s, g) l = some (t, g') →
      ∃ new, g' = g ++ new ∧ Kept (Along step C s l) (view t) (view s ++ new)
  | [], s, t, g, g', h => by
    cases h
    exact ⟨[], (List.append_nil g).symm, of_eq (List.append_nil _).symm⟩
  | a :: l, s, t, g, g', h => by
    obtain ⟨⟨u, gu⟩, hu, hr⟩ := run_cons_eq_some.1 h
    obtain ⟨hs, rfl⟩ := noted_eq_some.1 hu
    obtain ⟨new, hg, hkept⟩ := run view hstep hr
    refine ⟨entered s a ++ new, by rw [hg, noteEntered, List.append_assoc], ?_⟩
    rw [← List.append_assoc]
    exact (hkept.mono fun hc => hc.2 u hs).trans
      (((hstep s a u hs).mono And.left).append_right new)

end

end Musicat.Lib
