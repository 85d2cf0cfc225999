import Mathlib.Data.List.Basic

/-!
# Base64 without padding

Three bytes are four symbols, and what is left over at the end is two or three.
The symbols are a parameter. Cutting the text after whole groups cuts the bytes
after as many (`take_base64`), and the text determines the bytes when the
symbols differ (`base64_inj`).
-/

namespace Musicat.Lib

section
variable {α : Type*} (symbol : Nat → α)

def base64 : List UInt8 → List α
  | [] => []
  | [a] => [symbol (a.toNat / 4), symbol (a.toNat % 4 * 16)]
  | [a, b] =>
    [symbol (a.toNat / 4), symbol (a.toNat % 4 * 16 + b.toNat / 16), symbol (b.toNat % 16 * 4)]
  | a :: b :: c :: s =>
    symbol (a.toNat / 4) :: symbol (a.toNat % 4 * 16 + b.toNat / 16) ::
      symbol (b.toNat % 16 * 4 + c.toNat / 64) :: symbol (c.toNat % 64) :: base64 s

variable {symbol}

theorem length_base64 (s : List UInt8) : (base64 symbol s).length = (4 * s.length + 2) / 3 := by
  induction s using base64.induct with
  | case1 => rfl
  | case2 a => simp [base64]
  | case3 a b => simp [base64]
  | case4 a b c s ih =>
    simp only [base64, List.length_cons, ih]
    omega

/-- **Whole groups of the text are whole groups of the bytes.** -/
theorem take_base64 (k : Nat) (s : List UInt8) :
    (base64 symbol s).take (4 * k) = base64 symbol (s.take (3 * k)) := by
  induction k generalizing s with
  | zero => rfl
  | succ k ih =>
    have hfour : 4 * (k + 1) = 4 * k + 1 + 1 + 1 + 1 := by omega
    have hthree : 3 * (k + 1) = 3 * k + 1 + 1 + 1 := by omega
    rw [hfour, hthree]
    match s with
    | a :: b :: c :: s => simp only [base64, List.take_succ_cons, ih]
    | [a, b] => simp [base64]
    | [a] => simp [base64]
    | [] => rfl

/-- The symbols of two numbers below 64 differ. -/
def Distinct64 (symbol : Nat → α) : Prop :=
  ∀ m n, m < 64 → n < 64 → symbol m = symbol n → m = n

section
variable (hsymbol : Distinct64 symbol) {a b c a' b' c' : UInt8}
include hsymbol

theorem first_inj (h₁ : symbol (a.toNat / 4) = symbol (a'.toNat / 4))
    (h₂ : symbol (a.toNat % 4 * 16) = symbol (a'.toNat % 4 * 16)) : a = a' := by
  have ha := a.toNat_lt
  have ha' := a'.toNat_lt
  have hquot := hsymbol _ _ (by omega) (by omega) h₁
  have hrest := hsymbol _ _ (by omega) (by omega) h₂
  exact UInt8.toNat_inj.1 (by omega)

theorem second_inj (h₁ : symbol (a.toNat / 4) = symbol (a'.toNat / 4))
    (h₂ : symbol (a.toNat % 4 * 16 + b.toNat / 16) = symbol (a'.toNat % 4 * 16 + b'.toNat / 16))
    (h₃ : symbol (b.toNat % 16 * 4) = symbol (b'.toNat % 16 * 4)) : a = a' ∧ b = b' := by
  have ha := a.toNat_lt
  have ha' := a'.toNat_lt
  have hb := b.toNat_lt
  have hb' := b'.toNat_lt
  have hquot := hsymbol _ _ (by omega) (by omega) h₁
  have hmid := hsymbol _ _ (by omega) (by omega) h₂
  have hrest := hsymbol _ _ (by omega) (by omega) h₃
  exact ⟨UInt8.toNat_inj.1 (by omega), UInt8.toNat_inj.1 (by omega)⟩

theorem group_inj (h₁ : symbol (a.toNat / 4) = symbol (a'.toNat / 4))
    (h₂ : symbol (a.toNat % 4 * 16 + b.toNat / 16) = symbol (a'.toNat % 4 * 16 + b'.toNat / 16))
    (h₃ : symbol (b.toNat % 16 * 4 + c.toNat / 64) = symbol (b'.toNat % 16 * 4 + c'.toNat / 64))
    (h₄ : symbol (c.toNat % 64) = symbol (c'.toNat % 64)) : a = a' ∧ b = b' ∧ c = c' := by
  have ha := a.toNat_lt
  have ha' := a'.toNat_lt
  have hb := b.toNat_lt
  have hb' := b'.toNat_lt
  have hc := c.toNat_lt
  have hc' := c'.toNat_lt
  have hquot := hsymbol _ _ (by omega) (by omega) h₁
  have hmid := hsymbol _ _ (by omega) (by omega) h₂
  have hmid' := hsymbol _ _ (by omega) (by omega) h₃
  have hrest := hsymbol _ _ (by omega) (by omega) h₄
  exact ⟨UInt8.toNat_inj.1 (by omega), UInt8.toNat_inj.1 (by omega), UInt8.toNat_inj.1 (by omega)⟩

end

/-- **The text determines the bytes.** -/
theorem base64_inj (hsymbol : Distinct64 symbol) {s t : List UInt8}
    (h : base64 symbol s = base64 symbol t) : s = t := by
  have hlen : s.length = t.length := by
    have htext := congrArg List.length h
    rw [length_base64, length_base64] at htext
    omega
  induction s using base64.induct generalizing t with
  | case1 => exact (List.eq_nil_of_length_eq_zero hlen.symm).symm
  | case2 a =>
    match t, hlen with
    | [a'], _ =>
      simp only [base64, List.cons.injEq, and_true] at h
      rw [first_inj hsymbol h.1 h.2]
  | case3 a b =>
    match t, hlen with
    | [a', b'], _ =>
      simp only [base64, List.cons.injEq, and_true] at h
      obtain ⟨rfl, rfl⟩ := second_inj hsymbol h.1 h.2.1 h.2.2
      rfl
  | case4 a b c s ih =>
    match t, hlen with
    | a' :: b' :: c' :: t, hlen =>
      simp only [base64, List.cons.injEq] at h
      obtain ⟨rfl, rfl, rfl⟩ := group_inj hsymbol h.1 h.2.1 h.2.2.1 h.2.2.2.1
      rw [ih h.2.2.2.2 (by simpa using hlen)]

end

end Musicat.Lib
