import Mathlib.Algebra.Order.Floor.Ring
import Mathlib.Data.List.TakeWhile
import Mathlib.Data.Rat.Floor
import Mathlib.Tactic.FieldSimp
import Mathlib.Tactic.Linarith
import Mathlib.Tactic.NormNum
import Mathlib.Tactic.Positivity

/-!
# Numbers as text

`decimalText` writes a number with six digits after the point, rounded to the
nearest; `readDecimal` reads the longest start of a text that is a decimal
number. Numbers that have no more than six digits are read back as they were
written, whatever follows that could not go on the number.
-/

namespace Musicat.Lib

/-- A number as text; without a point it has only the digits of `n`. -/
def digits (n : Nat) : List Char := Nat.toDigits 10 n

/-- The last six digits of `n`. -/
def sixDigits (n : Nat) : List Char :=
  [n / 100000 % 10, n / 10000 % 10, n / 1000 % 10, n / 100 % 10, n / 10 % 10, n % 10].map
    Nat.digitChar

/-- The millionths of a number, rounded. -/
def millionths (q : ℚ) : Nat := ⌊|q| * 10 ^ 6 + 1 / 2⌋.toNat

/-- A number with six digits after the point. -/
def decimalText (q : ℚ) : List Char :=
  (if q < 0 then ['-'] else []) ++ digits (millionths q / 10 ^ 6) ++
    '.' :: sixDigits (millionths q % 10 ^ 6)

/-- The digits at the start of a text, the digits after a point, and what is left. -/
def decimalParts (s : List Char) : List Char × List Char :=
  let whole := s.takeWhile Char.isDigit
  match s.dropWhile Char.isDigit with
  | '.' :: rest => (whole, rest.takeWhile Char.isDigit)
  | _ => (whole, [])

/-- Whether a minus comes first, and what is after the sign. -/
def readSign : List Char → Bool × List Char
  | '-' :: s => (true, s)
  | '+' :: s => (false, s)
  | s => (false, s)

/-- The number that a text starts with; there is none without a digit. -/
def readDecimal (s : List Char) : Option ℚ :=
  let (negative, s) := readSign (s.dropWhile Char.isWhitespace)
  let (whole, frac) := decimalParts s
  if whole.isEmpty && frac.isEmpty then none
  else
    let q : ℚ := (Nat.ofDigitChars 10 (whole ++ frac) 0 : ℚ) / 10 ^ frac.length
    some (if negative then -q else q)

/-- A number without what is after its point. -/
def truncate (q : ℚ) : Int := q.num.tdiv q.den

theorem truncate_intCast (n : Int) : truncate (n : ℚ) = n := by
  simp [truncate]

/-! ## Digits -/

theorem isDigit_of_mem_digits {n : Nat} {c : Char} (h : c ∈ digits n) : c.isDigit = true :=
  Nat.isDigit_of_mem_toDigits (by decide) (by decide) h

theorem isDigit_of_mem_sixDigits {n : Nat} {c : Char} (h : c ∈ sixDigits n) :
    c.isDigit = true := by
  obtain ⟨d, hd, rfl⟩ := List.mem_map.1 h
  rw [Nat.isDigit_digitChar, decide_eq_true_eq]
  simp only [List.mem_cons, List.not_mem_nil, or_false] at hd
  omega

theorem ofDigitChars_sixDigits {n : Nat} (h : n < 10 ^ 6) (init : Nat) :
    Nat.ofDigitChars 10 (sixDigits n) init = init * 10 ^ 6 + n := by
  simp only [sixDigits, List.map_cons, List.map_nil]
  simp only [Nat.ofDigitChars_cons_digitChar_of_lt_ten (Nat.mod_lt _ (by decide : 0 < 10)),
    Nat.ofDigitChars_nil]
  omega

theorem exists_digitChar {c : Char} (h : c.isDigit = true) : ∃ n < 10, c = n.digitChar := by
  have hrange := Char.isDigit_iff_toNat.1 h
  have hlo : '0'.toNat = 48 := rfl
  have hhi : '9'.toNat = 57 := rfl
  have hchars : ∀ n < 10, Char.ofNat (48 + n) = n.digitChar := by decide
  refine ⟨c.toNat - 48, by omega, ?_⟩
  rw [← hchars _ (by omega), show 48 + (c.toNat - 48) = c.toNat by omega, Char.ofNat_toNat]

/-- A number is less than the power of ten for its digits. -/
theorem ofDigitChars_lt {s : List Char} (h : ∀ c ∈ s, c.isDigit = true) :
    Nat.ofDigitChars 10 s 0 < 10 ^ s.length := by
  induction s with
  | nil => decide
  | cons c s ih =>
    obtain ⟨hc, hs⟩ := List.forall_mem_cons.1 h
    obtain ⟨n, hn, rfl⟩ := exists_digitChar hc
    rw [Nat.ofDigitChars_cons_digitChar_of_lt_ten hn, Nat.ofDigitChars_eq_ofDigitChars_zero,
      List.length_cons, Nat.pow_succ, Nat.mul_zero, Nat.zero_add]
    have hrest := ih hs
    have hle : 10 ^ s.length * n ≤ 10 ^ s.length * 9 := Nat.mul_le_mul_left _ (by omega)
    omega

/-! ## Reading what was written -/

theorem millionths_eq (n : Nat) : millionths (n / 10 ^ 6 : ℚ) = n := by
  have hnonneg : (0 : ℚ) ≤ n / 10 ^ 6 := by positivity
  have hfloor : ⌊|(n / 10 ^ 6 : ℚ)| * 10 ^ 6 + 1 / 2⌋ = (n : Int) := by
    rw [abs_of_nonneg hnonneg, div_mul_cancel₀ _ (by norm_num), Int.floor_eq_iff]
    constructor
    · push_cast
      linarith
    · push_cast
      linarith
  rw [millionths, hfloor, Int.toNat_natCast]

theorem decimalText_eq (n : Nat) :
    decimalText (n / 10 ^ 6 : ℚ) = digits (n / 10 ^ 6) ++ '.' :: sixDigits (n % 10 ^ 6) := by
  have hnonneg : ¬ (n / 10 ^ 6 : ℚ) < 0 := not_lt.2 (by positivity)
  rw [decimalText, if_neg hnonneg, millionths_eq, List.nil_append]

/-- The characters of a number: digits and a point. -/
theorem mem_decimalText {n : Nat} {c : Char} (h : c ∈ decimalText (n / 10 ^ 6 : ℚ)) :
    c.isDigit = true ∨ c = '.' := by
  rw [decimalText_eq, List.mem_append, List.mem_cons] at h
  rcases h with h | h | h
  · exact .inl (isDigit_of_mem_digits h)
  · exact .inr h
  · exact .inl (isDigit_of_mem_sixDigits h)

theorem readSign_of_isDigit {c : Char} (hc : c.isDigit = true) (s : List Char) :
    readSign (c :: s) = (false, c :: s) := by
  unfold readSign
  split
  · rename_i h
    cases h
    cases hc
  · rename_i h
    cases h
    cases hc
  · rfl

/-- Neither blanks nor a sign come before a digit. -/
theorem readSign_digit {c : Char} (hc : c.isDigit = true) (s : List Char) :
    readSign ((c :: s).dropWhile Char.isWhitespace) = (false, c :: s) := by
  have hspace : ¬ c.isWhitespace = true := by
    intro h
    simp only [Char.isWhitespace, Bool.or_eq_true, decide_eq_true_eq] at h
    rcases h with ((rfl | rfl) | rfl) | rfl <;> cases hc
  rw [List.dropWhile_cons_of_neg hspace, readSign_of_isDigit hc]

section
variable {whole frac rest : List Char}

theorem decimalParts_eq (hwhole : ∀ c ∈ whole, c.isDigit = true)
    (hfrac : ∀ c ∈ frac, c.isDigit = true) (hrest : ∀ c ∈ rest.head?, c.isDigit = false) :
    decimalParts (whole ++ '.' :: frac ++ rest) = (whole, frac) := by
  have hafter : rest.takeWhile Char.isDigit = [] := by
    cases rest with
    | nil => rfl
    | cons c rest => exact List.takeWhile_cons_of_neg (by simp [hrest c rfl])
  have hpoint : ('.' :: frac ++ rest).takeWhile Char.isDigit = [] := rfl
  have hpoint' : ('.' :: frac ++ rest).dropWhile Char.isDigit = '.' :: (frac ++ rest) := rfl
  rw [List.append_assoc, decimalParts, List.takeWhile_append_of_pos hwhole,
    List.dropWhile_append_of_pos hwhole, hpoint, hpoint', List.append_nil]
  simp only
  rw [List.takeWhile_append_of_pos hfrac, hafter, List.append_nil]

/-- **A number with a point is read**, up to what is not a digit any more. -/
theorem readDecimal_eq (hne : whole ≠ []) (hwhole : ∀ c ∈ whole, c.isDigit = true)
    (hfrac : ∀ c ∈ frac, c.isDigit = true) (hrest : ∀ c ∈ rest.head?, c.isDigit = false) :
    readDecimal (whole ++ '.' :: frac ++ rest) =
      some ((Nat.ofDigitChars 10 (whole ++ frac) 0 : ℚ) / 10 ^ frac.length) := by
  have hparts := decimalParts_eq hwhole hfrac hrest
  obtain ⟨c, s, rfl⟩ := List.exists_cons_of_ne_nil hne
  have hc := hwhole c List.mem_cons_self
  simp only [List.cons_append] at hparts ⊢
  simp only [readDecimal, readSign_digit hc, hparts]
  rw [List.isEmpty_cons, Bool.false_and, if_neg Bool.false_ne_true, if_neg Bool.false_ne_true]
  rfl

/-- **A number with six digits is read back**, whatever follows but a digit. -/
theorem readDecimal_decimalText {n : Nat} (hrest : ∀ c ∈ rest.head?, c.isDigit = false) :
    readDecimal (decimalText (n / 10 ^ 6 : ℚ) ++ rest) = some (n / 10 ^ 6 : ℚ) := by
  have hvalue : Nat.ofDigitChars 10 (digits (n / 10 ^ 6) ++ sixDigits (n % 10 ^ 6)) 0 = n := by
    rw [Nat.ofDigitChars_append, digits, Nat.ofDigitChars_ten_toDigits,
      ofDigitChars_sixDigits (Nat.mod_lt _ (by decide))]
    omega
  have hne : digits (n / 10 ^ 6) ≠ [] := Nat.toDigits_ne_nil
  rw [decimalText_eq, readDecimal_eq hne (fun _ => isDigit_of_mem_digits)
    (fun _ => isDigit_of_mem_sixDigits) hrest, hvalue]
  rfl

end

end Musicat.Lib
