import Mathlib.Data.List.Basic

/-!
# Escaped text

Text in which an escape symbol takes the meaning out of the symbol after it.
`escape` puts it before every special symbol. `scan` reads such text from left
to right: `bare` acts on a symbol that stands for itself, `lit` on an escaped
one, and a flag says that the next symbol is escaped. Scanning escaped text
acts on the symbols of the original text (`scan_escape`), the special ones
through `lit`.
-/

namespace Musicat.Lib

section
variable {α σ : Type*} (esc : α) (special : α → Bool) (bare lit : σ → α → σ)

/-- `esc` before every special symbol. -/
def escape : List α → List α
  | [] => []
  | c :: cs => if special c then esc :: c :: escape cs else c :: escape cs

variable {esc special} in
theorem mem_escape {v : List α} {a : α} (h : a ∈ escape esc special v) : a = esc ∨ a ∈ v := by
  induction v with
  | nil => cases h
  | cons c cs ih =>
    unfold escape at h
    split at h
    · rcases List.mem_cons.1 h with rfl | h
      · exact .inl rfl
      · rcases List.mem_cons.1 h with rfl | h
        · exact .inr List.mem_cons_self
        · exact (ih h).imp_right (List.mem_cons_of_mem c)
    · rcases List.mem_cons.1 h with rfl | h
      · exact .inr List.mem_cons_self
      · exact (ih h).imp_right (List.mem_cons_of_mem c)

variable {esc special} in
theorem escape_of_not_special {v : List α} (h : ∀ c ∈ v, special c = false) :
    escape esc special v = v := by
  induction v with
  | nil => rfl
  | cons c cs ih =>
    rw [escape, if_neg (by simp [h c List.mem_cons_self]),
      ih fun d hd => h d (List.mem_cons_of_mem c hd)]

variable {esc special} in
/-- A text that is cut off at a symbol which is not special is escaped as far as it goes. -/
theorem escape_takeWhile {p : α → Bool} (hesc : p esc = true)
    (hspecial : ∀ c, special c = true → p c = true) (v : List α) :
    (escape esc special v).takeWhile p = escape esc special (v.takeWhile p) := by
  induction v with
  | nil => rfl
  | cons c cs ih =>
    by_cases hc : special c = true
    · simp [escape, hc, hesc, hspecial c hc, ih]
    · by_cases hp : p c = true
      · simp [escape, hc, hp, ih]
      · simp [escape, hc, hp]

variable [DecidableEq α]

/-- The state after reading a text, and whether its last symbol escapes the next one. -/
def scan : Bool → σ → List α → Bool × σ
  | flag, s, [] => (flag, s)
  | true, s, c :: cs => scan false (lit s c) cs
  | false, s, c :: cs => if c = esc then scan true s cs else scan false (bare s c) cs

theorem scan_append (u v : List α) (flag : Bool) (s : σ) :
    scan esc bare lit flag s (u ++ v) =
      scan esc bare lit (scan esc bare lit flag s u).1 (scan esc bare lit flag s u).2 v := by
  induction u generalizing flag s with
  | nil => rfl
  | cons c cs ih =>
    cases flag with
    | true => exact ih false (lit s c)
    | false =>
      simp only [List.cons_append, scan]
      split
      · exact ih true s
      · exact ih false (bare s c)

variable {esc special}

/-- Text without the escape symbol stands for itself. -/
theorem scan_plain {v : List α} (h : esc ∉ v) (s : σ) :
    scan esc bare lit false s v = (false, v.foldl bare s) := by
  induction v generalizing s with
  | nil => rfl
  | cons c cs ih =>
    have hc : c ≠ esc := fun e => h (e ▸ List.mem_cons_self)
    simp only [scan, if_neg hc, List.foldl_cons]
    exact ih (fun hcs => h (List.mem_cons_of_mem c hcs)) (bare s c)

/-- **Scanning escaped text acts on the original text.** -/
theorem scan_escape (hesc : special esc = true) (v : List α) (s : σ) :
    scan esc bare lit false s (escape esc special v) =
      (false, v.foldl (fun s c => if special c then lit s c else bare s c) s) := by
  induction v generalizing s with
  | nil => rfl
  | cons c cs ih =>
    simp only [escape, List.foldl_cons]
    by_cases hc : special c = true
    · simp only [hc, if_true, scan]
      exact ih (lit s c)
    · have hne : c ≠ esc := fun h => hc (h ▸ hesc)
      simp only [hc, if_false, scan, hne, Bool.false_eq_true]
      exact ih (bare s c)

/-- What both ways of reading a symbol keep, reading a text keeps. -/
theorem scan_inv {P : σ → Prop} (hbare : ∀ s c, P s → P (bare s c))
    (hlit : ∀ s c, P s → P (lit s c)) (v : List α) {flag : Bool} {s : σ} (hs : P s) :
    P (scan esc bare lit flag s v).2 := by
  induction v generalizing flag s with
  | nil => exact hs
  | cons c cs ih =>
    cases flag with
    | true => exact ih (hlit s c hs)
    | false =>
      simp only [scan]
      split
      · exact ih hs
      · exact ih (hbare s c hs)

/-- A text whose end escapes what comes next ends in the escape symbol. -/
theorem getLast_of_scan {v : List α} {flag : Bool} {s : σ}
    (h : (scan esc bare lit flag s v).1 = true) :
    v = [] ∧ flag = true ∨ v.getLast? = some esc := by
  induction v generalizing flag s with
  | nil => exact .inl ⟨rfl, h⟩
  | cons c cs ih =>
    have hlast (hcs : cs.getLast? = some esc) : (c :: cs).getLast? = some esc := by
      rw [List.getLast?_cons, hcs]; rfl
    cases flag with
    | true =>
      rcases ih h with ⟨-, hflag⟩ | hcs
      · cases hflag
      · exact .inr (hlast hcs)
    | false =>
      simp only [scan] at h
      split at h
      · rename_i hc
        rcases ih h with ⟨rfl, -⟩ | hcs
        · exact .inr (by rw [hc]; rfl)
        · exact .inr (hlast hcs)
      · rcases ih h with ⟨-, hflag⟩ | hcs
        · cases hflag
        · exact .inr (hlast hcs)

end

end Musicat.Lib
