import Musicat.Child.Command
import Musicat.Lib.Find
import Mathlib.Data.List.DropRight

/-!
# Autocomplete

`fuzzy_match` goes through a text once and looks for the characters of the
search in turn, taking each at its first place. This is the greedy decision of
`List.isSublist` (`fuzzyMatch_eq_isSublist`), so it finds every subsequence.
`filter_candidates` keeps the first 25 candidates that match, in their order.
-/

namespace Musicat

open Child Lib

/-- `std::tolower` in the C locale. -/
def tolower (c : UInt8) : UInt8 := if 65 ≤ c ∧ c ≤ 90 then c + 32 else c

/-- `trim_str`: the matches of `^\s+|\s+$` are removed. -/
def trimStr (str : Bytes) : Bytes := (str.dropWhile isSpace).rdropWhile isSpace

/-! ## `fuzzy_match` -/

/-- The comparison of two characters. -/
def sameChar (caseInsensitive : Bool) (c sc : UInt8) : Bool :=
  if caseInsensitive then tolower c == tolower sc else c == sc

/-- The inner loop from `i` on: what is behind the character, `none` when it is not found. -/
def seekChar (caseInsensitive : Bool) (sc : UInt8) : Bytes → Option Bytes
  | [] => none
  | c :: i => if sameChar caseInsensitive c sc then some i else seekChar caseInsensitive sc i

def fuzzyMatch : (search str : Bytes) → (caseInsensitive : Bool) → Bool
  | [], _, _ => true
  | sc :: search, i, caseInsensitive =>
    match seekChar caseInsensitive sc i with
    | none => false
    | some i => fuzzyMatch search i caseInsensitive

/-- A text as it is compared. -/
def folded (caseInsensitive : Bool) (str : Bytes) : Bytes :=
  if caseInsensitive then str.map tolower else str

theorem folded_cons (caseInsensitive : Bool) (c : UInt8) (str : Bytes) :
    folded caseInsensitive (c :: str) =
      (if caseInsensitive then tolower c else c) :: folded caseInsensitive str := by
  cases caseInsensitive <;> rfl

theorem fuzzyMatch_eq_isSublist (search str : Bytes) (caseInsensitive : Bool) :
    fuzzyMatch search str caseInsensitive =
      (folded caseInsensitive search).isSublist (folded caseInsensitive str) := by
  induction str generalizing search with
  | nil =>
    cases search with
    | nil => cases caseInsensitive <;> rfl
    | cons sc search => cases caseInsensitive <;> rfl
  | cons c str ih =>
    cases search with
    | nil => cases caseInsensitive <;> rfl
    | cons sc search =>
      have hsame : sameChar caseInsensitive c sc =
          ((if caseInsensitive then tolower sc else sc) ==
            (if caseInsensitive then tolower c else c)) := by
        cases caseInsensitive <;> exact Bool.beq_comm
      rw [folded_cons, folded_cons, List.isSublist, ← hsame, fuzzyMatch, seekChar]
      cases sameChar caseInsensitive c sc with
      | true => exact ih search
      | false =>
        rw [← folded_cons, ← ih (sc :: search)]
        rfl

theorem fuzzyMatch_iff (search str : Bytes) (caseInsensitive : Bool) :
    fuzzyMatch search str caseInsensitive = true ↔
      (folded caseInsensitive search).Sublist (folded caseInsensitive str) := by
  rw [fuzzyMatch_eq_isSublist]
  exact List.isSublist_iff_sublist

/-! ## `filter_candidates` -/

def maxItemCount : Nat := 25

/-- A name as it is shown. -/
def itemName (first : Bytes) : Bytes :=
  if trimStr first = [] then bytes "[NULL]" else trimStr first

/-- Whether a candidate matches, and `param`, which the default algorithm changes. -/
def matchCandidate (fuzzy : Bool) (param first : Bytes) : Bool × Bytes :=
  if fuzzy then (fuzzyMatch param first true, param)
  else ((find (param.map tolower) (first.map tolower)).isSome, param.map tolower)

/-- The loop over the candidates; `siz` counts what is in `avail`. -/
def filterLoop (fuzzy : Bool) :
    List (Bytes × Bytes) → (param : Bytes) → (avail : List (Bytes × Bytes)) → (siz : Nat) →
      List (Bytes × Bytes)
  | [], _, avail, _ => avail
  | i :: candidates, param, avail, siz =>
    let (isMatch, param) := matchCandidate fuzzy param i.1
    if !isMatch then filterLoop fuzzy candidates param avail siz
    else if maxItemCount ≤ siz + 1 then avail ++ [(itemName i.1, i.2)]
    else filterLoop fuzzy candidates param (avail ++ [(itemName i.1, i.2)]) (siz + 1)

def filterCandidates (candidates : List (Bytes × Bytes)) (param : Bytes) (fuzzy : Bool) :
    List (Bytes × Bytes) :=
  let param := trimStr param
  if param = [] then
    if maxItemCount < candidates.length then candidates.take maxItemCount else candidates
  else filterLoop fuzzy candidates param [] 0

/-- The name contains the parameter as a subsequence up to ASCII case. -/
def NameMatches (param : Bytes) (i : Bytes × Bytes) : Prop :=
  (param.map tolower).Sublist (i.1.map tolower)

instance (param : Bytes) (i : Bytes × Bytes) : Decidable (NameMatches param i) :=
  inferInstanceAs (Decidable (List.Sublist _ _))

/-- **The loop takes the first matches up to the cap.** -/
theorem filterLoop_fuzzy (param : Bytes) (candidates avail : List (Bytes × Bytes)) (siz : Nat)
    (hsiz : siz < maxItemCount) :
    filterLoop true candidates param avail siz =
      avail ++ ((candidates.filter (NameMatches param ·)).take (maxItemCount - siz)).map
        fun i => (itemName i.1, i.2) := by
  induction candidates generalizing avail siz with
  | nil => simp [filterLoop]
  | cons i candidates ih =>
    have hmatch : fuzzyMatch param i.1 true = decide (NameMatches param i) := by
      rw [Bool.eq_iff_iff, fuzzyMatch_iff, decide_eq_true_iff]
      rfl
    obtain ⟨room, hroom⟩ : ∃ room, maxItemCount - siz = room + 1 :=
      ⟨maxItemCount - siz - 1, by omega⟩
    simp only [filterLoop, matchCandidate, if_true, hmatch, List.filter_cons]
    by_cases hm : NameMatches param i
    · simp only [hm, decide_true, Bool.not_true, Bool.false_eq_true, if_false, if_true]
      rw [hroom, List.take_succ_cons, List.map_cons]
      by_cases hfull : maxItemCount ≤ siz + 1
      · obtain rfl : room = 0 := by omega
        rw [if_pos hfull]
        rfl
      · rw [if_neg hfull, ih _ _ (by omega), show maxItemCount - (siz + 1) = room by omega,
          List.append_assoc]
        rfl
    · simp only [hm, decide_false, Bool.not_false, if_true, Bool.false_eq_true, if_false]
      exact ih avail siz hsiz

/-- **`fuzzy_match` decides subsequences, and the fuzzy filter gives the first 25 candidates that
match**, all of them for an empty parameter. -/
theorem fuzzy_match_subsequence :
    (∀ search str : Bytes, fuzzyMatch search str false = true ↔ search.Sublist str) ∧
    (∀ search str : Bytes, fuzzyMatch search str true = true ↔
      (search.map tolower).Sublist (str.map tolower)) ∧
    ∀ (candidates : List (Bytes × Bytes)) (param : Bytes),
      filterCandidates candidates param true =
        ((candidates.filter (NameMatches (trimStr param) ·)).take maxItemCount).map fun i =>
          (if trimStr param = [] then i.1 else itemName i.1, i.2) := by
  refine ⟨fun search str => fuzzyMatch_iff search str false,
    fun search str => fuzzyMatch_iff search str true, fun candidates param => ?_⟩
  unfold filterCandidates
  by_cases hparam : trimStr param = []
  · have hall : candidates.filter (NameMatches [] ·) = candidates := by
      rw [List.filter_eq_self]
      exact fun i _ => decide_eq_true (List.nil_sublist _)
    simp only [hparam, if_true, hall]
    rw [List.map_id']
    split
    · rfl
    · rename_i hshort
      exact (List.take_of_length_le (Nat.le_of_not_lt hshort)).symm
  · simp only [hparam, if_false]
    exact filterLoop_fuzzy (trimStr param) candidates [] 0 (by decide)

end Musicat
