import Mathlib.Algebra.Group.Nat.Defs
import Mathlib.Algebra.Ring.Int.Defs
import Mathlib.Data.List.Forall2
import Mathlib.Data.Option.Basic

/-!
# JSON values

The values `nlohmann::json` parses to, with the queries the server makes on
them. A number is unsigned, signed or floating, as the parser stores it.
-/

namespace Musicat.Server

inductive Json where
  | null
  | bool (b : Bool)
  | unsigned (n : Nat)
  | integer (n : Int)
  | float (q : Rat)
  | string (s : String)
  | array (items : List Json)
  | object (fields : List (String × Json))

namespace Json

def isObject : Json → Bool
  | object _ => true
  | _ => false

def isNumber : Json → Bool
  | unsigned _ | integer _ | float _ => true
  | _ => false

/-- `find`: the value under a key; only an object has one. -/
def find (key : String) : Json → Option Json
  | object fields => fields.lookup key
  | _ => none

/-- `get<int64_t>` of a number. -/
def getInt64 : Json → Int
  | unsigned n => (n : Int).bmod (2 ^ 64)
  | integer n => n
  | float q => q.num.tdiv q.den
  | _ => 0

/-- `get<uint16_t>` of a number. -/
def getUInt16 : Json → UInt16
  | unsigned n => UInt16.ofNat n
  | integer n => UInt16.ofInt n
  | float q => UInt16.ofInt (q.num.tdiv q.den)
  | _ => 0

theorem getUInt16_integer (n : UInt16) : (integer n.toNat).getUInt16 = n := by
  have hlt := n.toNat_lt
  have hmod : ((n.toNat : Int) % 2 ^ 16).toNat = n.toNat := by omega
  rw [getUInt16, UInt16.ofInt, hmod, UInt16.ofNat_toNat]

/-- `operator[]` of an object; a key that is not there has the value null. -/
def get (j : Json) (key : String) : Json := (j.find key).getD null

/-- An assignment through `operator[]`; the order of an object's keys means nothing. -/
def set (j : Json) (key : String) (value : Json) : Json :=
  match j with
  | object fields => object ((key, value) :: fields.filter (·.1 != key))
  | null => object [(key, value)]
  | j => j

theorem get_set (fields : List (String × Json)) (key : String) (value : Json) :
    ((object fields).set key value).get key = value := by
  simp [set, get, find]

theorem lookup_filter_of_ne {key other : String} (h : other ≠ key) (fields : List (String × Json)) :
    (fields.filter (·.1 != key)).lookup other = fields.lookup other := by
  induction fields with
  | nil => rfl
  | cons f fields ih =>
    obtain ⟨k, v⟩ := f
    by_cases hk : k = key
    · simp [hk, List.lookup_cons, beq_eq_false_iff_ne.2 h, ih]
    · simp [hk, List.lookup_cons, ih]

/-- An assignment leaves the other keys. -/
theorem get_set_of_ne {key other : String} (fields : List (String × Json)) (value : Json)
    (h : other ≠ key) : ((object fields).set key value).get other = (object fields).get other := by
  simp [set, get, find, List.lookup_cons, beq_eq_false_iff_ne.2 h, lookup_filter_of_ne h]

/-! ## What throws -/

/-- The exceptions of the queries and assignments below. -/
inductive Error where
  /-- `type_error` 302: `get` of another type. -/
  | typeMustBe
  /-- `type_error` 304: `at` of what is no object. -/
  | atOfNoObject
  /-- `type_error` 305: `operator[]` of what is no object and not null. -/
  | subscriptOfNoObject
  /-- `type_error` 308: `push_back` to what is no array and not null. -/
  | pushToNoArray
  /-- `out_of_range` 403: `at` of a key that is not there. -/
  | keyNotFound (key : String)
  deriving DecidableEq, Repr

def isNull : Json → Bool
  | null => true
  | _ => false

/-- `at`. -/
def atKey (j : Json) (key : String) : Except Error Json :=
  if !j.isObject then .error .atOfNoObject
  else
    match j.find key with
    | none => .error (.keyNotFound key)
    | some value => .ok value

/-- `get<std::string>`. -/
def getString : Json → Except Error String
  | string s => .ok s
  | _ => .error .typeMustBe

/-- An assignment through `operator[]`, as it throws. -/
def assign (j : Json) (key : String) (value : Json) : Except Error Json :=
  if j.isObject || j.isNull then .ok (j.set key value) else .error .subscriptOfNoObject

/-- `push_back`. -/
def pushBack (j value : Json) : Except Error Json :=
  match j with
  | null => .ok (array [value])
  | array items => .ok (array (items ++ [value]))
  | _ => .error .pushToNoArray

theorem isObject_iff {j : Json} : j.isObject = true ↔ ∃ fields, j = object fields := by
  cases j <;> simp [isObject]

@[simp] theorem find_object (fields : List (String × Json)) (key : String) :
    (object fields).find key = fields.lookup key := rfl

theorem atKey_of_find {j value : Json} {key : String} (h : j.find key = some value) :
    j.atKey key = .ok value := by
  cases j with
  | object fields => simp only [atKey, isObject, Bool.not_true, Bool.false_eq_true, if_false, h]
  | _ => cases h

theorem find_of_no_object {j : Json} (h : j.isObject = false) (key : String) :
    j.find key = none := by
  cases j with
  | object => cases h
  | _ => rfl

theorem find_set (fields : List (String × Json)) (key other : String) (value : Json) :
    ((object fields).set key value).find other =
      if other = key then some value else fields.lookup other := by
  by_cases h : other = key
  · simp [set, find, h]
  · simp [set, find, List.lookup_cons, beq_eq_false_iff_ne.2 h, lookup_filter_of_ne h, h]

/-! ## The same document -/

/-- The value of a whole number, unsigned or signed. -/
def whole : Json → Option Int
  | unsigned n => some n
  | integer n => some n
  | _ => none

theorem isObject_of_whole {j : Json} {n : Int} (h : j.whole = some n) : j.isObject = false := by
  cases j with
  | unsigned | integer => rfl
  | _ => cases h

/-- Two values are the same document: the order of an object's keys means nothing, nor does
whether a whole number is held signed. -/
inductive Same : Json → Json → Prop where
  | null : Same null null
  | bool (b : Bool) : Same (bool b) (bool b)
  | number {j k : Json} {n : Int} (hj : j.whole = some n) (hk : k.whole = some n) : Same j k
  | float (q : Rat) : Same (float q) (float q)
  | string (s : String) : Same (string s) (string s)
  | array {xs ys : List Json} (h : List.Forall₂ Same xs ys) : Same (array xs) (array ys)
  | object {f g : List (String × Json)}
      (h : ∀ key, Option.Rel Same (f.lookup key) (g.lookup key)) : Same (object f) (object g)

mutual

theorem Same.refl : (j : Json) → j.Same j
  | .null => .null
  | .bool b => .bool b
  | .unsigned _ => .number rfl rfl
  | .integer _ => .number rfl rfl
  | .float q => .float q
  | .string s => .string s
  | .array items => .array (same_items items)
  | .object fields => .object (same_fields fields)

theorem same_items : (items : List Json) → List.Forall₂ Same items items
  | [] => .nil
  | j :: items => .cons (Same.refl j) (same_items items)

theorem same_fields :
    (fields : List (String × Json)) → ∀ key, Option.Rel Same (fields.lookup key) (fields.lookup key)
  | [], _ => .none
  | (k, j) :: fields, key => by
    rw [List.lookup_cons]
    split
    · exact .some (Same.refl j)
    · exact same_fields fields key

end

namespace Same

variable {j k v w : Json}

theorem isObject (h : j.Same k) : j.isObject = k.isObject := by
  cases h with
  | number hj hk => rw [isObject_of_whole hj, isObject_of_whole hk]
  | _ => rfl

theorem find (h : j.Same k) (key : String) : Option.Rel Same (j.find key) (k.find key) := by
  cases h with
  | object h => exact h key
  | number hj hk =>
    rw [find_of_no_object (isObject_of_whole hj) key,
      find_of_no_object (isObject_of_whole hk) key]
    exact .none
  | _ => exact .none

theorem exists_find (h : j.Same k) {key : String} (hk : k.find key = some v) :
    ∃ w, j.find key = some w ∧ w.Same v := by
  have hrel := h.find key
  rw [hk] at hrel
  cases hj : j.find key with
  | none => rw [hj] at hrel; cases hrel
  | some w => rw [hj, Option.rel_some_some] at hrel; exact ⟨w, rfl, hrel⟩

theorem of_find (hj : j.isObject) (hk : k.isObject)
    (h : ∀ key, Option.Rel Same (j.find key) (k.find key)) : j.Same k := by
  obtain ⟨f, rfl⟩ := isObject_iff.1 hj
  obtain ⟨g, rfl⟩ := isObject_iff.1 hk
  exact .object h

theorem eq_string {s : String} (h : j.Same (.string s)) : j = .string s := by
  cases h with
  | number _ hk => cases hk
  | string => rfl

theorem eq_array {ys : List Json} (h : j.Same (.array ys)) :
    ∃ xs, j = .array xs ∧ List.Forall₂ Same xs ys := by
  cases h with
  | number _ hk => cases hk
  | array h => exact ⟨_, rfl, h⟩

end Same

end Json

end Musicat.Server
