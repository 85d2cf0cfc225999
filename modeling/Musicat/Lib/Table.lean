import Mathlib.Data.List.Nodup
import Mathlib.Logic.Function.Basic

/-!
# Tables of keyed rows

A table is a list of rows, each with its key; nothing in it keeps a key from
having several rows. `Represents t m` says that it does not, and that the rows
are the entries of the map `m`. The statements keep it: an `update` of a key that
has a row, an `insert` of one that has none, a `delete`, and an `upsert`, which
is the one of the first two that fits.
-/

namespace Musicat.Lib

/-- A table, its rows in some order. -/
abbrev Table (κ ν : Type*) := List (κ × ν)

namespace Table

section
variable {κ ν : Type*} [DecidableEq κ]

/-- What `SELECT .. WHERE key = k` returns. -/
def rows (t : Table κ ν) (k : κ) : List ν := (t.filter (·.1 = k)).map Prod.snd

/-- `UPDATE .. SET value = v WHERE key = k`. -/
def update (t : Table κ ν) (k : κ) (v : ν) : Table κ ν :=
  t.map fun r => if r.1 = k then (k, v) else r

/-- `INSERT`, into a table without a constraint on its keys. -/
def insert (t : Table κ ν) (k : κ) (v : ν) : Table κ ν := t ++ [(k, v)]

/-- `DELETE .. WHERE key = k`. -/
def delete (t : Table κ ν) (k : κ) : Table κ ν := t.filter (·.1 ≠ k)

/-- An update, and an insert when there was nothing to update. -/
def upsert (t : Table κ ν) (k : κ) (v : ν) : Table κ ν :=
  if (t.rows k).isEmpty then t.insert k v else t.update k v

/-- Every key has the row that `m` has for it, or none. -/
def Represents (t : Table κ ν) (m : κ → Option ν) : Prop := ∀ k, t.rows k = (m k).toList

variable {t : Table κ ν} {m : κ → Option ν} {k k' : κ} {v : ν}

theorem rows_cons (r : κ × ν) (t : Table κ ν) :
    rows (r :: t) k = if r.1 = k then r.2 :: t.rows k else t.rows k := by
  unfold rows
  by_cases h : r.1 = k <;> simp [h]

theorem rows_update : (t.update k v).rows k' =
    if k' = k then (t.rows k).map fun _ => v else t.rows k' := by
  induction t with
  | nil => simp [update, rows]
  | cons r t ih =>
    change rows ((if r.1 = k then (k, v) else r) :: Table.update t k v) k' = _
    rw [rows_cons, ih, rows_cons, rows_cons]
    by_cases hk : k' = k
    · subst hk
      by_cases hr : r.1 = k' <;> simp [hr]
    · by_cases hr : r.1 = k
      · have hkk : ¬ k = k' := fun h => hk h.symm
        simp [hr, hk, hkk]
      · simp [hr, hk]

theorem mem_upsert {r : κ × ν} (h : r ∈ t.upsert k v) : r ∈ t ∨ r = (k, v) := by
  unfold upsert at h
  split at h
  · exact (List.mem_append.1 h).imp_right List.mem_singleton.1
  · obtain ⟨r', hr', he⟩ := List.mem_map.1 h
    split at he
    · exact .inr he.symm
    · exact .inl (he ▸ hr')

theorem rows_insert : (t.insert k v).rows k' = t.rows k' ++ if k' = k then [v] else [] := by
  unfold insert rows
  by_cases hk : k' = k
  · simp [hk]
  · have hkk : ¬ k = k' := fun h => hk h.symm
    simp [hk, hkk]

theorem rows_delete : (t.delete k).rows k' = if k' = k then [] else t.rows k' := by
  unfold delete rows
  rw [List.filter_filter]
  by_cases hk : k' = k
  · subst hk
    simp
  · rw [if_neg hk]
    refine congrArg _ (List.filter_congr fun r _ => ?_)
    by_cases hr : r.1 = k' <;> simp [hr, hk]

/-! ## Statements and maps -/

theorem represents_nil : Represents ([] : Table κ ν) fun _ => none := fun _ => rfl

theorem Represents.update (h : Represents t m) (hk : m k ≠ none) :
    Represents (t.update k v) (Function.update m k (some v)) := by
  intro k'
  rw [rows_update]
  by_cases hkk : k' = k
  · obtain ⟨w, hw⟩ := Option.ne_none_iff_exists'.1 hk
    simp [hkk, h k, hw]
  · simp [hkk, h k']

theorem Represents.insert (h : Represents t m) (hk : m k = none) :
    Represents (t.insert k v) (Function.update m k (some v)) := by
  intro k'
  rw [rows_insert, h k']
  by_cases hkk : k' = k
  · simp [hkk, hk]
  · simp [hkk]

theorem Represents.delete (h : Represents t m) :
    Represents (t.delete k) (Function.update m k none) := by
  intro k'
  rw [rows_delete, h k']
  by_cases hkk : k' = k <;> simp [hkk]

theorem Represents.isEmpty_iff (h : Represents t m) : (t.rows k).isEmpty ↔ m k = none := by
  rw [h k]
  cases m k <;> simp

theorem Represents.upsert (h : Represents t m) :
    Represents (t.upsert k v) (Function.update m k (some v)) := by
  unfold Table.upsert
  split
  · exact h.insert (h.isEmpty_iff.1 ‹_›)
  · exact h.update (mt h.isEmpty_iff.2 ‹_›)

/-- The keys that meet `P` are listed once each. -/
theorem Represents.keys (h : Represents t m) :
    (t.map Prod.fst).Nodup ∧ ∀ k, k ∈ t.map Prod.fst ↔ m k ≠ none := by
  have hmem : ∀ k, k ∈ t.map Prod.fst ↔ t.rows k ≠ [] := fun k => by
    simp [rows]
  refine ⟨?_, fun k => by rw [hmem, h k]; cases m k <;> simp⟩
  rw [List.nodup_iff_count_le_one]
  intro k
  have hcount : (t.map Prod.fst).count k = (t.rows k).length := by
    rw [rows, List.length_map, List.count_eq_countP, List.countP_map, List.countP_eq_length_filter]
    exact congrArg _ (List.filter_congr fun r _ => by rw [Bool.eq_iff_iff]; simp)
  rw [hcount, h k]
  cases m k <;> simp

end

end Table

end Musicat.Lib
