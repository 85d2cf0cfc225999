import Musicat.Lib.Decimal
import Musicat.Lib.Find

/-!
# The equalizer as filter arguments

The 18 bands of the equalizer, in percent, are written as arguments of the audio
filter (`1b=0.500000:2b=...`), with or without the volume after them, and read
back by searching for each key in turn. The reader's slot counter moves on only
when a key is found: what is written with the volume is read back as it was, and
without it every band comes one slot too early.
-/

namespace Musicat.Filters

open Lib

structure EqualizerFx where
  volume : Int
  bands : Vector Int 18
  deriving DecidableEq

def percentToDecBase : Int := 100

def createEqualizerFx : EqualizerFx := { volume := 100, bands := Vector.replicate 18 50 }

def bandToStr (v : Int) : List Char := decimalText ((v : ℚ) / percentToDecBase)

def volToStr (v : Int) : List Char := decimalText ((v : ℚ) / percentToDecBase)

def volumeKey : List Char := "volume=".toList

def bandKeys : List (List Char) :=
  ["1b=", "2b=", "3b=", "4b=", "5b=", "6b=", "7b=", "8b=", "9b=", "10b=", "11b=", "12b=", "13b=",
    "14b=", "15b=", "16b=", "17b=", "18b="].map String.toList

/-- The bands, each after its key, with `:` between them. -/
def bandsText (eq : EqualizerFx) : List Char :=
  fieldsText ':' (bandKeys.zip (eq.bands.toList.map bandToStr))

/-- What `with_volume` adds. -/
def volumeText (eq : EqualizerFx) (withVolume : Bool) : List Char :=
  if withVolume then ',' :: (volumeKey ++ volToStr eq.volume) else []

def equalizerFxToAfArgs (eq : EqualizerFx) (withVolume : Bool) : List Char :=
  bandsText eq ++ volumeText eq withVolume

def searches : List (List Char) := volumeKey :: bandKeys

/-- The slot `idx`: the volume first, and then the bands. -/
def EqualizerFx.store (eq : EqualizerFx) (idx : Nat) (v : Int) : EqualizerFx :=
  if idx = 0 then { eq with volume := v }
  else { eq with bands := eq.bands.setIfInBounds (idx - 1) v }

/-- The loop over `searches`; `none` when `std::stof` throws. -/
def readArgs (str : List Char) : List (List Char) → Nat → EqualizerFx → Option EqualizerFx
  | [], _, ret => some ret
  | search :: rest, idx, ret =>
    match find search str with
    | none => readArgs str rest idx ret
    | some i =>
      match readDecimal (valueAt ':' search str i) with
      | none => none
      | some val =>
        readArgs str rest (idx + 1) (ret.store idx (truncate (val * percentToDecBase)))

def afArgsToEqualizerFx (str : List Char) : Option EqualizerFx :=
  readArgs str searches 0 createEqualizerFx

/-! ## Numbers -/

/-- A text of digits and a point that is read as the percentage `v`, whatever follows but a
digit. -/
structure Percent (v : Int) (s : List Char) : Prop where
  chars : ∀ c ∈ s, c.isDigit = true ∨ c = '.'
  read : ∀ rest : List Char, (∀ c ∈ rest.head?, c.isDigit = false) →
    ∃ val, readDecimal (s ++ rest) = some val ∧ truncate (val * percentToDecBase) = v

theorem Percent.not_mem {v : Int} {s : List Char} (h : Percent v s) {c : Char}
    (hd : c.isDigit = false) (hp : c ≠ '.') : c ∉ s := fun hc => by
  rcases h.chars c hc with h | h
  · rw [hd] at h
    cases h
  · exact hp h

/-- A percentage is a number of two digits. -/
theorem percent_eq (n : Nat) :
    (((n : Int) : ℚ) / percentToDecBase) = ((n * 10 ^ 4 : Nat) : ℚ) / 10 ^ 6 := by
  rw [percentToDecBase]
  push_cast
  ring

/-- **A percentage is read back as it was written.** -/
theorem percent_bandToStr {v : Int} (hv : 0 ≤ v) : Percent v (bandToStr v) := by
  obtain ⟨n, rfl⟩ := Int.eq_ofNat_of_zero_le hv
  have htext : bandToStr n = decimalText (((n * 10 ^ 4 : Nat) : ℚ) / 10 ^ 6) := by
    rw [bandToStr, percent_eq]
  refine ⟨fun c hc => mem_decimalText (htext ▸ hc), fun rest hrest => ?_⟩
  refine ⟨_, by rw [htext]; exact readDecimal_decimalText hrest, ?_⟩
  rw [← percent_eq, div_mul_cancel₀ _ (by norm_num [percentToDecBase])]
  exact truncate_intCast n

/-! ## Finding a slot's value -/

/-- The reader finds the key, and `v` after it. -/
def Reads (str search : List Char) (v : Int) : Prop :=
  ∃ i val, find search str = some i ∧ readDecimal (valueAt ':' search str i) = some val ∧
    truncate (val * percentToDecBase) = v

/-- The slots from `idx` on, one after the other. -/
def EqualizerFx.storeAll (eq : EqualizerFx) : Nat → List Int → EqualizerFx
  | _, [] => eq
  | idx, v :: vs => (eq.store idx v).storeAll (idx + 1) vs

/-- **Keys that are all found fill the slots from the counter on.** -/
theorem readArgs_reads {str : List Char} {ps : List (List Char × Int)}
    (h : ∀ p ∈ ps, Reads str p.1 p.2) (idx : Nat) (ret : EqualizerFx) :
    readArgs str (ps.map Prod.fst) idx ret = some (ret.storeAll idx (ps.map Prod.snd)) := by
  induction ps generalizing idx ret with
  | nil => rfl
  | cons p ps ih =>
    obtain ⟨i, val, hfind, hread, hval⟩ := h p List.mem_cons_self
    rw [List.map_cons, readArgs, hfind]
    simp only [hread, hval]
    exact ih (fun q hq => h q (List.mem_cons_of_mem _ hq)) (idx + 1) _

/-- Keys that are not found leave the slots and the counter. -/
theorem readArgs_missing {str : List Char} {keys : List (List Char)}
    (h : ∀ key ∈ keys, find key str = none) (idx : Nat) (ret : EqualizerFx) :
    readArgs str keys idx ret = some ret := by
  induction keys with
  | nil => rfl
  | cons key keys ih =>
    rw [readArgs, h key List.mem_cons_self]
    exact ih fun k hk => h k (List.mem_cons_of_mem _ hk)

theorem reads_of_after {str key text tail : List Char} {v : Int} (hkey : key ≠ [])
    (hsep : ':' ∉ key) (hv : Percent v text) (hafter : after key str = some (text ++ tail))
    (htail : ∀ c ∈ (tail.takeWhile (· ≠ ':')).head?, c.isDigit = false) : Reads str key v := by
  obtain ⟨i, hfind, hdrop⟩ := Option.map_eq_some_iff.1 hafter
  obtain ⟨val, hread, hval⟩ := hv.read _ htail
  refine ⟨i, val, hfind, ?_, hval⟩
  have hkeep : ∀ c ∈ text, decide (c ≠ ':') = true := fun c hc =>
    decide_eq_true fun h => hv.not_mem rfl (by decide) (h ▸ hc)
  rw [valueAt_eq hfind hkey hsep, hdrop, List.takeWhile_append_of_pos hkeep]
  exact hread

/-- No band's key is in an earlier one; each ends with `=`, and none has a colon in it. -/
theorem bandKeys_apart : bandKeys.Pairwise fun earlier later => ¬ later <:+: earlier := by
  decide

theorem bandKeys_ends : ∀ key ∈ bandKeys, ∃ name, key = name ++ ['='] ∧ ':' ∉ key := by
  have hall : ∀ key ∈ bandKeys, key = key.dropLast ++ ['='] ∧ ':' ∉ key := by decide
  exact fun key hk => ⟨key.dropLast, hall key hk⟩

/-! ## Reading all bands -/

/-- A band: its key, its value, and the text of the value. -/
abbrev Field := List Char × Int × List Char

def Field.text (f : Field) : List Char × List Char := (f.1, f.2.2)

/-- All bands in their order, each with a text that is read as its value. -/
structure Fields (fs : List Field) : Prop where
  keys : fs.map (·.1) = bandKeys
  percent : ∀ f ∈ fs, Percent f.2.1 f.2.2

section
variable {fs : List Field}

/-- **Every band is read at its own key**, whatever comes after the bands but a digit. -/
theorem Fields.reads (h : Fields fs) {x : List Char}
    (hx : ∀ c ∈ (x.takeWhile (· ≠ ':')).head?, c.isDigit = false) {f : Field} (hf : f ∈ fs) :
    Reads (fieldsText ':' (fs.map Field.text) ++ x) f.1 f.2.1 := by
  obtain ⟨before, rest, rfl⟩ := List.append_of_mem hf
  obtain ⟨key, v, text⟩ := f
  have hkeys := h.keys
  rw [List.map_append, List.map_cons] at hkeys
  obtain ⟨name, hname, hsep⟩ := bandKeys_ends key (hkeys ▸ by simp)
  have hbefore : ∀ g ∈ before.map Field.text, ¬ key <:+: g.1 ++ g.2 := by
    intro g hg
    obtain ⟨q, hq, rfl⟩ := List.mem_map.1 hg
    have hapart := bandKeys_apart
    rw [← hkeys, List.pairwise_append] at hapart
    have hqk := hapart.2.2 q.1 (List.mem_map_of_mem hq) key List.mem_cons_self
    rw [hname] at hqk ⊢
    exact not_infix_field hqk ((h.percent q (List.mem_append_left _ hq)).not_mem rfl (by decide))
  have hafter := after_fieldsText hsep hbefore text (rest.map Field.text) x
  rw [List.map_append, List.map_cons]
  refine reads_of_after (by simp [hname]) hsep (h.percent _ hf) hafter fun c hc => ?_
  -- the value ends at the next separator or with what comes after the bands
  cases rest with
  | nil => exact hx c hc
  | cons q rest => simp [fieldsTail] at hc

theorem Fields.volumeKey_not_infix (h : Fields fs) :
    ¬ volumeKey <:+: fieldsText ':' (fs.map Field.text) := by
  refine not_infix_of_not_mem (c := 'v') (by decide) fun hv => ?_
  have hkeys : ∀ key ∈ bandKeys, 'v' ∉ key := by decide
  rcases mem_fieldsText hv with hv | ⟨g, hg, hv⟩
  · cases hv
  · obtain ⟨q, hq, rfl⟩ := List.mem_map.1 hg
    rcases hv with hv | hv
    · exact hkeys q.1 (h.keys ▸ List.mem_map_of_mem hq) hv
    · exact (h.percent q hq).not_mem rfl (by decide) hv

/-- **The bands and then the volume are all read.** -/
theorem Fields.read_with_volume (h : Fields fs) {v : Int} {text : List Char} (hv : Percent v text)
    (ret : EqualizerFx) :
    readArgs (fieldsText ':' (fs.map Field.text) ++ ',' :: (volumeKey ++ text)) searches 0 ret =
      some (ret.storeAll 0 (v :: fs.map (·.2.1))) := by
  have hvol : Reads (fieldsText ':' (fs.map Field.text) ++ ',' :: (volumeKey ++ text))
      volumeKey v := by
    have hafter : after volumeKey
        (fieldsText ':' (fs.map Field.text) ++ ',' :: (volumeKey ++ text)) = some (text ++ []) := by
      rw [after_skip h.volumeKey_not_infix (by decide), after_self, List.append_nil]
    exact reads_of_after (by decide) (by decide) hv hafter fun c hc => by simp at hc
  have hcomma (y : List Char) :
      ∀ c ∈ ((',' :: y).takeWhile (· ≠ ':')).head?, c.isDigit = false := by
    intro c hc
    obtain rfl : ',' = c := by simpa using hc
    rfl
  have hall : ∀ p ∈ (volumeKey, v) :: fs.map fun f => (f.1, f.2.1),
      Reads (fieldsText ':' (fs.map Field.text) ++ ',' :: (volumeKey ++ text)) p.1 p.2 := by
    intro p hp
    rcases List.mem_cons.1 hp with rfl | hp
    · exact hvol
    · obtain ⟨f, hf, rfl⟩ := List.mem_map.1 hp
      exact h.reads (hcomma _) hf
  have hread := readArgs_reads hall 0 ret
  rw [List.map_cons, List.map_cons, List.map_map, List.map_map] at hread
  rw [searches, ← h.keys]
  exact hread

/-- Without the volume its key is not found, and the counter stays where it is. -/
theorem Fields.read_without_volume (h : Fields fs) (ret : EqualizerFx) :
    readArgs (fieldsText ':' (fs.map Field.text)) searches 0 ret =
      some (ret.storeAll 0 (fs.map (·.2.1))) := by
  have hall : ∀ p ∈ fs.map fun f => (f.1, f.2.1),
      Reads (fieldsText ':' (fs.map Field.text)) p.1 p.2 := by
    intro p hp
    obtain ⟨f, hf, rfl⟩ := List.mem_map.1 hp
    have hreads := h.reads (x := []) (fun c hc => by simp at hc) hf
    rwa [List.append_nil] at hreads
  have hread := readArgs_reads hall 0 ret
  rw [List.map_map, List.map_map] at hread
  rw [searches, readArgs, find_eq_none h.volumeKey_not_infix, ← h.keys]
  exact hread

end

/-- The bands of an equalizer, as it is written. -/
def EqualizerFx.fields (eq : EqualizerFx) : List Field :=
  bandKeys.zip (eq.bands.toList.map fun b => (b, bandToStr b))

section
variable {eq : EqualizerFx}

theorem length_fields (eq : EqualizerFx) :
    bandKeys.length = (eq.bands.toList.map fun b => (b, bandToStr b)).length := by
  simp [bandKeys]

theorem bandsText_eq (eq : EqualizerFx) :
    bandsText eq = fieldsText ':' (eq.fields.map Field.text) := by
  rw [bandsText, EqualizerFx.fields, List.zip_map_right, List.zip_map_right, List.map_map]
  rfl

theorem fields_values (eq : EqualizerFx) : eq.fields.map (·.2.1) = eq.bands.toList := by
  have hsnd := congrArg (List.map Prod.fst) (List.map_snd_zip (length_fields eq).ge)
  rw [List.map_map, List.map_map] at hsnd
  exact hsnd.trans (List.map_id _)

theorem fields_ok (hpos : ∀ b ∈ eq.bands.toList, 0 ≤ b) : Fields eq.fields where
  keys := List.map_fst_zip (length_fields eq).le
  percent f hf := by
    obtain ⟨b, hb, hbf⟩ := List.mem_map.1 (List.of_mem_zip hf).2
    rw [← hbf]
    exact percent_bandToStr (hpos b hb)

end

/-! ## Filling the slots -/

namespace EqualizerFx

/-- From slot `n + 1` on the bands from `n` on are filled. -/
theorem bands_storeAll (eq : EqualizerFx) (n : Nat) (vs : List Int) {i : Nat} (hi : i < 18) :
    (eq.storeAll (n + 1) vs).bands[i] =
      if n ≤ i then (vs[i - n]?).getD eq.bands[i] else eq.bands[i] := by
  induction vs generalizing n eq with
  | nil => simp [storeAll]
  | cons v vs ih =>
    rw [storeAll, ih]
    have hstore : (eq.store (n + 1) v).bands = eq.bands.setIfInBounds n v := rfl
    simp only [hstore, Vector.getElem_setIfInBounds]
    by_cases hn : n = i
    · subst hn
      simp
    · by_cases hlt : n + 1 ≤ i
      · have hle : n ≤ i := Nat.le_of_succ_le hlt
        have hsub : i - n = i - (n + 1) + 1 := by omega
        simp [hlt, hle, hn, hsub]
      · have hle : ¬ n ≤ i := by omega
        simp [hlt, hle, hn]

theorem volume_storeAll (eq : EqualizerFx) (n : Nat) (vs : List Int) :
    (eq.storeAll (n + 1) vs).volume = eq.volume := by
  induction vs generalizing n eq with
  | nil => rfl
  | cons v vs ih => exact ih _ _

/-- The volume and all bands: the equalizer itself. -/
theorem storeAll_all (ret eq : EqualizerFx) :
    ret.storeAll 0 (eq.volume :: eq.bands.toList) = eq := by
  have hvol := volume_storeAll (ret.store 0 eq.volume) 0 eq.bands.toList
  have hbands := fun i hi => bands_storeAll (ret.store 0 eq.volume) 0 eq.bands.toList (i := i) hi
  rw [storeAll]
  cases eq with
  | mk volume bands =>
    refine congrArg₂ EqualizerFx.mk hvol (Vector.ext fun i hi => ?_)
    rw [hbands i hi]
    simp [hi]

/-- Every band one slot early: the first in the place of the volume, the last slot unfilled. -/
def shifted (eq : EqualizerFx) : EqualizerFx where
  volume := eq.bands[0]
  bands := Vector.ofFn fun i => (eq.bands[i.val + 1]?).getD 50

theorem storeAll_bands (eq : EqualizerFx) :
    createEqualizerFx.storeAll 0 eq.bands.toList = eq.shifted := by
  have hlen : eq.bands.toList.length = 18 := by simp
  obtain ⟨b, bs, hbs⟩ := List.exists_cons_of_length_eq_add_one (n := 17) hlen
  have hget (i : Nat) : (b :: bs)[i]? = eq.bands[i]? := by
    rw [← hbs]
    simp
  have hb : b = eq.bands[0] := by simpa using hget 0
  rw [hbs, storeAll]
  refine congrArg₂ EqualizerFx.mk ?_ (Vector.ext fun i hi => ?_)
  · rw [zero_add, ← hb]
    exact volume_storeAll _ 0 bs
  · have hi' := hget (i + 1)
    rw [List.getElem?_cons_succ] at hi'
    rw [zero_add, bands_storeAll _ 0 bs hi]
    simp [hi', createEqualizerFx, store]

end EqualizerFx

/-! ## Round trips -/

/-- Every value is a percentage from 1 to 200. -/
structure EqualizerFx.InRange (eq : EqualizerFx) : Prop where
  volume : 1 ≤ eq.volume ∧ eq.volume ≤ 200
  bands : ∀ b ∈ eq.bands.toList, 1 ≤ b ∧ b ≤ 200

/-- **What is written with the volume is read back.** -/
theorem read_with_volume {eq : EqualizerFx} (hvol : 0 ≤ eq.volume)
    (hpos : ∀ b ∈ eq.bands.toList, 0 ≤ b) :
    afArgsToEqualizerFx (equalizerFxToAfArgs eq true) = some eq := by
  have hread := (fields_ok hpos).read_with_volume (percent_bandToStr hvol) createEqualizerFx
  rw [fields_values, EqualizerFx.storeAll_all, ← bandsText_eq] at hread
  exact hread

/-- **What is written without it comes back one slot early.** -/
theorem read_without_volume {eq : EqualizerFx} (hpos : ∀ b ∈ eq.bands.toList, 0 ≤ b) :
    afArgsToEqualizerFx (equalizerFxToAfArgs eq false) = some eq.shifted := by
  have hread := (fields_ok hpos).read_without_volume createEqualizerFx
  rw [fields_values, EqualizerFx.storeAll_bands, ← bandsText_eq] at hread
  rw [equalizerFxToAfArgs, volumeText, if_neg Bool.false_ne_true, List.append_nil]
  exact hread

/-- The bands come back, and the volume where it was written. -/
def RoundTrip (eq : EqualizerFx) (withVolume : Bool) : Prop :=
  afArgsToEqualizerFx (equalizerFxToAfArgs eq withVolume) =
    some { eq with volume := if withVolume then eq.volume else 100 }

/-- Shifting never gives the same bands and the volume 100. -/
theorem shifted_ne (eq : EqualizerFx) : eq.shifted ≠ { eq with volume := 100 } := by
  intro h
  have hvol : eq.bands[0] = 100 := congrArg EqualizerFx.volume h
  have hstep (i : Nat) (hi : i < 18) : (eq.bands[i + 1]?).getD 50 = eq.bands[i] := by
    have hband := congrArg (fun e : EqualizerFx => e.bands[i]) h
    simpa [EqualizerFx.shifted] using hband
  -- from the last band down to the first, every band is 50
  have hall (k : Nat) (hk : k < 18) : eq.bands[17 - k] = 50 := by
    induction k with
    | zero => simpa using (hstep 17 (by decide)).symm
    | succ k ih =>
      have hnext := hstep (17 - (k + 1)) (by omega)
      have hidx : 17 - (k + 1) + 1 = 17 - k := by omega
      rw [hidx, Vector.getElem?_eq_getElem (by omega), Option.getD_some, ih (by omega)] at hnext
      exact hnext.symm
  have hfirst := hall 17 (by decide)
  simp only [Nat.sub_self] at hfirst
  omega

/-- **The equalizer survives being written and read exactly when the volume is written too.** -/
theorem round_trip_iff {eq : EqualizerFx} (h : eq.InRange) (withVolume : Bool) :
    RoundTrip eq withVolume ↔ withVolume = true := by
  have hpos : ∀ b ∈ eq.bands.toList, 0 ≤ b := fun b hb => by
    have := (h.bands b hb).1
    omega
  cases withVolume with
  | true =>
    have hvol : 0 ≤ eq.volume := by
      have := h.volume.1
      omega
    simp [RoundTrip, read_with_volume hvol hpos]
  | false =>
    simp only [RoundTrip, read_without_volume hpos, Option.some.injEq, Bool.false_eq_true, if_false,
      iff_false]
    exact shifted_ne eq

/-- `band-1: 150`, and the other bands at their default. -/
def firstBand : EqualizerFx := { volume := 100, bands := createEqualizerFx.bands.set 0 150 }

theorem firstBand_inRange : firstBand.InRange := ⟨by decide, by decide⟩

theorem round_trip_iff_firstBand : RoundTrip firstBand true :=
  (round_trip_iff firstBand_inRange true).2 rfl

/-- Written without the volume, the first band comes back as the volume, and as 50. -/
theorem not_round_trip_firstBand : ¬ ∀ (eq : EqualizerFx) (withVolume : Bool), eq.InRange →
    RoundTrip eq withVolume := by
  intro h
  have hread := h firstBand false firstBand_inRange
  rw [RoundTrip, read_without_volume (by decide), Option.some.injEq] at hread
  have hband : firstBand.shifted.bands[0] = firstBand.bands[0] :=
    congrArg (fun e : EqualizerFx => e.bands[0]) hread
  revert hband
  decide

end Musicat.Filters
