import Musicat.Filters.FxStates
import Musicat.Lib.Run

/-!
# The effects that the commands can set

The filter commands and the volume command change the effects of a player, each
within its bounds. The equalizer's text is then empty, the text that `balance`
writes, or what `equalizer_fx_t_to_af_args` writes. Only in the last case does
saving and loading give the effects back: an empty text is loaded as 18 bands
of 50, an effect that is active, and the text of `balance` as the same bands
written differently.
-/

namespace Musicat.Filters

open Lib

/-- A command that reaches the player; an option that the user left out is `none`. -/
inductive FxCommand where
  | equalizerSet (volume : Option Int) (bands : Vector (Option Int) 18)
  | equalizerBalance
  | equalizerReset
  /-- `equalizer_presets load` of a preset that `save` wrote. -/
  | loadPreset (saved : EqualizerFx)
  | tempo (speed : Option ℚ)
  | pitch (percentage : Option Int)
  | resample (rate : Option Int)
  | vibratoSet (frequency : Option ℚ) (intensity : Option Int)
  | vibratoReset
  | tremoloSet (frequency : Option ℚ) (intensity : Option Int)
  | tremoloReset
  | earwax
  | volume (percentage : Int)

/-- The text of `balance`. -/
def balancedText : List Char :=
  ("1b=0.5:2b=0.5:3b=0.5:4b=0.5:5b=0.5:6b=0.5:7b=0.5:8b=" ++
    "0.5:9b=0.5:10b=0.5:11b=0.5:12b=0.5:13b=0.5:14b=0.5:15b=0.5:16b=0.5:" ++
    "17b=0.5:18b=0.5").toList

def clamp {α : Type} [LT α] [DecidableLT α] (lo hi v : α) : α :=
  let v := if v < lo then lo else v
  if hi < v then hi else v

/-- An option of the equalizer is an integer from 1 to 200, or left out. -/
def optionInRange (o : Option Int) : Prop := ∀ v ∈ o, 1 ≤ v ∧ v ≤ 200

instance (o : Option Int) : Decidable (optionInRange o) :=
  inferInstanceAs (Decidable (∀ v ∈ o, _))

/-- The bands of an equalizer that the commands can set. -/
def BandsInRange (bands : Vector Int 18) : Prop := ∀ b ∈ bands.toList, 1 ≤ b ∧ b ≤ 200

instance (bands : Vector Int 18) : Decidable (BandsInRange bands) :=
  inferInstanceAs (Decidable (∀ b ∈ bands.toList, _))

def equalizerSet (volume : Option Int) (bands : Vector (Option Int) 18) (s : FxStates) :
    Option FxStates :=
  (if s.equalizer.isEmpty then some createEqualizerFx else afArgsToEqualizerFx s.equalizer).map
    fun arg =>
      let arg := { arg with
        volume := volume.getD (-1)
        bands := Vector.zipWith (fun o b => o.getD b) bands arg.bands }
      { s with
        volume := if arg.volume = -1 then s.volume else arg.volume
        equalizer := equalizerFxToAfArgs arg false }

def loadPreset (val : List Char) (s : FxStates) : Option FxStates :=
  if s.equalizer = val then some s
  else
    (afArgsToEqualizerFx val).map fun arg =>
      { s with volume := arg.volume, equalizer := equalizerFxToAfArgs arg false }

/-- `modulation::set` on the frequency and the depth that the player has. -/
def modulationSet (frequency : Option ℚ) (intensity : Option Int) (f₀ : ℚ) (d₀ : Int) : ℚ × Int :=
  let f := frequency.getD (-1)
  let d := intensity.getD (-1)
  let f := if f = -1 then f₀ else f
  let d := if d = -1 then d₀ else d
  (if f = -1 ∨ f = f₀ then f₀ else clamp (1 / 10) 20000 f,
    if d = -1 ∨ d = d₀ then d₀ else clamp 0 100 d)

def fxStep (s : FxStates) : FxCommand → Option FxStates
  | .equalizerSet volume bands =>
    if optionInRange volume ∧ ∀ o ∈ bands.toList, optionInRange o then equalizerSet volume bands s
    else none
  | .equalizerBalance => some { s with volume := 100, equalizer := balancedText }
  | .equalizerReset => some { s with equalizer := [] }
  | .loadPreset saved =>
    if (1 ≤ saved.volume ∧ saved.volume ≤ 500) ∧ BandsInRange saved.bands then
      loadPreset (equalizerFxToAfArgs saved true) s
    else none
  | .tempo speed =>
    match speed with
    | none => some s
    | some rate =>
      if rate = s.tempo then some s else some { s with tempo := clamp (1 / 2) 4 rate }
  | .pitch percentage =>
    match percentage with
    | none => some s
    | some rate =>
      if rate = s.pitch then some s else some { s with pitch := clamp (-400) 100 rate }
  | .resample rate =>
    let rate := rate.getD 0
    if rate = 0 ∨ rate = s.samplingRate then some s
    else
      let rate := clamp 6000 128000 rate
      some { s with samplingRate := if rate = 48000 then -1 else rate }
  | .vibratoSet f d =>
    let (f, d) := modulationSet f d s.vibratoF s.vibratoD
    some { s with vibratoF := f, vibratoD := d }
  | .vibratoReset => some { s with vibratoF := -1, vibratoD := -1 }
  | .tremoloSet f d =>
    let (f, d) := modulationSet f d s.tremoloF s.tremoloD
    some { s with tremoloF := f, tremoloD := d }
  | .tremoloReset => some { s with tremoloF := -1, tremoloD := -1 }
  | .earwax => some { s with earwax := !s.earwax }
  | .volume percentage =>
    if percentage < 1 ∨ 500 < percentage then some s else some { s with volume := percentage }

/-! ## The equalizer's text -/

/-- What the equalizer's text can be. -/
inductive EqText : List Char → Prop where
  | off : EqText []
  | balanced : EqText balancedText
  | bands (eq : EqualizerFx) (inRange : BandsInRange eq.bands) : EqText (bandsText eq)

theorem BandsInRange.nonneg {bands : Vector Int 18} (h : BandsInRange bands) :
    ∀ b ∈ bands.toList, 0 ≤ b := fun b hb => by
  have := (h b hb).1
  omega

/-- The bands of the text of `balance`. -/
def balancedFields : List Field := bandKeys.map fun key => (key, 50, "0.5".toList)

theorem percent_half : Percent 50 "0.5".toList where
  chars := by simp
  read rest hrest := by
    have hread : readDecimal (['0'] ++ '.' :: ['5'] ++ rest) = _ :=
      readDecimal_eq (by simp) (by simp) (by simp) hrest
    refine ⟨_, hread, ?_⟩
    have hvalue : (((Nat.ofDigitChars 10 (['0'] ++ ['5']) 0 : Nat) : ℚ) / 10 ^ ['5'].length) *
        percentToDecBase = ((50 : Int) : ℚ) := by
      rw [show Nat.ofDigitChars 10 (['0'] ++ ['5']) 0 = 5 from rfl, percentToDecBase]
      norm_num
    rw [hvalue, truncate_intCast]

theorem balancedFields_ok : Fields balancedFields where
  keys := by decide
  percent f hf := by
    obtain ⟨key, -, rfl⟩ := List.mem_map.1 hf
    exact percent_half

theorem balancedText_eq : balancedText = fieldsText ':' (balancedFields.map Field.text) := by
  decide +kernel

/-- The volume, and 18 bands of 50. -/
theorem storeAll_fifty (v : Int) :
    createEqualizerFx.storeAll 0 (v :: balancedFields.map (·.2.1)) =
      { createEqualizerFx with volume := v } :=
  EqualizerFx.storeAll_all createEqualizerFx { createEqualizerFx with volume := v }

theorem read_balanced :
    afArgsToEqualizerFx balancedText = some { createEqualizerFx with volume := 50 } := by
  rw [afArgsToEqualizerFx, balancedText_eq, balancedFields_ok.read_without_volume]
  exact congrArg some (EqualizerFx.storeAll_bands createEqualizerFx)

section
variable {v : Int} (hv : 0 ≤ v)
include hv

/-- **What is read of a saved text**: the volume, and the bands if the text has any. -/
theorem read_saved_bands {eq : EqualizerFx} (h : BandsInRange eq.bands) :
    afArgsToEqualizerFx (bandsText eq ++ ',' :: (volumeKey ++ volToStr v)) =
      some { eq with volume := v } :=
  @read_with_volume { eq with volume := v } hv h.nonneg

theorem read_saved_balanced :
    afArgsToEqualizerFx (balancedText ++ ',' :: (volumeKey ++ volToStr v)) =
      some { createEqualizerFx with volume := v } := by
  have hread := balancedFields_ok.read_with_volume (percent_bandToStr hv) createEqualizerFx
  rw [storeAll_fifty, ← balancedText_eq] at hread
  exact hread

theorem read_saved_off :
    afArgsToEqualizerFx ([] ++ ',' :: (volumeKey ++ volToStr v)) =
      some { createEqualizerFx with volume := v } := by
  have hpercent := percent_bandToStr hv
  have hvol : Reads ([] ++ ',' :: (volumeKey ++ volToStr v)) volumeKey v := by
    have hafter : after volumeKey ([] ++ ',' :: (volumeKey ++ volToStr v)) =
        some (volToStr v ++ []) := by
      rw [after_skip (by decide) (by decide), after_self, List.append_nil]
    exact reads_of_after (by decide) (by decide) hpercent hafter fun c hc => by simp at hc
  have hmissing : ∀ key ∈ bandKeys, find key ([] ++ ',' :: (volumeKey ++ volToStr v)) = none := by
    intro key hkey
    have hb : ∀ key ∈ bandKeys, 'b' ∈ key := by decide
    refine find_eq_none (not_infix_of_not_mem (hb key hkey) fun h => ?_)
    rw [List.nil_append, List.mem_cons, List.mem_append] at h
    rcases h with h | h | h
    · cases h
    · revert h
      decide
    · exact hpercent.not_mem rfl (by decide) h
  obtain ⟨i, val, hfind, hread, hval⟩ := hvol
  rw [afArgsToEqualizerFx, searches, readArgs, hfind]
  simp only [hread, hval]
  exact readArgs_missing hmissing 1 _

end

/-! ## Every sequence of commands -/

/-- Every value within the bounds of its command. -/
structure FxInv (s : FxStates) : Prop where
  volume : 1 ≤ s.volume ∧ s.volume ≤ 500
  pitch : -400 ≤ s.pitch ∧ s.pitch ≤ 100
  samplingRate : -1 ≤ s.samplingRate ∧ s.samplingRate ≤ 128000
  vibratoD : -1 ≤ s.vibratoD ∧ s.vibratoD ≤ 100
  tremoloD : -1 ≤ s.tremoloD ∧ s.tremoloD ≤ 100
  equalizer : EqText s.equalizer

theorem clamp_bounds {lo hi : Int} (h : lo ≤ hi) (v : Int) :
    lo ≤ clamp lo hi v ∧ clamp lo hi v ≤ hi := by
  simp only [clamp]
  split <;> split <;> omega

theorem modulationSet_depth {d₀ : Int} (h : -1 ≤ d₀ ∧ d₀ ≤ 100) (f : Option ℚ) (d : Option Int)
    (f₀ : ℚ) : -1 ≤ (modulationSet f d f₀ d₀).2 ∧ (modulationSet f d f₀ d₀).2 ≤ 100 := by
  have hset (v : Int) : -1 ≤ (if v = -1 ∨ v = d₀ then d₀ else clamp 0 100 v) ∧
      (if v = -1 ∨ v = d₀ then d₀ else clamp 0 100 v) ≤ 100 := by
    have hclamp := clamp_bounds (show (0 : Int) ≤ 100 by decide) v
    split <;> omega
  exact hset _

theorem createEqualizerFx_bands : BandsInRange createEqualizerFx.bands := by
  decide

/-- A band that is in range stays so when it moves one slot. -/
theorem shifted_bands {eq : EqualizerFx} (h : BandsInRange eq.bands) :
    BandsInRange eq.shifted.bands := by
  intro b hb
  obtain ⟨i, rfl⟩ : ∃ i : Fin 18, (eq.bands[i.val + 1]?).getD 50 = b := by
    simpa [EqualizerFx.shifted, Vector.mem_toList_iff, Vector.mem_ofFn] using hb
  by_cases hi : i.val + 1 < 18
  · rw [Vector.getElem?_eq_getElem hi, Option.getD_some]
    exact h _ (Vector.mem_toList_iff.2 (Vector.getElem_mem hi))
  · rw [Vector.getElem?_eq_none (by omega), Option.getD_none]
    decide

/-- **What the equalizer's text is read as**, when it is not empty: bands in range. -/
theorem EqText.read {text : List Char} (h : EqText text) (hne : text ≠ []) :
    ∃ arg, afArgsToEqualizerFx text = some arg ∧ BandsInRange arg.bands := by
  cases h with
  | off => exact absurd rfl hne
  | balanced => exact ⟨_, read_balanced, createEqualizerFx_bands⟩
  | bands eq inRange =>
    have hread := read_without_volume inRange.nonneg
    rw [equalizerFxToAfArgs, volumeText, if_neg Bool.false_ne_true, List.append_nil] at hread
    exact ⟨_, hread, shifted_bands inRange⟩

theorem eqText_written {eq : EqualizerFx} (h : BandsInRange eq.bands) :
    EqText (equalizerFxToAfArgs eq false) := by
  rw [equalizerFxToAfArgs, volumeText, if_neg Bool.false_ne_true, List.append_nil]
  exact .bands eq h

/-- Options that are in range replace bands that are. -/
theorem options_bands {options : Vector (Option Int) 18} {bands : Vector Int 18}
    (ho : ∀ o ∈ options.toList, optionInRange o) (hb : BandsInRange bands) :
    BandsInRange (Vector.zipWith (fun o b => o.getD b) options bands) := by
  intro b hmem
  obtain ⟨i, hi, rfl⟩ := Vector.getElem_of_mem (Vector.mem_toList_iff.1 hmem)
  rw [Vector.getElem_zipWith]
  have hopt := ho options[i] (Vector.mem_toList_iff.2 (Vector.getElem_mem hi))
  have hband := hb bands[i] (Vector.mem_toList_iff.2 (Vector.getElem_mem hi))
  cases hoi : options[i] with
  | none => exact hband
  | some v => exact hopt v hoi

section
variable {s t : FxStates}

theorem equalizerSet_inv (hi : FxInv s) {volume : Option Int} {bands : Vector (Option Int) 18}
    (hv : optionInRange volume) (hb : ∀ o ∈ bands.toList, optionInRange o)
    (h : equalizerSet volume bands s = some t) : FxInv t := by
  rw [equalizerSet, Option.map_eq_some_iff] at h
  obtain ⟨arg, harg, rfl⟩ := h
  have hbands : BandsInRange arg.bands := by
    split at harg
    · cases harg
      exact createEqualizerFx_bands
    · rename_i hne
      obtain ⟨arg', harg', hbands⟩ := hi.equalizer.read (by simpa using hne)
      rw [harg, Option.some.injEq] at harg'
      exact harg' ▸ hbands
  refine ⟨?_, hi.pitch, hi.samplingRate, hi.vibratoD, hi.tremoloD, ?_⟩
  · simp only
    cases volume with
    | none => exact hi.volume
    | some v =>
      have hv := hv v rfl
      simp only [Option.getD_some]
      split
      · exact hi.volume
      · omega
  · exact eqText_written (options_bands hb hbands)

/-- **Every command keeps the values in their bounds.** -/
theorem fxInv_step {c : FxCommand} (hi : FxInv s) (h : fxStep s c = some t) : FxInv t := by
  have hreset : (-1 : Int) ≤ -1 ∧ (-1 : Int) ≤ 100 := by decide
  cases c with
  | equalizerSet volume bands =>
    simp only [fxStep] at h
    split at h
    · rename_i hopts
      exact equalizerSet_inv hi hopts.1 hopts.2 h
    · cases h
  | equalizerBalance =>
    simp only [fxStep, Option.some.injEq] at h
    subst h
    have hvol : (1 : Int) ≤ 100 ∧ (100 : Int) ≤ 500 := by omega
    refine ⟨hvol, hi.pitch, hi.samplingRate, hi.vibratoD, hi.tremoloD, ?_⟩
    simp only
    exact .balanced
  | equalizerReset =>
    cases h
    exact ⟨hi.volume, hi.pitch, hi.samplingRate, hi.vibratoD, hi.tremoloD, .off⟩
  | loadPreset saved =>
    simp only [fxStep] at h
    split at h
    · rename_i hsaved
      rw [loadPreset] at h
      split at h
      · cases h
        exact hi
      · rw [read_with_volume (by omega) hsaved.2.nonneg] at h
        cases h
        exact ⟨hsaved.1, hi.pitch, hi.samplingRate, hi.vibratoD, hi.tremoloD,
          eqText_written hsaved.2⟩
    · cases h
  | tempo speed =>
    simp only [fxStep] at h
    split at h
    · cases h
      exact hi
    · split at h <;> cases h
      · exact hi
      · exact ⟨hi.volume, hi.pitch, hi.samplingRate, hi.vibratoD, hi.tremoloD, hi.equalizer⟩
  | pitch percentage =>
    simp only [fxStep] at h
    split at h
    · cases h
      exact hi
    · split at h <;> cases h
      · exact hi
      · exact ⟨hi.volume, clamp_bounds (by decide) _, hi.samplingRate, hi.vibratoD, hi.tremoloD,
          hi.equalizer⟩
  | resample rate =>
    simp only [fxStep] at h
    split at h <;> cases h
    · exact hi
    · have hclamp := clamp_bounds (show (6000 : Int) ≤ 128000 by decide) (rate.getD 0)
      refine ⟨hi.volume, hi.pitch, ?_, hi.vibratoD, hi.tremoloD, hi.equalizer⟩
      simp only
      split <;> omega
  | vibratoSet f d =>
    cases h
    exact ⟨hi.volume, hi.pitch, hi.samplingRate, modulationSet_depth hi.vibratoD f d s.vibratoF,
      hi.tremoloD, hi.equalizer⟩
  | vibratoReset =>
    cases h
    exact ⟨hi.volume, hi.pitch, hi.samplingRate, hreset, hi.tremoloD, hi.equalizer⟩
  | tremoloSet f d =>
    cases h
    exact ⟨hi.volume, hi.pitch, hi.samplingRate, hi.vibratoD,
      modulationSet_depth hi.tremoloD f d s.tremoloF, hi.equalizer⟩
  | tremoloReset =>
    cases h
    exact ⟨hi.volume, hi.pitch, hi.samplingRate, hi.vibratoD, hreset, hi.equalizer⟩
  | earwax =>
    cases h
    exact ⟨hi.volume, hi.pitch, hi.samplingRate, hi.vibratoD, hi.tremoloD, hi.equalizer⟩
  | volume percentage =>
    simp only [fxStep] at h
    split at h <;> cases h
    · exact hi
    · rename_i hrange
      refine ⟨?_, hi.pitch, hi.samplingRate, hi.vibratoD, hi.tremoloD, hi.equalizer⟩
      simp only
      omega

theorem fxInv_init : FxInv {} :=
  ⟨by decide, by decide, by decide, by decide, by decide, .off⟩

theorem fxInv_run {l : List FxCommand} (h : run fxStep {} l = some s) : FxInv s :=
  run_invariant (fun _ _ _ => fxInv_step) fxInv_init h

theorem FxInv.ints (hi : FxInv s) : s.Ints where
  pitch := toInt32_eq (by have := hi.pitch; omega)
  volume := toInt32_eq (by have := hi.volume; omega)
  samplingRate := toInt32_eq (by have := hi.samplingRate; omega)
  vibratoD := toInt32_eq (by have := hi.vibratoD; omega)
  tremoloD := toInt32_eq (by have := hi.tremoloD; omega)

/-! ## What survives being saved -/

/-- The bands that the equalizer's text stands for, if it is on. -/
def eqBands (s : FxStates) : Option (Vector Int 18) :=
  if s.fxIsEqualizerActive then (afArgsToEqualizerFx s.equalizerText).map (·.bands) else none

/-- The same effects: the values, the bands, what is active and the description. -/
structure SameFx (s t : FxStates) : Prop where
  tempo : t.tempo = s.tempo
  pitch : t.pitch = s.pitch
  volume : t.volume = s.volume
  samplingRate : t.samplingRate = s.samplingRate
  vibrato : t.vibratoF = s.vibratoF ∧ t.vibratoD = s.vibratoD
  tremolo : t.tremoloF = s.tremoloF ∧ t.tremoloD = s.tremoloD
  earwax : t.earwax = s.earwax
  bands : eqBands t = eqBands s
  active : t.fxGetActiveCount = s.fxGetActiveCount
  descr : t.getFilterDescr = s.getFilterDescr

theorem sameFx_refl (s : FxStates) : SameFx s s :=
  ⟨rfl, rfl, rfl, rfl, ⟨rfl, rfl⟩, ⟨rfl, rfl⟩, rfl, rfl, rfl, rfl⟩

/-- With the same other effects, and an equalizer in both, the descriptions differ where the
equalizer's texts do. -/
theorem descr_equalizer {text : List Char} (hs : s.equalizer ≠ []) (ht : text ≠ [])
    (h : { s with equalizer := text }.getFilterDescr = s.getFilterDescr) : text = s.equalizer := by
  have hs' : s.fxIsEqualizerActive = true := by simpa [FxStates.fxIsEqualizerActive] using hs
  have ht' : { s with equalizer := text }.fxIsEqualizerActive = true := by
    simpa [FxStates.fxIsEqualizerActive] using ht
  simp only [FxStates.getFilterDescr, hs', ht', if_true] at h
  have hbefore : { s with equalizer := text }.descrBefore = s.descrBefore := rfl
  have hafter : { s with equalizer := text }.descrAfter = s.descrAfter := rfl
  rw [hbefore, hafter] at h
  exact List.append_cancel_left (List.append_cancel_right (List.append_cancel_left h))

/-- An equalizer that was off is counted once it is on. -/
theorem active_equalizer {text : List Char} (hs : s.equalizer = []) (ht : text ≠ []) :
    { s with equalizer := text }.fxGetActiveCount = s.fxGetActiveCount + 1 := by
  have hs' : s.fxIsEqualizerActive = false := by simp [FxStates.fxIsEqualizerActive, hs]
  have ht' : { s with equalizer := text }.fxIsEqualizerActive = true := by
    simpa [FxStates.fxIsEqualizerActive] using ht
  have hother : { s with equalizer := text }.otherActive = s.otherActive := rfl
  simp [FxStates.fxGetActiveCount, hs', ht', hother]

/-- The first band, as it is written. -/
theorem takeWhile_bandsText {eq : EqualizerFx} (h : BandsInRange eq.bands) :
    ∃ b, (bandsText eq).takeWhile (· ≠ ':') = "1b=".toList ++ bandToStr b := by
  have hlen : eq.bands.toList.length = 18 := by simp
  obtain ⟨b, bs, hbs⟩ := List.exists_cons_of_length_eq_add_one (n := 17) hlen
  obtain ⟨b', bs', hbs'⟩ := List.exists_cons_of_length_eq_add_one (n := 16)
    (show bs.length = 17 by simpa [hbs] using hlen)
  have hpercent := percent_bandToStr (h.nonneg b (by simp [hbs]))
  have hkeep : ∀ c ∈ "1b=".toList ++ bandToStr b, decide (c ≠ ':') = true := by
    intro c hc
    refine decide_eq_true fun hcolon => ?_
    subst hcolon
    rcases List.mem_append.1 hc with hc | hc
    · revert hc
      decide
    · exact hpercent.not_mem rfl (by decide) hc
  have htext : ∃ rest, bandsText eq = "1b=".toList ++ bandToStr b ++ ':' :: rest :=
    ⟨_, by rw [bandsText, hbs, hbs']; rfl⟩
  obtain ⟨rest, hrest⟩ := htext
  refine ⟨b, ?_⟩
  rw [hrest, List.takeWhile_append_of_pos hkeep]
  simp

theorem bandsText_ne {eq : EqualizerFx} (h : BandsInRange eq.bands) : bandsText eq ≠ [] := by
  intro hnil
  obtain ⟨b, htake⟩ := takeWhile_bandsText h
  rw [hnil] at htake
  cases htake

/-- What is written has six digits after each point. -/
theorem bandsText_ne_balanced {eq : EqualizerFx} (h : BandsInRange eq.bands) :
    bandsText eq ≠ balancedText := by
  intro hbalanced
  obtain ⟨b, htake⟩ := takeWhile_bandsText h
  rw [hbalanced] at htake
  have hlen := congrArg List.length htake
  have hshort : (balancedText.takeWhile (· ≠ ':')).length = 6 := by decide +kernel
  have hsix (n : Nat) : (sixDigits n).length = 6 := rfl
  rw [hshort, bandToStr, decimalText] at hlen
  simp only [List.length_append, List.length_cons, hsix] at hlen
  have hkey : "1b=".toList.length = 3 := rfl
  omega

/-- **What loading gives back**: everything, the equalizer written anew. -/
theorem load_run (hi : FxInv s) :
    ∃ text, loadFxStates {} (fxStatesToJson s) = some { s with equalizer := text } ∧ text ≠ [] ∧
      (text = s.equalizer ↔ s.equalizer ≠ [] ∧ s.equalizer ≠ balancedText) := by
  have hvol : 0 ≤ s.volume := by
    have := hi.volume
    omega
  have hload (bands : Vector Int 18)
      (hread : afArgsToEqualizerFx s.equalizerText = some { volume := s.volume, bands }) :
      loadFxStates {} (fxStatesToJson s) =
        some { s with equalizer := bandsText { volume := s.volume, bands } } := by
    rw [load_saved hi.ints, hread, Option.map_some, hi.ints.volume]
  have heq := hi.equalizer
  generalize htext : s.equalizer = text at heq
  rw [FxStates.equalizerText, htext] at hload
  cases heq with
  | off =>
    refine ⟨_, hload _ (read_saved_off hvol), bandsText_ne createEqualizerFx_bands, ?_⟩
    exact ⟨fun h => absurd h (bandsText_ne createEqualizerFx_bands), fun h => absurd rfl h.1⟩
  | balanced =>
    refine ⟨_, hload _ (read_saved_balanced hvol), bandsText_ne createEqualizerFx_bands, ?_⟩
    have hbands := bandsText_ne_balanced createEqualizerFx_bands
    exact ⟨fun h => absurd h hbands, fun h => absurd rfl h.2⟩
  | bands eq inRange =>
    refine ⟨_, hload eq.bands (read_saved_bands hvol inRange), bandsText_ne inRange, ?_⟩
    exact iff_of_true rfl ⟨bandsText_ne inRange, bandsText_ne_balanced inRange⟩

/-- **Effects that the commands set survive being saved exactly when the equalizer is on and was
not written by `balance`**: loading them into a fresh player gives back every value, and an
equalizer that is on; the same bands, active effects and description only then. -/
theorem fx_states_survive {l : List FxCommand} (h : run fxStep {} l = some s) :
    ∃ text, loadFxStates {} (fxStatesToJson s) = some { s with equalizer := text } ∧ text ≠ [] ∧
      (SameFx s { s with equalizer := text } ↔ s.equalizer ≠ [] ∧ s.equalizer ≠ balancedText) := by
  obtain ⟨text, hload, hne, htext⟩ := load_run (fxInv_run h)
  refine ⟨text, hload, hne, ?_⟩
  rw [← htext]
  constructor
  · intro hsame
    by_cases hs : s.equalizer = []
    · have hcount := active_equalizer hs hne
      have hactive := hsame.active
      omega
    · exact descr_equalizer hs hne hsame.descr
  · rintro rfl
    exact sameFx_refl s

/-- The volume at 150 and every band at 120, and earwax on. -/
def setAndEarwax : List FxCommand :=
  [.equalizerSet (some 150) (Vector.replicate 18 (some 120)), .earwax]

def setEqualizerFx : EqualizerFx := { volume := 150, bands := Vector.replicate 18 120 }

theorem fx_states_survive_set :
    ∃ s text, run fxStep {} setAndEarwax = some s ∧
      loadFxStates {} (fxStatesToJson s) = some { s with equalizer := text } ∧
      SameFx s { s with equalizer := text } := by
  have hrun : run fxStep {} setAndEarwax = some
      { volume := 150, equalizer := equalizerFxToAfArgs setEqualizerFx false, earwax := true } := by
    have hset : fxStep {} (.equalizerSet (some 150) (Vector.replicate 18 (some 120))) =
        some { volume := 150, equalizer := equalizerFxToAfArgs setEqualizerFx false } := by
      have hbands : Vector.zipWith (fun (o : Option Int) b => o.getD b)
          (Vector.replicate 18 (some 120)) createEqualizerFx.bands = setEqualizerFx.bands :=
        Vector.ext fun i hi => by simp [createEqualizerFx, setEqualizerFx]
      have hempty : List.isEmpty ({} : FxStates).equalizer = true := rfl
      have hvolume : (150 : Int) ≠ -1 := by decide
      rw [fxStep, if_pos (by decide), equalizerSet, if_pos hempty, Option.map_some]
      simp only [Option.getD_some, hbands, if_neg hvolume]
      rfl
    exact (run_cons hset _).trans rfl
  have hbands : BandsInRange setEqualizerFx.bands := by decide
  have htext : equalizerFxToAfArgs setEqualizerFx false = bandsText setEqualizerFx :=
    List.append_nil _
  obtain ⟨text, hload, -, hsame⟩ := fx_states_survive hrun
  refine ⟨_, text, hrun, hload, hsame.2 ⟨?_, ?_⟩⟩
  · exact htext ▸ bandsText_ne hbands
  · exact htext ▸ bandsText_ne_balanced hbands

/-- A fresh player's effects, saved and loaded: an equalizer has come on. -/
theorem fresh_effects_change : ¬ ∀ (l : List FxCommand) (s : FxStates),
    run fxStep {} l = some s →
      ∃ t, loadFxStates {} (fxStatesToJson s) = some t ∧ SameFx s t := by
  intro h
  obtain ⟨t, ht, hsame⟩ := h [] {} rfl
  obtain ⟨text, hload, hne, -⟩ := load_run fxInv_init
  rw [hload, Option.some.injEq] at ht
  subst ht
  have hcount := active_equalizer (s := {}) rfl hne
  have hactive := hsame.active
  omega

end

end Musicat.Filters
