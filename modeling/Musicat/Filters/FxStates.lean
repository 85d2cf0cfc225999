import Musicat.Filters.Equalizer
import Musicat.Server.Json

/-!
# Saving the effects of a player

`fx_states_to_json` writes the effects of a player into the configuration of the
guild, the volume and the equalizer as one text, and `load_fx_states` reads them
into a player. Loading gives every value back but the text of the equalizer,
which is written anew from the 18 bands that are read: where there was none, or
none is found, the bands are 50.
-/

namespace Musicat.Filters

open Lib Server

/-- The effects of a `guild_player_t`. -/
structure FxStates where
  tempo : ℚ := 1
  pitch : Int := 0
  volume : Int := 100
  equalizer : List Char := []
  samplingRate : Int := -1
  vibratoF : ℚ := -1
  vibratoD : Int := -1
  tremoloF : ℚ := -1
  tremoloD : Int := -1
  earwax : Bool := false
  deriving DecidableEq

namespace FxStates

def fxIsTempoActive (s : FxStates) : Bool := s.tempo ≠ 1
def fxIsPitchActive (s : FxStates) : Bool := s.pitch ≠ 0
def fxIsEqualizerActive (s : FxStates) : Bool := !s.equalizer.isEmpty
def fxIsSamplingRateActive (s : FxStates) : Bool := s.samplingRate ≠ -1
def fxHasVibratoF (s : FxStates) : Bool := s.vibratoF ≠ -1
def fxHasVibratoD (s : FxStates) : Bool := s.vibratoD ≠ -1
def fxIsVibratoActive (s : FxStates) : Bool := s.fxHasVibratoF || s.fxHasVibratoD
def fxHasTremoloF (s : FxStates) : Bool := s.tremoloF ≠ -1
def fxHasTremoloD (s : FxStates) : Bool := s.tremoloD ≠ -1
def fxIsTremoloActive (s : FxStates) : Bool := s.fxHasTremoloF || s.fxHasTremoloD
def fxIsEarwaxActive (s : FxStates) : Bool := s.earwax

/-- The effects but the equalizer that are active. -/
def otherActive (s : FxStates) : List Bool :=
  [s.fxIsTempoActive, s.fxIsPitchActive, s.fxIsSamplingRateActive, s.fxIsVibratoActive,
    s.fxIsTremoloActive, s.fxIsEarwaxActive]

def fxGetActiveCount (s : FxStates) : Nat :=
  (s.fxIsEqualizerActive :: s.otherActive).count true

end FxStates

/-! ## The description of the filters -/

/-- `std::to_string` of an integer. -/
def intText (n : Int) : List Char := (if n < 0 then ['-'] else []) ++ digits n.natAbs

def getFfmpegPitchArgs (pitch relSamplingRate : Int) (relTempo : ℚ) : List Char :=
  if pitch = 0 then []
  else
    let sample := (if relSamplingRate = -1 then 48000 else relSamplingRate) + pitch * -(24000 / 100)
    let tempo := (if relTempo = -1 then 1 else relTempo) + (pitch : ℚ) * -(1 / 2 / 100)
    let sample := if sample < 6000 then 6000 else if sample > 192000 then 192000 else sample
    let tempo : ℚ := if tempo < 1 / 2 then 1 / 2 else if tempo > 3 then 3 else tempo
    "aresample=".toList ++ intText sample ++ ",atempo=".toList ++ decimalText tempo

/-- The frequency and the depth of a modulation, as far as they are set. -/
def modulationArgs (hasF hasD : Bool) (f : ℚ) (d : Int) : List Char :=
  (if hasF then "f=".toList ++ decimalText f else []) ++
    if hasD then
      (if hasF then [':'] else []) ++ "d=".toList ++
        decimalText (if 0 < d then (d : ℚ) / 100 else d)
    else []

def getFfmpegVibratoArgs (hasF hasD : Bool) (s : FxStates) : List Char :=
  modulationArgs hasF hasD s.vibratoF s.vibratoD

def getFfmpegTremoloArgs (hasF hasD : Bool) (s : FxStates) : List Char :=
  modulationArgs hasF hasD s.tremoloF s.tremoloD

namespace FxStates

/-- The description up to the equalizer. -/
def descrBefore (s : FxStates) : List Char :=
  "volume=".toList ++ decimalText ((s.volume : ℚ) / 100) ++
    (if s.fxIsSamplingRateActive then ",aresample=".toList ++ intText s.samplingRate else []) ++
    (if s.fxIsTempoActive then ",atempo=".toList ++ decimalText s.tempo else []) ++
    if s.fxIsPitchActive then ',' :: getFfmpegPitchArgs s.pitch s.samplingRate s.tempo else []

/-- The description after it. -/
def descrAfter (s : FxStates) : List Char :=
  (if s.fxIsVibratoActive then
      ",vibrato=".toList ++ getFfmpegVibratoArgs s.fxHasVibratoF s.fxHasVibratoD s
    else []) ++
    (if s.fxIsTremoloActive then
      ",tremolo=".toList ++ getFfmpegTremoloArgs s.fxHasTremoloF s.fxHasTremoloD s
    else []) ++
    if s.fxIsEarwaxActive then ",earwax".toList else []

def getFilterDescr (s : FxStates) : List Char :=
  s.descrBefore ++
    ((if s.fxIsEqualizerActive then ",superequalizer=".toList ++ s.equalizer else []) ++
      s.descrAfter)

end FxStates

/-! ## Saving and loading -/

/-- The volume and the equalizer as one text. -/
def FxStates.equalizerText (s : FxStates) : List Char :=
  s.equalizer ++ ',' :: (volumeKey ++ volToStr s.volume)

def fxStatesToJson (s : FxStates) : Json :=
  .object [("tempo", .float s.tempo), ("pitch", .integer s.pitch),
    ("equalizer", .string (String.ofList s.equalizerText)),
    ("sampling_rate", .integer s.samplingRate), ("vibrato_f", .float s.vibratoF),
    ("vibrato_d", .integer s.vibratoD), ("tremolo_f", .float s.tremoloF),
    ("tremolo_d", .integer s.tremoloD), ("earwax", .bool s.earwax)]

/-- A conversion to `int`. -/
def toInt32 (n : Int) : Int := n.bmod (2 ^ 32)

/-! `get` of one type; a value of another type throws. -/

def getDouble : Json → Option ℚ
  | .unsigned n => some n
  | .integer n => some n
  | .float q => some q
  | _ => none

def getInt : Json → Option Int
  | .bool b => some (if b then 1 else 0)
  | j => if j.isNumber then some (toInt32 j.getInt64) else none

def getInt64 (j : Json) : Option Int := if j.isNumber then some (toInt32 j.getInt64) else none

def getString : Json → Option String
  | .string s => some s
  | _ => none

def getBool : Json → Option Bool
  | .bool b => some b
  | _ => none

/-- A field of the player that is set when the object has its key. -/
def loadField {α : Type} (j : Json) (key : String) (get : Json → Option α)
    (set : FxStates → α → FxStates) (p : FxStates) : Option FxStates :=
  match j.find key with
  | none => some p
  | some v => (get v).map (set p)

/-- The equalizer and the volume with it. -/
def getEqualizer (j : Json) : Option EqualizerFx :=
  (getString j).bind fun eq => afArgsToEqualizerFx eq.toList

def setEqualizer (p : FxStates) (arg : EqualizerFx) : FxStates :=
  { p with volume := toInt32 arg.volume, equalizer := equalizerFxToAfArgs arg false }

/-- `none` when a value does not have the type or the form that is expected. -/
def loadFxStates (p : FxStates) (j : Json) : Option FxStates :=
  if !j.isObject then some p
  else do
    let p ← loadField j "tempo" getDouble (fun p v => { p with tempo := v }) p
    let p ← loadField j "pitch" getInt (fun p v => { p with pitch := v }) p
    let p ← loadField j "equalizer" getEqualizer setEqualizer p
    let p ← loadField j "sampling_rate" getInt64 (fun p v => { p with samplingRate := v }) p
    let p ← loadField j "vibrato_f" getDouble (fun p v => { p with vibratoF := v }) p
    let p ← loadField j "vibrato_d" getInt (fun p v => { p with vibratoD := v }) p
    let p ← loadField j "tremolo_f" getDouble (fun p v => { p with tremoloF := v }) p
    let p ← loadField j "tremolo_d" getInt (fun p v => { p with tremoloD := v }) p
    loadField j "earwax" getBool (fun p v => { p with earwax := v }) p

/-! ## What loading gives back -/

/-- The values that are kept as `int` are in its range. -/
structure FxStates.Ints (s : FxStates) : Prop where
  pitch : toInt32 s.pitch = s.pitch
  volume : toInt32 s.volume = s.volume
  samplingRate : toInt32 s.samplingRate = s.samplingRate
  vibratoD : toInt32 s.vibratoD = s.vibratoD
  tremoloD : toInt32 s.tremoloD = s.tremoloD

theorem toInt32_eq {n : Int} (h : -2 ^ 31 ≤ n ∧ n < 2 ^ 31) : toInt32 n = n := by
  rw [toInt32, Int.bmod_eq_of_le (by omega) (by omega)]

theorem getInt_integer {n : Int} (h : toInt32 n = n) : getInt (.integer n) = some n :=
  congrArg some h

theorem getInt64_integer {n : Int} (h : toInt32 n = n) : getInt64 (.integer n) = some n :=
  congrArg some h

theorem getEqualizer_string (s : List Char) :
    getEqualizer (.string (String.ofList s)) = afArgsToEqualizerFx s := by
  simp [getEqualizer, getString]

section
variable {α : Type} {j v : Json} {get : Json → Option α}
  {set : FxStates → α → FxStates}

theorem loadField_some (key : String) {a : α} (hv : j.find key = some v) (ha : get v = some a)
    (p : FxStates) : loadField j key get set p = some (set p a) := by
  simp [loadField, hv, ha]

theorem loadField_eq (key : String) {o : Option α} (hv : j.find key = some v) (ho : get v = o)
    (p : FxStates) : loadField j key get set p = o.map (set p) := by
  simp [loadField, hv, ho]

end

/-- **Loading what was saved gives every value back**, the equalizer as it is read. -/
theorem load_saved {s : FxStates} (h : s.Ints) (p : FxStates) :
    loadFxStates p (fxStatesToJson s) =
      (afArgsToEqualizerFx s.equalizerText).map fun arg =>
        { s with volume := toInt32 arg.volume, equalizer := bandsText arg } := by
  have hobject : (!(fxStatesToJson s).isObject) = false := rfl
  rw [loadFxStates, hobject, if_neg Bool.false_ne_true]
  simp only [bind, loadField_some (j := fxStatesToJson s) "tempo" rfl
      (show getDouble (.float s.tempo) = some s.tempo from rfl),
    loadField_some (j := fxStatesToJson s) "pitch" rfl (getInt_integer h.pitch),
    loadField_eq (j := fxStatesToJson s) "equalizer" rfl
      (getEqualizer_string s.equalizerText), Option.bind_some]
  cases afArgsToEqualizerFx s.equalizerText with
  | none => rfl
  | some arg =>
    simp only [Option.map_some, Option.bind_some,
      loadField_some (j := fxStatesToJson s) "sampling_rate" rfl
        (getInt64_integer h.samplingRate),
      loadField_some (j := fxStatesToJson s) "vibrato_f" rfl
        (show getDouble (.float s.vibratoF) = some s.vibratoF from rfl),
      loadField_some (j := fxStatesToJson s) "vibrato_d" rfl (getInt_integer h.vibratoD),
      loadField_some (j := fxStatesToJson s) "tremolo_f" rfl
        (show getDouble (.float s.tremoloF) = some s.tremoloF from rfl),
      loadField_some (j := fxStatesToJson s) "tremolo_d" rfl (getInt_integer h.tremoloD),
      loadField_some (j := fxStatesToJson s) "earwax" rfl
        (show getBool (.bool s.earwax) = some s.earwax from rfl)]
    simp [setEqualizer, equalizerFxToAfArgs, volumeText]

end Musicat.Filters
