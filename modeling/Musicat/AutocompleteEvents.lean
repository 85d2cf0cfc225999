import Musicat.Autocomplete
import Musicat.Lib.Lists

/-!
# Autocomplete events

An event has a tree of options, one of which the user is typing in.
`on_autocomplete` looks for it (`find_focused`), picks the handler for the names
on the way to it, and the handler offers those of its candidates whose names
contain what was typed. What the handlers read (the tracks, the database, the
endpoints) and `u8_limit_length`, which is the work of a library, are parameters.
-/

namespace Musicat

open Child Lib

/-! ## The options of an event -/

/-- The value of an option, as far as the handlers look at it. -/
inductive OptionValue where
  | string (s : Bytes)
  | other
  deriving DecidableEq, Repr

/-- `command_option`. -/
inductive CommandOption where
  | mk (name : String) (type : Nat) (value : OptionValue) (options : List CommandOption)
      (focused : Bool)

namespace CommandOption

def name : CommandOption → String
  | mk name .. => name

def type : CommandOption → Nat
  | mk _ type .. => type

def value : CommandOption → OptionValue
  | mk _ _ value .. => value

def options : CommandOption → List CommandOption
  | mk _ _ _ options _ => options

def focused : CommandOption → Bool
  | mk _ _ _ _ focused => focused

end CommandOption

/-- `find_focused_t`. -/
structure FindFocused where
  focused : CommandOption
  paths : List String

/-- What `find_focused` returns when there is none. -/
def noFocused : FindFocused := ⟨.mk "" 0 .other [] false, []⟩

mutual

/-- The body of the loop of `find_focused`, `none` when the loop goes on. -/
def focusedIn : (i : CommandOption) → (paths : List String) → Option FindFocused
  | .mk name type value options focused, paths =>
    let newPaths := paths ++ [name]
    if focused then some ⟨.mk name type value options focused, newPaths⟩
    else if !options.isEmpty then
      let nestedOpt := findFocused options newPaths
      if nestedOpt.focused.type ≠ 0 then some nestedOpt else none
    else none

def findFocused : (options : List CommandOption) → (paths : List String) → FindFocused
  | [], _ => noFocused
  | i :: options, paths =>
    match focusedIn i paths with
    | some found => found
    | none => findFocused options paths

end

/-! ## The handlers -/

inductive AutocompleteHandler where
  | playQuery
  | playlistId
  | downloadTrack
  | imageType
  | equalizerPresetsName
  deriving DecidableEq, Repr

/-- `handlers`. -/
def autocompleteHandlers : List (AutocompleteHandler × List String) :=
  [(.playQuery, ["play", "query"]), (.playlistId, ["playlist", "load", "id"]),
    (.playlistId, ["playlist", "view", "id"]), (.playlistId, ["playlist", "save", "id"]),
    (.playlistId, ["playlist", "delete", "id"]), (.downloadTrack, ["download", "track"]),
    (.imageType, ["image", "type"]),
    (.equalizerPresetsName, ["filters", "equalizer_presets", "load", "name"]),
    (.equalizerPresetsName, ["filters", "equalizer_presets", "view", "name"])]

/-- What the handlers read for their candidates. -/
structure AutocompleteSources where
  /-- The names of `get_available_tracks` for an amount. -/
  availableTracks : Nat → List Bytes
  /-- The names of `get_all_user_playlist` for the user of the event, `none` for a null; the whole
  is `none` when the statement fails. -/
  userPlaylists : Option (List (Option Bytes))
  /-- `get_all_equalizer_preset_name`. -/
  equalizerPresets : Option (List (Option Bytes))
  /-- `get_cached_nekos_best_endpoints`. -/
  endpoints : List Bytes

/-- The loop over the rows of a result, up to the first null. -/
def namesOf : List (Option Bytes) → List Bytes
  | some val :: rows => val :: namesOf rows
  | _ => []

def pairs (names : List Bytes) : List (Bytes × Bytes) := names.map fun i => (i, i)

/-- `play::autocomplete::query`, up to the response. -/
def playQuery (sources : AutocompleteSources) (param : Bytes) : List (Bytes × Bytes) :=
  let noLen := param.isEmpty
  let avail := pairs (sources.availableTracks (if noLen then 25 else 0))
  if !noLen then filterCandidates avail param false else avail

/-- `image::autocomplete::type`, up to the response. -/
def imageType (sources : AutocompleteSources) (param : Bytes) : List (Bytes × Bytes) :=
  let noLen := param.isEmpty
  let avail := pairs sources.endpoints
  if !noLen then filterCandidates avail param false else avail

/-- `playlist::autocomplete::id` and `equalizer_presets::autocomplete::name`, up to the response. -/
def rowNames (rows : Option (List (Option Bytes))) (param : Bytes) : List (Bytes × Bytes) :=
  let response := match rows with
    | none => []
    | some rows => pairs (namesOf rows)
  filterCandidates response param false

def AutocompleteHandler.avail (sources : AutocompleteSources) (param : Bytes) :
    AutocompleteHandler → List (Bytes × Bytes)
  | playQuery | downloadTrack => Musicat.playQuery sources param
  | imageType => Musicat.imageType sources param
  | playlistId => rowNames sources.userPlaylists param
  | equalizerPresetsName => rowNames sources.equalizerPresets param

section
variable (u8LimitLength : Bytes → Bytes)

/-- The loop of `create_response`; `siz` counts the choices when there are more than 25. -/
def choicesLoop (b25 : Bool) : List (Bytes × Bytes) → (siz : Nat) → List (Bytes × Bytes)
  | [], _ => []
  | i :: avail, siz =>
    let choice := (u8LimitLength i.1, u8LimitLength i.2)
    if b25 then
      if siz + 1 ≥ 25 then [choice] else choice :: choicesLoop b25 avail (siz + 1)
    else choice :: choicesLoop b25 avail siz

/-- `create_response`. -/
def createResponse (avail : List (Bytes × Bytes)) : List (Bytes × Bytes) :=
  choicesLoop u8LimitLength (avail.length > maxItemCount) avail 0

/-- The comparison of the paths: the handler is called at the last index. -/
def samePaths : List String → List String → Bool
  | [p], [q] => p == q
  | p :: ps, q :: qs => p == q && samePaths ps qs
  | _, _ => false

def paramOf : OptionValue → Bytes
  | .string s => s
  | .other => []

/-- `on_autocomplete`: the replies to an event. -/
def onAutocomplete (sources : AutocompleteSources) (eventName : String)
    (options : List CommandOption) : List (List (Bytes × Bytes)) :=
  let focused := findFocused options [eventName]
  if focused.focused.name = "" then []
  else
    autocompleteHandlers.filterMap fun (handler, paths) =>
      if paths.length ≠ focused.paths.length then none
      else if samePaths focused.paths paths then
        some (createResponse u8LimitLength (handler.avail sources (paramOf focused.focused.value)))
      else none

end

/-! ## The option that is found -/

/-- The option is at the end of the path of names, in the tree. -/
inductive IsAt : List CommandOption → List String → CommandOption → Prop
  | here {options : List CommandOption} {o : CommandOption} (h : o ∈ options) :
      IsAt options [o.name] o
  | inside {options : List CommandOption} {o q : CommandOption} {p : List String}
      (h : o ∈ options) (hq : IsAt o.options p q) : IsAt options (o.name :: p) q

theorem isAt_cons {o q : CommandOption} {rest : List CommandOption} {p : List String} :
    IsAt (o :: rest) p q ↔
      p = [o.name] ∧ q = o ∨ (∃ p', p = o.name :: p' ∧ IsAt o.options p' q) ∨ IsAt rest p q := by
  constructor
  · intro h
    cases h with
    | here h =>
      rcases List.mem_cons.1 h with rfl | h
      · exact .inl ⟨rfl, rfl⟩
      · exact .inr (.inr (.here h))
    | inside h hq =>
      rcases List.mem_cons.1 h with rfl | h
      · exact .inr (.inl ⟨_, rfl, hq⟩)
      · exact .inr (.inr (.inside h hq))
  · rintro (⟨rfl, rfl⟩ | ⟨p', rfl, hq⟩ | h)
    · exact .here List.mem_cons_self
    · exact .inside List.mem_cons_self hq
    · cases h with
      | here h => exact .here (List.mem_cons_of_mem _ h)
      | inside h hq => exact .inside (List.mem_cons_of_mem _ h) hq

theorem not_isAt_nil {p : List String} {o : CommandOption} : ¬ IsAt [] p o := by
  rintro (h | ⟨h, -⟩) <;> cases h

/-- Every option has one of the types of the protocol. -/
def Typed (options : List CommandOption) : Prop := ∀ p o, IsAt options p o → o.type ≠ 0

/-- What is found in `options`, behind the names `paths`. -/
def Found (options : List CommandOption) (paths : List String) (found : FindFocused) : Prop :=
  ∃ p, found.paths = paths ++ p ∧ IsAt options p found.focused ∧ found.focused.focused = true

def Unfocused (options : List CommandOption) : Prop := ∀ p o, IsAt options p o → o.focused = false

theorem isAt_singleton {o q : CommandOption} {rest : List CommandOption} {p : List String}
    (h : IsAt [o] p q) : IsAt (o :: rest) p q := by
  rcases isAt_cons.1 h with h | h | h
  · exact isAt_cons.2 (.inl h)
  · exact isAt_cons.2 (.inr (.inl h))
  · exact absurd h not_isAt_nil

mutual

theorem focusedIn_cases (i : CommandOption) (paths : List String) (hw : Typed [i]) :
    (∃ found, focusedIn i paths = some found ∧ Found [i] paths found) ∨
      focusedIn i paths = none ∧ Unfocused [i] := by
  match i with
  | .mk name type value options focused =>
    have ho : Typed options := fun p o h =>
      hw (name :: p) o (.inside (o := .mk name type value options focused) List.mem_cons_self h)
    unfold focusedIn
    cases hf : focused with
    | true => exact .inl ⟨_, rfl, [name], rfl, .here List.mem_cons_self, rfl⟩
    | false =>
      have hunfocused (hno : Unfocused options) :
          Unfocused [.mk name type value options false] := by
        intro p o h
        rcases isAt_cons.1 h with ⟨-, rfl⟩ | ⟨p', -, hp'⟩ | h
        · rfl
        · exact hno p' o hp'
        · exact absurd h not_isAt_nil
      simp only [Bool.false_eq_true, if_false]
      cases he : options.isEmpty with
      | true =>
        refine .inr ⟨rfl, hunfocused fun p o h => ?_⟩
        rw [List.isEmpty_iff.1 he] at h
        exact absurd h not_isAt_nil
      | false =>
        simp only [Bool.not_false, if_true]
        rcases findFocused_cases options (paths ++ [name]) ho with ⟨p, hp, hat, hfoc⟩ | ⟨hno, hall⟩
        · rw [if_pos (ho p _ hat)]
          refine .inl ⟨_, rfl, name :: p, ?_, ?_, hfoc⟩
          · rw [hp, List.append_assoc]
            rfl
          · exact .inside (o := .mk name type value options false) List.mem_cons_self hat
        · have hzero : ¬ noFocused.focused.type ≠ 0 := fun h => h rfl
          rw [hno, if_neg hzero]
          exact .inr ⟨rfl, hunfocused hall⟩

/-- **`find_focused` finds a focused option and the names on the way to it**, if there is one. -/
theorem findFocused_cases (options : List CommandOption) (paths : List String)
    (hw : Typed options) :
    Found options paths (findFocused options paths) ∨
      findFocused options paths = noFocused ∧ Unfocused options := by
  match options with
  | [] => exact .inr ⟨rfl, fun p o h => absurd h not_isAt_nil⟩
  | i :: options =>
    have hi : Typed [i] := fun p o h => hw p o (isAt_singleton h)
    have ho : Typed options := fun p o h => hw p o (isAt_cons.2 (.inr (.inr h)))
    unfold findFocused
    rcases focusedIn_cases i paths hi with ⟨found, he, p, hp, hat, hfoc⟩ | ⟨he, hno⟩
    · rw [he]
      exact .inl ⟨p, hp, isAt_singleton hat, hfoc⟩
    · rw [he]
      rcases findFocused_cases options paths ho with ⟨p, hp, hat, hfoc⟩ | ⟨hf, hno'⟩
      · exact .inl ⟨p, hp, isAt_cons.2 (.inr (.inr hat)), hfoc⟩
      · refine .inr ⟨hf, fun p o h => ?_⟩
        rcases isAt_cons.1 h with h | h | h
        · exact hno p o (isAt_cons.2 (.inl h))
        · exact hno p o (isAt_cons.2 (.inr (.inl h)))
        · exact hno' p o h

end

/-! ## The candidates that are offered -/

/-- The name contains the parameter, up to ASCII case. -/
def NameContains (param : Bytes) (i : Bytes × Bytes) : Prop :=
  param.map tolower <:+: i.1.map tolower

instance (param : Bytes) (i : Bytes × Bytes) : Decidable (NameContains param i) :=
  inferInstanceAs (Decidable (List.IsInfix _ _))

theorem tolower_tolower (c : UInt8) : tolower (tolower c) = tolower c := by
  unfold tolower
  split
  · rename_i h
    have hlow : ¬ (65 ≤ c + 32 ∧ c + 32 ≤ 90) := by
      simp only [UInt8.le_iff_toNat_le, UInt8.toNat_add, UInt8.reduceToNat] at h ⊢
      omega
    rw [if_neg hlow]
  · rfl

/-- The parameter may be lowered again. -/
theorem nameContains_map (param : Bytes) (i : Bytes × Bytes) :
    NameContains (param.map tolower) i ↔ NameContains param i := by
  have hlow : (param.map tolower).map tolower = param.map tolower := by
    rw [List.map_map]
    exact List.map_congr_left fun c _ => tolower_tolower c
  rw [NameContains, hlow]
  rfl

theorem find_isSome_iff (param : Bytes) (i : Bytes × Bytes) :
    (find (param.map tolower) (i.1.map tolower)).isSome = decide (NameContains param i) := by
  rw [Bool.eq_iff_iff, decide_eq_true_iff, Option.isSome_iff_exists]
  exact ⟨fun ⟨j, hj⟩ => infix_of_find hj, exists_find_of_infix⟩

/-- The loop with the default algorithm, which lowers the parameter again for every candidate. -/
theorem filterLoop_contains (param : Bytes) (candidates avail : List (Bytes × Bytes)) (siz : Nat)
    (hsiz : siz < maxItemCount) :
    filterLoop false candidates param avail siz =
      avail ++ ((candidates.filter (NameContains param ·)).take (maxItemCount - siz)).map
        fun i => (itemName i.1, i.2) := by
  induction candidates generalizing param avail siz with
  | nil => simp [filterLoop]
  | cons i candidates ih =>
    obtain ⟨room, hroom⟩ : ∃ room, maxItemCount - siz = room + 1 :=
      ⟨maxItemCount - siz - 1, by omega⟩
    have hrest : candidates.filter (NameContains (param.map tolower) ·) =
        candidates.filter (NameContains param ·) :=
      List.filter_congr fun j _ => by simp only [nameContains_map]
    simp only [filterLoop, matchCandidate, find_isSome_iff, List.filter_cons]
    by_cases hm : NameContains param i
    · simp only [hm, decide_true, Bool.false_eq_true, if_false, if_true, Bool.not_true]
      rw [hroom, List.take_succ_cons, List.map_cons]
      by_cases hfull : maxItemCount ≤ siz + 1
      · obtain rfl : room = 0 := by omega
        rw [if_pos hfull]
        rfl
      · rw [if_neg hfull, ih _ _ _ (by omega), hrest, show maxItemCount - (siz + 1) = room by omega,
          List.append_assoc]
        rfl
    · simp only [hm, decide_false, Bool.false_eq_true, if_false, Bool.not_false, if_true]
      rw [ih _ _ _ hsiz, hrest]

/-- A name as it is offered: trimmed, and `[NULL]` for a blank one, unless nothing was typed. -/
def shownName (param first : Bytes) : Bytes := if trimStr param = [] then first else itemName first

/-- **The default filter gives the first 25 candidates that contain the parameter.** -/
theorem filterCandidates_contains (candidates : List (Bytes × Bytes)) (param : Bytes) :
    filterCandidates candidates param false =
      ((candidates.filter (NameContains (trimStr param) ·)).take maxItemCount).map fun i =>
        (shownName param i.1, i.2) := by
  unfold filterCandidates shownName
  by_cases hparam : trimStr param = []
  · have hall : candidates.filter (NameContains [] ·) = candidates := by
      rw [List.filter_eq_self]
      exact fun i _ => decide_eq_true (List.nil_infix)
    simp only [hparam, if_true, hall]
    rw [List.map_id']
    split
    · rfl
    · rename_i hshort
      exact (List.take_of_length_le (Nat.le_of_not_lt hshort)).symm
  · simp only [hparam, if_false]
    exact filterLoop_contains (trimStr param) candidates [] 0 (by decide)

/-! ## The reply -/

section
variable (u8LimitLength : Bytes → Bytes)

theorem choicesLoop_all (avail : List (Bytes × Bytes)) (siz : Nat) :
    choicesLoop u8LimitLength false avail siz =
      avail.map fun i => (u8LimitLength i.1, u8LimitLength i.2) := by
  induction avail generalizing siz with
  | nil => rfl
  | cons i avail ih => exact congrArg _ (ih siz)

theorem choicesLoop_cut (avail : List (Bytes × Bytes)) (siz : Nat) (hsiz : siz < 25) :
    choicesLoop u8LimitLength true avail siz =
      (avail.take (25 - siz)).map fun i => (u8LimitLength i.1, u8LimitLength i.2) := by
  induction avail generalizing siz with
  | nil => simp [choicesLoop]
  | cons i avail ih =>
    obtain ⟨room, hroom⟩ : ∃ room, 25 - siz = room + 1 := ⟨25 - siz - 1, by omega⟩
    rw [hroom, List.take_succ_cons, List.map_cons]
    simp only [choicesLoop, if_true]
    by_cases hfull : siz + 1 ≥ 25
    · obtain rfl : room = 0 := by omega
      rw [if_pos hfull, List.take_zero, List.map_nil]
    · rw [if_neg hfull, ih _ (by omega), show 25 - (siz + 1) = room by omega]

/-- A response has the first 25 of what is available. -/
theorem createResponse_eq (avail : List (Bytes × Bytes)) :
    createResponse u8LimitLength avail =
      (avail.take maxItemCount).map fun i => (u8LimitLength i.1, u8LimitLength i.2) := by
  unfold createResponse
  cases hb : decide (avail.length > maxItemCount) with
  | true => exact choicesLoop_cut u8LimitLength avail 0 (by decide)
  | false =>
    have hshort : avail.length ≤ maxItemCount := by simpa using hb
    rw [choicesLoop_all, List.take_of_length_le hshort]

theorem samePaths_iff (ps qs : List String) : samePaths ps qs = true ↔ ps = qs ∧ ps ≠ [] := by
  fun_induction samePaths ps qs with
  | case1 p q => simp
  | case2 p ps q qs hne ih =>
    have hnil : ps = qs → ps ≠ [] := by
      rintro rfl rfl
      exact hne rfl rfl
    simp only [Bool.and_eq_true, beq_iff_eq, ih, List.cons.injEq, ne_eq, reduceCtorEq,
      not_false_eq_true, and_true]
    exact and_congr_right fun _ => ⟨fun h => h.1, fun h => ⟨h, hnil h⟩⟩
  | case3 ps qs h1 h2 =>
    cases ps with
    | nil => simp
    | cons p ps =>
      cases qs with
      | nil => simp
      | cons q qs => exact (h2 p ps q qs rfl rfl).elim

/-- What the handler chooses from, when the parameter is `param`. -/
def AutocompleteHandler.names (sources : AutocompleteSources) (param : Bytes) :
    AutocompleteHandler → List Bytes
  | playQuery | downloadTrack => sources.availableTracks (if param = [] then 25 else 0)
  | imageType => sources.endpoints
  | playlistId => namesOf (sources.userPlaylists.getD [])
  | equalizerPresetsName => namesOf (sources.equalizerPresets.getD [])

/-- What a handler offers: the first 25 names that contain what was typed, without the blanks
around it. -/
def offered (sources : AutocompleteSources) (param : Bytes) (handler : AutocompleteHandler) :
    List (Bytes × Bytes) :=
  (((pairs (handler.names sources param)).filter (NameContains (trimStr param) ·)).take
    maxItemCount).map fun i => (u8LimitLength (shownName param i.1), u8LimitLength i.2)

theorem response_filterCandidates (names : List Bytes) (param : Bytes) :
    createResponse u8LimitLength (filterCandidates (pairs names) param false) =
      (((pairs names).filter (NameContains (trimStr param) ·)).take maxItemCount).map fun i =>
        (u8LimitLength (shownName param i.1), u8LimitLength i.2) := by
  rw [createResponse_eq, filterCandidates_contains, ← List.map_take, List.take_take, min_self,
    List.map_map]
  rfl

/-- Without a parameter the filter would change nothing. -/
theorem response_pairs (names : List Bytes) :
    createResponse u8LimitLength (pairs names) =
      createResponse u8LimitLength (filterCandidates (pairs names) [] false) := by
  have hfilter : filterCandidates (pairs names) [] false = (pairs names).take maxItemCount := by
    change (if maxItemCount < (pairs names).length then _ else _) = _
    split
    · rfl
    · rename_i hshort
      exact (List.take_of_length_le (Nat.le_of_not_lt hshort)).symm
  rw [hfilter, createResponse_eq, createResponse_eq, List.take_take, min_self]

theorem response_eq (sources : AutocompleteSources) (param : Bytes)
    (handler : AutocompleteHandler) :
    createResponse u8LimitLength (handler.avail sources param) =
      offered u8LimitLength sources param handler := by
  have hquery : createResponse u8LimitLength (playQuery sources param) =
      offered u8LimitLength sources param .playQuery := by
    unfold offered
    rw [← response_filterCandidates]
    cases param with
    | nil => exact response_pairs u8LimitLength _
    | cons c param => rfl
  cases handler with
  | playQuery => exact hquery
  | downloadTrack => exact hquery
  | imageType =>
    unfold offered
    rw [← response_filterCandidates]
    cases param with
    | nil => exact response_pairs u8LimitLength _
    | cons c param => rfl
  | playlistId =>
    unfold offered
    rw [← response_filterCandidates]
    simp only [AutocompleteHandler.avail, AutocompleteHandler.names, rowNames]
    cases sources.userPlaylists with
    | none => rfl
    | some rows => rfl
  | equalizerPresetsName =>
    unfold offered
    rw [← response_filterCandidates]
    simp only [AutocompleteHandler.avail, AutocompleteHandler.names, rowNames]
    cases sources.equalizerPresets with
    | none => rfl
    | some rows => rfl

/-! ## Events -/

/-- The handler for a path. -/
def handlerFor (path : List String) : Option AutocompleteHandler :=
  (autocompleteHandlers.find? (·.2 = path)).map Prod.fst

theorem onAutocomplete_eq (sources : AutocompleteSources) (eventName : String)
    {options : List CommandOption} {found : FindFocused}
    (hf : findFocused options [eventName] = found) (hne : found.focused.name ≠ "")
    (hpath : found.paths ≠ []) :
    onAutocomplete u8LimitLength sources eventName options =
      ((handlerFor found.paths).map
        (offered u8LimitLength sources (paramOf found.focused.value))).toList := by
  unfold onAutocomplete handlerFor
  simp only [hf, if_neg hne]
  have hcall : ∀ x : AutocompleteHandler × List String,
      (if x.2.length ≠ found.paths.length then none
        else if samePaths found.paths x.2 then
          some (createResponse u8LimitLength (x.1.avail sources (paramOf found.focused.value)))
        else none) =
      if x.2 = found.paths then
        some (offered u8LimitLength sources (paramOf found.focused.value) x.1)
      else none := by
    intro x
    have hsame : samePaths found.paths x.2 = true ↔ x.2 = found.paths := by
      rw [samePaths_iff]
      exact ⟨fun h => h.1.symm, fun h => ⟨h.symm, hpath⟩⟩
    by_cases hx : x.2 = found.paths
    · rw [if_neg (by simp [hx]), if_pos (hsame.2 hx), if_pos hx, response_eq]
    · rw [if_neg (mt hsame.1 hx), if_neg hx]
      split <;> rfl
  rw [Option.map_map]
  refine Eq.trans ?_ (filterMap_key _ found.paths autocompleteHandlers (by decide))
  exact List.filterMap_congr fun x _ => hcall x

/-- **A reply offers the names that contain what was typed.** Nobody is answered when no option
is focused. Otherwise the option that is found is one the user types in, and the event is answered
once, by the handler for the names on the way to that option, with the first 25 of the handler's
names that contain its trimmed value up to ASCII case, as `shownName` shows them; it is not answered
when the option has no name or there is no such handler. -/
theorem autocomplete_offers (sources : AutocompleteSources) (eventName : String)
    (options : List CommandOption) (htyped : Typed options) :
    (Unfocused options → onAutocomplete u8LimitLength sources eventName options = []) ∧
      (¬ Unfocused options → ∃ p o, IsAt options p o ∧ o.focused = true ∧
        onAutocomplete u8LimitLength sources eventName options =
          if o.name = "" then []
          else ((handlerFor (eventName :: p)).map
            (offered u8LimitLength sources (paramOf o.value))).toList) := by
  rcases findFocused_cases options [eventName] htyped with ⟨p, hp, hat, hfoc⟩ | ⟨hno, hall⟩
  · refine ⟨fun hun => ?_, fun _ => ⟨p, _, hat, hfoc, ?_⟩⟩
    · rw [hun p _ hat] at hfoc
      cases hfoc
    · by_cases hname : (findFocused options [eventName]).focused.name = ""
      · rw [if_pos hname]
        exact if_pos hname
      · have hpath : (findFocused options [eventName]).paths ≠ [] := by simp [hp]
        rw [if_neg hname, onAutocomplete_eq u8LimitLength sources eventName rfl hname hpath, hp]
        rfl
  · refine ⟨fun _ => ?_, fun h => absurd hall h⟩
    unfold onAutocomplete
    rw [hno]
    rfl

end

/-- The parameter of `/playlist load`, as the user has typed it. -/
def loadOptions (value : String) : List CommandOption :=
  [.mk "load" 1 .other [.mk "id" 3 (.string (bytes value)) [] true] false]

def loadSources : AutocompleteSources where
  availableTracks _ := []
  userPlaylists := some [some (bytes "Calm"), some (bytes "rock"), some (bytes " calmer "), none]
  equalizerPresets := none
  endpoints := []

theorem loadOptions_typed (value : String) : Typed (loadOptions value) := by
  intro p o h
  rcases isAt_cons.1 h with ⟨-, rfl⟩ | ⟨p', -, h⟩ | h
  · exact Nat.one_ne_zero
  · rcases isAt_cons.1 h with ⟨-, rfl⟩ | ⟨p', -, h⟩ | h
    · exact Nat.succ_ne_zero 2
    · exact absurd h not_isAt_nil
    · exact absurd h not_isAt_nil
  · exact absurd h not_isAt_nil

theorem autocomplete_offers_loadPlaylist :
    (∃ p o, IsAt (loadOptions "cAL") p o ∧ o.focused = true ∧
      onAutocomplete id loadSources "playlist" (loadOptions "cAL") =
        if o.name = "" then []
        else ((handlerFor ("playlist" :: p)).map
          (offered id loadSources (paramOf o.value))).toList) ∧
      onAutocomplete id loadSources "playlist" (loadOptions "cAL") =
        [[(bytes "Calm", bytes "Calm"), (bytes "calmer", bytes " calmer ")]] := by
  refine ⟨(autocomplete_offers id loadSources "playlist" (loadOptions "cAL")
    (loadOptions_typed "cAL")).2 fun h => ?_, by decide⟩
  have hid : IsAt (loadOptions "cAL") ["load", "id"] (.mk "id" 3 (.string (bytes "cAL")) [] true) :=
    isAt_cons.2 (.inr (.inl ⟨["id"], rfl, .here List.mem_cons_self⟩))
  cases h _ _ hid

end Musicat
