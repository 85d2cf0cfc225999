import Musicat.Database.Playlist
import Musicat.Lib.Find

/-!
# The autoplay choice

`find_track`, with `USE_YTSEARCH_H` and `USE_SEARCH_CACHE` undefined. For
autoplay it goes through the entries of the fetched playlist and stops at the
first whose id is neither in the queue nor in the history; a result whose raw is
null then means that there was none. An unavailable entry is null itself, so the
search that stops there comes back without a result (`find_track_chooses_iff`).

The id of a track that is not one of yt-dlp comes from the yt-search library and
is a parameter, a function of the raw.
-/

namespace Musicat.Player

open Database Lib Server

/-! ## What `mctrack` reads off the raw -/

/-- `YTDLPTrack::get_str`. -/
def getStr (data : Json) (at' : String) : String :=
  match data.find at' with
  | some (.string s) => s
  | _ => ""

/-- `YTDLPTrack::get_url`. -/
def getUrl (data : Json) : String :=
  let url := getStr data "url"
  if url.isEmpty then getStr data "original_url" else url

/-- `is_url_shorts`. -/
def isUrlShorts (str : String) : Bool := (find "/shorts/".toList str.toList).isSome

/-- `TRACK_MC`, and the flags of `track_flag_t`. -/
def trackMc : Nat := 0
def trackYtdlpSearch : Nat := 1
def trackYtdlpDetailed : Nat := 2
def trackShort : Nat := 4

def getTrackFlag (data : Json) : Nat :=
  if !data.isObject then 0
  else
    let flag := trackMc
    let flag := if isUrlShorts (getUrl data) then flag ||| trackShort else flag
    let flag := if (data.find "ie_key").isSome then flag ||| trackYtdlpSearch else flag
    if (data.find "extractor_key").isSome then flag ||| trackYtdlpDetailed else flag

def isYTDLPTrack (trackFlag : Nat) : Bool :=
  trackFlag &&& trackYtdlpSearch ≠ 0 || trackFlag &&& trackYtdlpDetailed ≠ 0

/-- `YTDLPTrack::get_playlist_entries`. -/
def getPlaylistEntries (data : Json) : List StoredTrack :=
  match data.find "entries" with
  | some (.array items) => items.map fun e => { raw := e }
  | _ => []

/-- What `find_track` reads of the player. -/
structure Heard where
  queue : List StoredTrack
  history : List String

section
variable (ytTrackId : Json → String)

/-- `mctrack::get_id`. -/
def getId (raw : Json) : String :=
  if isYTDLPTrack (getTrackFlag raw) then getStr raw "id" else ytTrackId raw

/-! ## The search -/

/-- What the two inner loops say of an id: it is in the queue, or else in the history. -/
def Heard.has (p : Heard) (iid : String) : Bool :=
  let br := p.queue.any fun a => getId ytTrackId a.raw == iid
  if p.history.length ≠ 0 && !br then p.history.any (· == iid) else br

/-- The outer loop; `result` stays as it was made when no entry is picked. -/
def pick (p : Heard) : List StoredTrack → StoredTrack
  | [] => {}
  | i :: searches => if p.has ytTrackId (getId ytTrackId i.raw) then pick p searches else i

/-- `find_track`; `player` is that of the guild, if it has one, and `res` what is fetched. -/
def findTrack (playlist noCheckHistory : Bool) (player : Option Heard) (res : Json) :
    StoredTrack × Int :=
  let search (result : List StoredTrack → StoredTrack × Int) :=
    if res.isNull then ({}, 2)
    else
      let searches := getPlaylistEntries res
      if searches.isEmpty then ({}, -1) else result searches
  if playlist && !noCheckHistory then
    match player with
    | none => ({}, 1)
    | some p =>
      if p.queue.isEmpty then ({}, 1)
      else
        search fun searches =>
          let result := pick ytTrackId p searches
          if result.raw.isNull then ({}, 1) else (result, 0)
  else search fun searches => (searches.headD {}, 0)

/-! ## The first entry that was not heard -/

/-- The entry may be chosen: it is not null and was not heard. -/
def eligible (p : Heard) (e : Json) : Bool := !p.has ytTrackId (getId ytTrackId e) && !e.isNull

/-- The autoplay law: the first entry that may be chosen, status 1 when there is none and -1 when
there is nothing to choose from. -/
def Chooses (p : Heard) (entries : List Json) (found : StoredTrack × Int) : Prop :=
  match entries.find? (eligible ytTrackId p) with
  | some e => found = ({ raw := e }, 0)
  | none => found.2 = if entries.isEmpty then -1 else 1

/-- A null before the first entry that may be chosen is passed over, since the id that it is taken
to have was heard. -/
def NullsPassedOver (p : Heard) (entries : List Json) : Prop :=
  ∀ before e after, entries = before ++ e :: after → eligible ytTrackId p e = true →
    (∀ x ∈ before, eligible ytTrackId p x = false) → (∃ x ∈ before, x.isNull = true) →
      p.has ytTrackId (getId ytTrackId .null) = true

variable {ytTrackId} {p : Heard} {entries : List Json}

theorem pick_eq (entries : List Json) :
    pick ytTrackId p (entries.map fun e => { raw := e }) =
      match entries.find? fun e => !p.has ytTrackId (getId ytTrackId e) with
      | some e => { raw := e }
      | none => {} := by
  induction entries with
  | nil => rfl
  | cons e entries ih =>
    rw [List.map_cons, pick, List.find?_cons]
    dsimp only
    cases p.has ytTrackId (getId ytTrackId e) with
    | true => exact ih
    | false => rfl

theorem Json.eq_null {e : Json} (h : e.isNull = true) : e = .null := by
  cases e with
  | null => rfl
  | _ => cases h

/-- What a search in the history comes to. -/
theorem findTrack_eq {res : Json} (hq : p.queue ≠ [])
    (hentries : res.find "entries" = some (.array entries)) :
    findTrack ytTrackId true false (some p) res =
      if entries.isEmpty then ({}, -1)
      else
        match entries.find? fun e => !p.has ytTrackId (getId ytTrackId e) with
        | some e => if e.isNull then ({}, 1) else ({ raw := e }, 0)
        | none => ({}, 1) := by
  have hres : res.isNull = false := by
    cases res with
    | null => cases hentries
    | _ => rfl
  have hq' : p.queue.isEmpty = false := by simpa using hq
  simp only [findTrack, Bool.not_false, Bool.and_self, if_true, hq', Bool.false_eq_true, if_false,
    hres, getPlaylistEntries, hentries, List.isEmpty_map, pick_eq]
  split
  · rfl
  · split
    · rfl
    · rfl

section
variable {before after : List Json} {e : Json}

/-- Where every entry was heard there is none to choose. -/
theorem find_eligible_of_heard (h : ∀ e ∈ entries, p.has ytTrackId (getId ytTrackId e) = true) :
    entries.find? (eligible ytTrackId p) = none :=
  List.find?_eq_none.2 fun e he => by simp [eligible, h e he]

/-- Where there is none to choose no null is in the way. -/
theorem nullsPassedOver_of_none (h : entries.find? (eligible ytTrackId p) = none) :
    NullsPassedOver ytTrackId p entries := by
  intro before e after heq he
  have hmem : e ∈ entries := by rw [heq]; exact List.mem_append_right _ List.mem_cons_self
  exact absurd he (List.find?_eq_none.1 h e hmem)

/-- The first entry that was not heard is no null: it is the one to choose. -/
theorem chooses_of_first (hbefore : ∀ x ∈ before, p.has ytTrackId (getId ytTrackId x) = true)
    (he : p.has ytTrackId (getId ytTrackId e) = false) (hnull : e.isNull = false) :
    (before ++ e :: after).find? (eligible ytTrackId p) = some e := by
  refine List.find?_eq_some_iff_append.2 ⟨by simp [eligible, he, hnull], before, after, rfl, ?_⟩
  intro x hx
  simp [eligible, hbefore x hx]

/-- No null was in its way: one that was not heard would have come first. -/
theorem nullsPassedOver_of_first
    (hbefore : ∀ x ∈ before, p.has ytTrackId (getId ytTrackId x) = true)
    (he : p.has ytTrackId (getId ytTrackId e) = false) (hnull : e.isNull = false) :
    NullsPassedOver ytTrackId p (before ++ e :: after) := by
  intro before' e' after' heq he' hbefore' ⟨x, hx, hxnull⟩
  by_contra hno
  obtain rfl := Json.eq_null hxnull
  obtain ⟨b, c, rfl⟩ := List.append_of_mem hx
  have hmem : e ∈ b :=
    mem_of_append_cons_eq (by rw [heq, List.append_assoc, List.cons_append]) hbefore hno
      (by rintro rfl; cases hnull)
  have hpassed := hbefore' e (List.mem_append_left _ hmem)
  simp [eligible, he, hnull] at hpassed

/-- A null that was not heard, and everything before it was: it is in the way of what is to be
chosen. -/
theorem not_nullsPassedOver (hbefore : ∀ x ∈ before, p.has ytTrackId (getId ytTrackId x) = true)
    (hnull : p.has ytTrackId (getId ytTrackId .null) = false)
    (hchoice : (before ++ Json.null :: after).find? (eligible ytTrackId p) = some e) :
    ¬ NullsPassedOver ytTrackId p (before ++ Json.null :: after) := by
  intro hover
  obtain ⟨he, before', after', heq, hbefore'⟩ := List.find?_eq_some_iff_append.1 hchoice
  have hunheard : ¬ p.has ytTrackId (getId ytTrackId e) = true := fun h => by
    simp [eligible, h] at he
  have hmem : Json.null ∈ before' :=
    mem_of_append_cons_eq heq hbefore hunheard fun h => by
      rw [← h] at he
      simp [eligible, Json.isNull] at he
  have hheard := hover before' e after' heq he (fun x hx => by simpa using hbefore' x hx)
    ⟨.null, hmem, rfl⟩
  rw [hheard] at hnull
  cases hnull

end

/-- **Autoplay chooses the first entry that was not heard** exactly when no null stops it. -/
theorem find_track_chooses_iff (ytTrackId : Json → String) (p : Heard) (hq : p.queue ≠ [])
    (res : Json) (entries : List Json) (hentries : res.find "entries" = some (.array entries)) :
    Chooses ytTrackId p entries (findTrack ytTrackId true false (some p) res) ↔
      NullsPassedOver ytTrackId p entries := by
  rw [findTrack_eq hq hentries, Chooses]
  cases hfirst : entries.find? fun e => !p.has ytTrackId (getId ytTrackId e) with
  | none =>
    have hheard : ∀ e ∈ entries, p.has ytTrackId (getId ytTrackId e) = true := by
      simpa using List.find?_eq_none.1 hfirst
    have hnone := find_eligible_of_heard hheard
    rw [hnone]
    exact iff_of_true (by cases entries <;> rfl) (nullsPassedOver_of_none hnone)
  | some e =>
    obtain ⟨hunheard, before, after, rfl, hbefore⟩ := List.find?_eq_some_iff_append.1 hfirst
    simp only [Bool.not_eq_true', Bool.not_not] at hunheard hbefore
    have hne : (before ++ e :: after).isEmpty = false := by simp
    rw [hne, if_neg Bool.false_ne_true]
    dsimp only
    cases hnull : e.isNull with
    | false =>
      rw [chooses_of_first hbefore hunheard hnull]
      exact iff_of_true rfl (nullsPassedOver_of_first hbefore hunheard hnull)
    | true =>
      rw [if_pos rfl]
      obtain rfl := Json.eq_null hnull
      cases hchoice : (before ++ Json.null :: after).find? (eligible ytTrackId p) with
      | none => exact iff_of_true rfl (nullsPassedOver_of_none hchoice)
      | some e => exact iff_of_false (by simp) (not_nullsPassedOver hbefore hunheard hchoice)

end

/-- An entry of a playlist as yt-dlp lists it. -/
def listed (id : String) : Json := .object [("ie_key", .string "Youtube"), ("id", .string id)]

/-- One track queued, one played. -/
def oneHeard : Heard := { queue := [{ raw := listed "q" }], history := ["h"] }

/-- What is fetched when the playlist has these entries. -/
def fetched (entries : List Json) : Json := .object [("entries", .array entries)]

theorem find_track_chooses_iff_listed :
    Chooses (fun _ => "") oneHeard [listed "q", listed "h", listed "v"]
        (findTrack (fun _ => "") true false (some oneHeard)
          (fetched [listed "q", listed "h", listed "v"])) ↔
      NullsPassedOver (fun _ => "") oneHeard [listed "q", listed "h", listed "v"] :=
  find_track_chooses_iff _ oneHeard (List.cons_ne_nil _ _) _ _ rfl

/-- An unavailable entry in front of one that was not heard: no track is found. -/
theorem null_entry_stops_search :
    (findTrack (fun _ => "") true false (some oneHeard) (fetched [.null, listed "v"])).2 = 1 ∧
      ¬ Chooses (fun _ => "") oneHeard [.null, listed "v"]
        (findTrack (fun _ => "") true false (some oneHeard) (fetched [.null, listed "v"])) := by
  have hstatus :
      (findTrack (fun _ => "") true false (some oneHeard) (fetched [.null, listed "v"])).2 = 1 := by
    decide
  refine ⟨hstatus, fun h => ?_⟩
  have hfound : [.null, listed "v"].find? (eligible (fun _ => "") oneHeard) = some (listed "v") :=
    rfl
  rw [Chooses, hfound] at h
  rw [h] at hstatus
  cases hstatus

end Musicat.Player
