import Musicat.Lib.Lists
import Musicat.Server.Json

/-!
# Stored playlists

`convert_playlist_to_json` writes the file name and the raw info of a track
into the track's own raw object, and `get_playlist_from_PGresult` keeps the
whole of that object as the raw of the track it reads. The two keys are
overwritten on the next save, so nothing accumulates
(`playlist_round_trip`).

`dump` and `parse` of the library are parameters. A result of the database is
the text of its first row, `none` when `PQgetisnull` says so.
-/

namespace Musicat.Database

open Lib Server

/-- What of an `MCTrack` is stored, and its user. -/
structure StoredTrack where
  raw : Json := .null
  filename : String := ""
  userId : Nat := 0
  infoRaw : Json := .null

/-- What `convert_playlist_to_json` pushes for a track. -/
def playlistEntry (t : StoredTrack) : Except Json.Error Json := do
  let r ← t.raw.assign "filename" (.string t.filename)
  r.assign "raw_info" t.infoRaw

def pushEntry (jso : Json) (t : StoredTrack) : Except Json.Error Json :=
  playlistEntry t >>= jso.pushBack

/-- `convert_playlist_to_json`. -/
def convertPlaylistToJson (playlist : List StoredTrack) : Except Json.Error Json :=
  playlist.foldlM pushEntry .null

/-- The track of an entry that is not null. -/
def readEntry (j : Json) : Except Json.Error StoredTrack := do
  let filename ← j.atKey "filename" >>= Json.getString
  let infoRaw ← j.atKey "raw_info"
  pure { raw := j, filename, infoRaw }

/-- `get_playlist_from_PGresult`; `parse` is `none` where it throws. -/
def getPlaylistFromPGresult (parse : String → Option Json) (res : Option String) :
    Except Json.Error (List StoredTrack × Int) :=
  match res with
  | none => .ok ([], -2)
  | some text =>
    match parse text with
    | none => .ok ([], -3)
    | some (.array items) =>
      if items.isEmpty then .ok ([], -1)
      else (items.filter (!·.isNull)).mapM readEntry >>= fun ret => .ok (ret, 0)
    | some _ => .ok ([], -1)

/-! ## One track -/

/-- The entry of a track whose raw is an object. -/
def StoredTrack.merged (t : StoredTrack) : Json :=
  (t.raw.set "filename" (.string t.filename)).set "raw_info" t.infoRaw

/-- `t'` is what a stored `t` is read back as. -/
structure Restored (t t' : StoredTrack) : Prop where
  filename : t'.filename = t.filename
  infoRaw : t'.infoRaw.Same t.infoRaw
  isObject : t'.raw.isObject
  raw : ∀ key, key ≠ "filename" → key ≠ "raw_info" →
    Option.Rel Json.Same (t'.raw.find key) (t.raw.find key)

variable {t t' : StoredTrack} {q : List StoredTrack}

theorem playlistEntry_eq (h : t.raw.isObject) : playlistEntry t = .ok t.merged := by
  obtain ⟨fields, hraw⟩ := Json.isObject_iff.1 h
  simp [playlistEntry, Json.assign, StoredTrack.merged, hraw, Json.isObject, Json.set, bind,
    Except.bind]

theorem merged_isObject (h : t.raw.isObject) : t.merged.isObject := by
  obtain ⟨fields, hraw⟩ := Json.isObject_iff.1 h
  simp [StoredTrack.merged, hraw, Json.set, Json.isObject]

theorem find_merged (h : t.raw.isObject) (key : String) :
    t.merged.find key =
      if key = "raw_info" then some t.infoRaw
      else if key = "filename" then some (.string t.filename)
      else t.raw.find key := by
  obtain ⟨fields, hraw⟩ := Json.isObject_iff.1 h
  have hset : t.raw.set "filename" (.string t.filename) =
      .object (("filename", .string t.filename) :: fields.filter (·.1 != "filename")) := by
    rw [hraw]; rfl
  rw [StoredTrack.merged, hset, Json.find_set, ← Json.find_object, ← hset, hraw, Json.find_set,
    Json.find_object]

/-- An entry that is read back as the same document. -/
theorem readEntry_same {j : Json} (h : t.raw.isObject) (hj : j.Same t.merged) :
    ∃ t', readEntry j = .ok t' ∧ Restored t t' := by
  have hobj : j.isObject := hj.isObject.trans (merged_isObject h)
  obtain ⟨name, hname, hsame⟩ := hj.exists_find (find_merged h "filename")
  obtain ⟨info, hinfo, hsame'⟩ := hj.exists_find (find_merged h "raw_info")
  refine ⟨{ raw := j, filename := t.filename, infoRaw := info }, ?_, rfl, hsame', hobj, ?_⟩
  · simp [readEntry, Json.atKey_of_find hname, Json.atKey_of_find hinfo, hsame.eq_string,
      Json.getString, bind, Except.bind, pure, Except.pure]
  · intro key hf hr
    have hfind := hj.find key
    rwa [find_merged h, if_neg hr, if_neg hf] at hfind

/-- A track read back is stored as the same document again. -/
theorem Restored.merged (hr : Restored t t') (h : t.raw.isObject) : t'.merged.Same t.merged := by
  refine .of_find (merged_isObject hr.isObject) (merged_isObject h) fun key => ?_
  rw [find_merged hr.isObject, find_merged h]
  split
  · exact .some hr.infoRaw
  · split
    · rw [hr.filename]
      exact .some (.string _)
    · exact hr.raw key ‹_› ‹_›

/-! ## The playlist -/

theorem foldlM_pushEntry (hraw : ∀ t ∈ q, t.raw.isObject) (items : List Json) :
    q.foldlM pushEntry (.array items) = .ok (.array (items ++ q.map (·.merged))) := by
  induction q generalizing items with
  | nil => simp [pure, Except.pure]
  | cons t q ih =>
    have hpush : pushEntry (.array items) t = .ok (.array (items ++ [t.merged])) := by
      rw [pushEntry, playlistEntry_eq (hraw t List.mem_cons_self)]
      rfl
    rw [List.foldlM_cons, hpush]
    show q.foldlM pushEntry (.array (items ++ [t.merged])) = _
    rw [ih fun u hu => hraw u (List.mem_cons_of_mem t hu), List.append_assoc, List.map_cons,
      List.singleton_append]

theorem convertPlaylistToJson_eq (hq : q ≠ []) (hraw : ∀ t ∈ q, t.raw.isObject) :
    convertPlaylistToJson q = .ok (.array (q.map (·.merged))) := by
  cases q with
  | nil => exact absurd rfl hq
  | cons t q =>
    have hpush : pushEntry .null t = .ok (.array [t.merged]) := by
      rw [pushEntry, playlistEntry_eq (hraw t List.mem_cons_self)]
      rfl
    rw [convertPlaylistToJson, List.foldlM_cons, hpush]
    exact foldlM_pushEntry (fun u hu => hraw u (List.mem_cons_of_mem t hu)) [t.merged]

/-- An entry that is the same document as an object is not skipped. -/
theorem filter_entries {xs ys : List Json} (h : List.Forall₂ Json.Same xs ys)
    (hobj : ∀ y ∈ ys, y.isObject) : xs.filter (!·.isNull) = xs := by
  refine List.filter_eq_self.2 fun x hx => ?_
  have hobj' := forall_of_forall₂ h hobj fun x y hsame hy => hsame.isObject.trans hy
  obtain ⟨fields, rfl⟩ := Json.isObject_iff.1 (hobj' x hx)
  rfl

theorem readEntries_same {xs : List Json} (hraw : ∀ t ∈ q, t.raw.isObject)
    (h : List.Forall₂ Json.Same xs (q.map (·.merged))) :
    ∃ q', xs.mapM readEntry = .ok q' ∧ List.Forall₂ Restored q q' := by
  induction q generalizing xs with
  | nil =>
    cases h
    exact ⟨[], rfl, .nil⟩
  | cons t q ih =>
    obtain ⟨x, xs, hx, hxs, rfl⟩ := List.forall₂_cons_right_iff.1 h
    obtain ⟨t', ht', hr⟩ := readEntry_same (hraw t List.mem_cons_self) hx
    obtain ⟨q', hq', hrs⟩ := ih (fun u hu => hraw u (List.mem_cons_of_mem t hu)) hxs
    refine ⟨t' :: q', ?_, .cons hr hrs⟩
    rw [List.mapM_cons, ht']
    show (xs.mapM readEntry >>= fun q' => pure (t' :: q')) = _
    rw [hq']
    rfl

theorem merged_restored {q' : List StoredTrack} (h : List.Forall₂ Restored q q')
    (hraw : ∀ t ∈ q, t.raw.isObject) :
    List.Forall₂ Json.Same (q'.map (·.merged)) (q.map (·.merged)) := by
  induction h with
  | nil => exact .nil
  | cons hr _ ih =>
    exact .cons (hr.merged (hraw _ List.mem_cons_self))
      (ih fun u hu => hraw u (List.mem_cons_of_mem _ hu))

/-- What is relied on of `dump` and `parse` at a document: its text is read back as the same
document, and the same document has the same text. -/
structure ReadsBack (dump : Json → String) (parse : String → Option Json) (jso : Json) : Prop where
  parse : ∃ j, parse (dump jso) = some j ∧ j.Same jso
  dump : ∀ j, j.Same jso → dump j = dump jso

/-- A stored queue is read back track by track, and storing it again stores the same document. -/
theorem playlist_round_trip (dump : Json → String) (parse : String → Option Json) (hq : q ≠ [])
    (hraw : ∀ t ∈ q, t.raw.isObject)
    (hjson : ∀ jso, convertPlaylistToJson q = .ok jso → ReadsBack dump parse jso) :
    ∃ jso q' jso', convertPlaylistToJson q = .ok jso ∧
      getPlaylistFromPGresult parse (some (dump jso)) = .ok (q', 0) ∧
      List.Forall₂ Restored q q' ∧
      convertPlaylistToJson q' = .ok jso' ∧ jso'.Same jso ∧ dump jso' = dump jso := by
  have hconv := convertPlaylistToJson_eq hq hraw
  obtain ⟨⟨j, hparse, hsame⟩, hdump⟩ := hjson _ hconv
  obtain ⟨xs, rfl, hxs⟩ := hsame.eq_array
  have hfilter : xs.filter (!·.isNull) = xs := by
    refine filter_entries hxs fun y hy => ?_
    obtain ⟨t, ht, rfl⟩ := List.mem_map.1 hy
    exact merged_isObject (hraw t ht)
  obtain ⟨q', hread, hr⟩ := readEntries_same hraw hxs
  have hxs0 : xs.isEmpty = false := by
    have hlen := hxs.length_eq
    rw [List.length_map] at hlen
    have := List.length_pos_iff.2 hq
    rw [List.isEmpty_eq_false_iff, ← List.length_pos_iff]
    omega
  have hq' : q' ≠ [] := by
    rintro rfl
    exact hq (List.forall₂_nil_right_iff.1 hr)
  have hraw' : ∀ t ∈ q', t.raw.isObject :=
    forall_of_forall₂ hr.flip hraw fun _ _ hr _ => hr.isObject
  have hconv' := convertPlaylistToJson_eq hq' hraw'
  have hsame' := Json.Same.array (merged_restored hr hraw)
  refine ⟨_, q', _, hconv, ?_, hr, hconv', hsame', hdump _ hsame'⟩
  simp [getPlaylistFromPGresult, hparse, hxs0, hfilter, hread, bind, Except.bind]

/-- A track whose raw has a file name of its own already. -/
def savedTrack : StoredTrack :=
  { raw := .object [("id", .string "v1"), ("filename", .string "old")]
    filename := "a.opus"
    infoRaw := .array [.integer 3] }

/-- What the text of its playlist is read as. -/
def savedDocument : Json :=
  .array [.object [("filename", .string "a.opus"), ("id", .string "v1"),
    ("raw_info", .array [.unsigned 3])]]

def savedText : String :=
  "[\x7b\"filename\":\"a.opus\",\"id\":\"v1\",\"raw_info\":[3]\x7d]"

theorem savedDocument_same : savedDocument.Same (.array [savedTrack.merged]) := by
  refine .array (.cons (.of_find rfl rfl fun key => ?_) .nil)
  rw [find_merged rfl]
  by_cases hr : key = "raw_info"
  · subst hr
    exact .some (.array (.cons (.number rfl rfl) .nil))
  · by_cases hf : key = "filename"
    · subst hf
      exact .some (.string _)
    · have hr' := beq_eq_false_iff_ne.2 hr
      have hf' := beq_eq_false_iff_ne.2 hf
      simp only [savedTrack, Json.find_object, List.lookup_cons, hr, hf, hr', hf', if_false]
      by_cases hi : key = "id"
      · subst hi
        exact .some (.string _)
      · rw [beq_eq_false_iff_ne.2 hi]
        exact .none

theorem playlist_round_trip_saved :
    ∃ jso q' jso', convertPlaylistToJson [savedTrack] = .ok jso ∧
      getPlaylistFromPGresult (fun _ => some savedDocument) (some savedText) = .ok (q', 0) ∧
      List.Forall₂ Restored [savedTrack] q' ∧
      convertPlaylistToJson q' = .ok jso' ∧ jso'.Same jso ∧ savedText = savedText :=
  playlist_round_trip (fun _ => savedText) (fun _ => some savedDocument) (List.cons_ne_nil _ _)
    (by intro t ht; rw [List.mem_singleton.1 ht]; rfl) fun jso h => by
      cases h
      exact ⟨⟨savedDocument, rfl, savedDocument_same⟩, fun _ _ => rfl⟩

end Musicat.Database
