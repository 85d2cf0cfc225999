import Musicat.Database.PlaylistView
import Musicat.Lib.Ghost
import Musicat.Lib.Table

/-!
# The stored playlists

The table `playlists` has no constraint on its keys. `update_user_playlist`
updates the row of a user and a name, and inserts one when the update returned
no row, which it does as well when the update failed. Along statements that do
not fail in between, the table is a map from a user and a name to the queue that
was last saved there (`playlists_map`), whatever else is saved and deleted. What
a command shows of it depends on its `SELECT`: one that fails has no rows, and
the commands take that for a name that was never saved.
-/

namespace Musicat.Database

open Lib Server

/-- `uid` and `name`. -/
abbrev PlaylistKey := Nat × String

/-- The table, with the text of `raw`. -/
abbrev Playlists := Table PlaylistKey String

/-- `ExecStatusType`. -/
inductive ExecStatus where
  | commandOk
  | tuplesOk
  | fatalError
  /-- Returned without a statement. -/
  | code (n : Int)
  deriving DecidableEq, Repr

/-! ## `db.cpp` -/

section
variable (dump : Json → String) (parse : String → Option Json)

/-- `update_user_playlist`; whether the two statements are executed is up to the server. -/
def updateUserPlaylist (userId : Nat) (name : String) (playlist : List StoredTrack)
    (updates inserts : Bool) (t : Playlists) : Except Json.Error (ExecStatus × Playlists) :=
  if userId = 0 then .ok (.code (-1), t)
  else do
    let jso ← convertPlaylistToJson playlist
    -- `RETURNING "name"` has a row only for a statement that updated one
    if updates && !(t.rows (userId, name)).isEmpty then
      pure (.commandOk, t.update (userId, name) (dump jso))
    else if inserts then pure (.commandOk, t.insert (userId, name) (dump jso))
    else pure (.fatalError, t)

/-- `delete_user_playlist`. -/
def deleteUserPlaylist (userId : Nat) (name : String) (deletes : Bool) (t : Playlists) :
    ExecStatus × Playlists :=
  if userId = 0 then (.code (-1), t)
  else if deletes then
    (if (t.rows (userId, name)).isEmpty then .fatalError else .tuplesOk, t.delete (userId, name))
  else (.fatalError, t)

/-- What `PQexec` returns for a `SELECT`. -/
inductive SelectOutcome where
  | executed
  /-- A result without rows, with its status. -/
  | failed (status : Int)
  /-- A null pointer, whose status is `PGRES_FATAL_ERROR`. -/
  | null
  deriving DecidableEq, Repr

/-- `PGRES_TUPLES_OK`. -/
def tuplesOk : Int := 2

/-- `PGRES_FATAL_ERROR`. -/
def fatalError : Int := 7

/-- The rows of a result, `none` for a null pointer, and its status. -/
def SelectOutcome.result (rows : List String) : SelectOutcome → Option (List String) × Int
  | executed => (some rows, tuplesOk)
  | failed status => (some [], status)
  | null => (none, fatalError)

/-- `get_user_playlist` of the raw column: the result, if there is one, by its first row. -/
def getUserPlaylist (userId : Nat) (name : String) (select : SelectOutcome) (t : Playlists) :
    Option (Option String) × Int :=
  if userId = 0 then (none, -1)
  else if name.isEmpty then (none, -3)
  else
    let (res, status) := select.result (t.rows (userId, name))
    (res.map List.head?, status)

/-- `get_all_user_playlist` of the names. -/
def getAllUserPlaylist (userId : Nat) (select : SelectOutcome) (t : Playlists) :
    Option (List String) × Int :=
  if userId = 0 then (none, -1)
  else select.result ((t.filter (·.1.1 = userId)).map (·.1.2))

/-! ## `/playlist` -/

inductive PlaylistReply where
  | noTrack
  | saved (siz : Nat)
  | notSaved
  | deleted
  | unknown
  /-- An exception leaves the command. -/
  | thrown (e : Json.Error)

/-- `save::slash_run`, with what `get_queue` returned. -/
def saveSlashRun (userId : Nat) (pId : String) (q : List StoredTrack) (updates inserts : Bool)
    (t : Playlists) : PlaylistReply × Playlists :=
  if q.isEmpty then (.noTrack, t)
  else
    match updateUserPlaylist dump userId pId q updates inserts t with
    | .error e => (.thrown e, t)
    | .ok (.commandOk, t) => (.saved q.length, t)
    | .ok (_, t) => (.notSaved, t)

/-- `delete_::slash_run`. -/
def deleteSlashRun (userId : Nat) (pId : String) (deletes : Bool) (t : Playlists) :
    PlaylistReply × Playlists :=
  match deleteUserPlaylist userId pId deletes t with
  | (.tuplesOk, t) => (.deleted, t)
  | (_, t) => (.unknown, t)

/-- `autocomplete::id`: the names it has for `filter_candidates`. -/
def autocompleteNames (userId : Nat) (select : SelectOutcome) (t : Playlists) : List String :=
  let (res, status) := getAllUserPlaylist userId select t
  if status = tuplesOk then res.getD [] else []

/-- `load::slash_run` and `view::slash_run`. -/
def loadSlashRun (view : Bool) (argTop : Int) (userId : Nat) (pId : String)
    (select : SelectOutcome) (t : Playlists) : Except Json.Error ViewOutcome :=
  let (res, status) := getUserPlaylist userId pId select t
  slashRun parse view argTop userId res status

/-- A command that writes, with the outcome of its statements. -/
inductive PlaylistCommand where
  | save (userId : Nat) (pId : String) (q : List StoredTrack) (updates inserts : Bool)
  | delete (userId : Nat) (pId : String) (deletes : Bool)

def runCommand (t : Playlists) : PlaylistCommand → PlaylistReply × Playlists
  | .save userId pId q updates inserts => saveSlashRun dump userId pId q updates inserts t
  | .delete userId pId deletes => deleteSlashRun userId pId deletes t

def commandStep (t : Playlists) (c : PlaylistCommand) : Option Playlists :=
  some (runCommand dump t c).2

/-! ## What the replies say is stored -/

/-- The queue saved by each user under each name, by the replies. -/
abbrev SavedPlaylists := PlaylistKey → Option (List StoredTrack)

def noteReply (t : Playlists) (c : PlaylistCommand) (_ : Playlists) (m : SavedPlaylists) :
    SavedPlaylists :=
  match c, (runCommand dump t c).1 with
  | .save userId pId q _ _, .saved _ => Function.update m (userId, pId) (some q)
  | .delete userId pId _, .deleted => Function.update m (userId, pId) none
  | _, _ => m

/-- Of a queue to be saved every track has a raw object, and the text is read back; no insert
follows an update that failed on an existing row. -/
def Saves (t : Playlists) : PlaylistCommand → Prop
  | .save userId pId q updates inserts =>
    (∀ t ∈ q, t.raw.isObject) ∧
      (∀ jso, convertPlaylistToJson q = .ok jso → ReadsBack dump parse jso) ∧
      (updates ∨ inserts = false ∨ t.rows (userId, pId) = [])
  | .delete .. => True

/-- The text that a queue is saved as. -/
def playlistText (q : List StoredTrack) : String := dump (.array (q.map (·.merged)))

/-- What is kept of a queue that was saved. -/
structure Kept (q : List StoredTrack) : Prop where
  nonempty : q ≠ []
  raw : ∀ t ∈ q, t.raw.isObject
  readsBack : ReadsBack dump parse (.array (q.map (·.merged)))

/-- The table has the text of each saved queue, and nothing else. -/
structure Holds (t : Playlists) (m : SavedPlaylists) : Prop where
  represents : t.Represents fun k => (m k).map (playlistText dump)
  kept : ∀ k q, m k = some q → Kept dump parse q

variable {dump parse} {t t' : Playlists} {m m' : SavedPlaylists}

theorem holds_nil : Holds dump parse [] fun _ => none := ⟨Table.represents_nil, nofun⟩

theorem map_update (m : SavedPlaylists) (k : PlaylistKey) (q : Option (List StoredTrack)) :
    (fun k' => (Function.update m k q k').map (playlistText dump)) =
      Function.update (fun k' => (m k').map (playlistText dump)) k (q.map (playlistText dump)) := by
  funext k'
  by_cases h : k' = k
  · subst h
    simp
  · simp [h]

theorem Holds.put (h : Holds dump parse t m) {k : PlaylistKey} {q : List StoredTrack}
    (hq : Kept dump parse q)
    (ht : t'.Represents (Function.update (fun k' => (m k').map (playlistText dump)) k
      (some (playlistText dump q)))) : Holds dump parse t' (Function.update m k (some q)) where
  represents := by
    rw [map_update]
    exact ht
  kept k' q' hk := by
    by_cases hkk : k' = k
    · rw [hkk, Function.update_self] at hk
      exact Option.some.inj hk ▸ hq
    · rw [Function.update_of_ne hkk] at hk
      exact h.kept k' q' hk

theorem Holds.delete (h : Holds dump parse t m) (k : PlaylistKey) :
    Holds dump parse (t.delete k) (Function.update m k none) where
  represents := by
    rw [map_update]
    exact h.represents.delete
  kept k' q' hk := by
    by_cases hkk : k' = k
    · rw [hkk, Function.update_self] at hk
      cases hk
    · rw [Function.update_of_ne hkk] at hk
      exact h.kept k' q' hk

/-- What a save does: nothing, or one statement that stores the queue. -/
theorem saveSlashRun_cases {userId : Nat} {pId : String} {q : List StoredTrack}
    (updates inserts : Bool) (hraw : ∀ t ∈ q, t.raw.isObject) :
    (∃ r, saveSlashRun dump userId pId q updates inserts t = (r, t) ∧ ∀ n, r ≠ .saved n) ∨
      q ≠ [] ∧ userId ≠ 0 ∧
        (updates ∧ t.rows (userId, pId) ≠ [] ∧ saveSlashRun dump userId pId q updates inserts t =
            (.saved q.length, t.update (userId, pId) (playlistText dump q)) ∨
          (updates = false ∨ t.rows (userId, pId) = []) ∧ inserts ∧
            saveSlashRun dump userId pId q updates inserts t =
              (.saved q.length, t.insert (userId, pId) (playlistText dump q))) := by
  unfold saveSlashRun updateUserPlaylist
  by_cases hq : q = []
  · exact .inl ⟨.noTrack, by simp [hq], nofun⟩
  by_cases hu : userId = 0
  · exact .inl ⟨.notSaved, by simp [hq, hu], nofun⟩
  simp only [List.isEmpty_iff, hq, hu, if_false, convertPlaylistToJson_eq hq hraw, bind,
    Except.bind]
  by_cases hup : updates ∧ t.rows (userId, pId) ≠ []
  · exact .inr ⟨hq, hu, .inl ⟨hup.1, hup.2, by simp [hup, playlistText, pure, Except.pure]⟩⟩
  · have hno : updates = false ∨ t.rows (userId, pId) = [] := by
      cases updates <;> simp_all
    have hcond : (updates && !(t.rows (userId, pId)).isEmpty) = false := by
      rcases hno with h | h <;> simp [h]
    by_cases hin : inserts
    · exact .inr ⟨hq, hu, .inr ⟨hno, hin, by
        simp [hcond, hin, playlistText, pure, Except.pure]⟩⟩
    · exact .inl ⟨.notSaved, by simp [hcond, hin, pure, Except.pure], nofun⟩

theorem Holds.step {c : PlaylistCommand} (h : Holds dump parse t m) (hc : Saves dump parse t c) :
    Holds dump parse (runCommand dump t c).2 (noteReply dump t c t' m) := by
  cases c with
  | save userId pId q updates inserts =>
    obtain ⟨hraw, hjson, hfail⟩ := hc
    rcases @saveSlashRun_cases dump t userId pId q updates inserts hraw with
      ⟨r, hr, hns⟩ | ⟨hq, hu, hstored⟩
    · simp only [runCommand, noteReply, hr]
      cases r <;> first | exact h | exact absurd rfl (hns _)
    · have hkept : Kept dump parse q := ⟨hq, hraw, hjson _ (convertPlaylistToJson_eq hq hraw)⟩
      have hempty := h.represents.isEmpty_iff (k := (userId, pId))
      rw [List.isEmpty_iff] at hempty
      rcases hstored with ⟨-, hrow, hr⟩ | ⟨hno, hin, hr⟩ <;>
        simp only [runCommand, noteReply, hr]
      · exact h.put hkept (h.represents.update (mt hempty.2 hrow))
      · refine h.put hkept (h.represents.insert (hempty.1 ?_))
        rcases hno with hno | hno
        · rcases hfail with hf | hf | hf
          · rw [hno] at hf
            cases hf
          · rw [hin] at hf
            cases hf
          · exact hf
        · exact hno
  | delete userId pId deletes =>
    simp only [runCommand, noteReply, deleteSlashRun, deleteUserPlaylist]
    by_cases hu : userId = 0
    · simpa [hu] using h
    by_cases hd : deletes
    · have hdel := h.delete (userId, pId)
      by_cases hrow : t.rows (userId, pId) = []
      · have hnone : m (userId, pId) = none := by
          have := h.represents.isEmpty_iff (k := (userId, pId)).1 (by rw [hrow]; rfl)
          simpa using this
        rw [show Function.update m (userId, pId) none = m by
          rw [← hnone, Function.update_eq_self]] at hdel
        simpa [hu, hd, hrow] using hdel
      · simpa [hu, hd, hrow] using hdel
    · simpa [hu, hd] using h

/-- A queue that was saved is read back. -/
theorem Kept.reads {q : List StoredTrack} (h : Kept dump parse q) :
    ∃ q', getPlaylistFromPGresult parse (some (playlistText dump q)) = .ok (q', 0) ∧
      List.Forall₂ Restored q q' := by
  obtain ⟨j, hparse, hsame⟩ := h.readsBack.parse
  obtain ⟨xs, rfl, hxs⟩ := hsame.eq_array
  have hfilter : xs.filter (!·.isNull) = xs := by
    refine filter_entries hxs fun y hy => ?_
    obtain ⟨t, ht, rfl⟩ := List.mem_map.1 hy
    exact merged_isObject (h.raw t ht)
  obtain ⟨q', hread, hr⟩ := readEntries_same h.raw hxs
  have hxs0 : xs.isEmpty = false := by
    have hlen := hxs.length_eq
    rw [List.length_map] at hlen
    have := List.length_pos_iff.2 h.nonempty
    rw [List.isEmpty_eq_false_iff, ← List.length_pos_iff]
    omega
  refine ⟨q', ?_, hr⟩
  simp [getPlaylistFromPGresult, playlistText, hparse, hxs0, hfilter, hread, bind, Except.bind]

/-- The names are those of the keys with the user's id. -/
theorem autocompleteNames_executed {userId : Nat} (hu : userId ≠ 0) :
    autocompleteNames userId .executed t =
      ((t.map Prod.fst).filter (·.1 = userId)).map Prod.snd := by
  rw [autocompleteNames, getAllUserPlaylist, if_neg hu, List.filter_map, List.map_map]
  rfl

/-- What the commands show a user of the table is what `m` has of the user. Where the `SELECT` is
executed, a load or a view finds the queue stored under a name, and the names for autocomplete are
those with a queue, once each; where it is not, there is nothing. -/
structure Shows (parse : String → Option Json) (t : Playlists) (m : SavedPlaylists)
    (userId : Nat) : Prop where
  unknown : ∀ pId, pId ≠ "" → m (userId, pId) = none → ∀ view argTop,
    loadSlashRun parse view argTop userId pId .executed t = .ok (.edited "Unknown playlist")
  stored : ∀ pId q, pId ≠ "" → m (userId, pId) = some q → ∃ q', List.Forall₂ Restored q q' ∧
    ∀ view argTop, loadSlashRun parse view argTop userId pId .executed t =
      .ok (if view then .paginated (toIter argTop userId q') else .added (toIter argTop userId q'))
  failed : ∀ pId, pId ≠ "" → ∀ select, select ≠ .executed → ∀ view argTop, ∃ reply,
    loadSlashRun parse view argTop userId pId select t = .ok (.edited reply)
  nodup : (autocompleteNames userId .executed t).Nodup
  names : ∀ pId, pId ∈ autocompleteNames userId .executed t ↔ m (userId, pId) ≠ none
  noNames : ∀ select, select ≠ .executed → autocompleteNames userId select t = []

theorem Holds.getUserPlaylist (h : Holds dump parse t m) {userId : Nat} (hu : userId ≠ 0)
    {pId : String} (hp : pId ≠ "") : (getUserPlaylist userId pId .executed t).1 =
      some ((m (userId, pId)).map (playlistText dump)) := by
  have hempty : pId.isEmpty = false := by simpa using hp
  simp only [Database.getUserPlaylist, SelectOutcome.result, hu, hempty, if_false, Option.map_some,
    h.represents (userId, pId)]
  cases m (userId, pId) <;> rfl

/-- A `SELECT` that fails has no row, and the reply says so. -/
theorem loadSlashRun_failed {userId : Nat} (hu : userId ≠ 0) {pId : String} (hp : pId ≠ "")
    {select : SelectOutcome} (hs : select ≠ .executed) (view : Bool) (argTop : Int) :
    ∃ reply, loadSlashRun parse view argTop userId pId select t = .ok (.edited reply) := by
  have hempty : pId.isEmpty = false := by simpa using hp
  cases select with
  | executed => exact absurd rfl hs
  | failed status =>
    exact ⟨"Unknown playlist", by
      simp [loadSlashRun, Database.getUserPlaylist, SelectOutcome.result, hu, hempty, slashRun,
        getPlaylistFromPGresult, respond, Except.map]⟩
  | null =>
    exact ⟨_, by
      simp [loadSlashRun, Database.getUserPlaylist, SelectOutcome.result, hu, hempty, slashRun,
        getPlaylistFromPGresult, respond, Except.map, fatalError]
      rfl⟩

theorem Holds.shows (h : Holds dump parse t m) {userId : Nat} (hu : userId ≠ 0) :
    Shows parse t m userId where
  unknown pId hp hm view argTop := by
    have hget := h.getUserPlaylist hu hp
    rw [hm] at hget
    simp [loadSlashRun, slashRun, hget, getPlaylistFromPGresult, respond, Except.map]
  stored pId q hp hm := by
    have hget := h.getUserPlaylist hu hp
    obtain ⟨q', hread, hr⟩ := (h.kept _ _ hm).reads
    rw [hm] at hget
    refine ⟨q', hr, fun view argTop => ?_⟩
    simp only [loadSlashRun, slashRun, hget, Option.map_some, Option.join_some, hread, Except.map,
      respond]
    cases view <;> simp
  failed pId hp select hs view argTop := loadSlashRun_failed hu hp hs view argTop
  nodup := by
    rw [autocompleteNames_executed hu]
    refine (h.represents.keys.1.filter _).map_on ?_
    rintro ⟨u, n⟩ hx ⟨u', n'⟩ hy hnn
    simp only [List.mem_filter, decide_eq_true_eq] at hx hy
    rw [hx.2, hy.2, show n = n' from hnn]
  names pId := by
    have hmap := h.represents.keys.2 (userId, pId)
    rw [autocompleteNames_executed hu]
    simp only [List.mem_map, List.mem_filter, decide_eq_true_eq]
    constructor
    · rintro ⟨⟨u, n⟩, ⟨hmem, rfl⟩, rfl⟩
      simpa using hmap.1 (List.mem_map.2 hmem)
    · intro hne
      exact ⟨(userId, pId), ⟨List.mem_map.1 (hmap.2 (by simpa using hne)), rfl⟩, rfl⟩
  noNames select hs := by
    cases select with
    | executed => exact absurd rfl hs
    | failed status => simp [autocompleteNames, getAllUserPlaylist, SelectOutcome.result, hu]
    | null => simp [autocompleteNames, getAllUserPlaylist, SelectOutcome.result, hu]

/-- **The table is a map of playlists**: what a user loads or views under a name is the queue that
the last successful save stored there, unless it was deleted since, and nothing when it cannot be
read. -/
theorem playlists_map {l : List PlaylistCommand}
    (hl : Along (commandStep dump) (Saves dump parse) [] l)
    (h : run (noted (commandStep dump) (noteReply dump)) ([], fun _ => none) l = some (t, m))
    {userId : Nat} (hu : userId ≠ 0) : Shows parse t m userId := by
  suffices hi : Holds dump parse t m from hi.shows hu
  refine noted_inv (I := fun t m => Holds dump parse t m) (fun t c t' m hi hc hs => ?_)
    holds_nil hl h
  cases hs
  exact hi.step hc

/-- One track saved under two names, and the first one deleted. -/
def savedTwice : List PlaylistCommand :=
  [.save 7 "a" [savedTrack] true true, .save 7 "b" [savedTrack] true true, .delete 7 "a" true]

theorem playlists_map_savedTwice :
    ∃ t m, run (noted (commandStep fun _ => savedText) (noteReply fun _ => savedText))
        ([], fun _ => none) savedTwice = some (t, m) ∧ t = [((7, "b"), savedText)] ∧
      Shows (fun _ => some savedDocument) t m 7 := by
  have hraw : ∀ t ∈ [savedTrack], t.raw.isObject := by
    intro t ht
    rw [List.mem_singleton.1 ht]
    rfl
  have hjson (jso : Json) (h : convertPlaylistToJson [savedTrack] = .ok jso) :
      ReadsBack (fun _ => savedText) (fun _ => some savedDocument) jso := by
    cases h
    exact ⟨⟨savedDocument, rfl, savedDocument_same⟩, fun _ _ => rfl⟩
  refine ⟨_, _, rfl, rfl, @playlists_map (fun _ => savedText) _ _ _ savedTwice ?_ rfl _
    (by decide)⟩
  refine ⟨⟨hraw, hjson, .inl rfl⟩, fun _ _ => ⟨⟨hraw, hjson, .inl rfl⟩, fun _ _ => ?_⟩⟩
  exact ⟨trivial, fun _ _ => trivial⟩

end

end Musicat.Database
