import Musicat.Database.Playlist

/-!
# Viewing a stored playlist

The view command returns on the statuses -2 and -1 of
`get_playlist_from_PGresult` and hands the tracks of any other to
`reply_paginated_playlist`, whose message has the first of the pages it builds.
The status is -3 where the text does not parse, and 0 also where every entry
was null and skipped (`views_page_iff`).

What `mctrack` and `util` say about a track are parameters, and sending the
message is left out.
-/

namespace Musicat.Database

open Server

/-! ## The pages -/

/-- What the pages say about a track. -/
structure TrackTexts where
  getTitle : StoredTrack → String
  getUrl : StoredTrack → String
  getDuration : StoredTrack → Nat
  formatDuration : Nat → String
  /-- `get_track_progress` of the track the guild plays, of the first one if it plays none: the
  current time and the duration, `none` unless its status is zero. -/
  progress : StoredTrack → Option (Nat × Nat)

structure Embed where
  title : String
  description : String
  footer : String
  deriving DecidableEq, Repr

/-- The variables `_construct_desc` is called with. -/
structure Pages where
  desc : String := ""
  id : Nat := 1
  count : Nat := 0
  embeds : List Embed := []

section

variable (x : TrackTexts) (title : String) (totald qs : Nat)

def firstLine (t : StoredTrack) : String :=
  "Current track: [" ++ x.getTitle t ++ "](" ++ x.getUrl t ++ ")" ++
    (match x.progress t with
      | some (currentMs, duration) =>
        " [" ++ x.formatDuration currentMs ++ "/" ++ x.formatDuration duration ++ "]"
      | none => "") ++
    " - <@" ++ toString t.userId ++ ">\n\n"

def line (id : Nat) (t : StoredTrack) : String :=
  let dur := x.getDuration t
  toString id ++ ": [" ++ x.getTitle t ++ "](" ++ x.getUrl t ++ ")" ++
    (if dur ≠ 0 then " [" ++ x.formatDuration dur ++ "]" else "") ++
    " - <@" ++ toString t.userId ++ ">\n"

def footer : String :=
  let fot := if totald ≠ 0 then x.formatDuration totald else ""
  if qs ≠ 0 then
    (if fot.isEmpty then fot else fot ++ " | ") ++ toString qs ++ " track" ++
      (if qs > 1 then "s" else "")
  else fot

def embed (desc : String) : Embed where
  title := title
  description :=
    if desc.utf8ByteSize > 2048 then "Description too long, pagination is on the way!" else desc
  footer := footer x totald qs

/-- The second part of `_construct_desc`. -/
def emit (p : Pages) : Pages :=
  if p.count ≠ 0 ∧ p.count % 10 = 0 ∨ p.id = qs then
    { p with desc := "", count := 0, embeds := p.embeds ++ [embed x title totald qs p.desc] }
  else p

/-- `_construct_desc` of the first track. -/
def constructFirst (t : StoredTrack) : Pages :=
  emit x title totald qs { desc := firstLine x t }

/-- `_construct_desc` of a later track. -/
def constructDesc (p : Pages) (t : StoredTrack) : Pages :=
  emit x title totald qs
    { p with desc := p.desc ++ line x p.id t, id := p.id + 1, count := p.count + 1 }

/-- The embeds of `reply_paginated_playlist`. -/
def playlistEmbeds (queue : List StoredTrack) : List Embed :=
  let totald := (queue.map x.getDuration).sum
  match queue with
  | [] => []
  | t :: rest =>
    (rest.foldl (constructDesc x title totald queue.length)
      (constructFirst x title totald queue.length t)).embeds

/-- `reply_paginated_playlist`: the page in its message and whether it has buttons, `none` where
`embeds.front ()` is not defined. -/
def replyPaginatedPlaylist (queue : List StoredTrack) : Option (Embed × Bool) :=
  let embeds := playlistEmbeds x title queue
  embeds.head?.map fun front => (front, decide (embeds.length > 1))

variable {x title totald qs}

@[simp] theorem emit_id (p : Pages) : (emit x title totald qs p).id = p.id := by
  unfold emit
  split <;> rfl

variable (x title totald qs) in
theorem emit_embeds (p : Pages) (h : p.embeds ≠ [] ∨ p.id = qs) :
    (emit x title totald qs p).embeds ≠ [] := by
  unfold emit
  split
  · simp
  · rename_i hno
    exact h.resolve_right fun hid => hno (.inr hid)

/-- The last track has the number of tracks as its id, so it emits a page. -/
theorem foldl_constructDesc (rest : List StoredTrack) (p : Pages)
    (h : p.embeds ≠ [] ∨ p.id + rest.length = qs) (hr : rest ≠ [] ∨ p.embeds ≠ []) :
    (rest.foldl (constructDesc x title totald qs) p).embeds ≠ [] := by
  induction rest generalizing p with
  | nil => exact hr.resolve_left fun h => h rfl
  | cons t rest ih =>
    have hid : (constructDesc x title totald qs p t).id = p.id + 1 := emit_id _
    have hemb := fun h => emit_embeds x title totald qs
      { p with desc := p.desc ++ line x p.id t, id := p.id + 1, count := p.count + 1 } h
    rw [List.length_cons] at h
    refine ih _ ?_ ?_
    · rcases h with h | h
      · exact .inl (hemb (.inl h))
      · exact .inr (by rw [hid]; omega)
    · cases rest with
      | cons => exact .inl (List.cons_ne_nil _ _)
      | nil => exact .inr (hemb (h.imp id fun h => by simpa using h))

theorem playlistEmbeds_ne_nil {queue : List StoredTrack} (hq : queue ≠ []) :
    playlistEmbeds x title queue ≠ [] := by
  cases queue with
  | nil => exact absurd rfl hq
  | cons t rest =>
    refine foldl_constructDesc rest _ (.inr ?_) ?_
    · rw [constructFirst, emit_id]
      exact Nat.add_comm 1 rest.length
    · cases rest with
      | cons => exact .inl (List.cons_ne_nil _ _)
      | nil => exact .inr (emit_embeds _ _ _ _ _ (.inr rfl))

theorem replyPaginatedPlaylist_isSome {queue : List StoredTrack} :
    (replyPaginatedPlaylist x title queue).isSome ↔ queue ≠ [] := by
  rw [replyPaginatedPlaylist, Option.isSome_map, List.isSome_head?]
  constructor
  · rintro h rfl
    exact h rfl
  · exact playlistEmbeds_ne_nil

end

/-! ## The command -/

inductive ViewOutcome where
  | edited (response : String)
  /-- A call of `reply_paginated_playlist`. -/
  | paginated (queue : List StoredTrack)
  /-- The tracks that are added to the guild's queue, in order. -/
  | added (tracks : List StoredTrack)

/-- `to_iter`, with the user set. -/
def toIter (argTop : Int) (user : Nat) (tracks : List StoredTrack) : List StoredTrack :=
  (if argTop ≠ 0 then tracks.reverse else tracks).map ({ · with userId := user })

/-- What `slash_run` does with the tracks and the status; `res` is `none` for a null result. -/
def respond (view : Bool) (argTop : Int) (user : Nat) (res : Option (Option String)) (status : Int)
    (playlistRes : List StoredTrack × Int) : ViewOutcome :=
  if playlistRes.2 = -2 then
    if res.isSome then .edited "Unknown playlist"
    else if status = -3 then .edited "Invalid `id` format!"
    else .edited ("`[ERROR]` Unexpected error getting user playlist with code: " ++ toString status)
  else if playlistRes.2 = -1 then
    .edited "This playlist is empty, save a new one with the same Id to overwrite it"
  else if view then .paginated (toIter argTop user playlistRes.1)
  else .added (toIter argTop user playlistRes.1)

/-- `slash_run`; an exception escapes from it. -/
def slashRun (parse : String → Option Json) (view : Bool) (argTop : Int) (user : Nat)
    (res : Option (Option String)) (status : Int) : Except Json.Error ViewOutcome :=
  (getPlaylistFromPGresult parse res.join).map (respond view argTop user res status)

/-- The raw does not parse, or it is an array with nothing but nulls. -/
def NoTracks (parse : String → Option Json) (res : Option String) : Prop :=
  ∃ text, res = some text ∧
    (parse text = none ∨
      ∃ items, parse text = some (.array items) ∧ items ≠ [] ∧ ∀ j ∈ items, j.isNull)

variable {parse : String → Option Json} {res : Option String}

theorem mapM_readEntry_length {items : List Json} {tracks : List StoredTrack}
    (h : items.mapM readEntry = .ok tracks) : tracks.length = items.length := by
  induction items generalizing tracks with
  | nil => cases h; rfl
  | cons j items ih =>
    rw [List.mapM_cons] at h
    cases hj : readEntry j with
    | error e => rw [hj] at h; cases h
    | ok t =>
      cases hrest : items.mapM readEntry with
      | error e => rw [hj, hrest] at h; cases h
      | ok rest =>
        rw [hj, hrest] at h
        cases h
        rw [List.length_cons, List.length_cons, ih hrest]

/-- What the entries of an array give: no track, exactly if all are null. -/
theorem entries_nil_iff {items : List Json} {tracks : List StoredTrack} {code : Int}
    (h : ((items.filter (!·.isNull)).mapM readEntry >>= fun ret =>
      (.ok (ret, 0) : Except Json.Error (List StoredTrack × Int))) = .ok (tracks, code)) :
    tracks = [] ↔ ∀ j ∈ items, j.isNull := by
  cases hm : (items.filter (!·.isNull)).mapM readEntry with
  | error e => rw [hm] at h; cases h
  | ok ret =>
    rw [hm] at h
    cases h
    rw [← List.length_eq_zero_iff, mapM_readEntry_length hm, List.length_eq_zero_iff,
      List.filter_eq_nil_iff]
    simp

theorem tracks_nil_iff {tracks : List StoredTrack} {code : Int}
    (h : getPlaylistFromPGresult parse res = .ok (tracks, code)) (h2 : code ≠ -2)
    (h1 : code ≠ -1) : tracks = [] ↔ NoTracks parse res := by
  cases res with
  | none => cases h; exact absurd rfl h2
  | some text =>
    simp only [getPlaylistFromPGresult] at h
    split at h
    · rename_i hp
      cases h
      exact ⟨fun _ => ⟨text, rfl, .inl hp⟩, fun _ => rfl⟩
    · rename_i items hp
      split at h
      · cases h; exact absurd rfl h1
      · rename_i hne
        rw [List.isEmpty_iff] at hne
        rw [entries_nil_iff h]
        constructor
        · exact fun hnull => ⟨text, rfl, .inr ⟨items, hp, hne, hnull⟩⟩
        · rintro ⟨_, ⟨⟩, hbad | ⟨items', hp', -, hnull⟩⟩
          · rw [hp] at hbad; cases hbad
          · rw [hp] at hp'; cases hp'; exact hnull
    · cases h; exact absurd rfl h1

/-- What a view hands to `reply_paginated_playlist`, on a status other than -2 and -1. -/
theorem respond_paginated {playlistRes : List StoredTrack × Int} {argTop status : Int} {user : Nat}
    {res : Option (Option String)} {queue : List StoredTrack} :
    respond true argTop user res status playlistRes = .paginated queue ↔
      playlistRes.2 ≠ -2 ∧ playlistRes.2 ≠ -1 ∧ toIter argTop user playlistRes.1 = queue := by
  unfold respond
  split
  · rename_i h2
    refine ⟨fun h => ?_, fun h => absurd h2 h.1⟩
    split at h <;> first | cases h | (split at h <;> cases h)
  · rename_i h2
    split
    · rename_i h1
      exact ⟨nofun, fun h => absurd h1 h.2.1⟩
    · rename_i h1
      exact ⟨fun h => ⟨h2, h1, ViewOutcome.paginated.inj h⟩, fun h => congrArg _ h.2.2⟩

theorem slashRun_paginated {argTop status : Int} {user : Nat} {res : Option (Option String)}
    {queue : List StoredTrack} :
    slashRun parse true argTop user res status = .ok (.paginated queue) ↔
      ∃ tracks code, getPlaylistFromPGresult parse res.join = .ok (tracks, code) ∧
        code ≠ -2 ∧ code ≠ -1 ∧ toIter argTop user tracks = queue := by
  unfold slashRun
  cases hget : getPlaylistFromPGresult parse res.join with
  | error e => exact ⟨nofun, fun ⟨_, _, h, _⟩ => nomatch h⟩
  | ok r =>
    obtain ⟨tracks, code⟩ := r
    constructor
    · intro h
      exact ⟨tracks, code, rfl, respond_paginated.1 (Except.ok.inj h)⟩
    · rintro ⟨_, _, ⟨⟩, h⟩
      exact congrArg Except.ok (respond_paginated.2 h)

/-- The queue of a view is empty when no track was read. -/
theorem toIter_nil_iff {argTop : Int} {user : Nat} {tracks : List StoredTrack} :
    toIter argTop user tracks = [] ↔ tracks = [] := by
  rw [toIter, List.map_eq_nil_iff]
  split
  · exact List.reverse_eq_nil_iff
  · exact Iff.rfl

/-- What a raw without tracks is read as. -/
theorem getPlaylist_of_noTracks (h : NoTracks parse res) :
    ∃ code, getPlaylistFromPGresult parse res = .ok ([], code) ∧ code ≠ -2 ∧ code ≠ -1 := by
  obtain ⟨text, rfl, hp | ⟨items, hp, hne, hnull⟩⟩ := h
  · exact ⟨-3, by simp only [getPlaylistFromPGresult, hp], by decide, by decide⟩
  · have hfilter : items.filter (!·.isNull) = [] :=
      List.filter_eq_nil_iff.2 fun j hj => by simp [hnull j hj]
    refine ⟨0, ?_, by decide, by decide⟩
    simp only [getPlaylistFromPGresult, hp, List.isEmpty_iff, hne, if_false, hfilter]
    rfl

/-- Every call of `reply_paginated_playlist` that a view makes has a front page. -/
def ShowsPage (x : TrackTexts) (title : String) (outcome : Except Json.Error ViewOutcome) : Prop :=
  ∀ queue, outcome = .ok (.paginated queue) →
    queue ≠ [] ∧ (replyPaginatedPlaylist x title queue).isSome

/-- A view has a front page to show unless the raw does not parse or has nothing but nulls. -/
theorem views_page_iff (x : TrackTexts) (title : String) (parse : String → Option Json)
    (argTop : Int) (user : Nat) (res : Option (Option String)) (status : Int) :
    ShowsPage x title (slashRun parse true argTop user res status) ↔ ¬NoTracks parse res.join := by
  constructor
  · intro hshows hno
    obtain ⟨code, hget, h2, h1⟩ := getPlaylist_of_noTracks hno
    exact (hshows [] (slashRun_paginated.2
      ⟨[], code, hget, h2, h1, toIter_nil_iff.2 rfl⟩)).1 rfl
  · intro hno queue hrun
    obtain ⟨tracks, code, hget, h2, h1, rfl⟩ := slashRun_paginated.1 hrun
    have hq : toIter argTop user tracks ≠ [] := fun hnil =>
      hno ((tracks_nil_iff hget h2 h1).1 (toIter_nil_iff.1 hnil))
    exact ⟨hq, replyPaginatedPlaylist_isSome.2 hq⟩

/-- A row whose raw is `[null]` is shown from no tracks. -/
theorem null_entry_views_nothing :
    ¬∀ (x : TrackTexts) (title : String) (parse : String → Option Json) (argTop : Int) (user : Nat)
      (res : Option (Option String)) (status : Int),
      ShowsPage x title (slashRun parse true argTop user res status) := by
  intro h
  have hshows := h ⟨fun _ => "", fun _ => "", fun _ => 0, fun _ => "", fun _ => none⟩ "mix"
    (fun _ => some (.array [.null])) 0 1 (some (some "[null]")) 2
  exact (hshows [] rfl).1 rfl

end Musicat.Database
