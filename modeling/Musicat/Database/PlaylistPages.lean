import Musicat.Lib.Paged
import Musicat.Database.PlaylistView

/-!
# What the pages list

The loop over the queue puts the first track on the first page and every later
one, with its number, on the page it is at; a page ends at its tenth numbered
track and at the end of the queue. A text of more than 2048 bytes is not shown:
its page says so, and the tracks on it are on no page.
-/

namespace Musicat.Database

open Lib

/-- What a page shows of its text. -/
def shown (text : String) : String :=
  if text.utf8ByteSize > 2048 then "Description too long, pagination is on the way!" else text

section
variable (x : TrackTexts) (title : String) (totald qs : Nat)

/-- The lines of numbered tracks. -/
def lines (tracks : List (StoredTrack × Nat)) : String :=
  String.join (tracks.map fun t => line x t.2 t.1)

/-- The texts of the pages, the first of which begins with `desc`. -/
def pageTexts (desc : String) {used : Nat} {l : List (StoredTrack × Nat)} (pages : Paged 10 used l) :
    List String :=
  (desc ++ lines x pages.first) :: pages.others.map (lines x)

/-- A track on the page that there is. -/
def Pages.extended (p : Pages) (t : StoredTrack) : Pages :=
  { p with desc := p.desc ++ line x p.id t, id := p.id + 1, count := p.count + 1 }

/-- A track, and the end of the page. -/
def Pages.ended (p : Pages) (t : StoredTrack) : Pages where
  id := p.id + 1
  embeds := p.embeds ++ [embed x title totald qs (p.desc ++ line x p.id t)]

variable {x title totald qs}
variable {p : Pages} {t : StoredTrack}

theorem embed_description (desc : String) :
    (embed x title totald qs desc).description = shown desc := rfl

/-- A page ends at its tenth numbered track, and at the end of the queue. -/
theorem constructDesc_ends (h : p.count + 1 = 10 ∨ p.id + 1 = qs) :
    constructDesc x title totald qs p t = p.ended x title totald qs t := by
  rw [constructDesc, emit, if_pos]
  · rfl
  · dsimp only
    omega

theorem constructDesc_goes_on (hcount : p.count + 1 < 10) (hid : p.id + 1 ≠ qs) :
    constructDesc x title totald qs p t = p.extended x t := by
  rw [constructDesc, emit, if_neg]
  · rfl
  · dsimp only
    omega

section
variable {used id : Nat} {l : List (StoredTrack × Nat)} {desc : String}

theorem lines_cons (tracks : List (StoredTrack × Nat)) :
    lines x ((t, id) :: tracks) = line x id t ++ lines x tracks := by
  rw [lines, List.map_cons, String.join_cons, lines]

theorem pageTexts_nil (h : used ≤ 10) : pageTexts x desc (.nil h (by decide)) = [desc] := by
  simp [pageTexts, lines]

theorem pageTexts_onPage (pages : Paged 10 (used + 1) l) :
    pageTexts x desc (.onPage (t, id) pages) = pageTexts x (desc ++ line x id t) pages := by
  rw [pageTexts, pageTexts, Paged.onPage_first, Paged.onPage_others, lines_cons,
    String.append_assoc]

theorem pageTexts_turnPage (hfull : used + 1 = 10) (hl : l ≠ []) (pages : Paged 10 0 l) :
    pageTexts x desc (.turnPage (t, id) hfull hl pages) =
      (desc ++ line x id t) :: pageTexts x "" pages := by
  simp [pageTexts, lines]

end

/-- What the loop adds from where it is, when there are tracks left. -/
theorem foldl_constructDesc_pages {rest : List StoredTrack} (hid : p.id + rest.length = qs)
    (hcount : p.count < 10) (hrest : rest ≠ []) :
    ∃ pages : Paged 10 p.count (rest.zipIdx p.id),
      (rest.foldl (constructDesc x title totald qs) p).embeds =
        p.embeds ++ (pageTexts x p.desc pages).map (embed x title totald qs) := by
  induction rest generalizing p with
  | nil => exact absurd rfl hrest
  | cons t rest ih =>
    rw [List.length_cons] at hid
    rw [List.foldl_cons, List.zipIdx_cons]
    by_cases hlast : rest = []
    · subst hlast
      refine ⟨.onPage (t, p.id) (.nil hcount (by decide)), ?_⟩
      rw [constructDesc_ends (.inr hid), List.foldl_nil]
      exact congrArg (p.embeds ++ List.map _ ·) ((pageTexts_onPage _).trans (pageTexts_nil _)).symm
    have hlength := List.length_pos_iff.2 hlast
    have hrest : p.id + 1 + rest.length = qs := by omega
    by_cases hfull : p.count + 1 = 10
    · obtain ⟨pages, hpages⟩ : ∃ pages : Paged 10 0 (rest.zipIdx (p.id + 1)), _ :=
        ih (p := p.ended x title totald qs t) hrest (by decide : 0 < 10) hlast
      refine ⟨.turnPage (t, p.id) hfull (by simpa using hlast) pages, ?_⟩
      rw [constructDesc_ends (.inl hfull), hpages, pageTexts_turnPage, List.map_cons]
      exact List.append_assoc _ _ _
    · have hroom : p.count + 1 < 10 := by omega
      obtain ⟨pages, hpages⟩ : ∃ pages : Paged 10 (p.count + 1) (rest.zipIdx (p.id + 1)), _ :=
        ih (p := p.extended x t) hrest hroom hlast
      refine ⟨.onPage (t, p.id) pages, ?_⟩
      rw [constructDesc_goes_on hroom (by omega), hpages, pageTexts_onPage]
      rfl

theorem constructFirst_alone : constructFirst x title totald 1 t =
    { embeds := [embed x title totald 1 (firstLine x t)] } := rfl

theorem constructFirst_goes_on (h : 1 ≠ qs) : constructFirst x title totald qs t =
    { desc := firstLine x t } := by
  rw [constructFirst, emit, if_neg]
  dsimp only
  omega

/-- The pages that the loop makes of a queue. -/
theorem playlistEmbeds_pages (x : TrackTexts) (title : String) (t : StoredTrack)
    (rest : List StoredTrack) :
    ∃ pages : Paged 10 0 (rest.zipIdx 1),
      playlistEmbeds x title (t :: rest) = (pageTexts x (firstLine x t) pages).map
        (embed x title (((t :: rest).map x.getDuration).sum) (t :: rest).length) := by
  rw [playlistEmbeds]
  by_cases hrest : rest = []
  · subst hrest
    rw [List.zipIdx_nil]
    refine ⟨.nil (Nat.zero_le _) (by decide), ?_⟩
    rw [pageTexts_nil, List.foldl_nil]
    exact congrArg Pages.embeds constructFirst_alone
  · have hmore : 1 ≠ (t :: rest).length := by
      have := List.length_pos_iff.2 hrest
      rw [List.length_cons]
      omega
    rw [constructFirst_goes_on hmore]
    have hid : 1 + rest.length = (t :: rest).length := Nat.add_comm _ _
    exact foldl_constructDesc_pages (p := { desc := firstLine x t }) hid (show 0 < 10 by decide)
      hrest

end

/-- **The pages are those of the queue**: the first track on the first page, every other one with
its number, in order, ten to a page at most and on no more pages than that takes. A page shows its
text, unless it is too long. -/
theorem playlist_pages (x : TrackTexts) (title : String) (t : StoredTrack)
    (rest : List StoredTrack) :
    ∃ pages : Paged 10 0 (rest.zipIdx 1),
      (playlistEmbeds x title (t :: rest)).map (·.description) =
          (pageTexts x (firstLine x t) pages).map shown ∧
        (playlistEmbeds x title (t :: rest)).length = max 1 ((rest.length + 9) / 10) := by
  obtain ⟨pages, hpages⟩ := playlistEmbeds_pages x title t rest
  refine ⟨pages, ?_, ?_⟩
  · rw [hpages, List.map_map]
    exact List.map_congr_left fun desc _ => embed_description desc
  · have hlength := pages.length_eq
    rw [List.length_zipIdx, Nat.zero_add] at hlength
    rw [hpages, List.length_map, pageTexts, List.length_cons, List.length_map, hlength]

/-- The page of a queue of one track. -/
theorem playlistEmbeds_alone (x : TrackTexts) (title : String) (t : StoredTrack) :
    (playlistEmbeds x title [t]).map (·.description) = [shown (firstLine x t)] := by
  rw [playlistEmbeds, List.foldl_nil]
  exact congrArg (fun p : Pages => p.embeds.map (·.description)) constructFirst_alone

theorem size_le_append (a b : String) : a.utf8ByteSize ≤ (a ++ b).utf8ByteSize := by
  rw [String.utf8ByteSize_append]
  exact Nat.le_add_right _ _

/-- A line is longer than its title. -/
theorem size_title_lt (x : TrackTexts) (t : StoredTrack) :
    (x.getTitle t).utf8ByteSize < (firstLine x t).utf8ByteSize := by
  have hopen (s : String) : s.utf8ByteSize < ("Current track: [" ++ s).utf8ByteSize := by
    have hpos : 0 < "Current track: [".utf8ByteSize := by decide
    rw [String.utf8ByteSize_append]
    omega
  unfold firstLine
  iterate 7 refine lt_of_lt_of_le ?_ (size_le_append _ _)
  exact hopen _

/-- A page of too long a text does not show it. -/
theorem shown_ne_append {text : String} (h : 2048 < text.utf8ByteSize) (more : String) :
    shown text ≠ text ++ more := by
  intro heq
  have hsize := congrArg String.utf8ByteSize heq
  rw [shown, if_pos h, String.utf8ByteSize_append] at hsize
  have hmessage : "Description too long, pagination is on the way!".utf8ByteSize = 47 := rfl
  omega

/-- A text of `2 ^ n` letters. -/
private def letters : Nat → String
  | 0 => "a"
  | n + 1 => letters n ++ letters n

private theorem letters_size (n : Nat) : (letters n).utf8ByteSize = 2 ^ n := by
  induction n with
  | zero => decide
  | succ n ih =>
    rw [letters, String.utf8ByteSize_append, ih]
    omega

/-- A track whose title has 2048 letters is the only one of its queue, and its page does not list
it. -/
theorem long_title_not_listed :
    ¬ ∀ (x : TrackTexts) (title : String) (t : StoredTrack) (rest : List StoredTrack),
      ∃ pages : Paged 10 0 (rest.zipIdx 1),
        (playlistEmbeds x title (t :: rest)).map (·.description) =
          pageTexts x (firstLine x t) pages := by
  intro h
  obtain ⟨pages, hpages⟩ := h ⟨fun _ => letters 11, fun _ => "", fun _ => 0, fun _ => "",
    fun _ => none⟩ "" {} []
  rw [playlistEmbeds_alone, pageTexts, List.cons.injEq] at hpages
  refine shown_ne_append (lt_of_le_of_lt ?_ (size_title_lt _ _)) _ hpages.1
  exact (letters_size 11).ge

end Musicat.Database
