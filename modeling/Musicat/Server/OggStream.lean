import Mathlib.Algebra.Group.Nat.Defs
import Mathlib.Algebra.Ring.Int.Defs
import Musicat.Lib.Feed
import Musicat.Lib.Run

/-!
# The HTTP stream of a guild

`broadcast` writes a page to every subscriber, and before its first page the
headers in the cache; then `check_for_headers` looks at the page and renews the
cache. All of it runs in the loop of the server, one callback after the other.
The pages of a guild are a feed of tracks, each an `OpusHead` page, an `OpusTags`
page and audio pages, and may be cut short by the next.
-/

namespace Musicat.Server

open Lib

abbrev Page := List UInt8

inductive PageKind where
  | head
  | tags
  | audio
  deriving DecidableEq, Repr

/-! ## Looking at a page -/

/-- `"OpusHead"`. -/
def opusHead : List UInt8 := [0x4f, 0x70, 0x75, 0x73, 0x48, 0x65, 0x61, 0x64]

/-- `"OpusTags"`. -/
def opusTags : List UInt8 := [0x4f, 0x70, 0x75, 0x73, 0x54, 0x61, 0x67, 0x73]

/-- A byte as a `char`, which is signed. -/
def signedChar (b : UInt8) : Int := if b.toNat < 128 then b.toNat else b.toNat - 256

section
variable (outside : Int → UInt8)

/-- The byte at `packet + i`; `outside` is the memory around the page. -/
def byteAt (p : Page) (i : Int) : UInt8 := if 0 ≤ i then p.getD i.toNat 0 else outside i

/-- What `check_for_headers` takes the page for. `header_size` is a `size_t`, and so is the sum
that the length of the page is compared with. -/
def sniff (p : Page) : PageKind :=
  if p.length ≤ 27 then .audio
  else
    let lacingSize := signedChar (p.getD 26 0)
    let headerSize := (27 + lacingSize) % 2 ^ 64
    if (p.length : Int) ≤ (headerSize + 8) % 2 ^ 64 then .audio
    else
      let payload := (List.range 8).map fun j : Nat => byteAt outside p (27 + lacingSize + j)
      if payload = opusHead then .head
      else if payload = opusTags then .tags
      else .audio

/-- `check_for_headers`: the cache afterwards. -/
def checkForHeaders (headersCache : List Page) (p : Page) : List Page :=
  match sniff outside p with
  | .head => [p]
  | .tags => headersCache ++ [p]
  | .audio => headersCache

/-! ## The subscribers -/

structure StreamSub where
  res : Nat
  headersSent : Bool := false
  /-- What `res` has been written. -/
  written : List Page := []
  /-- How many pages the guild had broadcast when it subscribed. -/
  since : Nat
  deriving DecidableEq, Repr

structure GuildStream where
  streams : List StreamSub := []
  headersCache : List Page := []
  /-- The pages broadcast so far. -/
  tracks : List (List Page) := []
  deriving DecidableEq, Repr

/-- What `broadcast` does for one subscriber. -/
def StreamSub.broadcast (headersCache : List Page) (p : Page) (s : StreamSub) : StreamSub :=
  if s.headersSent then { s with written := s.written ++ [p] }
  else { s with headersSent := true, written := s.written ++ headersCache ++ [p] }

/-- The page as the container has it: the payload comes after 27 bytes and as many as byte 26
says. -/
def pageKind (p : Page) : PageKind :=
  let payload := p.drop (27 + (p.getD 26 0).toNat)
  if payload.length ≤ 8 then .audio
  else if payload.take 8 = opusHead then .head
  else if payload.take 8 = opusTags then .tags
  else .audio

/-- The pages broadcast, with one more; `none` when a track cannot go on with it. -/
def addPage (p : Page) (tracks : List (List Page)) : Option (List (List Page)) :=
  match pageKind p, (tracks.getLastD []).length with
  | .head, _ => some (tracks ++ [[p]])
  | .tags, 1 => some (continueTrack p tracks)
  | .audio, _ + 2 => some (continueTrack p tracks)
  | _, _ => none

inductive StreamAction where
  | subscribe (res : Nat)
  | unsubscribe (res : Nat)
  | unsubscribeAll
  | broadcast (p : Page)
  deriving DecidableEq, Repr

def streamStep (g : GuildStream) : StreamAction → Option GuildStream
  | .subscribe res =>
    some { g with streams := g.streams ++ [{ res, since := g.tracks.flatten.length }] }
  | .unsubscribe res => some { g with streams := g.streams.eraseP (·.res = res) }
  | .unsubscribeAll => some { g with streams := [] }
  | .broadcast p =>
    (addPage p g.tracks).map fun tracks =>
      { streams := g.streams.map (·.broadcast g.headersCache p)
        headersCache := checkForHeaders outside g.headersCache p
        tracks }

/-- The page is taken for what it is, and a new track finds no one who waits for a page while the
headers of the track before are cached. -/
def HeadersFresh (g : GuildStream) : StreamAction → Prop
  | .broadcast p =>
    sniff outside p = pageKind p ∧
      (pageKind p = .head → g.headersCache = [] ∨ ∀ s ∈ g.streams, s.headersSent = true)
  | _ => True

instance (g : GuildStream) : (a : StreamAction) → Decidable (HeadersFresh outside g a)
  | .broadcast p => inferInstanceAs (Decidable (sniff outside p = pageKind p ∧ (_ → _ ∨ _)))
  | .subscribe _ | .unsubscribe _ | .unsubscribeAll => isTrue trivial

/-! ## Pages with few segments -/

variable {outside} in
theorem bytesAt_of_le {p : Page} {m : Nat} (h : m + 8 ≤ p.length) :
    ((List.range 8).map fun j : Nat => byteAt outside p (m + j)) = (p.drop m).take 8 := by
  apply List.ext_getElem
  · rw [List.length_map, List.length_range, List.length_take, List.length_drop]
    omega
  · intro j hj hj'
    rw [List.length_map, List.length_range] at hj
    rw [List.getElem_map, List.getElem_range, List.getElem_take, List.getElem_drop, byteAt,
      if_pos (by omega), ← Int.natCast_add, Int.toNat_natCast,
      List.getD_eq_getElem?_getD, List.getElem?_eq_getElem (by omega), Option.getD_some]

variable {outside} in
/-- A page of fewer than 128 segments is taken for what it is. -/
theorem sniff_of_few_segments {p : Page} (h : (p.getD 26 0).toNat < 128) :
    sniff outside p = pageKind p := by
  have hlacing : signedChar (p.getD 26 0) = ((p.getD 26 0).toNat : Int) := if_pos h
  obtain ⟨n, hn⟩ : ∃ n, (p.getD 26 0).toNat = n := ⟨_, rfl⟩
  rw [hn] at h hlacing
  unfold sniff pageKind
  dsimp only
  rw [hn, hlacing, List.length_drop]
  split
  · rw [if_pos (by omega)]
  · have hsize : ((27 + (n : Int)) % 2 ^ 64 + 8) % 2 ^ 64 = 27 + n + 8 := by omega
    rw [hsize]
    by_cases hlen : p.length - (27 + n) ≤ 8
    · rw [if_pos (by omega), if_pos hlen]
    · rw [if_neg (by omega), if_neg hlen]
      have hpayload : ((List.range 8).map fun j : Nat => byteAt outside p (27 + (n : Int) + j)) =
          (p.drop (27 + n)).take 8 := bytesAt_of_le (m := 27 + n) (by omega)
      rw [hpayload]

/-- The headers of a page with 200 segments are not found. -/
example :
    let p := List.replicate 26 0 ++ 200 :: List.replicate 200 1 ++ opusTags ++ List.replicate 200 0
    pageKind p = .tags ∧ sniff (fun _ => 0) p = .audio := by decide +kernel

end

/-! ## What a subscriber has been written -/

/-- An `OpusHead` page, an `OpusTags` page and audio pages, or only the first of them. -/
def IsTrack (track : List Page) : Prop :=
  track.map pageKind = [.head] ∨ ∃ n, track.map pageKind = .head :: .tags :: List.replicate n .audio

/-- Every subscriber has been written what is heard of the tracks from its subscription on. -/
structure WellFormedStream (g : GuildStream) : Prop where
  tracks : ∀ track ∈ g.tracks, IsTrack track
  written : ∀ s ∈ g.streams, s.written = heard 2 s.since g.tracks

/-- It has been written what is heard, and its headers once there was a page for it. -/
structure SubInv (tracks : List (List Page)) (s : StreamSub) : Prop where
  since : s.since ≤ tracks.flatten.length
  sent : s.headersSent = true ↔ s.since < tracks.flatten.length
  written : s.written = heard 2 s.since tracks

structure FeedInv (g : GuildStream) : Prop where
  subs : ∀ s ∈ g.streams, SubInv g.tracks s
  cache : g.headersCache = (g.tracks.getLastD []).take 2
  tracks : ∀ track ∈ g.tracks, IsTrack track

/-- A page begins a track or goes on with the last one. -/
theorem addPage_cases {p : Page} {tracks tracks' : List (List Page)}
    (h : addPage p tracks = some tracks') :
    (pageKind p = .head ∧ tracks' = tracks ++ [[p]]) ∨
      ∃ before track, tracks = before ++ [track] ∧ tracks' = before ++ [track ++ [p]] ∧
        (pageKind p = .tags ∧ track.length = 1 ∨ pageKind p = .audio ∧ 2 ≤ track.length) := by
  have hlast : 0 < (tracks.getLastD []).length →
      ∃ before track, tracks = before ++ [track] ∧ tracks.getLastD [] = track ∧
        continueTrack p tracks = before ++ [track ++ [p]] := by
    rcases List.eq_nil_or_concat tracks with rfl | ⟨before, track, rfl⟩
    · intro hpos
      cases hpos
    · rw [List.concat_eq_append]
      exact fun _ => ⟨before, track, rfl, List.getLastD_concat, continueTrack_append ..⟩
  unfold addPage at h
  split at h
  · cases h
    exact .inl ⟨‹_›, rfl⟩
  · rename_i hkind hone
    cases h
    obtain ⟨before, track, htracks, hget, hcont⟩ := hlast (by omega)
    exact .inr ⟨before, track, htracks, hcont, .inl ⟨hkind, by rw [← hget, hone]⟩⟩
  · rename_i n hkind htwo
    cases h
    obtain ⟨before, track, htracks, hget, hcont⟩ := hlast (by omega)
    exact .inr ⟨before, track, htracks, hcont, .inr ⟨hkind, by rw [← hget]; omega⟩⟩
  · cases h

/-- One more page, for one subscriber. -/
theorem SubInv.broadcast {tracks tracks' : List (List Page)} {headersCache : List Page} {p : Page}
    {s : StreamSub} (hi : SubInv tracks s)
    (hlen : tracks'.flatten.length = tracks.flatten.length + 1)
    (hnext : s.since < tracks.flatten.length →
      heard 2 s.since tracks' = heard 2 s.since tracks ++ [p])
    (hfirst : s.headersSent = false →
      heard 2 tracks.flatten.length tracks' = headersCache ++ [p]) :
    SubInv tracks' (s.broadcast headersCache p) := by
  obtain ⟨hsince, hsent, hwritten⟩ := hi
  unfold StreamSub.broadcast
  split
  · rename_i h
    have hlt := hsent.1 h
    exact ⟨by dsimp only; omega, by dsimp only; exact ⟨fun _ => by omega, fun _ => h⟩,
      by rw [hnext hlt, ← hwritten]⟩
  · rename_i h
    have heq : s.since = tracks.flatten.length :=
      Nat.le_antisymm hsince (Nat.not_lt.1 (mt hsent.2 h))
    have hnil : s.written = [] := by rw [hwritten, heard_of_le 2 (Nat.le_of_eq heq.symm)]
    refine ⟨by dsimp only; omega, by dsimp only; exact ⟨fun _ => by omega, fun _ => rfl⟩, ?_⟩
    dsimp only
    rw [hnil, heq, hfirst (by simpa using h), List.nil_append]

section
variable {outside : Int → UInt8} {g g' : GuildStream}

/-- A track goes on with its `OpusTags` page, or with audio after it. -/
theorem IsTrack.continue {track : List Page} {p : Page} (h : IsTrack track)
    (hp : pageKind p = .tags ∧ track.length = 1 ∨ pageKind p = .audio ∧ 2 ≤ track.length) :
    IsTrack (track ++ [p]) := by
  unfold IsTrack
  rw [List.map_append, List.map_singleton]
  rcases h with h | ⟨n, h⟩
  · have hlen : track.length = 1 := by simpa using congrArg List.length h
    rcases hp with ⟨hkind, -⟩ | ⟨-, htwo⟩
    · exact .inr ⟨0, by rw [h, hkind]; rfl⟩
    · omega
  · have hlen : track.length = n + 2 := by simpa using congrArg List.length h
    rcases hp with ⟨-, hone⟩ | ⟨hkind, -⟩
    · omega
    · exact .inr ⟨n + 1, by rw [h, hkind, List.replicate_succ']; rfl⟩

/-- **A page reaches every subscriber**, the first one behind its headers. -/
theorem feedInv_broadcast {p : Page} (hi : FeedInv g) (hc : HeadersFresh outside g (.broadcast p))
    (h : streamStep outside g (.broadcast p) = some g') : FeedInv g' := by
  obtain ⟨hsubs, hcache, htracks⟩ := hi
  obtain ⟨hsniff, hfresh⟩ := hc
  obtain ⟨tracks', hadd, rfl⟩ := Option.map_eq_some_iff.1 h
  rcases addPage_cases hadd with ⟨hkind, rfl⟩ | ⟨before, track, hold, rfl, hlast⟩
  · refine ⟨fun s' hs' => ?_, ?_, fun t ht => ?_⟩
    · obtain ⟨s, hs, rfl⟩ := List.mem_map.1 hs'
      refine (hsubs s hs).broadcast (by simp) (fun hlt => heard_newTrack 2 p (Nat.le_of_lt hlt))
        fun hunsent => ?_
      have hempty : g.headersCache = [] := by
        refine (hfresh hkind).resolve_right fun hall => ?_
        rw [hall s hs] at hunsent
        cases hunsent
      rw [heard_newTrack 2 p (Nat.le_refl _), heard_of_le 2 (Nat.le_refl _), hempty]
    · dsimp only
      rw [checkForHeaders, hsniff, hkind, List.getLastD_concat]
      rfl
    · rcases List.mem_append.1 ht with ht | ht
      · exact htracks t ht
      · rw [List.mem_singleton.1 ht]
        exact .inl (by rw [List.map_singleton, hkind])
  · rw [hold, List.getLastD_concat] at hcache
    refine ⟨fun s' hs' => ?_, ?_, fun t ht => ?_⟩
    · obtain ⟨s, hs, rfl⟩ := List.mem_map.1 hs'
      have hsub := hsubs s hs
      rw [hold] at hsub
      refine hsub.broadcast (by simp; omega) (fun hlt => heard_continueTrack p hlt) fun _ => ?_
      rw [heard_continueTrack_first, hcache]
    · dsimp only
      rw [checkForHeaders, hsniff, List.getLastD_concat, hcache]
      rcases hlast with ⟨hkind, hlen⟩ | ⟨hkind, hlen⟩
      · rw [hkind, List.take_of_length_le (by omega), List.take_of_length_le (by simp [hlen])]
      · rw [hkind, List.take_append_of_le_length hlen]
    · rcases List.mem_append.1 ht with ht | ht
      · exact htracks t (by rw [hold]; exact List.mem_append_left _ ht)
      · rw [List.mem_singleton.1 ht]
        exact (htracks track (by simp [hold])).continue hlast

theorem feedInv_step {a : StreamAction} (hi : FeedInv g) (hc : HeadersFresh outside g a)
    (h : streamStep outside g a = some g') : FeedInv g' := by
  cases a with
  | subscribe res =>
    cases h
    refine ⟨fun s hs => ?_, hi.cache, hi.tracks⟩
    rcases List.mem_append.1 hs with hs | hs
    · exact hi.subs s hs
    · rw [List.mem_singleton.1 hs]
      exact ⟨Nat.le_refl _, by simp, (heard_of_le 2 (Nat.le_refl _)).symm⟩
  | unsubscribe res =>
    cases h
    exact ⟨fun s hs => hi.subs s (List.mem_of_mem_eraseP hs), hi.cache, hi.tracks⟩
  | unsubscribeAll =>
    cases h
    exact ⟨fun s hs => (by cases hs), hi.cache, hi.tracks⟩
  | broadcast p => exact feedInv_broadcast hi hc h

/-- **Subscribers get well-formed streams** in every run in which pages are taken for what they are
and nobody waits for a page between two tracks. -/
theorem subscribers_well_formed (h : ReachAlong (streamStep outside) (HeadersFresh outside) {} g) :
    WellFormedStream g := by
  have hi : FeedInv ({} : GuildStream) :=
    ⟨fun s hs => (by cases hs), rfl, fun track ht => by cases ht⟩
  obtain ⟨hsubs, -, htracks⟩ := h.inv (fun _ _ _ hi hc h => feedInv_step hi hc h) hi
  exact ⟨htracks, fun s hs => (hsubs s hs).written⟩

end

/-- A page of one segment. -/
def onePage (payload : List UInt8) : Page :=
  List.replicate 26 0 ++ [1, UInt8.ofNat payload.length] ++ payload

/-- The pages of the track `n`: its headers and a page of audio. -/
def trackPages (n : UInt8) : List Page :=
  [onePage (opusHead ++ [n]), onePage (opusTags ++ [n]), onePage [n]]

/-- One subscriber before the first page, one between the headers, one who leaves before the second
track. -/
def threeJoin : List StreamAction :=
  [.subscribe 0, .broadcast (onePage (opusHead ++ [1])), .subscribe 1,
    .broadcast (onePage (opusTags ++ [1])), .broadcast (onePage [1]), .subscribe 2,
    .unsubscribe 2] ++ (trackPages 2).map .broadcast

theorem subscribers_well_formed_run :
    ∃ g, run (streamStep fun _ => 0) {} threeJoin = some g ∧
      g.streams.map (·.written) =
        [trackPages 1 ++ trackPages 2, trackPages 1 ++ trackPages 2] ∧ WellFormedStream g := by
  have halong : Along (streamStep fun _ => 0) (HeadersFresh fun _ => 0) {} threeJoin := by
    decide +kernel
  refine ⟨_, rfl, ?_, subscribers_well_formed ⟨threeJoin, halong, rfl⟩⟩
  decide +kernel

/-- Somebody subscribes when a track is over, and is first written its headers. -/
theorem stale_headers :
    ∃ g s, run (streamStep fun _ => 0) {}
        ((trackPages 1).map .broadcast ++ [.subscribe 0, .broadcast (onePage (opusHead ++ [2]))]) =
          some g ∧
      g.streams = [s] ∧
      s.written =
        [onePage (opusHead ++ [1]), onePage (opusTags ++ [1]), onePage (opusHead ++ [2])] ∧
      heard 2 s.since g.tracks = [onePage (opusHead ++ [2])] ∧ ¬ WellFormedStream g := by
  refine ⟨_, _, rfl, rfl, ?_, ?_, fun h => ?_⟩
  · decide +kernel
  · decide +kernel
  · have hwritten := h.written _ List.mem_cons_self
    revert hwritten
    decide +kernel

end Musicat.Server
