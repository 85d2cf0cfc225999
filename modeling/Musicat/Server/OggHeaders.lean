import Musicat.Server.OggStream

/-!
# Where the headers of a page are looked for

Byte 26 of an Ogg page is the number of its segments, and `check_for_headers`
adds it to the size of the header as a signed `char`. From 128 segments on the
payload is taken to begin 256 bytes too early: in front of the page, in its
header, or where the comparison with its length turns it away.
-/

namespace Musicat.Server

/-- `"OggS"`. -/
def oggS : List UInt8 := [0x4f, 0x67, 0x67, 0x53]

def IsOggPage (p : Page) : Prop := oggS <+: p ∧ 27 ≤ p.length

instance (p : Page) : Decidable (IsOggPage p) := inferInstanceAs (Decidable (_ ∧ _))

/-- How many segments the page has. -/
def segments (p : Page) : Nat := (p.getD 26 0).toNat

/-- What comes after the header of the page. -/
def payloadOf (p : Page) : List UInt8 := p.drop (27 + segments p)

/-- What the eight bytes at an offset spell. -/
def kindAt (p : Page) (i : Nat) : PageKind :=
  if (p.drop i).take 8 = opusHead then .head
  else if (p.drop i).take 8 = opusTags then .tags
  else .audio

/-- The offsets of the bytes that `check_for_headers` reads. -/
def readsOf (p : Page) : List Int :=
  if p.length ≤ 27 then []
  else
    let lacingSize := signedChar (p.getD 26 0)
    let headerSize := (27 + lacingSize) % 2 ^ 64
    if (p.length : Int) ≤ (headerSize + 8) % 2 ^ 64 then [26]
    else 26 :: (List.range 8).map fun j : Nat => 27 + lacingSize + j

/-- Every byte that is read is one of the page. -/
def ReadsInside (p : Page) : Prop := ∀ i ∈ readsOf p, 0 ≤ i ∧ i < p.length

instance (p : Page) : Decidable (ReadsInside p) :=
  inferInstanceAs (Decidable (∀ i ∈ readsOf p, _))

section
variable (outside : Int → UInt8)

/-- A page with a payload of more than eight bytes is cached as what the payload begins with. -/
def CachedRight (p : Page) : Prop :=
  IsOggPage p → 8 < (payloadOf p).length →
    (sniff outside p = .head ↔ opusHead <+: payloadOf p) ∧
      (sniff outside p = .tags ↔ opusTags <+: payloadOf p)

instance (p : Page) : Decidable (CachedRight outside p) :=
  inferInstanceAs (Decidable (IsOggPage p → 8 < (payloadOf p).length → _ ∧ _))

/-- Byte 26 is below 128 or is not looked at; or the payload is taken to begin nowhere or in the
header, and the bytes there spell what those of the payload do. -/
def LooksRight (p : Page) : Prop :=
  p.length ≤ 27 ∨ segments p < 128 ∨
    (segments p < 221 ∨ 229 ≤ segments p) ∧
      (IsOggPage p → 8 < (payloadOf p).length →
        kindAt p (27 + segments p) =
          if segments p < 221 then .audio else kindAt p (segments p - 229))

variable {outside} {p : Page}

theorem kindAt_head {i : Nat} : kindAt p i = .head ↔ opusHead <+: p.drop i := by
  rw [List.prefix_iff_eq_take, kindAt, eq_comm (a := opusHead)]
  split
  · rename_i h
    exact iff_of_true rfl h
  · rename_i h
    refine iff_of_false ?_ h
    split <;> exact nofun

theorem kindAt_tags {i : Nat} : kindAt p i = .tags ↔ opusTags <+: p.drop i := by
  have hne : opusHead ≠ opusTags := by decide
  rw [List.prefix_iff_eq_take, kindAt, eq_comm (a := opusTags)]
  split
  · rename_i h
    refine iff_of_false nofun fun h' => hne (h.symm.trans h')
  · split
    · rename_i h
      exact iff_of_true rfl h
    · rename_i h
      exact iff_of_false nofun h

/-- Two kinds are the same if they agree on the headers. -/
theorem kind_eq_iff (k : PageKind) :
    (k = .head ↔ opusHead <+: payloadOf p) ∧ (k = .tags ↔ opusTags <+: payloadOf p) ↔
      kindAt p (27 + segments p) = k := by
  rw [payloadOf, ← kindAt_head, ← kindAt_tags]
  cases k <;> cases kindAt p (27 + segments p) <;> decide

/-! ## The four ranges of byte 26 -/

/-- A byte as a signed one. -/
theorem signedChar_segments :
    signedChar (p.getD 26 0) = if segments p < 128 then (segments p : Int) else segments p - 256 :=
  rfl

/-- A page that the comparison with its length turns away. -/
theorem sniff_away (hlen : 27 < p.length)
    (h : (p.length : Int) ≤ ((27 + signedChar (p.getD 26 0)) % 2 ^ 64 + 8) % 2 ^ 64) :
    readsOf p = [26] ∧ sniff outside p = .audio := by
  constructor
  · unfold readsOf
    rw [if_neg (Nat.not_le.2 hlen)]
    exact if_pos h
  · unfold sniff
    rw [if_neg (Nat.not_le.2 hlen)]
    exact if_pos h

theorem readsInside_one (hlen : 27 < p.length) (h : readsOf p = [26]) : ReadsInside p := by
  intro i hi
  rw [h, List.mem_singleton] at hi
  omega

/-- What is looked at when the comparison with the length lets it through at an offset that is one
of the page. -/
theorem sniff_at (hlen : 27 < p.length) {i : Nat} (hi : 27 + signedChar (p.getD 26 0) = i)
    (hpage : i + 8 < p.length) (hsmall : i < 2 ^ 63) :
    readsOf p = 26 :: (List.range 8).map (fun j : Nat => ((i + j : Nat) : Int)) ∧
      sniff outside p = kindAt p i := by
  have hsize : (((i : Int) % 2 ^ 64) + 8) % 2 ^ 64 = i + 8 := by omega
  have hnot : ¬ (p.length : Int) ≤ i + 8 := by omega
  have hbytes : ((List.range 8).map fun j : Nat => byteAt outside p ((i : Int) + j)) =
      (p.drop i).take 8 := bytesAt_of_le (by omega)
  constructor
  · unfold readsOf
    rw [if_neg (Nat.not_le.2 hlen)]
    dsimp only
    rw [hi, hsize, if_neg hnot]
    simp only [Int.natCast_add]
  · unfold sniff
    rw [if_neg (Nat.not_le.2 hlen)]
    dsimp only
    rw [hi, hsize, if_neg hnot, hbytes]
    rfl

theorem readsInside_eight {i : Nat} (hlen : 27 < p.length) (hpage : i + 8 < p.length)
    (h : readsOf p = 26 :: (List.range 8).map fun j : Nat => ((i + j : Nat) : Int)) :
    ReadsInside p := by
  intro k hk
  rw [h, List.mem_cons, List.mem_map] at hk
  rcases hk with rfl | ⟨j, hj, rfl⟩
  · omega
  · rw [List.mem_range] at hj
    omega

theorem length_payload : (payloadOf p).length = p.length - (27 + segments p) := List.length_drop

/-- What is read and found when the payload is taken to begin at an offset of the page. -/
theorem looks_at (hlen : 27 < p.length) {i : Nat} (hi : 27 + signedChar (p.getD 26 0) = i)
    (hsmall : i ≤ 27 + segments p) (h63 : p.length < 2 ^ 63) :
    (ReadsInside p ∧ CachedRight outside p) ↔
      (IsOggPage p → 8 < (payloadOf p).length → kindAt p (27 + segments p) = kindAt p i) := by
  have hsegments : segments p < 256 := (p.getD 26 0).toNat_lt
  by_cases hpage : i + 8 < p.length
  · obtain ⟨hreads, hsniff⟩ : _ ∧ sniff outside p = kindAt p i :=
      sniff_at hlen hi hpage (by omega)
    rw [CachedRight, hsniff]
    simp only [kind_eq_iff, readsInside_eight hlen hpage hreads, true_and]
  · obtain ⟨hreads, -⟩ : _ ∧ sniff outside p = .audio :=
      sniff_away hlen (by rw [hi]; omega)
    have hshort : ¬ 8 < (payloadOf p).length := by
      rw [length_payload]
      omega
    exact iff_of_true ⟨readsInside_one hlen hreads, fun _ h => absurd h hshort⟩
      fun _ h => absurd h hshort

/-- A page that is not looked into. -/
theorem looks_short (h : p.length ≤ 27) : ReadsInside p ∧ CachedRight outside p := by
  have hnone : readsOf p = [] := if_pos h
  refine ⟨fun i hi => ?_, fun _ hpayload => ?_⟩
  · rw [hnone] at hi
    cases hi
  · rw [length_payload] at hpayload
    omega

/-- Up to 127 segments the payload is found. -/
theorem looks_few (hlen : 27 < p.length) (hfew : segments p < 128) (h63 : p.length < 2 ^ 63) :
    ReadsInside p ∧ CachedRight outside p := by
  have hi : 27 + signedChar (p.getD 26 0) = ((27 + segments p : Nat) : Int) := by
    rw [signedChar_segments, if_pos hfew]
    rfl
  exact (looks_at hlen hi (Nat.le_refl _) h63).2 fun _ _ => rfl

/-- Up to 220 segments the offset wraps around, and so does not the sum: the page is turned away. -/
theorem looks_away (hlen : 27 < p.length) (hmany : ¬ segments p < 128) (h : segments p < 221)
    (h63 : p.length < 2 ^ 63) :
    (ReadsInside p ∧ CachedRight outside p) ↔
      (IsOggPage p → 8 < (payloadOf p).length → kindAt p (27 + segments p) = .audio) := by
  obtain ⟨hreads, hsniff⟩ : _ ∧ sniff outside p = .audio :=
    sniff_away hlen (by rw [signedChar_segments, if_neg hmany]; omega)
  rw [CachedRight, hsniff]
  simp only [kind_eq_iff, readsInside_one hlen hreads, true_and]

/-- Up to 228 segments the sum wraps around as well: what is read begins in front of the page. -/
theorem reads_before (hlen : 27 < p.length) (hmany : ¬ segments p < 221)
    (h : ¬ 229 ≤ segments p) (h63 : p.length < 2 ^ 63) : ¬ ReadsInside p := by
  have hchar : signedChar (p.getD 26 0) = segments p - 256 := by
    rw [signedChar_segments, if_neg (by omega)]
  have hsum : ¬ (p.length : Int) ≤ ((27 + signedChar (p.getD 26 0)) % 2 ^ 64 + 8) % 2 ^ 64 := by
    rw [hchar]
    omega
  have hfirst : 27 + signedChar (p.getD 26 0) + (0 : Nat) ∈ readsOf p := by
    unfold readsOf
    rw [if_neg (Nat.not_le.2 hlen)]
    dsimp only
    rw [if_neg hsum]
    exact List.mem_cons_of_mem _ (List.mem_map.2 ⟨0, by decide, rfl⟩)
  intro hin
  have hpos := (hin _ hfirst).1
  rw [hchar] at hpos
  omega

/-- From 229 segments on another place of the page is looked at. -/
theorem looks_back (hlen : 27 < p.length) (h : 229 ≤ segments p) (h63 : p.length < 2 ^ 63) :
    (ReadsInside p ∧ CachedRight outside p) ↔
      (IsOggPage p → 8 < (payloadOf p).length →
        kindAt p (27 + segments p) = kindAt p (segments p - 229)) := by
  have hsegments : segments p < 256 := (p.getD 26 0).toNat_lt
  have hi : 27 + signedChar (p.getD 26 0) = ((segments p - 229 : Nat) : Int) := by
    rw [signedChar_segments, if_neg (by omega)]
    omega
  exact looks_at hlen hi (by omega) h63

/-- **The header is looked for inside the page, and found** exactly if byte 26 is below 128, or it
takes the payload to begin where the same is found. A page is no longer than a string. -/
theorem headers_found_iff (outside : Int → UInt8) (p : Page) (h63 : p.length < 2 ^ 63) :
    (ReadsInside p ∧ CachedRight outside p) ↔ LooksRight p := by
  rw [LooksRight]
  by_cases hshort : p.length ≤ 27
  · exact iff_of_true (looks_short hshort) (.inl hshort)
  have hlen : 27 < p.length := Nat.lt_of_not_le hshort
  by_cases hfew : segments p < 128
  · exact iff_of_true (looks_few hlen hfew h63) (.inr (.inl hfew))
  simp only [hshort, hfew, false_or]
  by_cases haway : segments p < 221
  · rw [looks_away hlen hfew haway h63]
    simp only [haway, true_or, true_and, if_true]
  by_cases hback : 229 ≤ segments p
  · rw [looks_back hlen hback h63]
    simp only [haway, hback, or_true, true_and, if_false]
  · exact iff_of_false (fun h => reads_before hlen haway hback h63 h.1)
      fun h => h.1.elim haway hback

end

/-- An Ogg page of as many segments of one byte as `segments` says, which begin with `payload`. -/
def oggPage (segments : UInt8) (payload : List UInt8) : Page :=
  oggS ++ List.replicate 22 0 ++ segments :: List.replicate segments.toNat 1 ++ payload ++
    List.replicate (segments.toNat - payload.length) 0

theorem headers_found_iff_few :
    (ReadsInside (oggPage 20 opusHead) ∧ CachedRight (fun _ => 0) (oggPage 20 opusHead)) ↔
      LooksRight (oggPage 20 opusHead) :=
  headers_found_iff _ _ (by decide)

/-- With 224 segments the bytes in front of the page are read; with 200 a page of headers is not
taken for one. -/
theorem many_segments_misread :
    (IsOggPage (oggPage 224 opusTags) ∧ ¬ ReadsInside (oggPage 224 opusTags)) ∧
      ReadsInside (oggPage 200 opusTags) ∧ ¬ CachedRight (fun _ => 0) (oggPage 200 opusTags) := by
  decide +kernel

end Musicat.Server
