import Mathlib.Data.List.Basic

/-!
# Feeds of tracks

A feed is a list of tracks, each beginning with `n` items of header. Who joins
after `since` items of the feed hears the track of the next item from there on,
with its header in front, and every later track as it is: `heard`.
-/

namespace Musicat.Lib

variable {α : Type*}

def heard (n : Nat) : Nat → List (List α) → List α
  | _, [] => []
  | since, track :: tracks =>
    if since < track.length then
      track.take n ++ (track.drop n).drop (since - n) ++ tracks.flatten
    else heard n (since - track.length) tracks

/-- The item `a` goes to the end of the last track. -/
def continueTrack (a : α) (tracks : List (List α)) : List (List α) :=
  tracks.dropLast ++ [tracks.getLastD [] ++ [a]]

theorem continueTrack_append (a : α) (tracks : List (List α)) (track : List α) :
    continueTrack a (tracks ++ [track]) = tracks ++ [track ++ [a]] := by
  unfold continueTrack
  rw [List.dropLast_concat, List.getLastD_concat]

variable {n since : Nat} {tracks : List (List α)} {track : List α}

/-- A new last track is heard as it is, or it is the first to be heard. -/
theorem heard_concat (n since : Nat) (tracks : List (List α)) (track : List α) :
    heard n since (tracks ++ [track]) =
      if since < tracks.flatten.length then heard n since tracks ++ track
      else heard n (since - tracks.flatten.length) [track] := by
  induction tracks generalizing since with
  | nil => rfl
  | cons first tracks ih =>
    rw [List.cons_append, heard, heard, List.flatten_cons, List.length_append]
    by_cases h : since < first.length
    · rw [if_pos h, if_pos h, if_pos (by omega)]
      simp
    · rw [if_neg h, if_neg h, ih]
      by_cases h' : since < first.length + tracks.flatten.length
      · rw [if_pos h', if_pos (by omega)]
      · rw [if_neg h', if_neg (by omega), Nat.sub_add_eq]

/-- The first item of a track that is heard comes after its header. -/
theorem heard_singleton_concat (a : α) :
    heard n since [track ++ [a]] =
      if since < track.length then heard n since [track] ++ [a]
      else if since = track.length then track.take n ++ [a] else [] := by
  unfold heard
  simp only [List.length_append, List.length_singleton, List.flatten_nil, List.append_nil]
  have hshort : track.length < n → (track ++ [a]).take n = track ++ [a] ∧
      (track ++ [a]).drop n = [] ∧ track.take n = track ∧ track.drop n = [] := fun hn => by
    have hlen : (track ++ [a]).length ≤ n := by
      rw [List.length_append]
      exact hn
    exact ⟨List.take_of_length_le hlen, List.drop_of_length_le hlen,
      List.take_of_length_le (by omega), List.drop_of_length_le (by omega)⟩
  rcases Nat.lt_trichotomy since track.length with h | rfl | h
  · rw [if_pos (by omega), if_pos h, if_pos h]
    rcases Nat.lt_or_ge track.length n with hn | hn
    · obtain ⟨h₁, h₂, h₃, h₄⟩ := hshort hn
      rw [h₁, h₂, h₃, h₄]
      simp
    · rw [List.take_append_of_le_length hn, List.drop_append_of_le_length hn,
        List.drop_append_of_le_length (by rw [List.length_drop]; omega), List.append_assoc]
  · rw [if_pos (by omega), if_neg (by omega), if_pos rfl]
    rcases Nat.lt_or_ge track.length n with hn | hn
    · obtain ⟨h₁, h₂, h₃, -⟩ := hshort hn
      rw [h₁, h₂, h₃]
      simp
    · rw [List.take_append_of_le_length hn, List.drop_append_of_le_length hn,
        List.drop_left' (by rw [List.length_drop])]
  · rw [if_neg (by omega), if_neg (by omega), if_neg (by omega)]
    rfl

/-- Who has heard something hears the next item. -/
theorem heard_continueTrack (a : α) (h : since < (tracks ++ [track]).flatten.length) :
    heard n since (tracks ++ [track ++ [a]]) = heard n since (tracks ++ [track]) ++ [a] := by
  rw [heard_concat, heard_concat]
  by_cases hs : since < tracks.flatten.length
  · rw [if_pos hs, if_pos hs, List.append_assoc]
  · rw [List.flatten_append, List.length_append, List.flatten_singleton] at h
    rw [if_neg hs, if_neg hs, heard_singleton_concat, if_pos (by omega)]

/-- Who has just joined hears the next item behind the header of its track. -/
theorem heard_continueTrack_first (n : Nat) (a : α) (tracks : List (List α)) (track : List α) :
    heard n (tracks ++ [track]).flatten.length (tracks ++ [track ++ [a]]) =
      track.take n ++ [a] := by
  rw [heard_concat, List.flatten_append, List.length_append, List.flatten_singleton,
    if_neg (by omega), Nat.add_sub_cancel_left, heard_singleton_concat, if_neg (by omega),
    if_pos rfl]

/-- Who joins after the whole feed has heard nothing. -/
theorem heard_of_le (n : Nat) (h : tracks.flatten.length ≤ since) : heard n since tracks = [] := by
  induction tracks generalizing since with
  | nil => rfl
  | cons first tracks ih =>
    rw [List.flatten_cons, List.length_append] at h
    rw [heard, if_neg (by omega)]
    exact ih (by omega)

/-- A track that begins is heard from its first item on. -/
theorem heard_newTrack (n : Nat) (a : α) (h : since ≤ tracks.flatten.length) :
    heard n since (tracks ++ [[a]]) = heard n since tracks ++ [a] := by
  rw [heard_concat]
  split
  · rfl
  · have hnil : heard n since tracks = [] := heard_of_le n (by omega)
    rw [hnil, Nat.sub_eq_zero_of_le h]
    cases n <;> simp [heard]

end Musicat.Lib
