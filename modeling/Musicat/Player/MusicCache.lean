import Mathlib.Algebra.GroupWithZero.Nat
import Mathlib.Data.List.Sort
import Musicat.Lib.Word
import Musicat.Player.TrackList

/-!
# Cleaning the music cache

`control_music_cache` adds up the sizes of the cached files, and if that is over
the limit it unlinks files, the oldest first, "until size is less than limit".
So a total that is just the limit is left alone, but a cleaning does not stop at
it. The total is a `size_t`, and counts right only if the sizes fit into one.
-/

namespace Musicat.Player

open Lib

/-- The bytes of files. -/
def totalSize (files : List GatT) : Nat := (files.map GatT.size).sum

/-- A `std::sort` by `last_access`. It may put files of the same time in any order. -/
structure AccessSort where
  sort : List GatT → List GatT
  perm (l : List GatT) : (sort l).Perm l
  oldestFirst (l : List GatT) : (sort l).Pairwise (·.lastAccess ≤ ·.lastAccess)

/-- `cur_cache_size` after the loop that adds up the sizes. -/
def countedSize (files : List GatT) : Nat :=
  files.foldl (fun curCacheSize g => toU64 (curCacheSize + g.size)) 0

/-- What the loop over the files keeps, and the paths that `unlink` was called with. -/
structure Cleaning where
  curCacheSize : Nat
  rc : Nat := 0
  unlinked : List (List Char) := []
  deriving DecidableEq, Repr

/-- The loop over the sorted files; `unlink` says for which paths the call succeeds. -/
def cleanLoop (unlink : List Char → Bool) (sizeLimit : Nat) : List GatT → Cleaning → Cleaning
  | [], s => s
  | g :: files, s =>
    if s.curCacheSize < sizeLimit then s
    else
      let s := { s with unlinked := s.unlinked ++ [g.fullpath] }
      if unlink g.fullpath then
        cleanLoop unlink sizeLimit files
          { s with curCacheSize := toU64 (s.curCacheSize - g.size), rc := s.rc + 1 }
      else cleanLoop unlink sizeLimit files s

/-- All tracks, with their sizes and times. -/
def TrackCall.allWithStat (time : Int) : TrackCall := { amount := 0, withStat := true, time }

/-- `control_music_cache` at a time. -/
def controlMusicCache (sort : AccessSort) (unlink : List Char → Bool) (d : MusicDir)
    (s : TrackCache) (time : Int) (sizeLimit : Nat) : TrackCache × Cleaning :=
  if sizeLimit = 0 then (s, { curCacheSize := 0 })
  else
    let (s, ats) := s.getAvailableTracks d (.allWithStat time)
    let curCacheSize := countedSize ats
    if curCacheSize ≤ sizeLimit then (s, { curCacheSize })
    else
      ({ s with gatLastUc := 0 }, cleanLoop unlink sizeLimit (sort.sort ats) { curCacheSize })

/-- The total of what is left without the first `k` files is enough, and with fewer removed it is
not. -/
structure ShortestCut (enough : Nat → Prop) (files : List GatT) (k : Nat) : Prop where
  reached : enough (totalSize (files.drop k))
  shortest : ∀ j < k, ¬ enough (totalSize (files.drop j))

/-! ## The total -/

section
variable {g : GatT} {files files' : List GatT} {n : Nat}

@[simp] theorem totalSize_nil : totalSize [] = 0 := rfl

@[simp] theorem totalSize_cons : totalSize (g :: files) = g.size + totalSize files := rfl

theorem totalSize_perm (h : files.Perm files') : totalSize files = totalSize files' :=
  (h.map GatT.size).sum_nat

/-- Sizes that fit are added up without a wrap. -/
theorem countedSize_of_fits (h : totalSize files < 2 ^ 64) :
    countedSize files = totalSize files := by
  suffices hfold : ∀ (l : List GatT) (n : Nat), n + totalSize l < 2 ^ 64 →
      l.foldl (fun curCacheSize g => toU64 (curCacheSize + g.size)) n = n + totalSize l by
    rw [countedSize, hfold files 0 (by omega), Nat.zero_add]
  intro l
  induction l with
  | nil => exact fun n _ => rfl
  | cons g l ih =>
    intro n hn
    rw [totalSize_cons] at hn
    have hadd : toU64 ((n : Int) + g.size) = n + g.size := by
      rw [← Int.natCast_add]
      exact toU64_natCast (by omega)
    rw [List.foldl_cons, hadd, ih _ (by omega), totalSize_cons, Nat.add_assoc]

end

/-! ## The loop -/

section
variable {unlink : List Char → Bool} {sizeLimit : Nat} {g : GatT} {files : List GatT} {s : Cleaning}

theorem cleanLoop_of_lt (h : s.curCacheSize < sizeLimit) (files : List GatT) :
    cleanLoop unlink sizeLimit files s = s := by
  cases files with
  | nil => rfl
  | cons g files => rw [cleanLoop, if_pos h]

theorem cleanLoop_cons (h : sizeLimit ≤ s.curCacheSize) (hunlink : unlink g.fullpath = true) :
    cleanLoop unlink sizeLimit (g :: files) s =
      cleanLoop unlink sizeLimit files
        { curCacheSize := toU64 (s.curCacheSize - g.size), rc := s.rc + 1,
          unlinked := s.unlinked ++ [g.fullpath] } := by
  rw [cleanLoop, if_neg (Nat.not_lt.2 h), if_pos hunlink]

/-- After `n` files of a loop that counted right. -/
def Cleaning.after (s : Cleaning) (files : List GatT) (n : Nat) : Cleaning where
  curCacheSize := totalSize (files.drop n)
  rc := s.rc + n
  unlinked := s.unlinked ++ (files.take n).map GatT.fullpath

theorem after_zero (h : s.curCacheSize = totalSize files) : s.after files 0 = s := by
  cases s
  simpa [Cleaning.after] using h.symm

/-- **The loop removes the shortest start of the files that leaves less than the limit**, and the
total is that of what is left all the way. -/
theorem exists_cut (hlimit : 0 < sizeLimit) (hunlink : ∀ g ∈ files, unlink g.fullpath = true)
    (htotal : s.curCacheSize = totalSize files) (hfits : totalSize files < 2 ^ 64) :
    ∃ k ≤ files.length, ShortestCut (· < sizeLimit) files k ∧
      ∀ j, cleanLoop unlink sizeLimit (files.take j) s = s.after files (min j k) := by
  induction files generalizing s with
  | nil =>
    refine ⟨0, Nat.le_refl 0, ⟨hlimit, fun j hj => absurd hj j.not_lt_zero⟩, fun j => ?_⟩
    rw [List.take_nil, Nat.min_zero, after_zero htotal]
    rfl
  | cons g files ih =>
    by_cases hlt : totalSize (g :: files) < sizeLimit
    · refine ⟨0, Nat.zero_le _, ⟨hlt, fun j hj => absurd hj j.not_lt_zero⟩, fun j => ?_⟩
      rw [cleanLoop_of_lt (htotal ▸ hlt), Nat.min_zero, after_zero htotal]
    · obtain ⟨hg, hrest⟩ := List.forall_mem_cons.1 hunlink
      rw [totalSize_cons] at htotal hfits
      have hsub : toU64 ((s.curCacheSize : Int) - g.size) = totalSize files := by
        rw [htotal, Int.natCast_add, Int.add_comm, Int.add_sub_cancel]
        exact toU64_natCast (by omega)
      obtain ⟨k, hk, hcut, hloop⟩ := ih (s := ⟨toU64 (s.curCacheSize - g.size), s.rc + 1,
        s.unlinked ++ [g.fullpath]⟩) hrest hsub (by omega)
      refine ⟨k + 1, Nat.succ_le_succ hk, ⟨hcut.reached, fun j hj => ?_⟩, fun j => ?_⟩
      · cases j with
        | zero => exact hlt
        | succ j => exact hcut.shortest j (Nat.lt_of_succ_lt_succ hj)
      · cases j with
        | zero =>
          rw [List.take_zero, Nat.zero_min, after_zero htotal]
          rfl
        | succ j =>
          have hle : sizeLimit ≤ s.curCacheSize := htotal ▸ Nat.not_lt.1 hlt
          rw [List.take_succ_cons, cleanLoop_cons hle hg, hloop, Nat.add_min_add_right]
          simp [Cleaning.after, Nat.add_assoc, Nat.add_comm 1]

end

/-! ## The cleaning -/

/-- **A cleaning removes no more than it has to for a total less than the limit**, the oldest files
first, and its total counts right all the way; with no more than the limit nothing is removed. -/
theorem control_music_cache_shortest (sort : AccessSort) (unlink : List Char → Bool) (d : MusicDir)
    (s : TrackCache) (time : Int) (sizeLimit : Nat) :
    let ats := (s.getAvailableTracks d (.allWithStat time)).2
    let cleaning := (controlMusicCache sort unlink d s time sizeLimit).2
    0 < sizeLimit → (∀ g ∈ ats, unlink g.fullpath = true) → totalSize ats < 2 ^ 64 →
      (totalSize ats ≤ sizeLimit → cleaning.unlinked = []) ∧
      (sizeLimit < totalSize ats →
        ∃ k, ShortestCut (· < sizeLimit) (sort.sort ats) k ∧
          cleaning.unlinked = ((sort.sort ats).take k).map GatT.fullpath ∧
          ∀ j, (cleanLoop unlink sizeLimit ((sort.sort ats).take j)
              { curCacheSize := countedSize ats }).curCacheSize =
            totalSize ((sort.sort ats).drop (min j k))) := by
  intro ats cleaning hlimit hunlink hfits
  have hcounted : countedSize ats = totalSize ats := countedSize_of_fits hfits
  have hcleaning : cleaning = if totalSize ats ≤ sizeLimit then { curCacheSize := totalSize ats }
      else cleanLoop unlink sizeLimit (sort.sort ats) { curCacheSize := totalSize ats } := by
    simp only [cleaning, controlMusicCache, if_neg (Nat.ne_of_gt hlimit)]
    rw [show countedSize _ = totalSize ats from hcounted]
    split <;> rfl
  constructor
  · intro hle
    rw [hcleaning, if_pos hle]
  · intro hover
    have hsame : totalSize (sort.sort ats) = totalSize ats := totalSize_perm (sort.perm ats)
    obtain ⟨k, hk, hcut, hloop⟩ := exists_cut (s := { curCacheSize := totalSize ats }) hlimit
      (fun g hg => hunlink g ((sort.perm ats).mem_iff.1 hg)) hsame.symm (hsame ▸ hfits)
    refine ⟨k, hcut, ?_, fun j => ?_⟩
    · have hall := hloop (sort.sort ats).length
      rw [List.take_length, Nat.min_eq_right hk] at hall
      rw [hcleaning, if_neg (Nat.not_le.2 hover), hall]
      exact List.nil_append _
    · rw [hcounted, hloop j]
      rfl

/-! ## At the limit, and with sizes that do not fit -/

private def insertionSort : AccessSort where
  sort := List.insertionSort (·.lastAccess ≤ ·.lastAccess)
  perm l := List.perm_insertionSort _ l
  oldestFirst l := by
    have : Std.Total fun a b : GatT => a.lastAccess ≤ b.lastAccess :=
      ⟨fun a b => Int.le_total a.lastAccess b.lastAccess⟩
    have : IsTrans GatT fun a b => a.lastAccess ≤ b.lastAccess := ⟨fun _ _ _ => Int.le_trans⟩
    exact List.pairwise_insertionSort _ l

private def cachedTracks (files : List (Char × Nat × Int)) : TrackCache where
  gatRetCache := files.map fun (name, size, lastAccess) => ⟨[], [], [name], size, lastAccess⟩
  gatCacheCompleteness := { zeroAmount := true, hasStat := true }

private def noDir : MusicDir := ⟨[], none, fun _ => none⟩

theorem control_music_cache_two_files :
    let s := cachedTracks [('a', 4, 9), ('b', 6, 7)]
    let sorted := insertionSort.sort (s.getAvailableTracks noDir (.allWithStat 0)).2
    ∃ k, ShortestCut (· < 5) sorted k ∧
      (controlMusicCache insertionSort (fun _ => true) noDir s 0 5).2.unlinked =
        (sorted.take k).map GatT.fullpath := by
  intro s sorted
  obtain ⟨k, hcut, hunlinked, -⟩ := (control_music_cache_shortest insertionSort (fun _ => true)
    noDir s 0 5 (by decide) (fun _ _ => rfl) (by decide)).2 (by decide)
  exact ⟨k, hcut, hunlinked⟩

/-- With the older of two files of one byte removed, the total is at the limit of one byte, and the
other is removed as well; and three files that have too many bytes for a `size_t` count as one byte,
so that none is removed. -/
theorem control_music_cache_past_limit :
    let two := cachedTracks [('a', 1, 9), ('b', 1, 7)]
    let sorted := insertionSort.sort (two.getAvailableTracks noDir (.allWithStat 0)).2
    let huge := cachedTracks [('a', 2 ^ 63 - 1, 7), ('b', 2 ^ 63 - 1, 8), ('c', 3, 9)]
    (¬ ∃ k, ShortestCut (· ≤ 1) sorted k ∧
      (controlMusicCache insertionSort (fun _ => true) noDir two 0 1).2.unlinked =
        (sorted.take k).map GatT.fullpath) ∧
    2 < totalSize (huge.getAvailableTracks noDir (.allWithStat 0)).2 ∧
      (controlMusicCache insertionSort (fun _ => true) noDir huge 0 2).2.unlinked = [] := by
  intro two sorted huge
  refine ⟨?_, by decide, by decide⟩
  rintro ⟨k, hcut, hunlinked⟩
  have hlength := congrArg List.length hunlinked
  have htwo : (controlMusicCache insertionSort (fun _ => true) noDir two 0 1).2.unlinked.length =
      2 := by
    decide
  rw [htwo, List.length_map, List.length_take] at hlength
  exact hcut.shortest 1 (by omega) (by decide)

end Musicat.Player
