import Musicat.Lib.Find
import Musicat.Lib.Run

/-!
# The list of tracks and its cache

`get_available_tracks` scans the music directory, and answers calls of the next
seconds with what the last scan gave. A scan that was not for all tracks, or
that did without sizes and times, does not do for a call that asks for them;
but nobody looks at how many tracks were scanned for, so what is cached may be
too few or too many for a call. The scan looks for the first `.opus` in a name,
and skips a file with another one before the end.
-/

namespace Musicat.Player

open Lib

/-! ## The directory -/

structure Dirent where
  dType : Nat
  dName : List Char
  deriving DecidableEq, Repr

/-- `DT_REG` -/
def dtReg : Nat := 8

/-- The music directory, which does not change. -/
structure MusicDir where
  /-- With a slash at the end. -/
  path : List Char
  /-- What `readdir` yields, in order; `none` if `opendir` fails. -/
  entries : Option (List Dirent)
  /-- `st_size` and `st_atime` of a path; `none` if `stat` fails. -/
  stat : List Char → Option (Nat × Int)

structure GatT where
  name : List Char
  fullname : List Char
  fullpath : List Char
  size : Nat
  lastAccess : Int
  deriving DecidableEq, Repr

def opusExt : List Char := ['.', 'o', 'p', 'u', 's']

/-- What is pushed for a file. -/
def gatOf (d : MusicDir) (withStat : Bool) (s : List Char) : GatT :=
  let fpath := d.path ++ s
  let (siz, lastAccess) := if withStat then (d.stat fpath).getD (0, 0) else (0, 0)
  { name := s.take (s.length - 5), fullname := s, fullpath := fpath, size := siz, lastAccess }

/-- The first `.opus` in the name is at its end. -/
def EndsAtFirst (s : List Char) : Prop := find opusExt s = some (s.length - 5)

instance (s : List Char) : Decidable (EndsAtFirst s) := inferInstanceAs (Decidable (_ = _))

/-- The loop over the directory; `c` counts for an amount that is not zero. -/
def scanLoop (d : MusicDir) (amount : Nat) (withStat : Bool) :
    List Dirent → Nat → List GatT → List GatT
  | [], _, ret => ret
  | file :: files, c, ret =>
    if file.dType ≠ dtReg then scanLoop d amount withStat files c ret
    else if ¬ (5 < file.dName.length ∧ EndsAtFirst file.dName) then
      scanLoop d amount withStat files c ret
    else
      let ret := ret ++ [gatOf d withStat file.dName]
      if amount ≠ 0 ∧ c + 1 = amount then ret
      else scanLoop d amount withStat files (c + 1) ret

/-! ## The cache -/

/-- The flags `GATCC_ZERO_AMOUNT` and `GATCC_HAS_STAT`. -/
structure Completeness where
  zeroAmount : Bool := false
  hasStat : Bool := false
  deriving DecidableEq, Repr

structure TrackCache where
  gatRetCache : List GatT := []
  gatLastUc : Int := 0
  gatCacheCompleteness : Completeness := {}
  deriving DecidableEq, Repr

/-- A call of `get_available_tracks` at a time. -/
structure TrackCall where
  amount : Nat := 0
  withStat : Bool := false
  time : Int

def TrackCall.requiredCompleteness (c : TrackCall) : Completeness where
  zeroAmount := c.amount == 0
  hasStat := c.withStat

namespace TrackCache

/-- The flag is required, and the cache does not have it. -/
def gatccRnot (s : TrackCache) (rc : Completeness) (flag : Completeness → Bool) : Bool :=
  flag rc && !flag s.gatCacheCompleteness

def gatccIsComplete (s : TrackCache) : Bool :=
  s.gatCacheCompleteness.zeroAmount && s.gatCacheCompleteness.hasStat

/-- The cache is returned for the call. -/
def answers (s : TrackCache) (c : TrackCall) : Bool :=
  decide (c.time - s.gatLastUc < 11) &&
    (s.gatccIsComplete ||
      (!s.gatccRnot c.requiredCompleteness (·.zeroAmount) &&
        !s.gatccRnot c.requiredCompleteness (·.hasStat)))

def getAvailableTracks (d : MusicDir) (s : TrackCache) (c : TrackCall) : TrackCache × List GatT :=
  if s.answers c then (s, s.gatRetCache)
  else
    match d.entries with
    | none => (s, [])
    | some files =>
      let ret := scanLoop d c.amount c.withStat files 0 []
      ({ gatRetCache := ret, gatLastUc := c.time,
         gatCacheCompleteness := c.requiredCompleteness }, ret)

end TrackCache

inductive TrackListAction where
  | get (c : TrackCall)
  /-- `invalidate_track_list_cache` -/
  | invalidate

def trackListStep (d : MusicDir) (s : TrackCache) : TrackListAction → Option TrackCache
  | .get c => some (s.getAvailableTracks d c).1
  | .invalidate => some { s with gatLastUc := 0 }

/-! ## A fresh scan -/

/-- A regular file whose name is longer than five and ends in `.opus`. -/
def IsOpusFile (f : Dirent) : Prop := f.dType = dtReg ∧ 5 < f.dName.length ∧ opusExt <:+ f.dName

instance (f : Dirent) : Decidable (IsOpusFile f) := inferInstanceAs (Decidable (_ ∧ _ ∧ _))

/-- The first of a list, all for zero. -/
def firstOf {α : Type*} (amount : Nat) (l : List α) : List α :=
  if amount = 0 then l else l.take amount

/-- The files of a fresh scan. -/
def freshFiles (d : MusicDir) (amount : Nat) : List Dirent :=
  firstOf amount ((d.entries.getD []).filter (IsOpusFile ·))

def freshScan (d : MusicDir) (amount : Nat) (withStat : Bool) : List GatT :=
  (freshFiles d amount).map fun f => gatOf d withStat f.dName

/-- A track without its size and time. -/
def GatT.bare (g : GatT) : GatT := { g with size := 0, lastAccess := 0 }

/-- The same tracks, with sizes and times where the call asks for them. -/
def Agrees (c : TrackCall) (ret fresh : List GatT) : Prop :=
  ret.map GatT.bare = fresh.map GatT.bare ∧ (c.withStat → ret = fresh)

instance (c : TrackCall) (ret fresh : List GatT) : Decidable (Agrees c ret fresh) :=
  inferInstanceAs (Decidable (_ ∧ (_ → _)))

/-- A call returns what a fresh scan would. -/
def AnswersFresh (d : MusicDir) (s : TrackCache) : TrackListAction → Prop
  | .get c => Agrees c (s.getAvailableTracks d c).2 (freshScan d c.amount c.withStat)
  | .invalidate => True

/-- The files of a fresh scan have one `.opus` in their names, and a cache that answers has as many
tracks as there are files. -/
def FreshEnough (d : MusicDir) (s : TrackCache) : TrackListAction → Prop
  | .get c => (∀ f ∈ freshFiles d c.amount, EndsAtFirst f.dName) ∧
      (s.answers c → s.gatRetCache.length = (freshFiles d c.amount).length)
  | .invalidate => True

/-! ## What a scan finds -/

section
variable {α : Type*} {n : Nat} {l : List α} {a : α}

theorem firstOf_prefix_self (n : Nat) (l : List α) : firstOf n l <+: l := by
  unfold firstOf
  split
  · exact List.prefix_rfl
  · exact List.take_prefix n l

theorem firstOf_one : firstOf 1 (a :: l) = [a] := rfl

theorem firstOf_cons (h : n ≠ 1) : firstOf n (a :: l) = a :: firstOf (n - 1) l := by
  rcases Nat.eq_zero_or_pos n with rfl | hpos
  · rfl
  · rw [firstOf, if_neg (Nat.ne_of_gt hpos), firstOf, if_neg (by omega),
      List.take_cons hpos]

/-- Filtering keeps the first of a list that pass the filter. -/
theorem firstOf_filter {p : α → Bool} (h : ∀ a ∈ firstOf n l, p a) :
    firstOf n (l.filter p) = firstOf n l := by
  unfold firstOf at h ⊢
  split
  · rename_i h0
    rw [if_pos h0] at h
    exact List.filter_eq_self.2 h
  · rename_i h0
    rw [if_neg h0] at h
    conv_lhs => rw [← List.take_append_drop n l]
    rw [List.filter_append, List.filter_eq_self.2 h]
    rcases Nat.le_total n l.length with hle | hle
    · rw [List.take_append_of_le_length (by rw [List.length_take]; omega), List.take_take,
        Nat.min_self]
    · rw [List.drop_of_length_le hle, List.filter_nil, List.append_nil, List.take_take,
        Nat.min_self]

end

section
variable {d : MusicDir} {s s' : TrackCache} {c : TrackCall} {amount : Nat} {withStat : Bool}
  {f : Dirent} {files : List Dirent}

/-- The files that the loop does not skip. -/
def foundFiles (files : List Dirent) : List Dirent :=
  (files.filter (IsOpusFile ·)).filter (EndsAtFirst ·.dName)

theorem ends_of_endsAtFirst {s : List Char} (h : 5 < s.length) (hends : EndsAtFirst s) :
    opusExt <:+ s := by
  have hdrop := drop_of_find hends
  have hend : s.length - 5 + opusExt.length = s.length := by
    have hfive : opusExt.length = 5 := rfl
    omega
  rw [hend, List.drop_length, List.append_nil] at hdrop
  exact hdrop ▸ List.drop_suffix _ s

/-- The loop skips what is no opus file, and what has another `.opus` in its name. -/
theorem found_iff : (f.dType = dtReg ∧ 5 < f.dName.length ∧ EndsAtFirst f.dName) ↔
    IsOpusFile f ∧ EndsAtFirst f.dName := by
  constructor
  · rintro ⟨hreg, hlength, hends⟩
    exact ⟨⟨hreg, hlength, ends_of_endsAtFirst hlength hends⟩, hends⟩
  · rintro ⟨⟨hreg, hlength, -⟩, hends⟩
    exact ⟨hreg, hlength, hends⟩

theorem foundFiles_cons_of_found (h : IsOpusFile f ∧ EndsAtFirst f.dName) :
    foundFiles (f :: files) = f :: foundFiles files := by
  simp [foundFiles, h]

theorem foundFiles_cons_of_skipped (h : ¬ (IsOpusFile f ∧ EndsAtFirst f.dName)) :
    foundFiles (f :: files) = foundFiles files := by
  by_cases hopus : IsOpusFile f
  · have hends : ¬ EndsAtFirst f.dName := fun he => h ⟨hopus, he⟩
    simp [foundFiles, hopus, hends]
  · simp [foundFiles, hopus]

/-- The loop pushes the tracks of the files it finds, up to the amount. -/
theorem scanLoop_eq {count : Nat} {ret : List GatT} (hcount : amount = 0 ∨ count < amount) :
    scanLoop d amount withStat files count ret =
      ret ++ (firstOf (amount - count) (foundFiles files)).map fun f => gatOf d withStat f.dName := by
  induction files generalizing count ret with
  | nil => simp [scanLoop, foundFiles, firstOf]
  | cons f files ih =>
    rw [scanLoop]
    by_cases hreg : f.dType = dtReg
    · rw [if_neg (not_not.2 hreg)]
      by_cases hfound : 5 < f.dName.length ∧ EndsAtFirst f.dName
      · rw [if_neg (not_not.2 hfound), foundFiles_cons_of_found (found_iff.1 ⟨hreg, hfound⟩)]
        dsimp only
        by_cases hlast : amount ≠ 0 ∧ count + 1 = amount
        · rw [if_pos hlast, show amount - count = 1 by omega, firstOf_one]
          rfl
        · rw [if_neg hlast, ih (by omega), firstOf_cons (by omega), Nat.sub_sub, List.map_cons,
            List.append_assoc, List.singleton_append]
      · rw [if_pos hfound, foundFiles_cons_of_skipped fun h => hfound (found_iff.2 h).2, ih hcount]
    · rw [if_pos hreg, foundFiles_cons_of_skipped fun h => hreg (found_iff.2 h).1, ih hcount]

/-! ## What is returned -/

theorem getAvailableTracks_of_answers (h : s.answers c) :
    s.getAvailableTracks d c = (s, s.gatRetCache) := by
  rw [TrackCache.getAvailableTracks, if_pos h]

/-- A scan of a directory that can be opened is cached. -/
theorem getAvailableTracks_of_not_answers (h : ¬ s.answers c) (hopen : d.entries = some files) :
    s.getAvailableTracks d c =
      let ret := (firstOf c.amount (foundFiles files)).map fun f => gatOf d c.withStat f.dName
      ({ gatRetCache := ret, gatLastUc := c.time,
         gatCacheCompleteness := c.requiredCompleteness }, ret) := by
  have hloop : scanLoop d c.amount c.withStat files 0 [] =
      (firstOf c.amount (foundFiles files)).map fun f => gatOf d c.withStat f.dName :=
    scanLoop_eq (Nat.eq_zero_or_pos _)
  rw [TrackCache.getAvailableTracks, if_neg h, hopen]
  dsimp only
  rw [hloop]

theorem getAvailableTracks_of_not_open (h : ¬ s.answers c) (hopen : d.entries = none) :
    s.getAvailableTracks d c = (s, []) := by
  rw [TrackCache.getAvailableTracks, if_neg h, hopen]

/-- A cache that answers has sizes and times where they are asked for. -/
theorem hasStat_of_answers (h : s.answers c) (hstat : c.withStat) :
    s.gatCacheCompleteness.hasStat = true := by
  simp only [TrackCache.answers, TrackCache.gatccIsComplete, TrackCache.gatccRnot,
    TrackCall.requiredCompleteness, hstat] at h
  grind

/-- The cache has tracks of the first files found, with their sizes and times if it says so. -/
def Filled (d : MusicDir) (s : TrackCache) : Prop :=
  ∃ files, files <+: foundFiles (d.entries.getD []) ∧
    s.gatRetCache = files.map fun f => gatOf d s.gatCacheCompleteness.hasStat f.dName

theorem filled_step {a : TrackListAction} (hs : Filled d s) (h : trackListStep d s a = some s') :
    Filled d s' := by
  cases a with
  | invalidate =>
    cases h
    exact hs
  | get c =>
    obtain rfl : (s.getAvailableTracks d c).1 = s' := Option.some.inj h
    by_cases hanswers : s.answers c
    · rwa [getAvailableTracks_of_answers hanswers]
    · cases hopen : d.entries with
      | none => rwa [getAvailableTracks_of_not_open hanswers hopen]
      | some files =>
        rw [getAvailableTracks_of_not_answers hanswers hopen]
        exact ⟨_, by rw [hopen]; exact firstOf_prefix_self _ _, rfl⟩

/-! ## As a fresh scan would -/

theorem gatOf_bare (b : Bool) (n : List Char) : (gatOf d b n).bare = gatOf d false n := by
  cases b <;> rfl

theorem map_bare (b : Bool) (files : List Dirent) :
    (files.map fun f => gatOf d b f.dName).map GatT.bare =
      files.map fun f => gatOf d false f.dName := by
  rw [List.map_map]
  exact List.map_congr_left fun f _ => gatOf_bare b f.dName

theorem map_fullname (b : Bool) (files : List Dirent) :
    ((files.map fun f => gatOf d b f.dName).map GatT.bare).map GatT.fullname =
      files.map Dirent.dName := by
  rw [map_bare, List.map_map]
  rfl

/-- All files of a fresh scan are found, up to the amount. -/
theorem firstOf_foundFiles (h : ∀ f ∈ freshFiles d amount, EndsAtFirst f.dName) :
    firstOf amount (foundFiles (d.entries.getD [])) = freshFiles d amount :=
  firstOf_filter fun f hf => decide_eq_true (h f hf)

/-- Tracks of the first files found are those of a fresh scan exactly if all files of the fresh
scan are found, and there are as many. -/
theorem agrees_iff {stat : Bool} (hfiles : files <+: foundFiles (d.entries.getD []))
    (hstat : c.withStat → stat = true) :
    Agrees c (files.map fun f => gatOf d stat f.dName) (freshScan d c.amount c.withStat) ↔
      (∀ f ∈ freshFiles d c.amount, EndsAtFirst f.dName) ∧
        files.length = (freshFiles d c.amount).length := by
  constructor
  · rintro ⟨hbare, -⟩
    have hnames : files.map Dirent.dName = (freshFiles d c.amount).map Dirent.dName := by
      have := congrArg (List.map GatT.fullname) hbare
      rwa [map_fullname, freshScan, map_fullname] at this
    refine ⟨fun f hf => ?_, by simpa using congrArg List.length hnames⟩
    have hname : f.dName ∈ files.map Dirent.dName := hnames ▸ List.mem_map_of_mem hf
    obtain ⟨g, hg, hgf⟩ := List.mem_map.1 hname
    have hfound : EndsAtFirst g.dName := of_decide_eq_true (List.mem_filter.1 (hfiles.mem hg)).2
    exact hgf ▸ hfound
  · rintro ⟨hends, hlength⟩
    have hfresh : freshFiles d c.amount <+: foundFiles (d.entries.getD []) :=
      firstOf_foundFiles hends ▸ firstOf_prefix_self _ _
    have hsame : files = freshFiles d c.amount :=
      (List.prefix_of_prefix_length_le hfiles hfresh hlength.le).eq_of_length hlength
    rw [freshScan, hsame]
    refine ⟨by rw [map_bare, map_bare], fun hw => ?_⟩
    rw [hstat hw, show c.withStat = true from hw]

/-- A call returns what a fresh scan would exactly if the files of the fresh scan are found, and
the cache, if it answers, has as many. -/
theorem answersFresh_iff (hs : Filled d s) (a : TrackListAction) :
    AnswersFresh d s a ↔ FreshEnough d s a := by
  cases a with
  | invalidate => exact Iff.rfl
  | get c =>
    rw [AnswersFresh, FreshEnough]
    by_cases hanswers : s.answers c
    · obtain ⟨files, hfiles, hcache⟩ := hs
      rw [getAvailableTracks_of_answers hanswers, hcache, List.length_map,
        agrees_iff hfiles (hasStat_of_answers hanswers)]
      simp [hanswers]
    · have hscan : (s.getAvailableTracks d c).2 =
          (firstOf c.amount (foundFiles (d.entries.getD []))).map
            fun f => gatOf d c.withStat f.dName := by
        cases hopen : d.entries with
        | none =>
          rw [getAvailableTracks_of_not_open hanswers hopen]
          simp [foundFiles, firstOf]
        | some files =>
          rw [getAvailableTracks_of_not_answers hanswers hopen]
          rfl
      rw [hscan, agrees_iff (firstOf_prefix_self _ _) id]
      exact and_congr_right fun hends =>
        iff_of_true (congrArg List.length (firstOf_foundFiles hends)) fun h => absurd h hanswers

end

/-- **Calls return what fresh scans would**, in any run with the directory as it is, exactly if
every fresh scan is for files with one `.opus` in their names, and every cache that answers has as
many tracks as a fresh scan. -/
theorem track_list_fresh_iff (d : MusicDir) (l : List TrackListAction) :
    Along (trackListStep d) (AnswersFresh d) {} l ↔ Along (trackListStep d) (FreshEnough d) {} l :=
  along_congr_inv (I := Filled d) (fun _ _ _ hs h => filled_step hs h)
    (fun _ a hs => answersFresh_iff hs a) l ⟨[], List.nil_prefix, rfl⟩

/-! ## Where calls go wrong -/

instance (d : MusicDir) (s : TrackCache) : (a : TrackListAction) → Decidable (AnswersFresh d s a)
  | .get c =>
    inferInstanceAs (Decidable (Agrees c (s.getAvailableTracks d c).2 _))
  | .invalidate => isTrue trivial

private def musicDir (names : List String) : MusicDir where
  path := "music/".toList
  entries := some (names.map fun n => ⟨dtReg, n.toList⟩)
  stat _ := some (1, 1)

/-- All tracks are cached, and one is asked for; one is cached, and two are asked for; a name has
`.opus` twice. -/
theorem track_list_not_fresh :
    let two := musicDir ["a.opus", "b.opus"]
    let twice := musicDir ["a.opus.opus"]
    ¬ Along (trackListStep two) (AnswersFresh two) {}
        [.get { amount := 0, time := 1000 }, .get { amount := 1, time := 1001 }] ∧
      ¬ Along (trackListStep two) (AnswersFresh two) {}
        [.get { amount := 1, time := 1000 }, .get { amount := 2, time := 1001 }] ∧
      ¬ Along (trackListStep twice) (AnswersFresh twice) {}
        [.get { amount := 0, time := 1000 }] := by
  decide

end Musicat.Player
