import Musicat.Child.Outfile

/-!
# The array of `poll`

`manage_pollfds_stack` over an array of any length. A first loop writes down the
indices that have an error bit. The second one closes these, erases each from
the tracker and moves what comes after it back in the array: its `fd` and its
`events`, since `revents` are set again by the next `poll`. On `fd` and `events`
the second loop is `compactLoop` (`stackLoop_entries`), which moves whole
entries.
-/

namespace Musicat.Child

open Lib

structure Pollfd where
  fd : Int
  events : Int
  revents : PollFlags := {}
  deriving DecidableEq, Repr

namespace Pollfd

def hasErr (p : Pollfd) : Bool := reventsHasErr p.revents

/-- What is moved of an entry. -/
def entry (p : Pollfd) : Int × Int := (p.fd, p.events)

end Pollfd

/-- The variables of `manage_pollfds_stack`, and what it has closed. -/
structure PollStack where
  pfds : List Pollfd
  fdTracker : List Char
  removedFds : List Nat
  mvBack : Nat := 0
  closed : List Int := []
  deriving DecidableEq, Repr

namespace PollStack

/-- The search of `i` in `removed_fds`. -/
def closeRemoved (s : PollStack) (i : Nat) (p : Pollfd) : PollStack :=
  if i ∈ s.removedFds then
    { s with
      closed := s.closed ++ [p.fd], fdTracker := s.fdTracker.eraseIdx (i - s.mvBack)
      removedFds := s.removedFds.erase i }
  else s

def moveEntry (s : PollStack) (i : Nat) (p : Pollfd) : PollStack :=
  if 0 < s.mvBack then
    { s with
      pfds := s.pfds.modify (i - s.mvBack) fun q => { q with fd := p.fd, events := p.events } }
  else s

/-- The body of the second loop; an index outside the array changes nothing. -/
def stackEntry (s : PollStack) (i : Nat) : PollStack :=
  match s.pfds[i]? with
  | none => s
  | some p =>
    let t := (s.closeRemoved i p).moveEntry i p
    if i ∈ s.removedFds then { t with mvBack := t.mvBack + 1 } else t

/-- `k` entries are left, and `i` is the next one. -/
def stackLoop : (k i : Nat) → PollStack → PollStack
  | 0, _, s => s
  | k + 1, i, s => stackLoop k (i + 1) (s.stackEntry i)

end PollStack

/-- The slots that have an error bit. -/
def removedAt (pfds : List Pollfd) (i : Nat) : Bool := (pfds[i]?).any Pollfd.hasErr

/-- The first loop: the indices that have an error bit. -/
def removedFds (pfds : List Pollfd) (fdsiz : Nat) : List Nat :=
  (List.range fdsiz).filter (removedAt pfds)

def managePollfdsStack (pfds : List Pollfd) (fdTracker : List Char) : PollStack :=
  .stackLoop fdTracker.length 0
    { pfds, fdTracker, removedFds := removedFds pfds fdTracker.length }

/-! ## The second loop moves whole entries -/

namespace PollStack

section
variable {removed : Nat → Bool} {s : PollStack} {i k : Nat} {p : Pollfd}

theorem moveEntry_entries (hp : s.pfds[i]? = some p) :
    (s.moveEntry i p).pfds.map Pollfd.entry =
      if 0 < s.mvBack then moveBack (s.pfds.map Pollfd.entry) i s.mvBack
      else s.pfds.map Pollfd.entry := by
  unfold moveEntry
  split
  · rw [moveBack, List.getElem?_map, hp]
    apply List.ext_getElem?
    intro j
    dsimp only [Option.map_some]
    rw [List.getElem?_map, List.getElem?_modify, List.getElem?_set, List.getElem?_map,
      List.length_map]
    by_cases hj : i - s.mvBack = j
    · rw [if_pos hj]
      cases hq : s.pfds[j]? with
      | none =>
        have := List.getElem?_eq_none_iff.1 hq
        simp [hj, this]
      | some q =>
        have := (List.getElem?_eq_some_iff.1 hq).1
        simp [hj, this, Pollfd.entry]
    · simp [hj]
  · rfl

@[simp] theorem closeRemoved_pfds (s : PollStack) (i : Nat) (p : Pollfd) :
    (s.closeRemoved i p).pfds = s.pfds := by
  unfold closeRemoved
  split <;> rfl

@[simp] theorem closeRemoved_mvBack (s : PollStack) (i : Nat) (p : Pollfd) :
    (s.closeRemoved i p).mvBack = s.mvBack := by
  unfold closeRemoved
  split <;> rfl

/-- The move changes the array only. -/
theorem moveEntry_others (s : PollStack) (i : Nat) (p : Pollfd) :
    (s.moveEntry i p).fdTracker = s.fdTracker ∧ (s.moveEntry i p).removedFds = s.removedFds ∧
      (s.moveEntry i p).mvBack = s.mvBack ∧ (s.moveEntry i p).closed = s.closed := by
  unfold moveEntry
  split <;> exact ⟨rfl, rfl, rfl, rfl⟩

theorem moveEntry_getElem? {j : Nat} (hj : i < j) : (s.moveEntry i p).pfds[j]? = s.pfds[j]? := by
  unfold moveEntry
  split
  · have hne : i - s.mvBack ≠ j := by omega
    simp [hne]
  · rfl

theorem moveEntry_length : (s.moveEntry i p).pfds.length = s.pfds.length := by
  unfold moveEntry
  split
  · exact List.length_modify ..
  · rfl

/-- What the body does at an entry. -/
structure EntryDone (s : PollStack) (i : Nat) (p : Pollfd) (isRemoved : Bool) (t : PollStack) :
    Prop where
  entries : t.pfds.map Pollfd.entry =
    if 0 < s.mvBack then moveBack (s.pfds.map Pollfd.entry) i s.mvBack
    else s.pfds.map Pollfd.entry
  tracker : t.fdTracker =
    if isRemoved then s.fdTracker.eraseIdx (i - s.mvBack) else s.fdTracker
  mvBack : t.mvBack = if isRemoved then s.mvBack + 1 else s.mvBack
  closed : t.closed = s.closed ++ if isRemoved then [p.fd] else []
  /-- What comes after the entry is not touched. -/
  rest : ∀ j, i < j → t.pfds[j]? = s.pfds[j]? ∧ (j ∈ t.removedFds ↔ j ∈ s.removedFds)
  length : t.pfds.length = s.pfds.length

theorem stackEntry_spec {isRemoved : Bool} (hp : s.pfds[i]? = some p)
    (hremoved : i ∈ s.removedFds ↔ isRemoved = true) :
    EntryDone s i p isRemoved (s.stackEntry i) := by
  have hp' : (s.closeRemoved i p).pfds[i]? = some p := by rwa [closeRemoved_pfds]
  have hentries := moveEntry_entries hp'
  obtain ⟨htracker, hlist, hmv, hclosed⟩ := moveEntry_others (s.closeRemoved i p) i p
  rw [closeRemoved_pfds, closeRemoved_mvBack] at hentries
  unfold stackEntry
  rw [hp]
  dsimp only
  cases isRemoved with
  | true =>
    have hi : i ∈ s.removedFds := hremoved.2 rfl
    rw [if_pos hi]
    refine ⟨hentries, ?_, ?_, ?_, fun j hj => ⟨?_, ?_⟩, ?_⟩
    · exact htracker.trans (by simp [closeRemoved, hi])
    · exact congrArg (· + 1) (hmv.trans (closeRemoved_mvBack s i p))
    · exact hclosed.trans (by simp [closeRemoved, hi])
    · exact (moveEntry_getElem? hj).trans (by rw [closeRemoved_pfds])
    · dsimp only
      rw [hlist, closeRemoved, if_pos hi]
      exact List.mem_erase_of_ne (by omega)
    · exact moveEntry_length.trans (by rw [closeRemoved_pfds])
  | false =>
    have hi : i ∉ s.removedFds := fun h => Bool.false_ne_true (hremoved.1 h)
    rw [if_neg hi]
    have hclose : s.closeRemoved i p = s := if_neg hi
    rw [hclose] at htracker hlist hmv hclosed hentries ⊢
    refine ⟨hentries, htracker, hmv, hclosed.trans (List.append_nil _).symm, fun j hj => ⟨?_, ?_⟩,
      moveEntry_length⟩
    · exact moveEntry_getElem? hj
    · rw [hlist]

/-- **The second loop is `compactLoop` on `fd` and `events`**, and it closes what it removes. -/
theorem stackLoop_entries (hi : i + k ≤ s.pfds.length)
    (hremoved : ∀ j, i ≤ j → j < i + k → (j ∈ s.removedFds ↔ removed j = true))
    (herr : ∀ j p, i ≤ j → s.pfds[j]? = some p → p.hasErr = removed j) :
    ((stackLoop k i s).pfds.map Pollfd.entry, (stackLoop k i s).fdTracker) =
        compactLoop removed k i s.mvBack (s.pfds.map Pollfd.entry) s.fdTracker ∧
      (stackLoop k i s).closed =
        s.closed ++ (((s.pfds.drop i).take k).filter Pollfd.hasErr).map (·.fd) := by
  induction k generalizing i s with
  | zero => exact ⟨rfl, by simp [stackLoop]⟩
  | succ k ih =>
    have hlt : i < s.pfds.length := by omega
    obtain ⟨p, hp⟩ : ∃ p, s.pfds[i]? = some p := ⟨_, List.getElem?_eq_getElem hlt⟩
    have hdone := stackEntry_spec hp (hremoved i (Nat.le_refl i) (by omega))
    obtain ⟨hentries, hclosed⟩ := @ih (s.stackEntry i) (i + 1) (by rw [hdone.length]; omega)
      (fun j hj hk => (hdone.rest j hj).2.trans (hremoved j (by omega) (by omega)))
      (fun j q hj hq => herr j q (by omega) ((hdone.rest j hj).1 ▸ hq))
    constructor
    · rw [stackLoop, hentries, hdone.entries, hdone.tracker, hdone.mvBack]
      rfl
    · have hdrop : (s.stackEntry i).pfds.drop (i + 1) = s.pfds.drop (i + 1) := by
        apply List.ext_getElem?
        intro j
        rw [List.getElem?_drop, List.getElem?_drop, (hdone.rest (i + 1 + j) (by omega)).1]
      have hhead : s.pfds.drop i = p :: s.pfds.drop (i + 1) := by
        rw [List.drop_eq_getElem_cons hlt, ← (List.getElem?_eq_some_iff.1 hp).2]
      rw [stackLoop, hclosed, hdone.closed, hdrop, hhead, List.take_succ_cons, List.filter_cons,
        herr i p (Nat.le_refl i) hp, List.append_assoc]
      cases removed i <;> rfl

end

end PollStack

theorem removedAt_eq {pfds : List Pollfd} {i : Nat} {p : Pollfd} (hp : pfds[i]? = some p) :
    removedAt pfds i = p.hasErr := by
  rw [removedAt, hp]
  rfl

/-- What is kept of the pairs. -/
theorem kept_zip (pfds : List Pollfd) (fdTracker : List Char) :
    kept (removedAt pfds) 0 (pfds.zip fdTracker) =
      (pfds.zip fdTracker).filter fun p => !p.1.hasErr := by
  refine kept_eq_filter fun j p hp => ?_
  rw [Nat.zero_add, Bool.not_not]
  exact removedAt_eq (List.getElem?_zip_eq_some.1 hp).1

section
variable {pfds : List Pollfd} {fdTracker : List Char} (hsize : fdTracker.length ≤ pfds.length)
include hsize

theorem managePollfdsStack_spec :
    ((managePollfdsStack pfds fdTracker).pfds.map Pollfd.entry,
        (managePollfdsStack pfds fdTracker).fdTracker) =
        compact (removedAt pfds) (pfds.map Pollfd.entry) fdTracker ∧
      (managePollfdsStack pfds fdTracker).closed =
        ((pfds.take fdTracker.length).filter Pollfd.hasErr).map (·.fd) := by
  refine PollStack.stackLoop_entries (by rw [Nat.zero_add]; exact hsize) (fun j _ hj => ?_)
    fun j p _ hp => (removedAt_eq hp).symm
  rw [Nat.zero_add] at hj
  rw [removedFds, List.mem_filter, List.mem_range]
  exact and_iff_right hj

theorem take_eq_zip : pfds.take fdTracker.length = (pfds.zip fdTracker).map Prod.fst := by
  have hlen : (pfds.take fdTracker.length).length = fdTracker.length := List.length_take_of_le hsize
  rw [List.zip_eq_zip_take_min, Nat.min_eq_right hsize, List.take_length]
  exact (List.map_fst_zip (Nat.le_of_eq hlen)).symm

end

/-- **The tracker is kept beside the array.** What has an error bit is closed, each descriptor once;
the others are the first entries of the array, in their order and with their `events`, each at the
place of its tracker. -/
theorem manage_pollfds_stack_aligned (pfds : List Pollfd) (fdTracker : List Char)
    (hsize : fdTracker.length ≤ pfds.length) :
    let s := managePollfdsStack pfds fdTracker
    let remaining := (pfds.zip fdTracker).filter fun p => !p.1.hasErr
    s.closed = ((pfds.take fdTracker.length).filter Pollfd.hasErr).map (·.fd) ∧
      s.fdTracker = remaining.map Prod.snd ∧
      (s.pfds.take s.fdTracker.length).map Pollfd.entry = remaining.map fun p => p.1.entry := by
  intro s remaining
  obtain ⟨hentries, hclosed⟩ := managePollfdsStack_spec hsize
  obtain ⟨junk, hcompact⟩ : ∃ junk, compact (removedAt pfds) (pfds.map Pollfd.entry) fdTracker =
      (kept (removedAt pfds) 0 ((pfds.map Pollfd.entry).take fdTracker.length) ++ junk,
        kept (removedAt pfds) 0 fdTracker) :=
    compact_spec (by rw [List.length_map]; exact hsize)
  obtain ⟨hpfds, htracker⟩ := Prod.mk.inj (hentries.trans hcompact)
  have hzip : (pfds.zip fdTracker).map Prod.snd = fdTracker := List.map_snd_zip hsize
  have htracker' : s.fdTracker = remaining.map Prod.snd := by
    have hkept : kept (removedAt pfds) 0 ((pfds.zip fdTracker).map Prod.snd) =
        (kept (removedAt pfds) 0 (pfds.zip fdTracker)).map Prod.snd := kept_map Prod.snd 0 _
    rw [hzip, kept_zip] at hkept
    exact htracker.trans hkept
  have hpfds' : s.pfds.map Pollfd.entry = (remaining.map fun p => p.1.entry) ++ junk := by
    rw [← List.map_take, take_eq_zip hsize, List.map_map, kept_map, kept_zip] at hpfds
    exact hpfds
  refine ⟨hclosed, htracker', ?_⟩
  rw [List.map_take, hpfds', htracker', List.length_map]
  exact List.take_left' (List.length_map _)

/-- The second of three has hung up. -/
theorem manage_pollfds_stack_aligned_three :
    (managePollfdsStack [⟨3, 1, {}⟩, ⟨4, 1, { pollin := true, pollhup := true }⟩, ⟨5, 4, {}⟩]
      ['o', 'e', 'x']).closed = [4] ∧
    (managePollfdsStack [⟨3, 1, {}⟩, ⟨4, 1, { pollin := true, pollhup := true }⟩, ⟨5, 4, {}⟩]
      ['o', 'e', 'x']).fdTracker = ['o', 'x'] := by
  obtain ⟨hclosed, htracker, -⟩ := manage_pollfds_stack_aligned
    [⟨3, 1, {}⟩, ⟨4, 1, { pollin := true, pollhup := true }⟩, ⟨5, 4, {}⟩] ['o', 'e', 'x']
    (by decide)
  exact ⟨hclosed, htracker⟩

end Musicat.Child
