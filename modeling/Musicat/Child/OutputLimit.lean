import Musicat.Child.PollStack
import Musicat.Lib.Run
import Musicat.Lib.Word

/-!
# The output limit

`process_outfile` as a run over what its system calls return: every `poll`
reports anything, every `read` gives up to `bsize` bytes or none, and every
`fwrite` stores what it can. The sizes are `size_t`s; the subtractions are noted
in `subs` with their operands. What may be written in an iteration is computed
anew after each `read` and counts down with each `fwrite`; what is left of it
never exceeds what is left of the limit (`Inv`), so that the closing mark is
within the limit, too. Without an overflow it is `Outfile.maxOutsiz`
(`Within.budget`).
-/

namespace Musicat.Child

open Lib

/-- The largest size of a file, which is an `off_t`; a write past it fails. -/
def offMax : Nat := 2 ^ 63 - 1

/-- What the call of a step returns: a `poll` with its `revents`, a `read` (nothing at the end and
on an error), or an `fwrite`. -/
structure OutfileResult where
  event : Int := 0
  revents : List PollFlags := []
  data : Bytes := []
  wrote : Nat := 0
  deriving DecidableEq, Repr

/-- Where `process_outfile` is: in its loop over the descriptors, with `wrote_stderr`, `max_outsiz`
and what was read. -/
inductive LimitPc where
  | poll
  | descriptor (i : Nat)
  | reading (i : Nat) (wroteStderr : Bool) (maxOutsiz : Nat)
  | mark (i : Nat) (wroteStderr : Bool) (maxOutsiz : Nat) (buf : Bytes)
  | data (i : Nat) (wroteStderr : Bool) (maxOutsiz : Nat) (buf : Bytes)
  | innerPoll (i : Nat) (wroteStderr : Bool) (maxOutsiz : Nat)
  | markEnd (i : Nat) (wroteStderr : Bool) (maxOutsiz : Nat)
  | returned
  deriving DecidableEq, Repr

structure LimitState where
  prfds : List Pollfd
  prfdsSize : Nat
  fdTracker : List Char
  file : Bytes := []
  outSiz : Nat := 0
  /-- The operands of the subtractions. -/
  subs : List (Nat × Nat) := []
  pc : LimitPc := .poll
  deriving DecidableEq, Repr

namespace LimitState

def init (o : CommandOptions) (readFd readerrFd : Int) : LimitState :=
  if o.sysNoStderr then { prfds := [⟨readFd, 1, {}⟩], prfdsSize := 1, fdTracker := ['o'] }
  else
    { prfds := [⟨readFd, 1, {}⟩, ⟨readerrFd, 1, {}⟩], prfdsSize := 2, fdTracker := ['o', 'e'] }

/-- An unsigned subtraction. -/
def sub (s : LimitState) (a b : Nat) : LimitState × Nat :=
  ({ s with subs := s.subs ++ [(a, b)] }, toU64 (a - b))

/-- `out_siz += fwrite (buf, 1, want, outfile)`. -/
def fwrite (s : LimitState) (buf : Bytes) (want wrote : Nat) : Option LimitState :=
  if wrote ≤ want ∧ wrote ≤ buf.length ∧ s.file.length + wrote ≤ offMax then
    some { s with file := s.file ++ buf.take wrote, outSiz := toU64 (s.outSiz + wrote) }
  else none

/-- An `fwrite` that is counted against `max_outsiz`. -/
def fwriteCounted (s : LimitState) (buf : Bytes) (maxOutsiz wrote : Nat) :
    Option (LimitState × Nat) :=
  (s.fwrite buf (cmpAvailable buf.length maxOutsiz) wrote).map fun s => s.sub maxOutsiz wrote

def isOut (s : LimitState) (i : Nat) : Option Bool := (s.fdTracker[i]?).map (· = 'o')

/-- `revents` after a `poll` of the first descriptors. -/
def setRevents : List Pollfd → List PollFlags → List Pollfd
  | p :: prfds, r :: revents => { p with revents := r } :: setRevents prfds revents
  | prfds, _ => prfds

/-- The `poll` of the loop, and `manage_pollfds_stack`. -/
def pollAll (s : LimitState) (r : OutfileResult) : LimitState :=
  let prfds := setRevents s.prfds r.revents
  if r.event = 0 then { s with prfds }
  else
    let t := managePollfdsStack prfds s.fdTracker
    let newPrfdsSize := t.fdTracker.length
    { s with
      prfds := t.pfds, fdTracker := t.fdTracker, prfdsSize := newPrfdsSize
      pc := if s.prfdsSize ≠ newPrfdsSize then if newPrfdsSize = 0 then .returned else .poll
        else .descriptor 0 }

def descriptor (s : LimitState) (i : Nat) : LimitState :=
  if i < s.prfdsSize then
    if (s.prfds[i]?).any fun p => p.revents.pollin then { s with pc := .reading i false 0 }
    else { s with pc := .markEnd i false 0 }
  else { s with pc := .poll }

def thisIterOutsiz (isOut : Bool) : Nat :=
  bsize + if isOut then 0 else errMark.length + errMarkEnd.length

/-- `max_outsiz` after a `read`. -/
def budget (o : CommandOptions) (s : LimitState) (isOut : Bool) : LimitState × Nat :=
  let r := toU64 (s.outSiz + thisIterOutsiz isOut)
  if 0 < o.sysMaxOutLen ∧ o.sysMaxOutLen < r then
    (s.sub r o.sysMaxOutLen).1.sub (thisIterOutsiz isOut) (s.sub r o.sysMaxOutLen).2
  else s.sub (thisIterOutsiz isOut) 0

/-- The `read`, and the computation of `max_outsiz`. -/
def reading (o : CommandOptions) (s : LimitState) (i : Nat) (wroteStderr : Bool)
    (maxOutsiz : Nat) (buf : Bytes) : Option LimitState :=
  if buf = [] then some { s with pc := .markEnd i wroteStderr maxOutsiz }
  else if buf.length ≤ bsize then
    (s.isOut i).map fun isOut =>
      let (s, maxOutsiz) := s.budget o isOut
      { s with pc := .mark i wroteStderr maxOutsiz buf }
  else none

/-- The mark before what is first read of `stderr`. -/
def mark (o : CommandOptions) (s : LimitState) (i : Nat) (wroteStderr : Bool) (maxOutsiz : Nat)
    (buf : Bytes) (wrote : Nat) : Option LimitState :=
  (s.isOut i).bind fun isOut =>
    if !isOut && !wroteStderr && o.sysWStderrMark && 0 < maxOutsiz then
      (s.fwriteCounted errMark maxOutsiz wrote).map fun p =>
        { p.1 with pc := .data i true p.2 buf }
    else some { s with pc := .data i wroteStderr maxOutsiz buf }

def data (s : LimitState) (i : Nat) (wroteStderr : Bool) (maxOutsiz : Nat) (buf : Bytes)
    (wrote : Nat) : Option LimitState :=
  if 0 < maxOutsiz then
    (s.fwriteCounted buf maxOutsiz wrote).map fun p =>
      { p.1 with pc := .innerPoll i wroteStderr p.2 }
  else some { s with pc := .innerPoll i wroteStderr maxOutsiz }

/-- The `poll` after what was read. -/
def innerPoll (s : LimitState) (i : Nat) (wroteStderr : Bool) (maxOutsiz : Nat)
    (r : OutfileResult) : LimitState :=
  let readReady := 0 < r.event && r.revents.head?.any fun revents =>
    revents.pollin && !reventsHasErr revents
  { s with
    pc := if r.event ≠ -1 ∧ readReady then .reading i wroteStderr maxOutsiz
      else .markEnd i wroteStderr maxOutsiz }

/-- The mark after what was read of `stderr`. -/
def markEnd (o : CommandOptions) (s : LimitState) (i : Nat) (wroteStderr : Bool)
    (maxOutsiz wrote : Nat) : Option LimitState :=
  (s.isOut i).bind fun isOut =>
    if isOut || !wroteStderr || !o.sysWStderrMark || maxOutsiz = 0 then
      some { s with pc := .descriptor (i + 1) }
    else
      (s.fwrite errMarkEnd (cmpAvailable errMarkEnd.length maxOutsiz) wrote).map fun s =>
        { s with pc := .descriptor (i + 1) }

end LimitState

open LimitState in
/-- One step of `process_outfile`. -/
def limitStep (o : CommandOptions) (s : LimitState) (r : OutfileResult) : Option LimitState :=
  match s.pc with
  | .poll => some (s.pollAll r)
  | .descriptor i => some (s.descriptor i)
  | .reading i wroteStderr maxOutsiz => s.reading o i wroteStderr maxOutsiz r.data
  | .mark i wroteStderr maxOutsiz buf => s.mark o i wroteStderr maxOutsiz buf r.wrote
  | .data i wroteStderr maxOutsiz buf => s.data i wroteStderr maxOutsiz buf r.wrote
  | .innerPoll i wroteStderr maxOutsiz => some (s.innerPoll i wroteStderr maxOutsiz r)
  | .markEnd i wroteStderr maxOutsiz => s.markEnd o i wroteStderr maxOutsiz r.wrote
  | .returned => none

/-! ## What is left -/

namespace Outfile

/-- **What may be written in an iteration does not exceed what is left of the limit.** -/
theorem outSiz_add_maxOutsiz_le {o : CommandOptions} {f : Outfile} (hmax : 0 < o.sysMaxOutLen)
    (h : f.outSiz ≤ o.sysMaxOutLen) (fd : OutputFd) :
    f.outSiz + f.maxOutsiz o fd ≤ o.sysMaxOutLen := by
  unfold maxOutsiz
  dsimp only
  generalize (bsize + if fd = .stdout then 0 else errMark.length + errMarkEnd.length) = iter
  split <;> omega

end Outfile

/-- `max_outsiz`, where it is still used. -/
def LimitPc.left : LimitPc → Nat
  | .reading _ _ maxOutsiz | .mark _ _ maxOutsiz _ | .data _ _ maxOutsiz _
  | .innerPoll _ _ maxOutsiz | .markEnd _ _ maxOutsiz => maxOutsiz
  | .poll | .descriptor _ | .returned => 0

theorem LimitPc.left_ite {c : Prop} [Decidable c] {pc pc' : LimitPc} {maxOutsiz : Nat}
    (h : pc.left ≤ maxOutsiz) (h' : pc'.left ≤ maxOutsiz) :
    (if c then pc else pc').left ≤ maxOutsiz := by
  split
  · exact h
  · exact h'

namespace LimitState

/-- The file is within the limit, with `maxOutsiz` bytes more. -/
structure Within (o : CommandOptions) (maxOutsiz : Nat) (s : LimitState) : Prop where
  size : s.outSiz = s.file.length
  off : s.file.length ≤ offMax
  limit : s.file.length + maxOutsiz ≤ o.sysMaxOutLen
  word : maxOutsiz < 2 ^ 64
  subs : ∀ p ∈ s.subs, p.2 ≤ p.1

/-- The invariant of `process_outfile`. -/
def Inv (o : CommandOptions) (s : LimitState) : Prop := s.Within o s.pc.left

section
variable {o : CommandOptions} {s t : LimitState} {maxOutsiz : Nat}

theorem inv_init (o : CommandOptions) (readFd readerrFd : Int) :
    Inv o (init o readFd readerrFd) := by
  unfold init
  split
  · exact ⟨rfl, Nat.zero_le _, Nat.zero_le _, Nat.two_pow_pos 64, fun p hp => nomatch hp⟩
  · exact ⟨rfl, Nat.zero_le _, Nat.zero_le _, Nat.two_pow_pos 64, fun p hp => nomatch hp⟩

theorem Within.mono (hi : Within o maxOutsiz s) {left : Nat} (h : left ≤ maxOutsiz) :
    Within o left s :=
  ⟨hi.size, hi.off, Nat.le_trans (Nat.add_le_add_left h _) hi.limit,
    Nat.lt_of_le_of_lt h hi.word, hi.subs⟩

/-- Where the file, its size and the subtractions are the same. -/
theorem Within.same (hi : Within o maxOutsiz s)
    (h : (t.file, t.outSiz, t.subs) = (s.file, s.outSiz, s.subs)) : Within o maxOutsiz t := by
  obtain ⟨hfile, houtSiz, hsubs⟩ : t.file = s.file ∧ t.outSiz = s.outSiz ∧ t.subs = s.subs := by
    simpa using h
  refine ⟨?_, ?_, ?_, hi.word, ?_⟩
  · rw [houtSiz, hfile]
    exact hi.size
  · rw [hfile]
    exact hi.off
  · rw [hfile]
    exact hi.limit
  · rw [hsubs]
    exact hi.subs

theorem Within.inv (hi : Within o maxOutsiz s)
    (h : (t.file, t.outSiz, t.subs) = (s.file, s.outSiz, s.subs)) (hleft : t.pc.left ≤ maxOutsiz) :
    Inv o t :=
  (hi.mono hleft).same h

/-- **A subtraction that does not underflow gives the difference.** -/
theorem Within.sub (hi : Within o maxOutsiz s) {a b : Nat} (h : b ≤ a) (ha : a < 2 ^ 64) :
    Within o maxOutsiz (s.sub a b).1 ∧ (s.sub a b).2 = a - b := by
  refine ⟨⟨hi.size, hi.off, hi.limit, hi.word, ?_⟩, ?_⟩
  · intro p hp
    rcases List.mem_append.1 hp with hp | hp
    · exact hi.subs p hp
    · obtain rfl := List.mem_singleton.1 hp
      exact h
  · show toU64 (a - b) = a - b
    rw [← Nat.cast_sub h, toU64_natCast (by omega)]

theorem Within.fwrite (hi : Within o maxOutsiz s) {buf : Bytes} {want wrote : Nat}
    (hwant : want ≤ maxOutsiz) (h : s.fwrite buf want wrote = some t) :
    wrote ≤ want ∧ Within o (maxOutsiz - wrote) t := by
  unfold LimitState.fwrite at h
  split at h
  · rename_i hwrote
    cases h
    have hoff := hwrote.2.2
    have hlimit := hi.limit
    have hlen : (s.file ++ buf.take wrote).length = s.file.length + wrote := by
      rw [List.length_append, List.length_take_of_le hwrote.2.1]
    refine ⟨hwrote.1, ⟨?_, ?_, ?_, Nat.lt_of_le_of_lt (Nat.sub_le _ _) hi.word, hi.subs⟩⟩
    · rw [hlen, hi.size, ← Nat.cast_add]
      exact toU64_natCast (by unfold offMax at hoff; omega)
    · rw [hlen]
      exact hoff
    · rw [hlen]
      omega
  · cases h

theorem cmpAvailable_le (want avail : Nat) : cmpAvailable want avail ≤ avail := by
  unfold cmpAvailable
  split <;> omega

/-- **What is written is taken off `max_outsiz`.** -/
theorem Within.fwriteCounted (hi : Within o maxOutsiz s) {buf : Bytes}
    {wrote : Nat} {p : LimitState × Nat} (h : s.fwriteCounted buf maxOutsiz wrote = some p) :
    Within o p.2 p.1 := by
  obtain ⟨t, ht, rfl⟩ := Option.map_eq_some_iff.1 h
  have hwant := cmpAvailable_le buf.length maxOutsiz
  obtain ⟨hwrote, hw⟩ := hi.fwrite hwant ht
  obtain ⟨hsub, hleft⟩ := hw.sub (Nat.le_trans hwrote hwant) hi.word
  rw [hleft]
  exact hsub

theorem errMark_length : errMark.length = 94 := by
  rw [errMark, bytes, String.toList_append]
  rfl

theorem errMarkEnd_length : errMarkEnd.length = 95 := by
  rw [errMarkEnd, bytes, String.toList_append]
  rfl

theorem thisIterOutsiz_lt (isOut : Bool) : thisIterOutsiz isOut < 2 ^ 62 := by
  unfold thisIterOutsiz bsize
  rw [errMark_length, errMarkEnd_length]
  cases isOut <;> decide

theorem maxOutsiz_eq (o : CommandOptions) (outSiz : Nat) (isOut : Bool) :
    Outfile.maxOutsiz o { outSiz } (if isOut then .stdout else .stderr) =
      if 0 < o.sysMaxOutLen ∧ o.sysMaxOutLen < outSiz + thisIterOutsiz isOut then
        thisIterOutsiz isOut - (outSiz + thisIterOutsiz isOut - o.sysMaxOutLen)
      else thisIterOutsiz isOut := by
  unfold Outfile.maxOutsiz thisIterOutsiz
  cases isOut with
  | true => simp only [if_true]
  | false => simp only [Bool.false_eq_true, if_false, reduceCtorEq]

/-- **What is computed after a `read` is within the limit**: nothing overflows or underflows, and
it is `Outfile.maxOutsiz`. -/
theorem Within.budget (hi : Within o maxOutsiz s) (hmax : 0 < o.sysMaxOutLen) (isOut : Bool) :
    Within o (s.budget o isOut).2 (s.budget o isOut).1 ∧
      (s.budget o isOut).2 =
        Outfile.maxOutsiz o { outSiz := s.outSiz } (if isOut then .stdout else .stderr) := by
  have hsmall := thisIterOutsiz_lt isOut
  have hoff := hi.off
  have hlimit := hi.limit
  have hsize := hi.size
  unfold offMax at hoff
  have hr : toU64 ((s.outSiz : Int) + (thisIterOutsiz isOut : Nat)) =
      s.outSiz + thisIterOutsiz isOut := by
    rw [← Nat.cast_add, toU64_natCast (by omega)]
  have hle := Outfile.outSiz_add_maxOutsiz_le (f := { outSiz := s.outSiz }) hmax
    (by dsimp only; omega) (if isOut then .stdout else .stderr)
  rw [maxOutsiz_eq] at hle ⊢
  dsimp only at hle
  unfold LimitState.budget
  dsimp only
  rw [hr]
  split at hle
  · rename_i hover
    obtain ⟨hsub, hvalue⟩ := hi.sub (Nat.le_of_lt hover.2) (by omega)
    obtain ⟨hwithin, hleft⟩ := hsub.sub (a := thisIterOutsiz isOut)
      (b := (s.sub (s.outSiz + thisIterOutsiz isOut) o.sysMaxOutLen).2) (by omega) (by omega)
    rw [hvalue] at hleft
    rw [if_pos hover, if_pos hover, hvalue, hleft]
    refine ⟨⟨hwithin.size, hwithin.off, ?_, by omega, hvalue ▸ hwithin.subs⟩, rfl⟩
    show s.file.length + _ ≤ _
    omega
  · rename_i hover
    obtain ⟨hwithin, hleft⟩ := hi.sub (Nat.zero_le (thisIterOutsiz isOut)) (by omega)
    rw [if_neg hover, if_neg hover, hleft]
    refine ⟨⟨hwithin.size, hwithin.off, ?_, by omega, hwithin.subs⟩, rfl⟩
    show s.file.length + _ ≤ _
    omega

/-! ## The run -/

/-- **Every step keeps the invariant.** -/
theorem inv_step {r : OutfileResult} (hmax : 0 < o.sysMaxOutLen) (hi : Inv o s)
    (h : limitStep o s r = some t) : Inv o t := by
  unfold Inv at hi
  unfold limitStep at h
  cases hpc : s.pc with
  | poll =>
    simp only [hpc] at h hi
    cases h
    unfold pollAll
    dsimp only
    split
    · exact hi.inv rfl (by rw [hpc])
    · refine hi.inv rfl ?_
      exact LimitPc.left_ite (LimitPc.left_ite (Nat.zero_le _) (Nat.zero_le _)) (Nat.zero_le _)
  | descriptor i =>
    simp only [hpc] at h hi
    cases h
    unfold descriptor
    split
    · split
      · exact hi.inv rfl (Nat.zero_le _)
      · exact hi.inv rfl (Nat.zero_le _)
    · exact hi.inv rfl (Nat.zero_le _)
  | reading i wroteStderr maxOutsiz =>
    simp only [hpc] at h hi
    unfold reading at h
    split at h
    · cases h
      exact hi.inv rfl (Nat.le_refl _)
    · split at h
      · obtain ⟨isOut, -, rfl⟩ := Option.map_eq_some_iff.1 h
        exact (hi.budget hmax isOut).1.inv rfl (Nat.le_refl _)
      · cases h
  | mark i wroteStderr maxOutsiz buf =>
    simp only [hpc] at h hi
    obtain ⟨isOut, -, h⟩ := Option.bind_eq_some_iff.1 h
    split at h
    · obtain ⟨p, hp, rfl⟩ := Option.map_eq_some_iff.1 h
      exact (hi.fwriteCounted hp).inv rfl (Nat.le_refl _)
    · cases h
      exact hi.inv rfl (Nat.le_refl _)
  | data i wroteStderr maxOutsiz buf =>
    simp only [hpc] at h hi
    unfold data at h
    split at h
    · obtain ⟨p, hp, rfl⟩ := Option.map_eq_some_iff.1 h
      exact (hi.fwriteCounted hp).inv rfl (Nat.le_refl _)
    · cases h
      exact hi.inv rfl (Nat.le_refl _)
  | innerPoll i wroteStderr maxOutsiz =>
    simp only [hpc] at h hi
    cases h
    exact hi.inv rfl (LimitPc.left_ite (Nat.le_refl _) (Nat.le_refl _))
  | markEnd i wroteStderr maxOutsiz =>
    simp only [hpc] at h hi
    obtain ⟨isOut, -, h⟩ := Option.bind_eq_some_iff.1 h
    split at h
    · cases h
      exact hi.inv rfl (Nat.zero_le _)
    · obtain ⟨u, hu, rfl⟩ := Option.map_eq_some_iff.1 h
      have hw := (hi.fwrite (cmpAvailable_le _ _) hu).2
      exact hw.inv rfl (Nat.zero_le _)
  | returned =>
    simp only [hpc] at h
    cases h

end

end LimitState

/-- **The output file never exceeds the limit, and no subtraction underflows.** -/
theorem output_limit_respected (o : CommandOptions) (hmax : 0 < o.sysMaxOutLen)
    (readFd readerrFd : Int) (results : List OutfileResult) (s : LimitState)
    (h : run (limitStep o) (.init o readFd readerrFd) results = some s) :
    s.file.length ≤ o.sysMaxOutLen ∧ ∀ p ∈ s.subs, p.2 ≤ p.1 := by
  have hi : s.Inv o := run_invariant (fun _ _ _ hi hs => LimitState.inv_step hmax hi hs)
    (LimitState.inv_init o readFd readerrFd) h
  exact ⟨Nat.le_trans (Nat.le_add_right _ _) hi.limit, hi.subs⟩

/-- Four bytes of `stdout` are read twice, with room for six. -/
def outputCut : List OutfileResult :=
  [{ event := 1, revents := [{ pollin := true }] }, {}, { data := [1, 2, 3, 4] }, {},
    { wrote := 4 }, { event := 1, revents := [{ pollin := true }] }, { data := [5, 6, 7, 8] }, {},
    { wrote := 2 }]

theorem output_limit_respected_outputCut :
    ∃ s, run (limitStep { sysMaxOutLen := 6 }) (.init { sysMaxOutLen := 6 } 3 4) outputCut =
        some s ∧
      s.pc = .innerPoll 0 false 0 ∧ s.file.length ≤ 6 :=
  ⟨_, rfl, rfl, (output_limit_respected { sysMaxOutLen := 6 } (by decide) 3 4 outputCut _ rfl).1⟩

end Musicat.Child
