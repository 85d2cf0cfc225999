import Musicat.Audio.HelperChain

/-!
# What the chain of helpers delivers

Every step of `run_through_chain`, and of the helpers in between, conserves what
has been written to `write_fifo` and what is still to come to it (`ChainFlow`).
`ChainInv` adds where the descriptors are: in the shutdown the write ends are
closed up to the first helper that has not hung up. It is kept by every step
that does not give up early (`Awaits`), and at the return it says that the buffer has
been handed over, or that nothing is left in the chain.
-/

namespace Musicat.Audio

open Lib

/-! ## What moves -/

section
variable {σ : Type*} {s s' : HelperChain σ} {c c' : ChainRun} {l up out : List UInt8}

theorem readPipe_eq {held d rest : List UInt8} {closed : Bool} {size : Nat}
    (h : readPipe held closed size = some (d, rest)) :
    held = d ++ rest ∧ (d = [] → rest = held) := by
  unfold readPipe at h
  split at h
  · rename_i he
    split at h
    · cases h
      exact ⟨List.isEmpty_iff.1 he, fun _ => (List.isEmpty_iff.1 he).symm⟩
    · cases h
  · split at h
    · rename_i hsize
      cases h
      refine ⟨(List.take_append_drop _ _).symm, fun hd => ?_⟩
      have hlen := congrArg List.length hd
      rw [List.length_take, List.length_nil] at hlen
      omega
    · cases h

theorem readFd_eq {fd : HelperFd} {size : Nat} {d : List UInt8}
    (h : s.readFd fd size = some (d, s')) :
    ∃ i x output, fd = .read i ∧ s.helpers[i]? = some x ∧ x.output = d ++ output ∧
      s' = { s with helpers := s.helpers.set i { x with output } } ∧ (d = [] → s' = s) := by
  cases fd with
  | write i => cases h
  | read i =>
    obtain ⟨x, hx, h⟩ := Option.bind_eq_some_iff.1 h
    obtain ⟨⟨d', output⟩, hread, h⟩ := Option.map_eq_some_iff.1 h
    cases h
    obtain ⟨hout, hnil⟩ := readPipe_eq hread
    refine ⟨i, x, output, rfl, hx, hout, rfl, fun hd => ?_⟩
    obtain ⟨hlt, hget⟩ := List.getElem?_eq_some_iff.1 hx
    have hsame : ({ x with output } : Stage σ UInt8) = x := by rw [hnil hd]
    rw [hsame, ← hget, List.set_getElem_self]

/-- What a step does to the helpers while `l` is still to come to them: bytes go along the chain,
and out of it. -/
structure ChainFlow (s s' : HelperChain σ) (l : List UInt8) : Prop where
  wf : PipeWf s'.helpers l
  rest : ∃ d, s'.writeFifo = s.writeFifo ++ d ∧
    pipeRest s.helpers l = d ++ pipeRest s'.helpers l
  moved : PipeMoved s.helpers s'.helpers

theorem ChainFlow.same (hw : PipeWf s.helpers l) (hh : s'.helpers = s.helpers)
    (hf : s'.writeFifo = s.writeFifo) : ChainFlow s s' l :=
  ⟨hh ▸ hw, ⟨[], by rw [hf, List.append_nil], by rw [hh, List.nil_append]⟩, hh ▸ PipeMoved.refl _⟩

theorem ChainFlow.helper {i : Nat} {x x' : Stage σ UInt8} {a : StageAction}
    (hw : PipeWf s.helpers l) (hi : s.helpers[i]? = some x) (hs : x.step a = some x') :
    ChainFlow s { s with helpers := s.helpers.set i x' } l :=
  ⟨(pipe_step hw hi hs).1, ⟨[], (List.append_nil _).symm, (pipe_step hw hi hs).2.symm⟩,
    pipeMoved_step hw hi hs⟩

theorem pipeMoved_take {hs : List (Stage σ UInt8)} {i : Nat} {x : Stage σ UInt8}
    {d output : List UInt8} (hi : hs[i]? = some x) (hout : x.output = d ++ output) :
    PipeMoved hs (hs.set i { x with output }) := by
  refine pipeMoved_set hi rfl fun hc ho => ⟨hc, ?_⟩
  rw [hout] at ho
  exact (List.append_eq_nil_iff.1 ho).2

/-- What the last helper wrote goes out. -/
theorem ChainFlow.take {i size : Nat} {d : List UInt8} (hw : PipeWf s.helpers l)
    (hlast : i + 1 = s.helpers.length) (h : s.readFd (.read i) size = some (d, s')) :
    ChainFlow s { s' with writeFifo := s'.writeFifo ++ d } l := by
  obtain ⟨j, x, output, hfd, hx, hout, rfl, -⟩ := readFd_eq h
  cases hfd
  obtain ⟨hwf, hrest⟩ := pipe_take hw hx hlast hout
  exact ⟨hwf, ⟨d, rfl, hrest⟩, pipeMoved_take hx hout⟩

/-- What a helper wrote goes to the next. -/
theorem ChainFlow.pass {i size : Nat} {passed : Bool} (hw : PipeWf s.helpers l)
    (hnext : i + 1 < s.helpers.length)
    (h : s.passBuf (.read i) (.write (i + 1)) size = some (s', passed)) : ChainFlow s s' l := by
  obtain ⟨⟨d, t⟩, hread, h⟩ := Option.map_eq_some_iff.1 h
  obtain ⟨j, x, output, hfd, hx, hout, ht, hnil⟩ := readFd_eq hread
  cases hfd
  cases hd : d.isEmpty with
  | true =>
    simp only [hd, if_true, Prod.mk.injEq] at h
    rw [← h.1, hnil (List.isEmpty_iff.1 hd)]
    exact ChainFlow.same hw rfl rfl
  | false =>
    simp only [hd, Bool.false_eq_true, if_false, Prod.mk.injEq] at h
    rw [← h.1]
    obtain ⟨y, hy⟩ : ∃ y, s.helpers[i + 1]? = some y := ⟨_, List.getElem?_eq_getElem hnext⟩
    have hy' : (s.helpers.set i { x with output })[i + 1]? = some y := by
      rw [List.getElem?_set_ne (Nat.ne_of_lt i.lt_succ_self), hy]
    have hgive : (t.writeFd (.write (i + 1)) d).helpers =
        (s.helpers.set i { x with output }).set (i + 1) (y.give d) := by
      rw [ht, HelperChain.writeFd]
      simp only [hy']
    have hfifo : (t.writeFd (.write (i + 1)) d).writeFifo = s.writeFifo := by
      rw [ht, HelperChain.writeFd]
      simp only [hy']
    obtain ⟨hwf, hrest⟩ := pipe_pass hw hx hy hout
    have hmoved : PipeMoved s.helpers
        ((s.helpers.set i { x with output }).set (i + 1) (y.give d)) :=
      (pipeMoved_take hx hout).trans (pipeMoved_set hy' rfl fun hc ho => ⟨hc, ho⟩)
    rw [← hgive] at hwf hrest hmoved
    exact ⟨hwf, ⟨[], hfifo.trans (List.append_nil _).symm, hrest.symm⟩, hmoved⟩

/-! ## The invariant -/

/-- What is still to be handed to the first helper. -/
def ChainRun.toHand (c : ChainRun) : List UInt8 := if c.oriBufferWritten then [] else c.oriBuffer

/-- The variables that stay as they are while bytes move. -/
def ChainRun.fixed (c : ChainRun) : Bool × List HelperFd × List UInt8 × Nat × Bool × Bool :=
  (c.shutdown, c.pfds, c.oriBuffer, c.size, c.oriBufferWritten, c.shutdownIsLastHup)

/-- A hang-up without more to read was reported of a helper that has ended. -/
def Seen (hs : List (Stage σ UInt8)) (fd : HelperFd) (r : Revents) : Prop :=
  r.pollhup = true → r.pollin = false → ∃ i, fd = .read i ∧ PipeEnded hs i

def ChainRun.PcOk (c : ChainRun) (hs : List (Stage σ UInt8)) : Prop :=
  match c.pc with
  | .poll => c.pfds ≠ []
  | .visit ni => ni < c.pfds.length ∧ List.Forall₂ (Seen hs) c.pfds c.revents
  | .firstRead ni _ | .firstPoll ni _ =>
    ni + 1 = c.pfds.length ∧ List.Forall₂ (Seen hs) c.pfds c.revents
  | .check => True
  | .returned => c.toHand = [] ∧ (c.shutdown = true → pipeRest hs [] = [])

/-- The descriptors that are polled: all of them, or in the shutdown those from the first read end
on that has not hung up; no write end behind it has been closed. -/
def ChainRun.Shape (c : ChainRun) (hs : List (Stage σ UInt8)) : Prop :=
  if c.shutdown then
    c.pfds = [] ∧ c.shutdownIsLastHup = true ∨
      ∃ k m, k + m + 1 = hs.length ∧ c.pfds = .read k :: initHelpersPollfd false (k + 1) m ∧
        ∀ j, (hs.map Stage.inClosed)[j]? = some true → j ≤ k
  else
    ∃ m, m + 1 = hs.length ∧ c.pfds = initHelpersPollfd false 0 (m + 1) ∧
      true ∉ hs.map Stage.inClosed

/-- `out` is delivered in the end when `up` comes to the chain behind what is to be handed over. -/
structure ChainInv (s : HelperChain σ) (c : ChainRun) (up out : List UInt8) : Prop where
  wf : PipeWf s.helpers (c.toHand ++ up)
  out : s.writeFifo ++ pipeRest s.helpers (c.toHand ++ up) = out
  size : c.size = c.toHand.length
  ending : c.shutdown = true → c.toHand ++ up = []
  shape : c.Shape s.helpers
  lastHup : c.shutdownIsLastHup = true → c.shutdown = true ∧ pipeRest s.helpers [] = []
  pc : c.PcOk s.helpers

theorem seen_of_reports {fd : HelperFd} {r : Revents} (h : s.Reports fd r) :
    Seen s.helpers fd r := by
  intro hhup hin
  cases fd with
  | read i =>
    obtain ⟨x, hx, -, -, hclosed⟩ := h
    obtain ⟨hc, ho⟩ := hclosed hhup
    rw [hin] at ho
    exact ⟨i, rfl, x, hx, hc, List.isEmpty_iff.1 (ho.resolve_left Bool.false_ne_true)⟩
  | write i => exact absurd (h.2.symm.trans hhup) (by decide)

theorem seen_moved {hs hs' : List (Stage σ UInt8)} (hm : PipeMoved hs hs') {pfds : List HelperFd}
    {revents : List Revents} (h : List.Forall₂ (Seen hs) pfds revents) :
    List.Forall₂ (Seen hs') pfds revents :=
  h.imp fun _ _ hseen hhup hin => (hseen hhup hin).imp fun i hi => ⟨hi.1, hm.ended i hi.2⟩

theorem pcOk_next {hs : List (Stage σ UInt8)} {ni : Nat} (hni : ni < c.pfds.length)
    (hseen : List.Forall₂ (Seen hs) c.pfds c.revents) : (c.next ni).PcOk hs := by
  unfold ChainRun.PcOk ChainRun.next
  by_cases h : ni = 0
  · simp only [h, if_true]
  · simp only [if_neg h]
    exact ⟨by omega, hseen⟩

/-- **Moving bytes keeps the invariant.** -/
theorem ChainInv.flow (hi : ChainInv s c up out) (hf : ChainFlow s s' (c.toHand ++ up))
    (hfixed : c'.fixed = c.fixed) (hpc : c'.PcOk s'.helpers) : ChainInv s' c' up out := by
  simp only [ChainRun.fixed, Prod.mk.injEq] at hfixed
  obtain ⟨hshutdown, hpfds, hbuffer, hsize, hwritten, hhup⟩ := hfixed
  have hhand : c'.toHand = c.toHand := by rw [ChainRun.toHand, hwritten, hbuffer]; rfl
  obtain ⟨d, hfifo, hrest⟩ := hf.rest
  refine ⟨hhand ▸ hf.wf, ?_, ?_, ?_, ?_, fun h => ?_, hpc⟩
  · rw [hhand, hfifo, List.append_assoc, ← hrest]
    exact hi.out
  · rw [hsize, hhand]
    exact hi.size
  · rw [hshutdown, hhand]
    exact hi.ending
  · unfold ChainRun.Shape
    rw [hshutdown, hpfds, hhup, hf.moved.closed, hf.moved.length]
    exact hi.shape
  · obtain ⟨hs, hnil⟩ := hi.lastHup (hhup ▸ h)
    rw [hi.ending hs, hnil] at hrest
    exact ⟨hshutdown.trans hs, (List.append_eq_nil_iff.1 hrest.symm).2⟩

/-- The invariant when nothing moves. -/
theorem ChainInv.same (hi : ChainInv s c up out) (hh : s'.helpers = s.helpers)
    (hf : s'.writeFifo = s.writeFifo) (hfixed : c'.fixed = c.fixed) (hpc : c'.PcOk s.helpers) :
    ChainInv s' c' up out :=
  hi.flow (.same hi.wf hh hf) hfixed (hh ▸ hpc)

/-- What the invariant says where the function is. -/
theorem ChainInv.pcOk (hi : ChainInv s c up out) {pc : ChainPc} (hpc : c.pc = pc) :
    ({ c with pc } : ChainRun).PcOk s.helpers := by
  rw [← hpc]
  exact hi.pc

theorem ChainInv.shape_shutdown (hi : ChainInv s c up out) (hs : c.shutdown = true) :
    c.pfds = [] ∧ c.shutdownIsLastHup = true ∨
      ∃ k m, k + m + 1 = s.helpers.length ∧
        c.pfds = .read k :: initHelpersPollfd false (k + 1) m ∧
        ∀ j, (s.helpers.map Stage.inClosed)[j]? = some true → j ≤ k := by
  have hshape := hi.shape
  unfold ChainRun.Shape at hshape
  rwa [if_pos hs] at hshape

theorem ChainInv.shape_buffer (hi : ChainInv s c up out) (hs : c.shutdown = false) :
    ∃ m, m + 1 = s.helpers.length ∧ c.pfds = initHelpersPollfd false 0 (m + 1) ∧
      true ∉ s.helpers.map Stage.inClosed := by
  have hshape := hi.shape
  unfold ChainRun.Shape at hshape
  rwa [if_neg (by simp [hs])] at hshape

theorem ChainInv.linked (hi : ChainInv s c up out) : Linked s.helpers.length c.pfds := by
  cases hs : c.shutdown with
  | true =>
    rcases hi.shape_shutdown hs with ⟨hnil, -⟩ | ⟨k, m, hlen, hpfds, -⟩
    · intro ni j hj
      rw [hnil] at hj
      cases hj
    · have h := linked_init k (m + 1)
      rw [initHelpersPollfd_succ] at h
      rw [hpfds, ← hlen]
      exact h.tail
  | false =>
    obtain ⟨m, hlen, hpfds, -⟩ := hi.shape_buffer hs
    have h := linked_init 0 (m + 1)
    rw [Nat.zero_add, hlen] at h
    rw [hpfds]
    exact hlen ▸ h

/-! ## The steps -/

theorem closeFd_write {i : Nat} {x : Stage σ UInt8} (hx : s.helpers[i]? = some x) :
    (s.closeFd (.write i)).helpers = s.helpers.set i x.closeInput ∧
      (s.closeFd (.write i)).writeFifo = s.writeFifo := by
  have hsame : (s.removePendingOf (.write i)).helpers = s.helpers := rfl
  unfold HelperChain.closeFd
  simp only [hsame, hx]
  exact ⟨trivial, rfl⟩

/-- The loop gives up when nothing is left: it has no buffer to hand over any more when its poll
times out, and the helpers of a shutdown have nothing more to give when its poll times out or its
rounds are used up. -/
def HelperChain.Awaits (s : HelperChain σ) (c : ChainRun) (call : Syscall) : Prop :=
  match c.pc with
  | .poll =>
    call.revents.all (· = {}) && s.pendingRead.isEmpty && s.pendingWrite.isEmpty →
      c.size = 0 ∧ (c.shutdown = true → pipeRest s.helpers [] = [])
  | .check =>
    c.shutdown && decide (maxShutdownIter ≤ c.iter) && !c.shutdownIsLastHup &&
      !c.currentHasRead → pipeRest s.helpers [] = []
  | _ => True

theorem chainInv_pollAll {call : Syscall} (hi : ChainInv s c up out) (hpc : c.pc = .poll)
    (ha : s.Awaits c call) (h : s.pollAll c call.revents = some (s', c')) :
    ChainInv s' c' up out ∧ c'.shutdown = c.shutdown := by
  have hne : c.pfds ≠ [] := hi.pcOk hpc
  unfold HelperChain.Awaits at ha
  simp only [hpc] at ha
  unfold HelperChain.pollAll at h
  split at h
  · rename_i hreports
    dsimp only at h
    split at h
    · rename_i hnothing
      cases h
      obtain ⟨hsize, hrest⟩ := ha hnothing
      rw [hi.size] at hsize
      exact ⟨hi.same rfl rfl rfl ⟨List.length_eq_zero_iff.1 hsize, hrest⟩, rfl⟩
    · cases h
      refine ⟨hi.same rfl rfl rfl ⟨?_, hreports.imp fun _ _ => seen_of_reports⟩, rfl⟩
      have := List.length_pos_of_ne_nil hne
      dsimp only
      omega
  · cases h

theorem closeHup_last {fd : HelperFd} (h : c.pfds = [fd]) :
    s.closeHup c 0 = (s.closeFd fd,
      { c with pfds := [], shutdownIsLastHup := true, pc := .check }) := by
  simp [HelperChain.closeHup, HelperChain.closePfdsNi, h]

theorem closeHup_next {fd : HelperFd} {i : Nat} {pfds : List HelperFd}
    (h : c.pfds = fd :: .write i :: pfds) :
    s.closeHup c 0 = ((s.closeFd fd).closeFd (.write i), { c with pfds, pc := .check }) := by
  simp [HelperChain.closeHup, HelperChain.closePfdsNi, h, HelperFd.isRead]

/-- The shutdown meets hang-ups at the first descriptor only. -/
theorem chainInv_closeHup {ni : Nat} {fd : HelperFd} {r : Revents} (hi : ChainInv s c up out)
    (hs : c.shutdown = true) (hfd : c.pfds[ni]? = some fd) (hseen : Seen s.helpers fd r)
    (hhup : r.pollhup = true) (hin : r.pollin = false)
    (h : s.closeHup c ni = (s', c')) : ChainInv s' c' up out ∧ c'.shutdown = c.shutdown := by
  obtain ⟨j, rfl, hended⟩ := hseen hhup hin
  have hclosed := inClosed_of_ended hi.wf hended
  have hup := hi.ending hs
  rcases hi.shape_shutdown hs with ⟨hnil, -⟩ | ⟨k, m, hlen, hpfds, hopen⟩
  · rw [hnil] at hfd
    cases hfd
  · have hjk := hopen j hclosed
    -- the other read ends are those of helpers whose write end is open
    obtain ⟨rfl, rfl⟩ : ni = 0 ∧ j = k := by
      rw [hpfds] at hfd
      cases ni with
      | zero =>
        cases hfd
        exact ⟨rfl, rfl⟩
      | succ ni =>
        have := le_of_read_mem (List.mem_of_getElem? hfd)
        omega
    have hnone : pipeRest (s.helpers.take (j + 1)) [] = [] := by
      have hnone := pipeRest_ended hi.wf hended
      rwa [hup] at hnone
    cases m with
    | zero =>
      have hall : pipeRest s.helpers [] = [] := by
        rw [show j + 1 = s.helpers.length by omega, List.take_length] at hnone
        exact hnone
      rw [closeHup_last hpfds] at h
      cases h
      refine ⟨⟨hi.wf, hi.out, hi.size, hi.ending, ?_, fun _ => ⟨hs, hall⟩, trivial⟩, rfl⟩
      simp only [ChainRun.Shape, hs, if_true]
      exact .inl ⟨trivial, trivial⟩
    | succ m =>
      obtain ⟨x, hx⟩ : ∃ x, s.helpers[j + 1]? = some x :=
        ⟨_, List.getElem?_eq_getElem (by omega)⟩
      have hx' : (s.closeFd (.read j)).helpers[j + 1]? = some x := hx
      obtain ⟨hhelpers, hfifo⟩ := closeFd_write hx'
      rw [initHelpersPollfd_succ] at hpfds
      rw [closeHup_next hpfds] at h
      cases h
      obtain ⟨hwf, hrest⟩ := pipe_closeInput hi.wf hx (by rw [hup]; exact hnone)
      refine ⟨⟨hhelpers ▸ hwf, ?_, hi.size, hi.ending, ?_, fun hl => ⟨hs, ?_⟩, trivial⟩, rfl⟩
      · rw [hfifo, hhelpers]
        exact (congrArg _ hrest).trans hi.out
      · simp only [ChainRun.Shape, hs, if_true]
        refine .inr ⟨j + 1, m, ?_, rfl, fun i hi' => ?_⟩
        · rw [hhelpers, List.length_set]
          exact (by omega : j + 1 + m + 1 = s.helpers.length)
        · rw [hhelpers, List.map_set] at hi'
          by_cases hij : j + 1 = i
          · exact Nat.le_of_eq hij.symm
          · rw [List.getElem?_set_ne hij] at hi'
            exact Nat.le_succ_of_le (hopen i hi')
      · rw [hhelpers, ← hup]
        exact hrest.trans (hup ▸ (hi.lastHup hl).2)

theorem chainInv_visitRead {ni size : Nat} {fd : HelperFd} (hi : ChainInv s c up out)
    (hni : ni < c.pfds.length) (hseen : List.Forall₂ (Seen s.helpers) c.pfds c.revents)
    (hfd : c.pfds[ni]? = some fd) (hread : fd.isRead = true)
    (h : s.visitRead c ni fd size = some (s', c')) :
    ChainInv s' c' up out ∧ c'.shutdown = c.shutdown := by
  obtain ⟨j, rfl⟩ : ∃ j, fd = .read j := by
    cases fd with
    | read j => exact ⟨j, rfl⟩
    | write j => cases hread
  obtain ⟨-, hlinked⟩ := hi.linked ni j hfd
  unfold HelperChain.visitRead at h
  split at h
  · rename_i hlast
    cases h
    exact ⟨hi.same rfl rfl rfl ⟨hlast, hseen⟩, rfl⟩
  · rename_i hlast
    obtain ⟨hprev, hlt⟩ := hlinked hlast
    rw [hprev] at h
    split at h
    · rename_i prevFd prev hp _
      obtain rfl := Option.some.inj hp
      split at h
      · obtain ⟨⟨t, passed⟩, hpass, h⟩ := Option.map_eq_some_iff.1 h
        cases h
        have hflow := ChainFlow.pass hi.wf hlt hpass
        exact ⟨hi.flow hflow rfl (pcOk_next hni (seen_moved hflow.moved hseen)), rfl⟩
      · cases h
        exact ⟨hi.same rfl rfl rfl (pcOk_next hni hseen), rfl⟩
    · cases h

/-- **The buffer is handed to the first helper once.** -/
theorem chainInv_visitWrite {ni : Nat} {fd : HelperFd} (hi : ChainInv s c up out)
    (hni : ni < c.pfds.length) (hseen : List.Forall₂ (Seen s.helpers) c.pfds c.revents)
    (hfd : c.pfds[ni]? = some fd) (h : s.visitWrite c ni fd = (s', c')) :
    ChainInv s' c' up out ∧ c'.shutdown = c.shutdown := by
  unfold HelperChain.visitWrite at h
  split at h
  · rename_i hsize
    split at h
    · cases h
      exact ⟨hi.same rfl rfl rfl trivial, rfl⟩
    · rename_i hwritten
      have hhand : c.toHand = c.oriBuffer := if_neg hwritten
      have hopen : c.shutdown ≠ true := fun hs => by
        have hnil := (List.append_eq_nil_iff.1 (hi.ending hs)).1
        rw [hi.size, hnil] at hsize
        exact hsize.2 rfl
      obtain ⟨m, hlen, hpfds, hclosed⟩ := hi.shape_buffer (Bool.eq_false_iff.2 hopen)
      obtain ⟨x, hs, hhelpers⟩ : ∃ x hs, s.helpers = x :: hs := by
        cases hh : s.helpers with
        | nil => simp [hh] at hlen
        | cons x hs => exact ⟨x, hs, rfl⟩
      obtain rfl : fd = .write 0 := by
        rw [hsize.1, hpfds, initHelpersPollfd_succ] at hfd
        exact (Option.some.inj hfd).symm
      have hwf := hi.wf
      have hout := hi.out
      rw [hhelpers, hhand] at hwf hout
      obtain ⟨hwf', hrest⟩ := pipe_give hwf
      cases h
      have hgive : ((s.writeFd (.write 0) c.oriBuffer).removeWritePending (.write 0)).helpers =
          x.give c.oriBuffer :: hs := by
        simp [HelperChain.writeFd, HelperChain.removeWritePending, hhelpers]
      have hfifo : ((s.writeFd (.write 0) c.oriBuffer).removeWritePending (.write 0)).writeFifo =
          s.writeFifo := by
        simp [HelperChain.writeFd, HelperChain.removeWritePending, hhelpers]
      refine ⟨⟨?_, ?_, rfl, fun hs => absurd hs hopen, ?_, fun hl => ?_, trivial⟩, rfl⟩
      · rw [hgive]
        exact hwf'
      · rw [hgive, hfifo]
        exact (congrArg _ hrest).trans hout
      · unfold ChainRun.Shape
        rw [if_neg hopen, hgive]
        rw [hhelpers] at hlen hclosed
        exact ⟨m, hlen, hpfds, hclosed⟩
      · exact absurd (hi.lastHup hl).1 hopen
  · cases h
    exact ⟨hi.same rfl rfl rfl (pcOk_next hni hseen), rfl⟩

theorem chainInv_visit {ni size : Nat} (hi : ChainInv s c up out) (hpc : c.pc = .visit ni)
    (h : s.visit c ni size = some (s', c')) :
    ChainInv s' c' up out ∧ c'.shutdown = c.shutdown := by
  obtain ⟨hni, hseen⟩ := hi.pcOk hpc
  dsimp only at hni hseen
  unfold HelperChain.visit at h
  split at h
  · rename_i fd r hfd hr
    dsimp only at h
    split at h
    · rename_i hhup
      simp only [Bool.and_eq_true, Bool.not_eq_true', Bool.or_eq_false_iff] at hhup
      obtain ⟨hs, ⟨hpollhup, hpollin, -⟩, -⟩ := hhup
      obtain ⟨h1, rfl⟩ := List.getElem?_eq_some_iff.1 hfd
      obtain ⟨h2, rfl⟩ := List.getElem?_eq_some_iff.1 hr
      have hget : Seen s.helpers c.pfds[ni] c.revents[ni] :=
        (List.forall₂_iff_get.1 hseen).2 ni h1 h2
      exact chainInv_closeHup hi hs hfd hget hpollhup hpollin (Option.some.inj h)
    · -- `first_read_fd_ready` is set or not
      generalize hc₁ : (if (c.shutdown && (!c.firstReadFdReady &&
        (r.pollin || s.pendingRead.contains fd) && ni + 1 == c.pfds.length)) = true then
          { c with firstReadFdReady := true } else c) = c₁ at h
      have hsame : c₁.fixed = c.fixed ∧ c₁.revents = c.revents ∧ c₁.pc = c.pc := by
        rw [← hc₁]
        split
        · exact ⟨rfl, rfl, rfl⟩
        · exact ⟨rfl, rfl, rfl⟩
      have hpfds : c₁.pfds = c.pfds := congrArg (·.2.1) hsame.1
      have hshutdown : c₁.shutdown = c.shutdown := congrArg (·.1) hsame.1
      rw [← hpfds] at hni hseen hfd
      rw [← hsame.2.1] at hseen
      rw [← hshutdown]
      have hi₁ : ChainInv s c₁ up out := by
        refine hi.same rfl rfl hsame.1 ?_
        unfold ChainRun.PcOk
        simp only [hsame.2.2, hpc]
        exact ⟨hni, hseen⟩
      split at h
      · rename_i hread
        exact chainInv_visitRead hi₁ hni hseen hfd (Bool.and_eq_true_iff.1 hread).1 h
      · split at h
        · exact chainInv_visitWrite hi₁ hni hseen hfd (Option.some.inj h)
        · split at h
          · cases h
            refine ⟨hi₁.same ?_ ?_ rfl (pcOk_next hni hseen), rfl⟩
            · cases fd <;> rfl
            · cases fd <;> rfl
          · cases h
            exact ⟨hi₁.same rfl rfl rfl (pcOk_next hni hseen), rfl⟩
  · cases h

theorem chainInv_firstRead {ni written size : Nat} (hi : ChainInv s c up out)
    (hpc : c.pc = .firstRead ni written) (h : s.firstRead c ni written size = some (s', c')) :
    ChainInv s' c' up out ∧ c'.shutdown = c.shutdown := by
  obtain ⟨hlast, hseen⟩ := hi.pcOk hpc
  dsimp only at hlast hseen
  have hni : ni < c.pfds.length := by omega
  obtain ⟨fd, hfd, h⟩ := Option.bind_eq_some_iff.1 h
  have hdone : ChainInv (s.firstDone c ni written fd).1 (s.firstDone c ni written fd).2 up out :=
    hi.same rfl rfl rfl (pcOk_next (c := { c with written, currentHasRead := 0 < written })
      hni hseen)
  split at h
  · cases h
    exact ⟨hdone, rfl⟩
  · obtain ⟨⟨d, t⟩, hread, h⟩ := Option.map_eq_some_iff.1 h
    obtain ⟨j, x, output, rfl, -, -, -, hnil⟩ := readFd_eq hread
    cases hd : d.isEmpty with
    | true =>
      simp only [hd, if_true] at h
      rw [hnil (List.isEmpty_iff.1 hd)] at h
      cases h
      exact ⟨hdone, rfl⟩
    | false =>
      simp only [hd, Bool.false_eq_true, if_false, Prod.mk.injEq] at h
      have hflow := ChainFlow.take hi.wf ((hi.linked ni j hfd).1 hlast) hread
      rw [← h.1, ← h.2]
      exact ⟨hi.flow hflow rfl ⟨hlast, seen_moved hflow.moved hseen⟩, rfl⟩

theorem chainInv_firstPoll {ni written : Nat} {revents : List Revents} (hi : ChainInv s c up out)
    (hpc : c.pc = .firstPoll ni written)
    (h : s.firstPoll c ni written revents = some (s', c')) :
    ChainInv s' c' up out ∧ c'.shutdown = c.shutdown := by
  obtain ⟨hlast, hseen⟩ := hi.pcOk hpc
  unfold HelperChain.firstPoll at h
  split at h
  · split at h
    · cases h
      exact ⟨hi.same rfl rfl rfl ⟨hlast, hseen⟩, rfl⟩
    · cases h
  · cases h

/-- The return from the check: the buffer has been handed over, or nothing is left. -/
theorem chainInv_check {call : Syscall} (hi : ChainInv s c up out) (hpc : c.pc = .check)
    (ha : s.Awaits c call) : ChainInv s (HelperChain.check c) up out := by
  unfold HelperChain.Awaits at ha
  simp only [hpc] at ha
  refine hi.same rfl rfl rfl ?_
  unfold HelperChain.check
  dsimp only
  generalize hstop : ((if c.shutdown = true then
    c.shutdownIsLastHup || decide (maxShutdownIter ≤ c.iter) else c.oriBufferWritten) &&
      !c.currentHasRead || c.pfds.isEmpty) = stop
  cases stop with
  | false =>
    simp only [Bool.false_eq_true, if_false]
    intro hnil
    rw [show c.pfds.isEmpty = true from List.isEmpty_iff.2 hnil, Bool.or_true] at hstop
    cases hstop
  | true =>
    simp only [if_true]
    cases hs : c.shutdown with
    | false =>
      simp only [hs, Bool.false_eq_true, if_false] at hstop
      obtain ⟨m, -, hpfds, -⟩ := hi.shape_buffer hs
      rw [hpfds, initHelpersPollfd_succ, List.isEmpty_cons, Bool.or_false,
        Bool.and_eq_true_iff] at hstop
      exact ⟨if_pos hstop.1, fun h => absurd h Bool.false_ne_true⟩
    | true =>
      refine ⟨(List.append_eq_nil_iff.1 (hi.ending hs)).1, fun _ => ?_⟩
      simp only [hs, if_true, Bool.true_and] at hstop ha
      cases hl : c.shutdownIsLastHup with
      | true => exact (hi.lastHup hl).2
      | false =>
        rcases hi.shape_shutdown hs with ⟨-, hhup⟩ | ⟨k, m, -, hpfds, -⟩
        · exact absurd (hl.symm.trans hhup) (by decide)
        · rw [hpfds, List.isEmpty_cons, Bool.or_false, hl, Bool.false_or] at hstop
          rw [hl, Bool.not_false, Bool.and_true] at ha
          exact ha hstop

/-- **Every step of `run_through_chain` that does not give up keeps the invariant.** -/
theorem chainInv_step {call : Syscall} (hi : ChainInv s c up out) (ha : s.Awaits c call)
    (h : s.step c call = some (s', c')) : ChainInv s' c' up out ∧ c'.shutdown = c.shutdown := by
  unfold HelperChain.step at h
  split at h
  · rename_i hpc
    exact chainInv_pollAll hi hpc ha h
  · rename_i hpc
    exact chainInv_visit hi hpc h
  · rename_i hpc
    exact chainInv_firstRead hi hpc h
  · rename_i hpc
    exact chainInv_firstPoll hi hpc h
  · rename_i hpc
    cases h
    exact ⟨chainInv_check hi hpc ha, rfl⟩
  · cases h

/-- A helper takes a step. -/
theorem ChainInv.helper {i : Nat} {x x' : Stage σ UInt8} {a : StageAction}
    (hi : ChainInv s c up out) (hx : s.helpers[i]? = some x) (hs : x.step a = some x') :
    ChainInv { s with helpers := s.helpers.set i x' } c up out := by
  have hflow := ChainFlow.helper hi.wf hx hs
  refine hi.flow hflow rfl ?_
  have hpc := hi.pc
  unfold ChainRun.PcOk at hpc ⊢
  split at hpc
  · exact hpc
  · exact ⟨hpc.1, seen_moved hflow.moved hpc.2⟩
  · exact ⟨hpc.1, seen_moved hflow.moved hpc.2⟩
  · exact ⟨hpc.1, seen_moved hflow.moved hpc.2⟩
  · trivial
  · refine ⟨hpc.1, fun hsd => ?_⟩
    obtain ⟨d, -, hrest⟩ := hflow.rest
    rw [hi.ending hsd, hpc.2 hsd] at hrest
    exact (List.append_eq_nil_iff.1 hrest.symm).2

/-! ## The start and the end -/

/-- `run_through_chain` with a buffer. -/
theorem chainInv_ofBuffer {buffer : List UInt8} (hne : s.helpers ≠ [])
    (hw : PipeWf s.helpers (buffer ++ up)) (hopen : true ∉ s.helpers.map Stage.inClosed) :
    ChainInv s (.ofBuffer buffer s.helpers.length) up
      (s.writeFifo ++ pipeRest s.helpers (buffer ++ up)) := by
  obtain ⟨m, hm⟩ : ∃ m, m + 1 = s.helpers.length :=
    ⟨_, Nat.sub_add_cancel (List.length_pos_of_ne_nil hne)⟩
  refine ⟨hw, rfl, rfl, nofun, ⟨m, hm, ?_, hopen⟩, nofun, ?_⟩
  · rw [hm]
    rfl
  · rw [← hm]
    exact (by simp [ChainRun.ofBuffer] : (ChainRun.ofBuffer buffer (m + 1)).pfds ≠ [])

/-- `run_through_chain` without a buffer, and the close of the first write end. -/
theorem chainInv_ofShutdown (hne : s.helpers ≠ []) (hw : PipeWf s.helpers [])
    (hopen : true ∉ s.helpers.map Stage.inClosed) :
    ChainInv (s.closeFd (.write 0)) (.ofShutdown s.helpers.length) []
      (s.writeFifo ++ pipeRest s.helpers []) := by
  obtain ⟨m, hm⟩ : ∃ m, m + 1 = s.helpers.length :=
    ⟨_, Nat.sub_add_cancel (List.length_pos_of_ne_nil hne)⟩
  obtain ⟨x, hx⟩ : ∃ x, s.helpers[0]? = some x := ⟨_, List.getElem?_eq_getElem (by omega)⟩
  obtain ⟨hhelpers, hfifo⟩ := closeFd_write hx
  obtain ⟨hwf, hrest⟩ := pipe_closeInput hw hx rfl
  have hpfds : (ChainRun.ofShutdown s.helpers.length).pfds =
      .read 0 :: initHelpersPollfd false 1 m := by
    rw [← hm, ChainRun.ofShutdown, initHelpersPollfd, initHelpersPollfd_close]
    rfl
  refine ⟨hhelpers ▸ hwf, ?_, rfl, fun _ => rfl, .inr ⟨0, m, ?_, hpfds, fun j hj => ?_⟩,
    fun hl => absurd hl Bool.false_ne_true, ?_⟩
  · rw [hhelpers, hfifo]
    exact congrArg _ hrest
  · rw [hhelpers, List.length_set, Nat.zero_add]
    exact hm
  · rw [hhelpers, List.map_set] at hj
    cases j with
    | zero => exact Nat.le_refl _
    | succ j =>
      rw [List.getElem?_set_ne (Nat.succ_ne_zero j).symm] at hj
      exact absurd (List.mem_of_getElem? hj) hopen
  · show (ChainRun.ofShutdown s.helpers.length).pfds ≠ []
    rw [hpfds]
    exact List.cons_ne_nil _ _

/-- **At its return the buffer has been handed over**, and no write end is closed. -/
theorem ChainInv.returned (hi : ChainInv s c up out) (hpc : c.pc = .returned)
    (hs : c.shutdown = false) :
    c.size = 0 ∧ PipeWf s.helpers up ∧ s.writeFifo ++ pipeRest s.helpers up = out ∧
      true ∉ s.helpers.map Stage.inClosed := by
  obtain ⟨hhand, -⟩ := hi.pcOk hpc
  obtain ⟨-, -, -, hopen⟩ := hi.shape_buffer hs
  change c.toHand = [] at hhand
  have hwf := hi.wf
  have hout := hi.out
  rw [hhand, List.nil_append] at hwf hout
  exact ⟨by rw [hi.size, hhand]; rfl, hwf, hout, hopen⟩

/-- **At the return of a shutdown everything has been delivered.** -/
theorem ChainInv.delivered (hi : ChainInv s c up out) (hpc : c.pc = .returned)
    (hs : c.shutdown = true) : s.writeFifo = out := by
  obtain ⟨-, hnil⟩ := hi.pcOk hpc
  have hout := hi.out
  rw [hi.ending hs, hnil hs, List.append_nil] at hout
  exact hout

end

end Musicat.Audio
