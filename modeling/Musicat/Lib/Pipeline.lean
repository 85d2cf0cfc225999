import Musicat.Lib.Transducer

/-!
# Processes between pipes

A stage takes what it finds in its input pipe through a transducer and puts what
comes out of it into its output pipe; at the end of its input it flushes, writes
the rest and closes. `Stage.rest` is all that can still be read from a stage
whose pipe is given `l` and then closed, and `pipeRest` is that for stages in a
row. It is what every step conserves: the steps of the stages, moving bytes from
a stage to the next, and closing the pipe of a stage to which nothing comes any
more (`Stage.Wf` says that no other pipe is closed).
-/

namespace Musicat.Lib

variable {σ φ : Type*}

namespace Transducer

variable (t : Transducer σ φ φ)

/-- What it gives from the state `s` on for `l` and the end. -/
def tail (s : σ) (l : List φ) : List φ := t.body s l ++ t.flush (t.after s l)

theorem after_append (l₁ l₂ : List φ) (s : σ) :
    t.after s (l₁ ++ l₂) = t.after (t.after s l₁) l₂ := by
  induction l₁ generalizing s with
  | nil => rfl
  | cons i l₁ ih => exact ih _

theorem body_append (l₁ l₂ : List φ) (s : σ) :
    t.body s (l₁ ++ l₂) = t.body s l₁ ++ t.body (t.after s l₁) l₂ := by
  induction l₁ generalizing s with
  | nil => rfl
  | cons i l₁ ih =>
    simp only [List.cons_append, body, after, ih, List.append_assoc]

theorem tail_append (l₁ l₂ : List φ) (s : σ) :
    t.tail s (l₁ ++ l₂) = t.body s l₁ ++ t.tail (t.after s l₁) l₂ := by
  rw [tail, tail, body_append, after_append, List.append_assoc]

end Transducer

/-! ## A stage -/

structure Stage (σ φ : Type*) where
  filter : Transducer σ φ φ
  buf : Buffered σ φ
  /-- What its input pipe holds. -/
  input : List φ := []
  /-- The write end of its input pipe is closed. -/
  inClosed : Bool := false
  /-- What its output pipe holds. -/
  output : List φ := []
  /-- It has closed its output and ended. -/
  outClosed : Bool := false

inductive StageAction where
  /-- It reads so many of what its input pipe holds. -/
  | read (n : Nat)
  /-- It reads the end of its input. -/
  | eof
  | write (n : Nat)
  | close
  deriving DecidableEq, Repr

namespace Stage

def start (t : Transducer σ φ φ) : Stage σ φ := { filter := t, buf := { state := t.init } }

def step (h : Stage σ φ) : StageAction → Option (Stage σ φ)
  | .read n =>
    if 0 < n ∧ n ≤ h.input.length ∧ h.buf.flushed = false then
      some { h with
        buf := { h.buf with
          state := h.filter.after h.buf.state (h.input.take n)
          ready := h.buf.ready ++ h.filter.body h.buf.state (h.input.take n) }
        input := h.input.drop n }
    else none
  | .eof =>
    if h.input.isEmpty ∧ h.inClosed = true then
      (h.buf.send h.filter none).map fun buf => { h with buf }
    else none
  | .write n =>
    if 0 < n ∧ n ≤ h.buf.ready.length ∧ h.outClosed = false then
      some { h with
        buf := { h.buf with ready := h.buf.ready.drop n }
        output := h.output ++ h.buf.ready.take n }
    else none
  | .close =>
    if h.buf.flushed = true ∧ h.buf.ready.isEmpty then some { h with outClosed := true } else none

/-- More is written to its input pipe. -/
def give (h : Stage σ φ) (l : List φ) : Stage σ φ := { h with input := h.input ++ l }

/-- The write end of its input pipe is closed. -/
def closeInput (h : Stage σ φ) : Stage σ φ := { h with inClosed := true }

/-- What can still be read from it when `l` is still to come. -/
def rest (h : Stage σ φ) (l : List φ) : List φ :=
  h.output ++ (h.buf.ready ++
    if h.buf.flushed then [] else h.filter.tail h.buf.state (h.input ++ l))

/-- A pipe is closed when nothing comes any more, and a stage flushes and closes when it may. -/
structure Wf (h : Stage σ φ) (l : List φ) : Prop where
  closed : h.inClosed = true → l = []
  flushed : h.buf.flushed = true → h.inClosed = true ∧ h.input = []
  ended : h.outClosed = true → h.buf.flushed = true ∧ h.buf.ready = []

variable {h h' : Stage σ φ} {l : List φ}

theorem wf_start (t : Transducer σ φ φ) (l : List φ) : (start t).Wf l := ⟨nofun, nofun, nofun⟩

theorem rest_start (t : Transducer σ φ φ) (l : List φ) : (start t).rest l = t.output l := rfl

/-- A stage that has ended gives what is in its pipe. -/
theorem Wf.rest_ended (hw : h.Wf l) (hc : h.outClosed = true) : h.rest l = h.output := by
  obtain ⟨hf, hr⟩ := hw.ended hc
  rw [rest, hf, hr, if_pos rfl, List.append_nil, List.append_nil]

/-- **A step of a stage conserves what it gives.** -/
theorem Wf.step {a : StageAction} (hw : h.Wf l) (hs : h.step a = some h') :
    h'.Wf l ∧ h'.rest l = h.rest l ∧ h'.inClosed = h.inClosed := by
  cases a with
  | read n =>
    obtain ⟨hn, hs⟩ := Option.ite_none_right_eq_some.1 hs
    cases hs
    have hopen : h.buf.flushed ≠ true := by simp [hn.2.2]
    refine ⟨⟨hw.closed, fun hf => absurd hf hopen, fun hc => absurd (hw.ended hc).1 hopen⟩, ?_,
      rfl⟩
    have htail := h.filter.tail_append (h.input.take n) (h.input.drop n ++ l) h.buf.state
    rw [← List.append_assoc, List.take_append_drop] at htail
    simp only [rest, hn.2.2, Bool.false_eq_true, if_false, htail, List.append_assoc]
  | eof =>
    obtain ⟨hin, hs⟩ := Option.ite_none_right_eq_some.1 hs
    obtain ⟨buf, hb, rfl⟩ := Option.map_eq_some_iff.1 hs
    have hinput : h.input = [] := List.isEmpty_iff.1 hin.1
    cases hf : h.buf.flushed with
    | true => simp [Buffered.send, hf] at hb
    | false =>
      obtain ⟨b, hb', hflushed, hready⟩ := Buffered.send_none (t := h.filter) hf
      obtain rfl : b = buf := Option.some.inj (hb'.symm.trans hb)
      refine ⟨⟨hw.closed, fun _ => ⟨hin.2, hinput⟩, fun hc => ?_⟩, ?_, rfl⟩
      · exact absurd ((hw.ended hc).1.symm.trans hf) (by decide)
      · rw [rest, rest, hflushed, hf, if_pos rfl, if_neg Bool.false_ne_true, hready, hinput,
          hw.closed hin.2, List.append_nil]
        rfl
  | write n =>
    obtain ⟨hn, hs⟩ := Option.ite_none_right_eq_some.1 hs
    cases hs
    refine ⟨⟨hw.closed, hw.flushed, fun hc => ?_⟩, ?_, rfl⟩
    · exact absurd (hn.2.2.symm.trans hc) (by decide)
    · simp only [rest, List.append_assoc]
      rw [← List.append_assoc (h.buf.ready.take n), List.take_append_drop]
  | close =>
    obtain ⟨hn, hs⟩ := Option.ite_none_right_eq_some.1 hs
    cases hs
    exact ⟨⟨hw.closed, hw.flushed, fun _ => ⟨hn.1, List.isEmpty_iff.1 hn.2⟩⟩, rfl, rfl⟩

theorem outClosed_of_step {a : StageAction} (hc : h.outClosed = true) (hs : h.step a = some h') :
    h'.outClosed = true := by
  cases a with
  | read n =>
    obtain ⟨-, hs⟩ := Option.ite_none_right_eq_some.1 hs
    cases hs
    exact hc
  | eof =>
    obtain ⟨-, hs⟩ := Option.ite_none_right_eq_some.1 hs
    obtain ⟨buf, -, rfl⟩ := Option.map_eq_some_iff.1 hs
    exact hc
  | write n =>
    obtain ⟨hn, -⟩ := Option.ite_none_right_eq_some.1 hs
    exact absurd (hc.symm.trans hn.2.2) (by decide)
  | close =>
    obtain ⟨-, hs⟩ := Option.ite_none_right_eq_some.1 hs
    cases hs
    rfl

/-- What comes first is given. -/
theorem Wf.give {d : List φ} (hw : h.Wf (d ++ l)) :
    (h.give d).Wf l ∧ (h.give d).rest l = h.rest (d ++ l) := by
  refine ⟨⟨fun hc => (List.append_eq_nil_iff.1 (hw.closed hc)).2, fun hf => ?_, hw.ended⟩, ?_⟩
  · obtain ⟨hc, hin⟩ := hw.flushed hf
    have hd : d = [] := (List.append_eq_nil_iff.1 (hw.closed hc)).1
    exact ⟨hc, by rw [Stage.give, hin, hd, List.append_nil]⟩
  · simp only [rest, Stage.give, List.append_assoc]

/-- What its output pipe holds is read. -/
theorem Wf.take {d out : List φ} (hw : h.Wf l) (hout : h.output = d ++ out) :
    ({ h with output := out } : Stage σ φ).Wf l ∧
      h.rest l = d ++ ({ h with output := out } : Stage σ φ).rest l := by
  refine ⟨⟨hw.closed, hw.flushed, hw.ended⟩, ?_⟩
  simp only [rest, hout, List.append_assoc]

theorem Wf.closeInput (hw : h.Wf []) :
    h.closeInput.Wf [] ∧ h.closeInput.rest [] = h.rest [] :=
  ⟨⟨fun _ => rfl, fun hf => ⟨rfl, (hw.flushed hf).2⟩, hw.ended⟩, rfl⟩

end Stage

/-! ## Stages in a row -/

/-- What can still be read from the last of the stages when `l` is still to come to the first. -/
def pipeRest : List (Stage σ φ) → List φ → List φ
  | [], l => l
  | h :: hs, l => pipeRest hs (h.rest l)

def PipeWf : List (Stage σ φ) → List φ → Prop
  | [], _ => True
  | h :: hs, l => h.Wf l ∧ PipeWf hs (h.rest l)

/-- The stage at `i` has ended, and what it wrote has been read. -/
def PipeEnded (hs : List (Stage σ φ)) (i : Nat) : Prop :=
  ∃ h, hs[i]? = some h ∧ h.outClosed = true ∧ h.output = []

/-- What stays when bytes move along the stages: which pipes are closed, and what has ended. -/
structure PipeMoved (hs hs' : List (Stage σ φ)) : Prop where
  closed : hs'.map Stage.inClosed = hs.map Stage.inClosed
  ended : ∀ i, PipeEnded hs i → PipeEnded hs' i

variable {hs hs' : List (Stage σ φ)} {l : List φ} {i : Nat} {h h' : Stage σ φ}

theorem pipeRest_append (pre post : List (Stage σ φ)) (l : List φ) :
    pipeRest (pre ++ post) l = pipeRest post (pipeRest pre l) := by
  induction pre generalizing l with
  | nil => rfl
  | cons h pre ih => exact ih _

theorem pipeWf_append (pre post : List (Stage σ φ)) (l : List φ) :
    PipeWf (pre ++ post) l ↔ PipeWf pre l ∧ PipeWf post (pipeRest pre l) := by
  induction pre generalizing l with
  | nil => simp [PipeWf, pipeRest]
  | cons h pre ih =>
    simp only [List.cons_append, PipeWf, pipeRest, ih, and_assoc]

theorem pipeWf_start (ts : List (Transducer σ φ φ)) (l : List φ) :
    PipeWf (ts.map Stage.start) l := by
  induction ts generalizing l with
  | nil => trivial
  | cons t ts ih => exact ⟨Stage.wf_start t l, ih _⟩

theorem pipeRest_start (ts : List (Transducer σ φ φ)) (l : List φ) :
    pipeRest (ts.map Stage.start) l = ts.foldl (fun l t => t.output l) l := by
  induction ts generalizing l with
  | nil => rfl
  | cons t ts ih => rw [List.map_cons, pipeRest, Stage.rest_start, ih, List.foldl_cons]

theorem PipeMoved.refl (hs : List (Stage σ φ)) : PipeMoved hs hs := ⟨rfl, fun _ h => h⟩

theorem PipeMoved.trans {hs'' : List (Stage σ φ)} (h₁ : PipeMoved hs hs')
    (h₂ : PipeMoved hs' hs'') : PipeMoved hs hs'' :=
  ⟨h₂.closed.trans h₁.closed, fun i h => h₂.ended i (h₁.ended i h)⟩

theorem PipeMoved.length (h : PipeMoved hs hs') : hs'.length = hs.length := by
  simpa using congrArg List.length h.closed

/-- Another stage at `i`, with as much closed. -/
theorem pipeMoved_set (hi : hs[i]? = some h) (hin : h'.inClosed = h.inClosed)
    (hout : h.outClosed = true → h.output = [] → h'.outClosed = true ∧ h'.output = []) :
    PipeMoved hs (hs.set i h') := by
  obtain ⟨hlt, hget⟩ := List.getElem?_eq_some_iff.1 hi
  refine ⟨?_, fun j hj => ?_⟩
  · rw [List.map_set, hin, ← hget, ← List.getElem_map Stage.inClosed (h := by simpa using hlt),
      List.set_getElem_self]
  · obtain ⟨g, hg, hc, ho⟩ := hj
    by_cases hij : i = j
    · subst hij
      obtain rfl : h = g := Option.some.inj (hi.symm.trans hg)
      exact ⟨h', List.getElem?_set_self hlt, hout hc ho⟩
    · exact ⟨g, (List.getElem?_set_ne hij).trans hg, hc, ho⟩

/-- The stages around the one at `i`. -/
theorem pipe_split (hi : hs[i]? = some h) :
    ∃ pre post, hs = pre ++ h :: post ∧ pre.length = i ∧
      ∀ g, hs.set i g = pre ++ g :: post := by
  obtain ⟨hlt, rfl⟩ := List.getElem?_eq_some_iff.1 hi
  have hlen : (hs.take i).length = i := by rw [List.length_take]; omega
  refine ⟨hs.take i, hs.drop (i + 1), ?_, hlen, fun g => ?_⟩
  · rw [← List.drop_eq_getElem_cons hlt, List.take_append_drop]
  · exact List.set_eq_take_append_cons_drop.trans (if_pos hlt)

/-- A stage takes a step. -/
theorem pipe_step {a : StageAction} (hw : PipeWf hs l) (hi : hs[i]? = some h)
    (hs' : h.step a = some h') :
    PipeWf (hs.set i h') l ∧ pipeRest (hs.set i h') l = pipeRest hs l := by
  obtain ⟨pre, post, rfl, -, hset⟩ := pipe_split hi
  rw [pipeWf_append] at hw
  obtain ⟨hw', hrest, -⟩ := hw.2.1.step hs'
  rw [hset, pipeWf_append, pipeRest_append, pipeRest_append]
  simp only [PipeWf, pipeRest, hrest]
  exact ⟨⟨hw.1, hw', hw.2.2⟩, trivial⟩

/-- A stage that has ended writes no more. -/
theorem pipeMoved_step {a : StageAction} (hw : PipeWf hs l) (hi : hs[i]? = some h)
    (hs' : h.step a = some h') : PipeMoved hs (hs.set i h') := by
  obtain ⟨pre, post, rfl, -, -⟩ := pipe_split hi
  have hwf := ((pipeWf_append _ _ _).1 hw).2.1
  obtain ⟨hwf', hrest, hin⟩ := hwf.step hs'
  refine pipeMoved_set hi hin fun hc ho => ?_
  have hc' := Stage.outClosed_of_step hc hs'
  refine ⟨hc', ?_⟩
  rw [hwf'.rest_ended hc', hwf.rest_ended hc, ho] at hrest
  exact hrest

/-- What comes first is given to the first stage. -/
theorem pipe_give {d : List φ} (hw : PipeWf (h :: hs) (d ++ l)) :
    PipeWf (h.give d :: hs) l ∧ pipeRest (h.give d :: hs) l = pipeRest (h :: hs) (d ++ l) := by
  obtain ⟨hw', hrest⟩ := hw.1.give
  simp only [PipeWf, pipeRest, hrest]
  exact ⟨⟨hw', hw.2⟩, trivial⟩

/-- What the last stage wrote is read. -/
theorem pipe_take {d out : List φ} (hw : PipeWf hs l) (hi : hs[i]? = some h)
    (hlast : i + 1 = hs.length) (hout : h.output = d ++ out) :
    PipeWf (hs.set i { h with output := out }) l ∧
      pipeRest hs l = d ++ pipeRest (hs.set i { h with output := out }) l := by
  obtain ⟨pre, post, rfl, hlen, hset⟩ := pipe_split hi
  obtain rfl : post = [] := by
    rw [← List.length_eq_zero_iff]
    simp only [List.length_append, List.length_cons] at hlast
    omega
  rw [pipeWf_append] at hw
  obtain ⟨hw', hrest⟩ := hw.2.1.take hout
  rw [hset, pipeWf_append, pipeRest_append, pipeRest_append]
  exact ⟨⟨hw.1, hw', trivial⟩, hrest⟩

/-- What a stage wrote is given to the next. -/
theorem pipe_pass {d out : List φ} {g : Stage σ φ} (hw : PipeWf hs l) (hi : hs[i]? = some h)
    (hg : hs[i + 1]? = some g) (hout : h.output = d ++ out) :
    PipeWf ((hs.set i { h with output := out }).set (i + 1) (g.give d)) l ∧
      pipeRest ((hs.set i { h with output := out }).set (i + 1) (g.give d)) l =
        pipeRest hs l := by
  obtain ⟨pre, post, rfl, hlen, hset⟩ := pipe_split hi
  obtain ⟨post', rfl⟩ : ∃ post', post = g :: post' := by
    rw [List.getElem?_append_right (by omega), hlen, Nat.add_sub_cancel_left,
      List.getElem?_cons_succ] at hg
    cases post with
    | nil => cases hg
    | cons g' post =>
      obtain rfl : g' = g := Option.some.inj hg
      exact ⟨post, rfl⟩
  have hset' : (pre ++ { h with output := out } :: g :: post').set (i + 1) (g.give d) =
      pre ++ { h with output := out } :: g.give d :: post' := by
    rw [List.set_append_right _ _ (by omega), hlen, Nat.add_sub_cancel_left]
    rfl
  rw [pipeWf_append] at hw
  obtain ⟨hw', hrest⟩ := hw.2.1.take hout
  have hnext := hw.2.2.1
  rw [hrest] at hnext
  obtain ⟨hgive, hrest'⟩ := hnext.give
  have hpost := hw.2.2.2
  rw [hrest, ← hrest'] at hpost
  rw [hset, hset', pipeWf_append, pipeRest_append, pipeRest_append]
  simp only [PipeWf, pipeRest, hrest, hrest']
  rw [hrest'] at hpost
  exact ⟨⟨hw.1, hw', hgive, hpost⟩, trivial⟩

/-- The pipe of a stage to which nothing comes any more is closed. -/
theorem pipe_closeInput (hw : PipeWf hs l) (hi : hs[i]? = some h)
    (hup : pipeRest (hs.take i) l = []) :
    PipeWf (hs.set i h.closeInput) l ∧ pipeRest (hs.set i h.closeInput) l = pipeRest hs l := by
  obtain ⟨pre, post, rfl, hlen, hset⟩ := pipe_split hi
  rw [← hlen, List.take_left] at hup
  rw [pipeWf_append, hup] at hw
  obtain ⟨hw', hrest⟩ := hw.2.1.closeInput
  rw [hset, pipeWf_append, pipeRest_append, pipeRest_append, hup]
  simp only [PipeWf, pipeRest, hrest]
  exact ⟨⟨hw.1, hw', hw.2.2⟩, trivial⟩

/-- Nothing comes out behind a stage that has ended. -/
theorem pipeRest_ended (hw : PipeWf hs l) (he : PipeEnded hs i) :
    pipeRest (hs.take (i + 1)) l = [] := by
  obtain ⟨h, hi, hc, ho⟩ := he
  obtain ⟨pre, post, rfl, hlen, -⟩ := pipe_split hi
  have hwf := ((pipeWf_append _ _ _).1 hw).2.1
  rw [← hlen, List.take_length_add_append, pipeRest_append]
  exact (hwf.rest_ended hc).trans ho

/-- A stage that has ended has been told the end of its input. -/
theorem inClosed_of_ended (hw : PipeWf hs l) (he : PipeEnded hs i) :
    (hs.map Stage.inClosed)[i]? = some true := by
  obtain ⟨h, hi, hc, -⟩ := he
  obtain ⟨pre, post, rfl, -, -⟩ := pipe_split hi
  have hwf := ((pipeWf_append _ _ _).1 hw).2.1
  rw [List.getElem?_map, hi, Option.map_some, (hwf.flushed (hwf.ended hc).1).1]

end Musicat.Lib
