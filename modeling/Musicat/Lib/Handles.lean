import Mathlib.Data.List.Nodup

/-!
# Objects behind pointers

A pointer stays good until its object dies, and its address may be used again
after that. `Handles` has every object that ever was at an address, in the order
in which they came; `use` reaches the live one at an address, and marks the whole
as misused when there is none. As long as no two live objects share an address
(`Distinct`), a loop that uses each of some addresses once changes exactly the
objects at them (`foldl_use`).

What happens to all of them is a log, and a `Span` is the part of it that happened
while one object was there.
-/

namespace Musicat.Lib

/-- The length of a log when an object came, and when it went. -/
structure Span where
  since : Nat
  stopped : Option Nat := none
  deriving DecidableEq, Repr

namespace Span
variable {ε : Type*} {log : List ε} {w : Span}

/-- What happened before the object came. -/
def before (log : List ε) (w : Span) : List ε := log.take w.since

/-- What happened while it was there. -/
def during (log : List ε) (w : Span) : List ε := (log.take (w.stopped.getD log.length)).drop w.since

/-- The object goes. -/
def stop (log : List ε) (w : Span) : Span := { w with stopped := some log.length }

structure Within (log : List ε) (w : Span) : Prop where
  since : w.since ≤ log.length
  stopped : ∀ n, w.stopped = some n → n ≤ log.length

theorem within_new (log : List ε) : Within log { since := log.length } := ⟨Nat.le_refl _, nofun⟩

theorem during_new (log : List ε) : during log { since := log.length } = [] := by simp [during]

theorem Within.stop (h : Within log w) : Within log (w.stop log) :=
  ⟨h.since, fun n hn => by simp [Span.stop] at hn; omega⟩

theorem Within.append (h : Within log w) (e : ε) : Within (log ++ [e]) w where
  since := by
    have := h.since
    rw [List.length_append]
    omega
  stopped n hn := by
    have := h.stopped n hn
    rw [List.length_append]
    omega

theorem before_append (h : Within log w) (e : ε) : before (log ++ [e]) w = before log w :=
  List.take_append_of_le_length h.since

theorem during_open (h : w.stopped = none) : during log w = log.drop w.since := by
  rw [during, h, Option.getD_none, List.take_length]

theorem before_append_during (h : w.stopped = none) : before log w ++ during log w = log := by
  rw [during_open h, before, List.take_append_drop]

theorem during_stop (h : w.stopped = none) : during log (w.stop log) = during log w := by
  simp [during, stop, h]

theorem during_append_open (h : Within log w) (ho : w.stopped = none) (e : ε) :
    during (log ++ [e]) w = during log w ++ [e] := by
  rw [during_open ho, during_open ho, List.drop_append_of_le_length h.since]

theorem during_append_stopped (h : Within log w) (ho : w.stopped ≠ none) (e : ε) :
    during (log ++ [e]) w = during log w := by
  obtain ⟨n, hn⟩ := Option.ne_none_iff_exists'.1 ho
  rw [during, during, hn, Option.getD_some, Option.getD_some,
    List.take_append_of_le_length (h.stopped n hn)]

end Span

structure Handle (α : Type*) where
  addr : Nat
  alive : Bool := true
  val : α

structure Handles (α : Type*) where
  all : List (Handle α) := []
  misused : Bool := false

namespace Handles

section
variable {α ι : Type*}

/-- The object is the live one at `a`. -/
def isAt (a : Nat) (h : Handle α) : Bool := h.alive && h.addr == a

def live (s : Handles α) : List (Handle α) := s.all.filter (·.alive)

/-- A new object, at an address where none lives. -/
def create (s : Handles α) (a : Nat) (v : α) : Option (Handles α) :=
  if s.all.any (isAt a) then none else some { s with all := s.all ++ [{ addr := a, val := v }] }

/-- What is done through a pointer to `a`. -/
def use (a : Nat) (f : Handle α → Handle α) (s : Handles α) : Handles α :=
  if s.all.any (isAt a) then { s with all := s.all.map fun h => if isAt a h then f h else h }
  else { s with misused := true }

/-- No two live objects are at one address. -/
def Distinct (s : Handles α) : Prop := (s.live.map (·.addr)).Nodup

/-- `f` moves no object, and brings none back. -/
structure Stays (f : Handle α → Handle α) : Prop where
  addr : ∀ h, (f h).addr = h.addr
  alive : ∀ h, (f h).alive = true → h.alive = true

variable {s s' : Handles α} {a : Nat} {f : Handle α → Handle α}

theorem isAt_iff {h : Handle α} : isAt a h = true ↔ h.alive = true ∧ h.addr = a := by
  simp [isAt]

theorem any_isAt : s.all.any (isAt a) = true ↔ a ∈ s.live.map (·.addr) := by
  simp only [live, List.any_eq_true, isAt_iff, List.mem_map, List.mem_filter]
  constructor
  · rintro ⟨h, hm, ha, rfl⟩
    exact ⟨h, ⟨hm, ha⟩, rfl⟩
  · rintro ⟨h, ⟨hm, ha⟩, rfl⟩
    exact ⟨h, hm, ha, rfl⟩

theorem use_of_mem (h : a ∈ s.live.map (·.addr)) :
    s.use a f = { s with all := s.all.map fun h => if isAt a h then f h else h } :=
  if_pos (any_isAt.2 h)

theorem create_eq_some {v : α} : s.create a v = some s' ↔
    a ∉ s.live.map (·.addr) ∧ s' = { s with all := s.all ++ [{ addr := a, val := v }] } := by
  rw [← any_isAt, create]
  cases s.all.any (isAt a) with
  | true => simp
  | false => simp [eq_comm (a := s')]

theorem Distinct.create {v : α} (hd : s.Distinct) (h : s.create a v = some s') : s'.Distinct := by
  obtain ⟨ha, rfl⟩ := create_eq_some.1 h
  have hlive : live { s with all := s.all ++ [{ addr := a, val := v }] } =
      s.live ++ [{ addr := a, val := v }] := by simp [live]
  rw [Distinct, hlive, List.map_append, List.map_cons, List.map_nil]
  refine List.nodup_append.2 ⟨hd, List.nodup_singleton a, fun x hx y hy e => ?_⟩
  obtain rfl : y = a := List.mem_singleton.1 hy
  exact ha (e ▸ hx)

theorem Distinct.map (hd : s.Distinct) (hf : Stays f) :
    Distinct { s with all := s.all.map f } := by
  refine hd.sublist ?_
  simp only [live]
  induction s.all with
  | nil => exact .slnil
  | cons h l ih =>
    rw [List.map_cons]
    cases hfa : (f h).alive with
    | true =>
      rw [List.filter_cons_of_pos hfa, List.filter_cons_of_pos (hf.alive h hfa), List.map_cons,
        List.map_cons, hf.addr]
      exact ih.cons_cons _
    | false =>
      rw [List.filter_cons_of_neg (by simp [hfa])]
      refine ih.trans (List.Sublist.map _ ?_)
      exact (List.sublist_cons_self h l).filter _

/-- What is used is one object, and the others stay. -/
theorem Distinct.split (hd : s.Distinct) {h : Handle α} (hm : h ∈ s.live) :
    ∃ l₁ l₂, s.all = l₁ ++ h :: l₂ ∧
      ∀ f, s.use h.addr f = { s with all := l₁ ++ f h :: l₂ } := by
  obtain ⟨hall, ha⟩ := List.mem_filter.1 hm
  obtain ⟨l₁, l₂, hsplit⟩ := List.append_of_mem hall
  refine ⟨l₁, l₂, hsplit, fun f => ?_⟩
  have hlive : s.live = l₁.filter (·.alive) ++ h :: l₂.filter (·.alive) := by
    rw [live, hsplit, List.filter_append, List.filter_cons_of_pos ha]
  rw [Distinct, hlive, List.map_append, List.map_cons] at hd
  have hnd := List.nodup_middle.1 hd
  have hrest : ∀ x ∈ l₁ ++ l₂, isAt h.addr x = false := by
    intro x hx
    refine Bool.eq_false_iff.2 fun hat => (List.nodup_cons.1 hnd).1 ?_
    obtain ⟨hxa, he⟩ := isAt_iff.1 hat
    rw [← List.map_append, ← List.filter_append, ← he]
    exact List.mem_map.2 ⟨x, List.mem_filter.2 ⟨hx, hxa⟩, rfl⟩
  have hid : ∀ l : List (Handle α), (∀ x ∈ l, isAt h.addr x = false) →
      l.map (fun x => if isAt h.addr x then f x else x) = l := fun l hl => by
    conv_rhs => rw [← List.map_id l]
    exact List.map_congr_left fun x hx => by rw [hl x hx]; rfl
  rw [use_of_mem (List.mem_map.2 ⟨h, hm, rfl⟩), hsplit, List.map_append, List.map_cons,
    hid l₁ fun x hx => hrest x (List.mem_append_left _ hx),
    hid l₂ fun x hx => hrest x (List.mem_append_right _ hx), if_pos (isAt_iff.2 ⟨ha, rfl⟩)]

/-- The live objects when one of them is used. -/
theorem Distinct.live_use (hd : s.Distinct) {h : Handle α} (hm : h ∈ s.live) :
    ∃ l₁ l₂, s.live = l₁ ++ h :: l₂ ∧
      ∀ f, (s.use h.addr f).live = l₁ ++ if (f h).alive then f h :: l₂ else l₂ := by
  obtain ⟨l₁, l₂, hsplit, huse⟩ := hd.split hm
  have ha := (List.mem_filter.1 hm).2
  refine ⟨l₁.filter (·.alive), l₂.filter (·.alive), ?_, fun f => ?_⟩
  · rw [live, hsplit, List.filter_append, List.filter_cons_of_pos ha]
  · rw [huse, live, List.filter_append, List.filter_cons]

theorem Distinct.use (hd : s.Distinct) (hf : Stays f) : (s.use a f).Distinct := by
  unfold Handles.use
  split
  · refine hd.map ⟨fun h => ?_, fun h => ?_⟩
    · split
      · exact hf.addr h
      · rfl
    · split
      · exact hf.alive h
      · exact id
  · exact hd

/-- What a loop over `xs` does to an object, when it does `g x` at the address `key x`. -/
def hit (key : ι → Nat) (g : ι → Handle α → Handle α) (xs : List ι) (h : Handle α) : Handle α :=
  if h.alive then
    match xs.find? (key · = h.addr) with
    | none => h
    | some x => g x h
  else h

/-- Where every element of the loop does the same. -/
theorem hit_const (key : ι → Nat) (xs : List ι) (h : Handle α) :
    hit key (fun _ => f) xs h = if h.alive && xs.any (key · == h.addr) then f h else h := by
  unfold hit
  cases h.alive with
  | false => rfl
  | true =>
    cases hf : xs.find? (key · = h.addr) with
    | none =>
      have hno : xs.any (key · == h.addr) = false := by
        simpa [List.any_eq_false] using List.find?_eq_none.1 hf
      simp [hno]
    | some x =>
      have hyes : xs.any (key · == h.addr) = true :=
        List.any_eq_true.2 ⟨x, List.mem_of_find?_eq_some hf, by simpa using List.find?_some hf⟩
      simp [hyes]

/-- **A loop that uses some addresses**, each once and each with a live object. -/
theorem foldl_use (key : ι → Nat) (g : ι → Handle α → Handle α) (hg : ∀ x, Stays (g x)) :
    ∀ (xs : List ι) (s : Handles α), (xs.map key).Nodup →
      (∀ x ∈ xs, key x ∈ s.live.map (·.addr)) →
      xs.foldl (fun s x => s.use (key x) (g x)) s = { s with all := s.all.map (hit key g xs) }
  | [], s, _, _ => by
    have hid : ∀ h, hit key g [] h = h := fun h => by simp [hit]
    exact congrArg (Handles.mk · s.misused) (List.map_id'' hid s.all).symm
  | x :: xs, s, hn, hlive => by
    obtain ⟨hx, hn⟩ := List.nodup_cons.1 hn
    have hnone : xs.find? (key · = key x) = none := by
      refine List.find?_eq_none.2 fun y hy h => hx ?_
      exact List.mem_map.2 ⟨y, hy, of_decide_eq_true h⟩
    rw [List.foldl_cons, use_of_mem (hlive x List.mem_cons_self), foldl_use key g hg xs _ hn]
    · simp only [List.map_map]
      refine congrArg (Handles.mk · s.misused) (List.map_congr_left fun h _ => ?_)
      simp only [Function.comp_apply, hit]
      cases ha : h.alive with
      | false => simp [isAt, ha]
      | true =>
        by_cases he : key x = h.addr
        · rw [if_pos (isAt_iff.2 ⟨ha, he.symm⟩), (hg x).addr, ← he, hnone, if_pos rfl,
            List.find?_cons_of_pos (by simp)]
          split <;> rfl
        · rw [if_neg (fun h => he (isAt_iff.1 h).2.symm), if_pos ha, if_pos rfl,
            List.find?_cons_of_neg (by simpa using he)]
    · intro y hy
      obtain ⟨h, hh, he⟩ := List.mem_map.1 (hlive y (List.mem_cons_of_mem _ hy))
      obtain ⟨hm, ha⟩ := List.mem_filter.1 hh
      have hne : ¬ isAt (key x) h = true := fun h' =>
        hx (List.mem_map.2 ⟨y, hy, he.symm.trans (isAt_iff.1 h').2⟩)
      refine List.mem_map.2 ⟨h, List.mem_filter.2 ⟨List.mem_map.2 ⟨h, hm, if_neg hne⟩, ha⟩, he⟩

end

end Handles

end Musicat.Lib
