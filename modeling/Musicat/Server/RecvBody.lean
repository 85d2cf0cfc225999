import Musicat.Lib.Clients
import Musicat.Lib.Lists

/-!
# Putting request bodies together

A request that arrives in chunks gets an entry of its own in `_recv_body_cache`,
a vector that all requests share and that is searched by the time, the id and
the endpoint of the request. Its chunks are appended to the entry, the last one
calls the handler with it, and the last one or an abort erases it. For each
request the cache is as if it were alone: its handler is called once, with its
own chunks in order, when the last of them comes before any abort.
-/

namespace Musicat.Server

open Lib

/-- What tells requests apart: `ts`, `id` and the address of `endpoint`. -/
structure RecvKey where
  ts : Int
  id : String
  endpoint : Nat
  deriving DecidableEq, Repr

structure RecvBody where
  key : RecvKey
  body : List UInt8 := []
  deriving DecidableEq, Repr

inductive RecvEvent where
  /-- `create_recv_body_t`. -/
  | create (key : RecvKey)
  /-- `default_recv_on_data`. -/
  | data (key : RecvKey) (chunk : List UInt8) (isLast : Bool)
  /-- `default_recv_on_aborted`. -/
  | aborted (key : RecvKey)
  deriving DecidableEq, Repr

def RecvEvent.key : RecvEvent → RecvKey
  | .create key | .data key _ _ | .aborted key => key

/-- The cache, and what the handler was called with. -/
structure RecvState where
  cache : List RecvBody := []
  handled : List RecvBody := []
  deriving DecidableEq, Repr

namespace RecvState

def getRecvBodyCache (s : RecvState) (key : RecvKey) : Option RecvBody :=
  s.cache.find? (·.key = key)

def deleteRecvBodyCache (s : RecvState) (key : RecvKey) : RecvState :=
  { s with cache := s.cache.eraseP (·.key = key) }

/-- `none` is `std::terminate`. -/
def storeRecvBodyCache (s : RecvState) (key : RecvKey) : Option RecvState :=
  match s.getRecvBodyCache key with
  | some _ => none
  | none => some { s with cache := s.cache ++ [{ key }] }

def appendChunk (s : RecvState) (key : RecvKey) (chunk : List UInt8) : RecvState :=
  { s with cache := updateP (·.key = key) (fun x => { x with body := x.body ++ chunk }) s.cache }

def defaultRecvOnData (s : RecvState) (key : RecvKey) (chunk : List UInt8) (isLast : Bool) :
    RecvState :=
  match s.getRecvBodyCache key with
  | none => s
  | some _ =>
    let s := s.appendChunk key chunk
    if isLast then
      { s with handled := s.handled ++ (s.getRecvBodyCache key).toList }.deleteRecvBodyCache key
    else s

def defaultRecvOnAborted (s : RecvState) (key : RecvKey) : RecvState :=
  match s.getRecvBodyCache key with
  | none => s
  | some _ => s.deleteRecvBodyCache key

end RecvState

def recvStep (s : RecvState) : RecvEvent → Option RecvState
  | .create key => s.storeRecvBodyCache key
  | .data key chunk isLast => some (s.defaultRecvOnData key chunk isLast)
  | .aborted key => some (s.defaultRecvOnAborted key)

/-! ## One request -/

/-- What the cache and the handler have of one request. -/
structure RecvRequest where
  entry : Option (List UInt8) := none
  handled : List (List UInt8) := []
  deriving DecidableEq, Repr

/-- A request that is alone. -/
def requestStep (r : RecvRequest) : RecvEvent → Option RecvRequest
  | .create _ => if r.entry.isSome then none else some { r with entry := some [] }
  | .data _ chunk isLast =>
    match r.entry with
    | none => some r
    | some body =>
      if isLast then some { entry := none, handled := r.handled ++ [body ++ chunk] }
      else some { r with entry := some (body ++ chunk) }
  | .aborted _ => some { r with entry := none }

namespace RecvState

def view (key : RecvKey) (s : RecvState) : RecvRequest where
  entry := (s.getRecvBodyCache key).map (·.body)
  handled := (s.handled.filter (·.key = key)).map (·.body)

/-- No two entries are of the same request. -/
def Distinct (s : RecvState) : Prop := (s.cache.map (·.key)).Nodup

section
variable {s : RecvState} {key k : RecvKey}

@[simp] theorem getRecvBodyCache_handled (handled : List RecvBody) :
    { s with handled }.getRecvBodyCache key = s.getRecvBodyCache key := rfl

@[simp] theorem appendChunk_handled (s : RecvState) (key : RecvKey) (chunk : List UInt8) :
    (s.appendChunk key chunk).handled = s.handled := rfl

@[simp] theorem deleteRecvBodyCache_handled :
    (s.deleteRecvBodyCache key).handled = s.handled := rfl

theorem getRecvBodyCache_key {x : RecvBody} (h : s.getRecvBodyCache key = some x) :
    x.key = key := by
  simpa using List.find?_some h

theorem getRecvBodyCache_eq_none : s.getRecvBodyCache key = none ↔ ∀ x ∈ s.cache, x.key ≠ key := by
  simp [getRecvBodyCache]

theorem getRecvBodyCache_delete (hd : s.Distinct) :
    (s.deleteRecvBodyCache key).getRecvBodyCache key = none :=
  getRecvBodyCache_eq_none.2 fun _ hx => key_ne_of_mem_eraseP hd hx

theorem getRecvBodyCache_delete_of_ne (hk : k ≠ key) :
    (s.deleteRecvBodyCache key).getRecvBodyCache k = s.getRecvBodyCache k :=
  find?_eraseP_of_disjoint fun x hx => by
    simp only [decide_eq_true_eq] at hx
    simpa [hx] using Ne.symm hk

theorem getRecvBodyCache_append (chunk : List UInt8) :
    (s.appendChunk key chunk).getRecvBodyCache key =
      (s.getRecvBodyCache key).map fun x => { x with body := x.body ++ chunk } :=
  find?_updateP_self (f := fun x : RecvBody => { x with body := x.body ++ chunk }) (fun _ => rfl)
    s.cache

theorem getRecvBodyCache_append_of_ne (hk : k ≠ key) (chunk : List UInt8) :
    (s.appendChunk key chunk).getRecvBodyCache k = s.getRecvBodyCache k :=
  find?_updateP_of_disjoint (fun x hx => by
    simp only [decide_eq_true_eq] at hx
    simpa [hx] using Ne.symm hk) s.cache

theorem Distinct.delete (hd : s.Distinct) : (s.deleteRecvBodyCache key).Distinct :=
  nodup_map_eraseP hd

theorem Distinct.append (hd : s.Distinct) (key : RecvKey) (chunk : List UInt8) :
    (s.appendChunk key chunk).Distinct := by
  rw [Distinct, appendChunk,
    map_updateP (f := fun x : RecvBody => { x with body := x.body ++ chunk }) (·.key) fun _ => rfl]
  exact hd

/-! What the operations do to the view of a request. -/

theorem view_delete (hd : s.Distinct) :
    (s.deleteRecvBodyCache key).view key = { s.view key with entry := none } := by
  simp [view, getRecvBodyCache_delete hd]

theorem view_delete_of_ne (hk : k ≠ key) : (s.deleteRecvBodyCache key).view k = s.view k := by
  simp [view, getRecvBodyCache_delete_of_ne hk]

theorem view_append {x : RecvBody} (hx : s.getRecvBodyCache key = some x) (chunk : List UInt8) :
    (s.appendChunk key chunk).view key = { s.view key with entry := some (x.body ++ chunk) } := by
  simp [view, getRecvBodyCache_append, hx]

theorem view_append_of_ne (hk : k ≠ key) (chunk : List UInt8) :
    (s.appendChunk key chunk).view k = s.view k := by
  simp [view, getRecvBodyCache_append_of_ne hk]

theorem view_handle {x : RecvBody} (hx : x.key = key) :
    { s with handled := s.handled ++ [x] }.view key =
      { s.view key with handled := (s.view key).handled ++ [x.body] } := by
  simp [view, hx]

theorem view_handle_of_ne {x : RecvBody} (hx : x.key ≠ k) :
    { s with handled := s.handled ++ [x] }.view k = s.view k := by
  simp [view, hx]

/-- A chunk that finds its entry. -/
theorem defaultRecvOnData_some {x : RecvBody} (hx : s.getRecvBodyCache key = some x)
    (chunk : List UInt8) (isLast : Bool) :
    s.defaultRecvOnData key chunk isLast =
      if isLast then
        { s.appendChunk key chunk with
          handled := s.handled ++ [{ x with body := x.body ++ chunk }] }.deleteRecvBodyCache key
      else s.appendChunk key chunk := by
  simp only [defaultRecvOnData, hx, getRecvBodyCache_append, Option.map_some, Option.toList_some]
  rfl

end

end RecvState

open RecvState

/-- **For each request the cache is as if it were alone.** -/
theorem recvStep_clients :
    Clients recvStep RecvEvent.key RecvState.view requestStep RecvState.Distinct where
  inv {s s' a} hd h := by
    cases a with
    | create key =>
      simp only [recvStep, storeRecvBodyCache] at h
      split at h
      · cases h
      · rename_i hnone
        cases h
        rw [Distinct, List.map_append, List.nodup_append]
        refine ⟨hd, List.nodup_singleton _, fun p hp q hq => ?_⟩
        obtain ⟨x, hx, rfl⟩ := List.mem_map.1 hp
        rw [List.mem_singleton.1 hq]
        exact getRecvBodyCache_eq_none.1 hnone x hx
    | data key chunk isLast =>
      cases h
      cases hx : s.getRecvBodyCache key with
      | none =>
        rw [defaultRecvOnData, hx]
        exact hd
      | some x =>
        rw [defaultRecvOnData_some hx]
        split
        · exact (hd.append key chunk).delete
        · exact hd.append key chunk
    | aborted key =>
      cases h
      rw [defaultRecvOnAborted]
      split
      · exact hd
      · exact hd.delete
  own {s a} hd := by
    cases a with
    | create key =>
      simp only [recvStep, storeRecvBodyCache, RecvEvent.key, requestStep]
      cases hx : s.getRecvBodyCache key with
      | some x => simp [view, hx]
      | none =>
        have hfind : (s.cache ++ [({ key } : RecvBody)]).find? (·.key = key) = some { key } := by
          rw [List.find?_append, ← getRecvBodyCache, hx]
          simp
        simp only [view, hx, Option.map_none, Option.map_some, Option.isSome_none,
          Bool.false_eq_true, if_false]
        rw [getRecvBodyCache, hfind]
        rfl
    | data key chunk isLast =>
      simp only [recvStep, Option.map_some, RecvEvent.key, requestStep]
      cases hx : s.getRecvBodyCache key with
      | none => simp [defaultRecvOnData, view, hx]
      | some x =>
        have hxkey := getRecvBodyCache_key hx
        have hentry : (s.view key).entry = some x.body := by simp [view, hx]
        rw [defaultRecvOnData_some hx, hentry]
        cases isLast with
        | true =>
          have hkey : ({ x with body := x.body ++ chunk } : RecvBody).key = key := hxkey
          have hd' : Distinct { s.appendChunk key chunk with
              handled := s.handled ++ [{ x with body := x.body ++ chunk }] } :=
            hd.append key chunk
          simp only [if_true]
          rw [view_delete hd', ← appendChunk_handled s key chunk, view_handle hkey,
            view_append hx]
        | false =>
          simp only [Bool.false_eq_true, if_false]
          rw [view_append hx]
    | aborted key =>
      simp only [recvStep, Option.map_some, RecvEvent.key, requestStep, defaultRecvOnAborted]
      cases hx : s.getRecvBodyCache key with
      | none => simp [view, hx]
      | some x =>
        simp only
        rw [view_delete hd]
  others {s s' a k} _ h hk := by
    cases a with
    | create key =>
      simp only [recvStep, storeRecvBodyCache] at h
      split at h <;> cases h
      have hne : key ≠ k := Ne.symm hk
      simp [view, getRecvBodyCache, List.find?_append, hne]
    | data key chunk isLast =>
      cases h
      simp only [RecvEvent.key] at hk
      cases hx : s.getRecvBodyCache key with
      | none => rw [defaultRecvOnData, hx]
      | some x =>
        have hxkey := getRecvBodyCache_key hx
        have hxk : ({ x with body := x.body ++ chunk } : RecvBody).key ≠ k := fun h =>
          hk (h.symm.trans hxkey)
        rw [defaultRecvOnData_some hx]
        split
        · rw [view_delete_of_ne hk, ← appendChunk_handled s key chunk,
            view_handle_of_ne hxk, view_append_of_ne hk]
        · exact view_append_of_ne hk chunk
    | aborted key =>
      cases h
      rw [defaultRecvOnAborted]
      split
      · rfl
      · exact view_delete_of_ne hk

/-! ## Every interleaving -/

/-- The events of the request `k`, in their order. -/
def own (k : RecvKey) (l : List RecvEvent) : List RecvEvent := l.filter (·.key = k)

/-- Each request is created once, before its chunks and aborts come: no two have the same key. -/
def Registered (l : List RecvEvent) : Prop :=
  ∀ k ∈ l.map RecvEvent.key,
    (own k l).head? = some (.create k) ∧ ∀ e ∈ (own k l).tail, e ≠ .create k

instance (l : List RecvEvent) : Decidable (Registered l) :=
  inferInstanceAs (Decidable (∀ k ∈ l.map RecvEvent.key, _ ∧ _))

/-- The chunks of `k` that are not the last one. -/
def dataEvents (k : RecvKey) (chunks : List (List UInt8)) : List RecvEvent :=
  chunks.map fun chunk => .data k chunk false

section
variable {k : RecvKey} {evs rest : List RecvEvent}

/-- After its creation a request gets chunks only, or chunks and then the last one or an abort. -/
theorem own_cases (hkey : ∀ e ∈ evs, e.key = k) (hcreate : ∀ e ∈ evs, ∀ j, e ≠ .create j) :
    (∃ chunks, evs = dataEvents k chunks) ∨
      (∃ chunks last rest, evs = dataEvents k chunks ++ .data k last true :: rest) ∨
      ∃ chunks rest, evs = dataEvents k chunks ++ .aborted k :: rest := by
  induction evs with
  | nil => exact .inl ⟨[], rfl⟩
  | cons e evs ih =>
    have hk := hkey e List.mem_cons_self
    cases e with
    | create key =>
      obtain rfl : key = k := hk
      exact absurd rfl (hcreate _ List.mem_cons_self key)
    | aborted key =>
      obtain rfl : key = k := hk
      exact .inr (.inr ⟨[], evs, rfl⟩)
    | data key chunk isLast =>
      obtain rfl : key = k := hk
      cases isLast with
      | true => exact .inr (.inl ⟨[], chunk, evs, rfl⟩)
      | false =>
        rcases ih (fun x hx => hkey x (List.mem_cons_of_mem _ hx))
          (fun x hx => hcreate x (List.mem_cons_of_mem _ hx)) with
          ⟨chunks, rfl⟩ | ⟨chunks, last, rest, rfl⟩ | ⟨chunks, rest, rfl⟩
        · exact .inl ⟨chunk :: chunks, rfl⟩
        · exact .inr (.inl ⟨chunk :: chunks, last, rest, rfl⟩)
        · exact .inr (.inr ⟨chunk :: chunks, rest, rfl⟩)

/-- Chunks add up. -/
theorem run_dataEvents (body : List UInt8) (chunks : List (List UInt8)) (rest : List RecvEvent) :
    run requestStep { entry := some body } (dataEvents k chunks ++ rest) =
      run requestStep { entry := some (body ++ chunks.flatten) } rest := by
  induction chunks generalizing body with
  | nil => simp [dataEvents]
  | cons chunk chunks ih =>
    have hrest := ih (body ++ chunk)
    rw [List.append_assoc] at hrest
    exact hrest

/-- What comes for a request that is over changes nothing. -/
theorem run_over (handled : List (List UInt8)) (hcreate : ∀ e ∈ rest, ∀ j, e ≠ .create j) :
    run requestStep { handled } rest = some { handled } := by
  induction rest with
  | nil => rfl
  | cons e rest ih =>
    have hrest := ih fun x hx => hcreate x (List.mem_cons_of_mem _ hx)
    cases e with
    | create key => exact absurd rfl (hcreate _ List.mem_cons_self key)
    | data key chunk isLast | aborted key => exact hrest

theorem run_create (evs : List RecvEvent) :
    run requestStep {} (.create k :: evs) = run requestStep { entry := some [] } evs :=
  run_cons rfl evs

theorem run_handled (chunks : List (List UInt8)) (last : List UInt8)
    (hcreate : ∀ e ∈ rest, ∀ j, e ≠ .create j) :
    run requestStep {} (.create k :: (dataEvents k chunks ++ .data k last true :: rest)) =
      some { entry := none, handled := [chunks.flatten ++ last] } := by
  rw [run_create, run_dataEvents]
  exact run_over [chunks.flatten ++ last] hcreate

theorem run_aborted (chunks : List (List UInt8))
    (hcreate : ∀ e ∈ rest, ∀ j, e ≠ .create j) :
    run requestStep {} (.create k :: (dataEvents k chunks ++ .aborted k :: rest)) =
      some { entry := none, handled := [] } := by
  rw [run_create, run_dataEvents]
  exact run_over [] hcreate

theorem run_underway (chunks : List (List UInt8)) :
    run requestStep {} (.create k :: dataEvents k chunks) =
      some { entry := some chunks.flatten, handled := [] } := by
  have hrun := run_dataEvents (k := k) [] chunks []
  rw [List.append_nil] at hrun
  rw [run_create, hrun]
  rfl

end

/-- A registered request is its creation and then no other. -/
theorem Registered.own_eq {l : List RecvEvent} (h : Registered l) {k : RecvKey}
    (hk : k ∈ l.map RecvEvent.key) :
    ∃ evs, own k l = .create k :: evs ∧ (∀ e ∈ evs, e.key = k) ∧
      ∀ e ∈ evs, ∀ j, e ≠ .create j := by
  obtain ⟨hhead, htail⟩ := h k hk
  obtain ⟨evs, hevs⟩ := List.head?_eq_some_iff.1 hhead
  have hkey : ∀ e ∈ evs, e.key = k := fun e he => by
    have hmem : e ∈ own k l := hevs ▸ List.mem_cons_of_mem _ he
    simpa using List.of_mem_filter hmem
  refine ⟨evs, hevs, hkey, fun e he j hj => ?_⟩
  obtain rfl : j = k := by simpa [hj, RecvEvent.key] using hkey e he
  rw [hevs] at htail
  exact htail e he hj

/-- Every request can take its own events. -/
theorem Registered.run_own {l : List RecvEvent} (h : Registered l) (k : RecvKey) :
    ∃ v, run requestStep {} (own k l) = some v := by
  by_cases hk : k ∈ l.map RecvEvent.key
  · obtain ⟨evs, hevs, hkey, hcreate⟩ := h.own_eq hk
    rw [hevs]
    rcases own_cases hkey hcreate with
      ⟨chunks, rfl⟩ | ⟨chunks, last, rest, rfl⟩ | ⟨chunks, rest, rfl⟩
    · exact ⟨_, run_underway chunks⟩
    · exact ⟨_, run_handled chunks last fun e he => hcreate e (by simp [he])⟩
    · exact ⟨_, run_aborted chunks fun e he => hcreate e (by simp [he])⟩
  · have hnone : own k l = [] := by
      refine List.filter_eq_nil_iff.2 fun e he => ?_
      rintro hek
      exact hk (List.mem_map.2 ⟨e, he, by simpa using hek⟩)
    exact ⟨{}, by rw [hnone]; rfl⟩

/-- **Every request's body is put together**: whatever the interleaving, no creation finds its
request there already; a request whose last chunk comes before any abort has its handler
called once, with its own chunks in their order, and no entry is left; one that is aborted
first has its handler never called and no entry left; and one that is under way has an
entry with the chunks so far. -/
theorem recv_bodies {l : List RecvEvent} (h : Registered l) :
    ∃ s, run recvStep {} l = some s ∧ ∀ k ∈ l.map RecvEvent.key,
      (∀ chunks last rest,
        own k l = .create k :: (dataEvents k chunks ++ .data k last true :: rest) →
        s.view k = { entry := none, handled := [chunks.flatten ++ last] }) ∧
      (∀ chunks rest, own k l = .create k :: (dataEvents k chunks ++ .aborted k :: rest) →
        s.view k = { entry := none, handled := [] }) ∧
      (∀ chunks, own k l = .create k :: dataEvents k chunks →
        s.view k = { entry := some chunks.flatten, handled := [] }) ∧
      ((∃ chunks last rest,
          own k l = .create k :: (dataEvents k chunks ++ .data k last true :: rest)) ∨
        (∃ chunks rest, own k l = .create k :: (dataEvents k chunks ++ .aborted k :: rest)) ∨
        ∃ chunks, own k l = .create k :: dataEvents k chunks) := by
  have hdistinct : RecvState.Distinct {} := List.nodup_nil
  obtain ⟨s, hs⟩ := recvStep_clients.exists_run hdistinct h.run_own
  refine ⟨s, hs, fun k hk => ?_⟩
  have hview := recvStep_clients.run_view k hdistinct hs
  obtain ⟨evs, hevs, hkey, hcreate⟩ := h.own_eq hk
  have hrest {rest : List RecvEvent} {e : RecvEvent} {first : List RecvEvent}
      (hown : own k l = .create k :: (first ++ e :: rest)) : ∀ e ∈ rest, ∀ j, e ≠ .create j := by
    obtain rfl : evs = first ++ e :: rest := List.tail_eq_of_cons_eq (hevs.symm.trans hown)
    exact fun x hx => hcreate x (by simp [hx])
  refine ⟨fun chunks last rest hown => ?_, fun chunks rest hown => ?_, fun chunks hown => ?_, ?_⟩
  · have hrun := run_handled (k := k) chunks last (hrest hown)
    rw [← hown] at hrun
    exact Option.some.inj (hview.symm.trans hrun)
  · have hrun := run_aborted (k := k) chunks (hrest hown)
    rw [← hown] at hrun
    exact Option.some.inj (hview.symm.trans hrun)
  · have hrun := run_underway (k := k) chunks
    rw [← hown] at hrun
    exact Option.some.inj (hview.symm.trans hrun)
  · rw [hevs]
    rcases own_cases hkey hcreate with
      ⟨chunks, rfl⟩ | ⟨chunks, last, rest, rfl⟩ | ⟨chunks, rest, rfl⟩
    · exact .inr (.inr ⟨chunks, rfl⟩)
    · exact .inl ⟨chunks, last, rest, rfl⟩
    · exact .inr (.inl ⟨chunks, rest, rfl⟩)

def earlier : RecvKey := { ts := 1, id := "10.0.0.1", endpoint := 0 }
def later : RecvKey := { ts := 2, id := "10.0.0.1", endpoint := 0 }

/-- Two requests of one address whose chunks are interleaved; the second is aborted. -/
def twoBodies : List RecvEvent :=
  [.create earlier, .create later, .data earlier [1, 2] false, .data later [7] false,
    .data earlier [] false, .aborted later, .data earlier [3] true, .data later [8] true,
    .aborted earlier]

theorem recv_bodies_two : ∃ s, run recvStep {} twoBodies = some s ∧
    s.view earlier = { entry := none, handled := [[1, 2, 3]] } := by
  obtain ⟨s, hs, hall⟩ := recv_bodies (l := twoBodies) (by decide)
  exact ⟨s, hs, (hall earlier (by decide)).1 [[1, 2], []] [3] [.aborted earlier] (by decide)⟩

end Musicat.Server
