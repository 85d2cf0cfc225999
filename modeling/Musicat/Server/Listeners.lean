import Musicat.Lib.Handles
import Musicat.Lib.Lists
import Musicat.Server.OggStream

/-!
# The responses that listen

`get_stream` keeps a response open and puts its pointer into the `streams` of its
guild; `broadcast`, `unsubscribe` and `shutdown` are called by other threads, and
defer to the loop of the server what they do to the responses. A client may go
away at any time, and a later response may be at the same address. That the loop
runs the callbacks in the order in which they were deferred is assumed of
uWebSockets.

`listeners_served` says that no pointer is used after its response has ended,
and what every response was written in the end: the headers its guild had cached
when it came, and the pages of its guild from then on, in the order in which
they were broadcast.
-/

namespace Musicat.Server

open Lib

/-! ## State -/

/-- What is deferred to the loop. -/
inductive StreamCallback where
  | broadcast (guildId : Nat) (p : Page)
  | unsubscribe (guildId : Nat)
  | shutdown
  deriving DecidableEq, Repr

/-- A response of `get_stream`. -/
structure Listener where
  guildId : Nat
  written : List Page := []
  /-- The callbacks that run until it is ended or aborted. -/
  span : Span
  deriving DecidableEq, Repr

/-- A response that comes after the callbacks `ran`. -/
def Listener.new (guildId : Nat) (ran : List StreamCallback) : Listener :=
  { guildId, span := { since := ran.length } }

/-- `stream_state_t`. -/
structure StreamState where
  res : Nat
  headersSent : Bool := false
  deriving DecidableEq, Repr

def StreamState.sent (x : StreamState) : StreamState := { x with headersSent := true }

/-- `guild_stream_state_t`. -/
structure GuildStreamState where
  streams : List StreamState := []
  headersCache : List Page := []
  deriving DecidableEq, Repr

structure HttpStreams where
  responses : Handles Listener := {}
  subs : Nat → GuildStreamState := fun _ => {}
  /-- The guilds that `subs` has an entry for; another one has an empty state. -/
  guilds : List Nat := []
  deferred : List StreamCallback := []
  /-- The callbacks that have run. -/
  ran : List StreamCallback := []

namespace HttpStreams

/-- `get_guild_stream_state` makes an entry for the guild. -/
def addEntry (guilds : List Nat) (guildId : Nat) : List Nat :=
  if guildId ∈ guilds then guilds else guilds ++ [guildId]

def setState (s : HttpStreams) (guildId : Nat) (st : GuildStreamState) : HttpStreams :=
  { s with subs := Function.update s.subs guildId st, guilds := addEntry s.guilds guildId }

/-- `res->write` of some pages, one after the other. -/
def write (pages : List Page) (h : Handle Listener) : Handle Listener :=
  { h with val := { h.val with written := h.val.written ++ pages } }

/-- The response ends, or its client has gone. -/
def close (ran : List StreamCallback) (h : Handle Listener) : Handle Listener :=
  { h with alive := false, val := { h.val with span := h.val.span.stop ran } }

def endAll (ran : List StreamCallback) (streams : List StreamState) (r : Handles Listener) :
    Handles Listener :=
  streams.foldl (fun r s => r.use s.res (close ran)) r

def subscribe (res guildId : Nat) (s : HttpStreams) : HttpStreams :=
  let st := s.subs guildId
  s.setState guildId { st with streams := st.streams ++ [{ res }] }

/-- `unsubscribe` of a response that was aborted. -/
def unsubscribeAborted (res guildId : Nat) (s : HttpStreams) : HttpStreams :=
  let st := s.subs guildId
  s.setState guildId { st with streams := st.streams.eraseP (·.res = res) }

section
variable (outside : Int → UInt8)

/-- The loop runs a callback. -/
def runCallback (s : HttpStreams) : StreamCallback → HttpStreams
  | .broadcast guildId p =>
    let st := s.subs guildId
    let responses := st.streams.foldl (fun r x =>
      r.use x.res (write ((if x.headersSent then [] else st.headersCache) ++ [p]))) s.responses
    { s with responses }.setState guildId
      { streams := st.streams.map StreamState.sent
        headersCache := checkForHeaders outside st.headersCache p }
  | .unsubscribe guildId =>
    let st := s.subs guildId
    { s with responses := endAll s.ran st.streams s.responses }.setState guildId
      { st with streams := [] }
  | .shutdown =>
    { s with
      responses :=
        endAll s.ran (s.guilds.flatMap fun g => (s.subs g).streams) s.responses
      subs := fun _ => {}
      guilds := [] }

inductive Action where
  /-- `get_stream` of a guild that has a player. -/
  | getStream (res guildId : Nat)
  /-- The client of a response goes away. -/
  | abort (res : Nat)
  /-- `server::defer`, from any thread. -/
  | defer (c : StreamCallback)
  /-- The loop runs the next callback. -/
  | next
  deriving DecidableEq, Repr

def step (s : HttpStreams) : Action → Option HttpStreams
  | .getStream res guildId =>
    (s.responses.create res (.new guildId s.ran)).map fun responses =>
      { s with responses }.subscribe res guildId
  | .abort res =>
    (s.responses.all.find? (Handles.isAt res)).map fun h =>
      { s with responses := s.responses.use res (close s.ran) }.unsubscribeAborted res
        h.val.guildId
  | .defer c => some { s with deferred := s.deferred ++ [c] }
  | .next =>
    match s.deferred with
    | [] => none
    | c :: deferred =>
      some { { s with deferred }.runCallback outside c with ran := s.ran ++ [c] }

/-! ## What a listener is to hear -/

/-- The pages of a guild. -/
def pagesOf (guildId : Nat) (l : List StreamCallback) : List Page :=
  l.filterMap fun
    | .broadcast g p => if g = guildId then some p else none
    | _ => none

/-- The headers that a guild has in the end: a shutdown forgets them. -/
def cacheOf (guildId : Nat) (l : List StreamCallback) : List Page :=
  l.foldl (fun cache c => match c with
    | .broadcast g p => if g = guildId then checkForHeaders outside cache p else cache
    | .unsubscribe _ => cache
    | .shutdown => []) []

/-- What who came after `before` hears of `during`. -/
def heardFrom (guildId : Nat) (before during : List StreamCallback) : List Page :=
  if pagesOf guildId during = [] then []
  else cacheOf outside guildId before ++ pagesOf guildId during

/-- What a response is to be written. -/
def toHear (ran : List StreamCallback) (x : Listener) : List Page :=
  heardFrom outside x.guildId (x.span.before ran) (x.span.during ran)

/-- What was deferred. -/
def posted (l : List Action) : List StreamCallback :=
  l.filterMap fun
    | .defer c => some c
    | _ => none

/-! ## What the invariant says of one response -/

def isOf (guildId : Nat) (h : Handle Listener) : Bool := h.alive && h.val.guildId == guildId

/-- The entry that a live response has in the `streams` of its guild. -/
structure EntryOf (ran : List StreamCallback) (guildId : Nat) (x : StreamState)
    (h : Handle Listener) : Prop where
  res : x.res = h.addr
  isOf : isOf guildId h = true
  span : h.val.span.Within ran
  stopped : h.val.span.stopped = none
  sent : x.headersSent = true ↔ pagesOf guildId (h.val.span.during ran) ≠ []

theorem pagesOf_append {guildId : Nat} {l l' : List StreamCallback} :
    pagesOf guildId (l ++ l') = pagesOf guildId l ++ pagesOf guildId l' := List.filterMap_append

/-- The entry stays right when a callback without a page for the guild has run. -/
theorem EntryOf.append {ran : List StreamCallback} {guildId : Nat} {x : StreamState}
    {h : Handle Listener} (hx : EntryOf ran guildId x h) {c : StreamCallback}
    (hp : pagesOf guildId [c] = []) : EntryOf (ran ++ [c]) guildId x h where
  res := hx.res
  isOf := hx.isOf
  span := hx.span.append c
  stopped := hx.stopped
  sent := by
    rw [Span.during_append_open hx.span hx.stopped, pagesOf_append, hp, List.append_nil]
    exact hx.sent

/-- The callback closes the responses of the guild. -/
def closes (guildId : Nat) : StreamCallback → Bool
  | .broadcast _ _ => false
  | .unsubscribe g => g == guildId
  | .shutdown => true

/-- What a response has been written, and that it is open until a callback closes it. -/
structure Heard (ran : List StreamCallback) (h : Handle Listener) : Prop where
  written : h.val.written = toHear outside ran h.val
  span : h.val.span.Within ran
  alive : h.alive = true ↔ h.val.span.stopped = none
  open_ : h.alive = true → ∀ c ∈ h.val.span.during ran, closes h.val.guildId c = false

variable {outside} {ran : List StreamCallback} {h : Handle Listener} {c : StreamCallback}
  {guildId : Nat} {l l' : List StreamCallback}

/-- While no callback concerns the guild, its headers stay. -/
theorem cacheOf_append (hp : pagesOf guildId l' = [])
    (hc : ∀ c ∈ l', closes guildId c = false) :
    cacheOf outside guildId (l ++ l') = cacheOf outside guildId l := by
  induction l' using List.reverseRecOn with
  | nil => rw [List.append_nil]
  | append_singleton l' c ih =>
    rw [pagesOf_append, List.append_eq_nil_iff] at hp
    have hl := ih hp.1 fun c hc' => hc c (List.mem_append_left _ hc')
    have hlast := hc c (by simp)
    rw [cacheOf, ← List.append_assoc, List.foldl_append, ← cacheOf, hl]
    cases c with
    | broadcast g p =>
      have hne : g ≠ guildId := fun he => by simp [pagesOf, he] at hp
      simp [hne]
    | unsubscribe g => rfl
    | shutdown => cases hlast

namespace Heard

theorem new (res guildId : Nat) (ran : List StreamCallback) :
    Heard outside ran { addr := res, val := .new guildId ran } where
  written := by simp [toHear, heardFrom, Listener.new, Span.during_new, pagesOf]
  span := Span.within_new ran
  alive := by simp [Listener.new]
  open_ := by simp [Listener.new, Span.during_new]

theorem close (hh : Heard outside ran h) (ha : h.alive = true) :
    Heard outside ran (close ran h) where
  written := by
    have hw := hh.written
    rw [toHear] at hw ⊢
    exact (Span.during_stop (hh.alive.1 ha)).symm ▸ hw
  span := hh.span.stop
  alive := by simp [HttpStreams.close, Span.stop]
  open_ := by simp [HttpStreams.close]

/-- A response that has ended is left alone by later callbacks. -/
theorem dead (hh : Heard outside ran h) (ha : h.alive = false) (c : StreamCallback) :
    Heard outside (ran ++ [c]) h where
  written := by
    have hstopped : h.val.span.stopped ≠ none := fun hnone => by simp [hh.alive.2 hnone] at ha
    rw [toHear, Span.before_append hh.span, Span.during_append_stopped hh.span hstopped]
    exact hh.written
  span := hh.span.append c
  alive := hh.alive
  open_ h := by simp [ha] at h

/-- A live response after a callback that leaves it open, and has written `pages` to it. -/
theorem next (hh : Heard outside ran h) (ha : h.alive = true)
    (hc : closes h.val.guildId c = false) {pages : List Page}
    (hw : toHear outside ran h.val ++ pages =
      heardFrom outside h.val.guildId (h.val.span.before ran) (h.val.span.during ran ++ [c])) :
    Heard outside (ran ++ [c]) (write pages h) where
  written := by
    change h.val.written ++ pages = heardFrom outside h.val.guildId
      (h.val.span.before (ran ++ [c])) (h.val.span.during (ran ++ [c]))
    rw [Span.before_append hh.span, Span.during_append_open hh.span (hh.alive.1 ha), hh.written, hw]
  span := hh.span.append c
  alive := hh.alive
  open_ _ d hd := by
    change d ∈ h.val.span.during (ran ++ [c]) at hd
    rw [Span.during_append_open hh.span (hh.alive.1 ha)] at hd
    rcases List.mem_append.1 hd with hd | hd
    · exact hh.open_ ha d hd
    · rwa [List.mem_singleton.1 hd]

/-- A callback that does not concern the guild. -/
theorem other (hh : Heard outside ran h) (ha : h.alive = true)
    (hc : closes h.val.guildId c = false) (hp : pagesOf h.val.guildId [c] = []) :
    Heard outside (ran ++ [c]) h := by
  have hw : toHear outside ran h.val ++ [] =
      heardFrom outside h.val.guildId (h.val.span.before ran) (h.val.span.during ran ++ [c]) := by
    rw [List.append_nil, toHear, heardFrom, heardFrom, pagesOf_append, hp, List.append_nil]
  simpa [write] using hh.next ha hc hw

/-- A page of the guild, with the headers in front unless they have been sent. -/
theorem page (hh : Heard outside ran h) (ha : h.alive = true) {x : StreamState}
    (hx : EntryOf ran h.val.guildId x h) (p : Page) :
    Heard outside (ran ++ [.broadcast h.val.guildId p])
      (write ((if x.headersSent then [] else cacheOf outside h.val.guildId ran) ++ [p]) h) := by
  have hpage : pagesOf h.val.guildId [.broadcast h.val.guildId p] = [p] := by simp [pagesOf]
  refine hh.next ha rfl ?_
  rw [toHear, heardFrom, heardFrom, pagesOf_append, hpage, if_neg (by simp : ¬ _ ++ [p] = [])]
  by_cases hs : x.headersSent = true
  · rw [if_pos hs, if_neg (hx.sent.1 hs), List.nil_append, List.append_assoc]
  · have hnone : pagesOf h.val.guildId (h.val.span.during ran) = [] := by
      by_contra hne
      exact hs (hx.sent.2 hne)
    have hcache : cacheOf outside h.val.guildId (h.val.span.before ran ++ h.val.span.during ran) =
        cacheOf outside h.val.guildId (h.val.span.before ran) :=
      cacheOf_append hnone (hh.open_ ha)
    rw [Span.before_append_during hx.stopped] at hcache
    rw [if_neg hs, hnone, if_pos rfl, List.nil_append, List.nil_append, hcache]

end Heard

end

/-! ## The invariant of the server -/

/-- The live responses of a guild. -/
def listenersOf (s : HttpStreams) (guildId : Nat) : List (Handle Listener) :=
  s.responses.all.filter (isOf guildId)

section
variable (outside : Int → UInt8)

structure Served (s : HttpStreams) : Prop where
  sound : s.responses.misused = false
  distinct : s.responses.Distinct
  entries : ∀ g, List.Forall₂ (EntryOf s.ran g) (s.subs g).streams (listenersOf s g)
  guilds : ∀ g, g ∉ s.guilds → (s.subs g).streams = []
  nodup : s.guilds.Nodup
  cache : ∀ g, (s.subs g).headersCache = cacheOf outside g s.ran
  heard : ∀ h ∈ s.responses.all, Heard outside s.ran h

variable {outside} {s : HttpStreams} {h h' : Handle Listener} {g : Nat}

theorem isOf_iff : isOf g h = true ↔ h.alive = true ∧ h.val.guildId = g := by
  simp [isOf]

theorem listenersOf_subset (s : HttpStreams) (g : Nat) :
    (listenersOf s g).Sublist s.responses.live := by
  have hsub : ∀ l : List (Handle Listener),
      (l.filter (isOf g)).Sublist (l.filter (·.alive)) := fun l =>
    List.monotone_filter_right l fun h hh => (isOf_iff.1 hh).1
  exact hsub _

theorem mem_live : h ∈ s.responses.live ↔ h ∈ s.responses.all ∧ h.alive = true := List.mem_filter

namespace Served

theorem eq_of_addr (hi : Served outside s) (hh : h ∈ s.responses.live)
    (hh' : h' ∈ s.responses.live) (he : h.addr = h'.addr) : h = h' :=
  List.inj_on_of_nodup_map hi.distinct hh hh' he

/-- The pointers of a guild are those of its live responses. -/
theorem res_eq (hi : Served outside s) (g : Nat) :
    (s.subs g).streams.map (·.res) = (listenersOf s g).map (·.addr) := by
  have hf := (hi.entries g).imp fun _ _ he => he.res
  exact List.forall₂_eq_eq_eq ▸ List.forall₂_map_left_iff.2 (List.forall₂_map_right_iff.2 hf)

theorem nodup_res (hi : Served outside s) (g : Nat) :
    ((s.subs g).streams.map (·.res)).Nodup :=
  hi.res_eq g ▸ hi.distinct.sublist ((listenersOf_subset s g).map _)

theorem res_live (hi : Served outside s) {g : Nat} {x : StreamState} (hx : x ∈ (s.subs g).streams) :
    x.res ∈ s.responses.live.map (·.addr) := by
  have hm : x.res ∈ (listenersOf s g).map (·.addr) := hi.res_eq g ▸ List.mem_map.2 ⟨x, hx, rfl⟩
  exact ((listenersOf_subset s g).map _).subset hm

/-- A pointer in the `streams` of a guild is that of a live response of the guild. -/
theorem entry_spec (hi : Served outside s) (hh : h ∈ s.responses.live) {x : StreamState}
    (hx : x ∈ (s.subs g).streams) (he : x.res = h.addr) :
    h.val.guildId = g ∧ EntryOf s.ran g x h := by
  obtain ⟨h', hm, hxh⟩ : ∃ h' ∈ listenersOf s g, EntryOf s.ran g x h' :=
    forall_of_forall₂ (P := fun x => ∃ h' ∈ listenersOf s g, EntryOf s.ran g x h')
      (Q := (· ∈ listenersOf s g)) (hi.entries g) (fun _ hm => hm)
      (fun _ h' hr hm => ⟨h', hm, hr⟩) x hx
  have heq : h' = h := hi.eq_of_addr ((listenersOf_subset s g).subset hm) hh (hxh.res ▸ he)
  subst heq
  exact ⟨(isOf_iff.1 hxh.isOf).2, hxh⟩

/-- A live response has its entry. -/
theorem exists_entry (hi : Served outside s) (hh : h ∈ s.responses.live) :
    ∃ x ∈ (s.subs h.val.guildId).streams, x.res = h.addr := by
  obtain ⟨hm, ha⟩ := mem_live.1 hh
  have hmem : h.addr ∈ (s.subs h.val.guildId).streams.map (·.res) := by
    rw [hi.res_eq]
    exact List.mem_map.2 ⟨h, List.mem_filter.2 ⟨hm, isOf_iff.2 ⟨ha, rfl⟩⟩, rfl⟩
  obtain ⟨x, hx, he⟩ := List.mem_map.1 hmem
  exact ⟨x, hx, he⟩

/-! ## Responses that are closed -/

/-- Those of `q` are closed. -/
def closeIf (ran : List StreamCallback) (q : Handle Listener → Bool) (h : Handle Listener) :
    Handle Listener :=
  if q h then close ran h else h

theorem filter_closeIf (ran : List StreamCallback) (q : Handle Listener → Bool) (g : Nat) :
    ∀ l : List (Handle Listener),
      (l.map (closeIf ran q)).filter (isOf g) = (l.filter (isOf g)).filter fun h => !q h
  | [] => rfl
  | h :: l => by
    rw [List.map_cons, List.filter_cons, filter_closeIf ran q g l, List.filter_cons]
    cases hq : q h <;> cases hg : isOf g h <;> simp [closeIf, hq, hg]
    all_goals simp [HttpStreams.isOf, close]

/-- A loop that ends all of `xs` closes those whose pointers are there. -/
theorem endAll_eq {xs : List StreamState} (hn : (xs.map (·.res)).Nodup)
    (hlive : ∀ x ∈ xs, x.res ∈ s.responses.live.map (·.addr)) :
    endAll s.ran xs s.responses = { s.responses with
      all := s.responses.all.map
        (closeIf s.ran fun h => h.alive && xs.any (·.res == h.addr)) } := by
  rw [endAll, Handles.foldl_use (·.res) (fun _ => close s.ran)
    (fun _ => ⟨fun _ => rfl, nofun⟩) xs _ hn hlive]
  exact congrArg (Handles.mk · s.responses.misused)
    (List.map_congr_left fun h _ => Handles.hit_const (·.res) xs h)

/-- What is left when the responses of `q` are closed, and their entries are gone. -/
theorem closed (hi : Served outside s) {q : Handle Listener → Bool}
    (hq : ∀ h, q h = true → h.alive = true) (subs : Nat → GuildStreamState) {guilds : List Nat}
    (hsubs : ∀ g, List.Forall₂ (EntryOf s.ran g) (subs g).streams
      ((listenersOf s g).filter fun h => !q h))
    (hguilds : ∀ g, g ∉ guilds → (subs g).streams = []) (hn : guilds.Nodup)
    (hcache : ∀ g, (subs g).headersCache = cacheOf outside g s.ran) :
    Served outside { s with
      responses := { s.responses with all := s.responses.all.map (closeIf s.ran q) }
      subs, guilds } where
  sound := hi.sound
  distinct := hi.distinct.map
    ⟨fun h => by unfold closeIf; split <;> rfl, fun h => by unfold closeIf; split <;> simp [close]⟩
  entries g := by
    simp only [listenersOf, filter_closeIf]
    exact hsubs g
  guilds := hguilds
  nodup := hn
  cache := hcache
  heard h hh := by
    obtain ⟨h', hm, rfl⟩ := List.mem_map.1 hh
    unfold closeIf
    split
    · exact (hi.heard h' hm).close (hq h' ‹_›)
    · exact hi.heard h' hm

/-! ## The steps -/

theorem mem_addEntry {guilds : List Nat} {g g' : Nat} :
    g' ∈ addEntry guilds g ↔ g' = g ∨ g' ∈ guilds := by
  unfold addEntry
  split
  · exact ⟨.inr, fun h => h.elim (fun he => he ▸ ‹_›) id⟩
  · simp [or_comm]

theorem nodup_addEntry {guilds : List Nat} (hn : guilds.Nodup) (g : Nat) :
    (addEntry guilds g).Nodup := by
  unfold addEntry
  split
  · exact hn
  · rename_i hg
    exact List.nodup_append.2 ⟨hn, List.nodup_singleton g, fun x hx y hy he =>
      hg (List.mem_singleton.1 hy ▸ he ▸ hx)⟩

theorem init : Served outside {} where
  sound := rfl
  distinct := List.nodup_nil
  entries _ := .nil
  guilds _ _ := rfl
  nodup := List.nodup_nil
  cache _ := rfl
  heard := nofun

theorem getStream (hi : Served outside s) {res g : Nat} {responses : Handles Listener}
    (hc : s.responses.create res (.new g s.ran) = some responses) :
    Served outside ({ s with responses }.subscribe res g) := by
  have hd := hi.distinct.create hc
  obtain ⟨-, rfl⟩ := Handles.create_eq_some.1 hc
  dsimp only [subscribe, setState]
  exact {
    sound := hi.sound
    distinct := hd
    entries := fun g' => by
      simp only [listenersOf, List.filter_append]
      by_cases hg : g' = g
      · subst hg
        rw [Function.update_self]
        refine List.rel_append (hi.entries g') ?_
        have hnew : ([{ addr := res, val := .new g' s.ran }] : List (Handle Listener)).filter
            (isOf g') = [{ addr := res, val := .new g' s.ran }] := by
          simp [HttpStreams.isOf, Listener.new]
        rw [hnew]
        exact .cons ⟨rfl, by simp [HttpStreams.isOf, Listener.new], Span.within_new _, rfl, by
          simp [Listener.new, Span.during_new, pagesOf]⟩ .nil
      · have hnone : ([{ addr := res, val := .new g s.ran }] : List (Handle Listener)).filter
            (isOf g') = [] := by
          simp [HttpStreams.isOf, Listener.new, Ne.symm hg]
        rw [Function.update_of_ne hg, hnone, List.append_nil]
        exact hi.entries g'
    guilds := fun g' hg' => by
      obtain ⟨hne, hg'⟩ := not_or.1 (mt mem_addEntry.2 hg')
      simp only [Function.update_of_ne hne]
      exact hi.guilds g' hg'
    nodup := nodup_addEntry hi.nodup g
    cache := fun g' => by
      by_cases hg : g' = g
      · simp only [hg, Function.update_self]
        exact hi.cache g
      · simp only [Function.update_of_ne hg]
        exact hi.cache g'
    heard := fun h hh => by
      rcases List.mem_append.1 hh with hh | hh
      · exact hi.heard h hh
      · rw [List.mem_singleton.1 hh]
        exact .new res g s.ran }

/-- A callback that has no page for the live responses and leaves them open. -/
theorem advance (hi : Served outside s) {c : StreamCallback}
    (hc : ∀ h ∈ s.responses.live, closes h.val.guildId c = false ∧ pagesOf h.val.guildId [c] = [])
    {subs : Nat → GuildStreamState} {guilds : List Nat}
    (hstreams : ∀ g, (subs g).streams = (s.subs g).streams)
    (hcache : ∀ g, (subs g).headersCache = cacheOf outside g (s.ran ++ [c]))
    (hguilds : ∀ g, g ∉ guilds → (subs g).streams = []) (hn : guilds.Nodup) :
    Served outside { s with subs, guilds, ran := s.ran ++ [c] } where
  sound := hi.sound
  distinct := hi.distinct
  entries g := by
    change List.Forall₂ _ (subs g).streams (listenersOf s g)
    have hentries := hi.entries g
    rw [hstreams]
    cases hl : listenersOf s g with
    | nil =>
      rw [hl] at hentries
      rw [List.forall₂_nil_right_iff.1 hentries]
      exact .nil
    | cons h₀ l =>
      rw [← hl]
      have hm : h₀ ∈ listenersOf s g := by simp [hl]
      have hp : pagesOf g [c] = [] := by
        have hlive := (listenersOf_subset s g).subset hm
        have hg := (isOf_iff.1 (List.mem_filter.1 hm).2).2
        exact hg ▸ (hc h₀ hlive).2
      exact hentries.imp fun x h he => he.append hp
  guilds := hguilds
  nodup := hn
  cache := hcache
  heard h hh := by
    cases ha : h.alive with
    | true =>
      obtain ⟨hclose, hp⟩ := hc h (mem_live.2 ⟨hh, ha⟩)
      exact (hi.heard h hh).other ha hclose hp
    | false => exact (hi.heard h hh).dead ha c

theorem abort (hi : Served outside s) {res : Nat} {h : Handle Listener}
    (hf : s.responses.all.find? (Handles.isAt res) = some h) :
    Served outside ({ s with responses := s.responses.use res (close s.ran) }
      |>.unsubscribeAborted res h.val.guildId) := by
  obtain ⟨ha, rfl⟩ := Handles.isAt_iff.1 (List.find?_some hf)
  have hlive : h ∈ s.responses.live := mem_live.2 ⟨List.mem_of_find?_eq_some hf, ha⟩
  have hmem : h.addr ∈ s.responses.live.map (·.addr) := List.mem_map.2 ⟨h, hlive, rfl⟩
  rw [Handles.use_of_mem hmem]
  refine hi.closed (q := Handles.isAt h.addr) (fun h' hq => (Handles.isAt_iff.1 hq).1) _
    (fun g => ?_) (fun g hg => ?_) (nodup_addEntry hi.nodup _) (fun g => ?_)
  · by_cases hg : g = h.val.guildId
    · subst hg
      have herase := eraseP_eq_filter (k := h.addr) (hi.nodup_res h.val.guildId)
      rw [Function.update_self]
      dsimp only
      rw [herase]
      refine List.rel_filter (fun x h' hx => ?_) (hi.entries _)
      simp [Handles.isAt, hx.res, (isOf_iff.1 hx.isOf).1]
    · rw [Function.update_of_ne hg, List.filter_eq_self.2]
      · exact hi.entries g
      · intro h' hm
        obtain ⟨ha', hg'⟩ := isOf_iff.1 (List.mem_filter.1 hm).2
        have hne : h'.addr ≠ h.addr := fun he =>
          hg (hg' ▸ hi.eq_of_addr ((listenersOf_subset s g).subset hm) hlive he ▸ rfl)
        simp [Handles.isAt, hne]
  · obtain ⟨hne, hg⟩ := not_or.1 (mt mem_addEntry.2 hg)
    simp only [Function.update_of_ne hne]
    exact hi.guilds g hg
  · by_cases hg : g = h.val.guildId
    · simp only [hg, Function.update_self]
      exact hi.cache _
    · simp only [Function.update_of_ne hg]
      exact hi.cache g

/-- Callbacks that are queued change nothing. -/
theorem setDeferred (hi : Served outside s) (deferred : List StreamCallback) :
    Served outside { s with deferred } :=
  ⟨hi.sound, hi.distinct, hi.entries, hi.guilds, hi.nodup, hi.cache, hi.heard⟩

/-- A callback that ends all the responses of the guilds in `P`. -/
theorem ended (hi : Served outside s) {P : Nat → Prop} [DecidablePred P] {xs : List StreamState}
    (hn : (xs.map (·.res)).Nodup) (hxs : ∀ x, x ∈ xs ↔ ∃ g, P g ∧ x ∈ (s.subs g).streams)
    {c : StreamCallback} (hc : ∀ g, ¬ P g → closes g c = false) (hp : ∀ g, pagesOf g [c] = [])
    {subs : Nat → GuildStreamState} {guilds : List Nat}
    (hsubs : ∀ g, (subs g).streams = if P g then [] else (s.subs g).streams)
    (hcache : ∀ g, (subs g).headersCache = cacheOf outside g (s.ran ++ [c]))
    (hguilds : ∀ g, g ∉ guilds → (subs g).streams = []) (hg : guilds.Nodup) :
    Served outside { s with
      responses := endAll s.ran xs s.responses, subs, guilds, ran := s.ran ++ [c] } := by
  have hlive : ∀ x ∈ xs, x.res ∈ s.responses.live.map (·.addr) := fun x hx => by
    obtain ⟨g, -, hm⟩ := (hxs x).1 hx
    exact hi.res_live hm
  -- a live response is ended if its guild is in `P`
  have hany : ∀ h ∈ s.responses.live,
      xs.any (·.res == h.addr) = true ↔ P h.val.guildId := by
    intro h hm
    constructor
    · intro ha
      obtain ⟨x, hx, he⟩ := List.any_eq_true.1 ha
      obtain ⟨g, hg, hxg⟩ := (hxs x).1 hx
      exact (hi.entry_spec hm hxg (by simpa using he)).1 ▸ hg
    · intro hP
      obtain ⟨x, hx, he⟩ := hi.exists_entry hm
      exact List.any_eq_true.2 ⟨x, (hxs x).2 ⟨_, hP, hx⟩, by simpa using he⟩
  have hclosed := hi.closed (q := fun h => h.alive && xs.any (·.res == h.addr))
    (fun h hq => (Bool.and_eq_true_iff.1 hq).1)
    (fun g => { s.subs g with streams := (subs g).streams }) (fun g => ?_) hguilds hg hi.cache
  · rw [endAll_eq hn hlive]
    refine hclosed.advance (fun h hm => ⟨hc _ fun hP => ?_, hp _⟩) (fun g => rfl) hcache hguilds hg
    obtain ⟨hm, ha⟩ := List.mem_filter.1 hm
    obtain ⟨h', hm', rfl⟩ := List.mem_map.1 hm
    unfold closeIf at ha hP
    split at ha
    · cases ha
    · rename_i hq
      rw [if_neg hq] at hP
      exact hq (Bool.and_eq_true_iff.2 ⟨ha, (hany h' (mem_live.2 ⟨hm', ha⟩)).2 hP⟩)
  · have hfilter : (listenersOf s g).filter (fun h => !(h.alive && xs.any (·.res == h.addr))) =
        if P g then [] else listenersOf s g := by
      have hmem : ∀ h ∈ listenersOf s g,
          (!(h.alive && xs.any (·.res == h.addr))) = !decide (P g) := by
        intro h hm
        obtain ⟨ha, hown⟩ := isOf_iff.1 (List.mem_filter.1 hm).2
        have hiff := hany h ((listenersOf_subset s g).subset hm)
        rw [hown] at hiff
        rw [ha, Bool.true_and, Bool.eq_iff_iff.2 (hiff.trans decide_eq_true_iff.symm)]
      rw [List.filter_congr hmem]
      by_cases hP : P g <;> simp [hP]
    rw [hfilter]
    change List.Forall₂ _ (subs g).streams _
    rw [hsubs]
    split
    · exact .nil
    · exact hi.entries g

theorem cacheOf_concat (g : Nat) (l : List StreamCallback) (c : StreamCallback) :
    cacheOf outside g (l ++ [c]) = match c with
      | .broadcast g' p =>
        if g' = g then checkForHeaders outside (cacheOf outside g l) p else cacheOf outside g l
      | .unsubscribe _ => cacheOf outside g l
      | .shutdown => [] := by
  rw [cacheOf, List.foldl_append]
  cases c <;> rfl

theorem unsubscribe (hi : Served outside s) (g : Nat) : Served outside
    { s.runCallback outside (.unsubscribe g) with ran := s.ran ++ [.unsubscribe g] } := by
  dsimp only [runCallback, setState]
  refine hi.ended (P := (· = g)) (hi.nodup_res g) (fun x => by simp)
    (fun g' hg => by simpa [closes] using Ne.symm hg) (fun _ => rfl) (fun g' => ?_) (fun g' => ?_)
    (fun g' hg => ?_) (nodup_addEntry hi.nodup g)
  · by_cases hg : g' = g <;> simp [hg]
  · rw [cacheOf_concat]
    by_cases hg : g' = g
    · subst hg
      simpa using hi.cache g'
    · simpa [hg] using hi.cache g'
  · obtain ⟨hne, hg⟩ := not_or.1 (mt mem_addEntry.2 hg)
    simp only [Function.update_of_ne hne]
    exact hi.guilds g' hg

theorem shutdown (hi : Served outside s) : Served outside
    { s.runCallback outside .shutdown with ran := s.ran ++ [.shutdown] } := by
  dsimp only [runCallback]
  refine hi.ended (P := fun _ => True) ?_ (fun x => ?_) (fun g hg => (hg trivial).elim)
    (fun _ => rfl) (fun g => by simp) (fun g => ?_) (fun _ _ => rfl) List.nodup_nil
  · rw [List.map_flatMap]
    refine List.nodup_flatMap.2 ⟨fun g _ => hi.nodup_res g, hi.nodup.imp fun hne a ha ha' => ?_⟩
    obtain ⟨x, hx, rfl⟩ := List.mem_map.1 ha
    obtain ⟨x', hx', he⟩ := List.mem_map.1 ha'
    obtain ⟨h, hm, hxh⟩ := List.mem_map.1 (hi.res_live hx)
    exact hne ((hi.entry_spec hm hx hxh.symm).1.symm.trans
      (hi.entry_spec hm hx' (he.trans hxh.symm)).1)
  · simp only [List.mem_flatMap, true_and]
    constructor
    · rintro ⟨g, -, hx⟩
      exact ⟨g, hx⟩
    · rintro ⟨g, hx⟩
      refine ⟨g, ?_, hx⟩
      by_contra hg
      rw [hi.guilds g hg] at hx
      cases hx
  · rw [cacheOf_concat]

/-- What a broadcast does to a response. -/
def hear (st : GuildStreamState) (p : Page) : Handle Listener → Handle Listener :=
  Handles.hit (·.res)
    (fun x => write ((if x.headersSent then [] else st.headersCache) ++ [p])) st.streams

theorem hear_eq (st : GuildStreamState) (p : Page) (h : Handle Listener) :
    ∃ pages, hear st p h = write pages h := by
  unfold hear Handles.hit
  split
  · split
    · exact ⟨[], by simp [write]⟩
    · exact ⟨_, rfl⟩
  · exact ⟨[], by simp [write]⟩

theorem stays_hear (st : GuildStreamState) (p : Page) : Handles.Stays (hear st p) where
  addr h := by
    obtain ⟨pages, he⟩ := hear_eq st p h
    rw [he, write]
  alive h ha := by
    obtain ⟨pages, he⟩ := hear_eq st p h
    rwa [he] at ha

theorem isOf_hear (st : GuildStreamState) (p : Page) (g : Nat) :
    isOf g ∘ hear st p = isOf g := by
  funext h
  obtain ⟨pages, he⟩ := hear_eq st p h
  rw [Function.comp_apply, he]
  rfl

theorem broadcast (hi : Served outside s) (g : Nat) (p : Page) : Served outside
    { s.runCallback outside (.broadcast g p) with ran := s.ran ++ [.broadcast g p] } := by
  have hloop := Handles.foldl_use (·.res)
    (fun x => write ((if x.headersSent then [] else (s.subs g).headersCache) ++ [p]))
    (fun _ => ⟨fun _ => rfl, fun _ h => h⟩) (s.subs g).streams s.responses (hi.nodup_res g)
    fun x hx => hi.res_live hx
  dsimp only [runCallback, setState]
  rw [hloop]
  exact {
    sound := hi.sound
    distinct := hi.distinct.map (stays_hear (s.subs g) p)
    entries := fun g' => by
      simp only [listenersOf, List.filter_map]
      change List.Forall₂ _ _ ((s.responses.all.filter (isOf g' ∘ hear (s.subs g) p)).map
        (hear (s.subs g) p))
      rw [isOf_hear, List.forall₂_map_right_iff]
      by_cases hg : g' = g
      · subst hg
        rw [Function.update_self, List.forall₂_map_left_iff]
        refine (hi.entries g').imp fun x h hx => ?_
        obtain ⟨pages, he⟩ := hear_eq (s.subs g') p h
        rw [he]
        exact {
          res := hx.res
          isOf := hx.isOf
          span := hx.span.append _
          stopped := hx.stopped
          sent := by
            simp only [write, StreamState.sent, true_iff]
            rw [Span.during_append_open hx.span hx.stopped, pagesOf_append]
            simp [pagesOf] }
      · rw [Function.update_of_ne hg]
        refine (hi.entries g').imp fun x h hx => ?_
        obtain ⟨pages, he⟩ := hear_eq (s.subs g) p h
        have hnext := hx.append (c := .broadcast g p) (by simp [pagesOf, Ne.symm hg])
        rw [he]
        exact ⟨hnext.res, hnext.isOf, hnext.span, hnext.stopped, hnext.sent⟩
    guilds := fun g' hg => by
      obtain ⟨hne, hg⟩ := not_or.1 (mt mem_addEntry.2 hg)
      simp only [Function.update_of_ne hne]
      exact hi.guilds g' hg
    nodup := nodup_addEntry hi.nodup g
    cache := fun g' => by
      rw [cacheOf_concat]
      by_cases hg : g' = g
      · subst hg
        simp [hi.cache g']
      · simp [hg, Ne.symm hg, hi.cache g']
    heard := fun h' hh => by
      obtain ⟨h, hm, rfl⟩ := List.mem_map.1 hh
      have hheard := hi.heard h hm
      unfold Handles.hit
      cases ha : h.alive with
      | false => exact hheard.dead ha _
      | true =>
        rw [if_pos rfl]
        have hl : h ∈ s.responses.live := mem_live.2 ⟨hm, ha⟩
        cases hf : (s.subs g).streams.find? (·.res = h.addr) with
        | none =>
          -- a response of the guild would have an entry
          have hne : g ≠ h.val.guildId := by
            rintro rfl
            obtain ⟨x, hx, he⟩ := hi.exists_entry hl
            exact List.find?_eq_none.1 hf x hx (by simpa using he)
          exact hheard.other ha rfl (by simp [pagesOf, hne])
        | some x =>
          obtain ⟨rfl, hx⟩ := hi.entry_spec hl (List.mem_of_find?_eq_some hf)
            (by simpa using List.find?_some hf)
          rw [hi.cache]
          exact hheard.page ha hx p }

theorem next (hi : Served outside s) : ∀ c : StreamCallback,
    Served outside { s.runCallback outside c with ran := s.ran ++ [c] }
  | .broadcast g p => hi.broadcast g p
  | .unsubscribe g => hi.unsubscribe g
  | .shutdown => hi.shutdown

theorem step (hi : Served outside s) {a : Action} {s' : HttpStreams}
    (h : s.step outside a = some s') : Served outside s' := by
  cases a with
  | getStream res g =>
    obtain ⟨responses, hc, rfl⟩ := Option.map_eq_some_iff.1 h
    exact hi.getStream hc
  | abort res =>
    obtain ⟨x, hf, rfl⟩ := Option.map_eq_some_iff.1 h
    exact hi.abort hf
  | defer c =>
    cases h
    exact hi.setDeferred _
  | next =>
    cases hd : s.deferred with
    | nil => simp [HttpStreams.step, hd] at h
    | cons c deferred =>
      simp only [HttpStreams.step, hd, Option.some.injEq] at h
      exact h ▸ (hi.setDeferred deferred).next c

end Served

theorem runCallback_deferred (c : StreamCallback) :
    (s.runCallback outside c).deferred = s.deferred := by
  cases c <;> rfl

/-- The callbacks run in the order in which they were deferred. -/
theorem step_posted {l : List Action} {a : Action} {s' : HttpStreams}
    (hi : s.ran ++ s.deferred = posted l) (h : s.step outside a = some s') :
    s'.ran ++ s'.deferred = posted (l ++ [a]) := by
  rw [posted, List.filterMap_append, ← posted, ← hi]
  cases a with
  | getStream res g =>
    obtain ⟨responses, -, rfl⟩ := Option.map_eq_some_iff.1 h
    simp [subscribe, setState]
  | abort res =>
    obtain ⟨x, -, rfl⟩ := Option.map_eq_some_iff.1 h
    simp [unsubscribeAborted, setState]
  | defer c =>
    cases h
    simp
  | next =>
    cases hd : s.deferred with
    | nil => simp [HttpStreams.step, hd] at h
    | cons c deferred =>
      simp only [HttpStreams.step, hd, Option.some.injEq] at h
      cases h
      simp [runCallback_deferred]

/-- **A response is used only while it is open, and is written the pages of its guild.** -/
theorem listeners_served {l : List Action} (h : run (step outside) {} l = some s) :
    s.responses.misused = false ∧
    s.ran ++ s.deferred = posted l ∧
    (∀ g, (s.subs g).streams.map (·.res) = (listenersOf s g).map (·.addr)) ∧
    ∀ x ∈ s.responses.all,
      x.val.written = toHear outside s.ran x.val ∧
      (x.alive = true → ∀ c ∈ x.val.span.during s.ran, closes x.val.guildId c = false) := by
  obtain ⟨hi, hposted⟩ : Served outside s ∧ s.ran ++ s.deferred = posted l :=
    run_history (I := fun l s => Served outside s ∧ s.ran ++ s.deferred = posted l)
      (fun _ _ _ _ hI hs => ⟨hI.1.step hs, step_posted hI.2 hs⟩) ⟨.init, rfl⟩ h
  exact ⟨hi.sound, hposted, hi.res_eq, fun x hx => ⟨(hi.heard x hx).written, (hi.heard x hx).open_⟩⟩

end

/-- One client goes away after the headers, and its address is used again for another guild. -/
def addressReused : List Action :=
  [.getStream 7 1] ++ (trackPages 1).map (fun p => .defer (.broadcast 1 p)) ++
    [.next, .next, .getStream 8 1, .abort 7, .getStream 7 2, .defer (.unsubscribe 1), .next, .next]

theorem listeners_served_addressReused :
    ∃ s, run (step fun _ => 0) {} addressReused = some s ∧
      s.responses.all.map (fun x => (x.addr, x.alive, x.val.written)) =
        [(7, false, (trackPages 1).take 2), (8, false, trackPages 1), (7, true, [])] ∧
      s.responses.misused = false ∧
      s.ran ++ s.deferred = posted addressReused ∧
      (∀ g, (s.subs g).streams.map (·.res) = (listenersOf s g).map (·.addr)) ∧
      ∀ x ∈ s.responses.all,
        x.val.written = toHear (fun _ => 0) s.ran x.val ∧
        (x.alive = true → ∀ c ∈ x.val.span.during s.ran, closes x.val.guildId c = false) := by
  obtain ⟨s, hs, hw⟩ := (Option.any_eq_true _ _).1 (by decide +kernel :
    (run (step fun _ => 0) {} addressReused).any fun s =>
      s.responses.all.map (fun x => (x.addr, x.alive, x.val.written)) =
        [(7, false, (trackPages 1).take 2), (8, false, trackPages 1), (7, true, [])])
  exact ⟨s, hs, of_decide_eq_true hw, listeners_served hs⟩

end HttpStreams

end Musicat.Server
