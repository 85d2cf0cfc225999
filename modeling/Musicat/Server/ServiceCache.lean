import Musicat.Lib.Lists
import Musicat.Lib.Run
import Musicat.Server.Json

/-!
# The service cache

`_cache` and `_timers` have a mutex each, and a function of the cache is a list
of sections, each under its mutex (`Section`). A call takes its sections one
after the other, with those of other calls in between.

Every cached key has a timer whenever no `set_cached_*` is in progress, as long
as `remove_invalidate_timer` does not take the last timer of a key that has been
cached again.
-/

namespace Musicat.Server

open Lib

/-! ## The cache and its timers -/

/-- A `std::string`. -/
abbrev Key := List Char

/-- `invalidate_timer_t`. -/
structure InvalidateTimer where
  ts : Int
  secondMaxAge : Int
  key : Key
  deriving DecidableEq

def InvalidateTimer.passed (t : InvalidateTimer) (now : Int) : Bool :=
  decide (now - t.ts > t.secondMaxAge * 1000000000)

structure CacheData where
  cache : List (Key × Json) := []
  timers : List InvalidateTimer := []

namespace CacheData

/-- `insert_or_assign`. -/
def set (key : Key) (value : Json) (d : CacheData) : CacheData :=
  { d with cache := (key, value) :: d.cache.filter (·.1 ≠ key) }

def get (key : Key) (d : CacheData) : Json :=
  (d.cache.find? (·.1 = key)).elim .null (·.2)

def remove (key : Key) (d : CacheData) : CacheData :=
  { d with cache := d.cache.filter (·.1 ≠ key) }

/-- The first timer of the key goes. -/
def removeInvalidateTimer (key : Key) (d : CacheData) : CacheData :=
  { d with timers := d.timers.eraseP (·.key = key) }

/-- What `create_invalidate_timer` does after it has removed the timer of the key. -/
def pushTimer (key : Key) (secondMaxAge now : Int) (d : CacheData) : CacheData :=
  { d with timers := d.timers ++ [⟨now, secondMaxAge, key⟩] }

end CacheData

/-- The loop of `check_timers` over `timers`, with one reading of the clock for each: the cache
and the timers left. -/
def checkTimers : (clock : Nat → Int) → (cache : List (Key × Json)) →
    (timers : List InvalidateTimer) → CacheData
  | _, cache, [] => ⟨cache, []⟩
  | clock, cache, t :: timers =>
    if t.passed (clock 0) then
      checkTimers (fun n => clock (n + 1)) ((CacheData.mk cache []).remove t.key).cache timers
    else
      let d := checkTimers (fun n => clock (n + 1)) cache timers
      { d with timers := t :: d.timers }

/-! ## Guild events -/

/-- `std::string::find`. -/
def find (pattern : Key) : Key → Option Nat
  | [] => if pattern.isEmpty then some 0 else none
  | c :: s => if pattern.isPrefixOf (c :: s) then some 0 else (find pattern s).map (· + 1)

def getUserGuilds : Key := "/get_user_guilds".toList

/-- What the handlers read of `dpp::guild`. -/
structure GuildEvent where
  id : Nat
  ownerId : Nat
  members : List Nat

section
variable (toSnowflake : Key → Nat)

/-- The key is the guild list of a member. -/
def isMembers (members : List Nat) (key : Key) : Bool :=
  match find getUserGuilds key with
  | none => false
  | some idx => members.contains (toSnowflake (key.take idx))

/-- The loop of the guild handlers over `cache`: the entries of members go, with one timer each. -/
def guildLoop (members : List Nat) :
    (cache : List (Key × Json)) → (timers : List InvalidateTimer) → CacheData
  | [], timers => ⟨[], timers⟩
  | e :: cache, timers =>
    if isMembers toSnowflake members e.1 then
      guildLoop members cache (timers.eraseP (·.key = e.1))
    else
      let d := guildLoop members cache timers
      { d with cache := e :: d.cache }

/-! ## Sections -/

/-- What is done under one lock. -/
inductive Section where
  | set (key : Key) (value : Json)
  | get (key : Key)
  | remove (key : Key)
  | removeTimer (key : Key)
  | pushTimer (key : Key) (secondMaxAge : Int)
  | checkTimers
  | guild (members : List Nat)

def Section.body (clock : Nat → Int) : Section → CacheData → CacheData
  | set key value, d => d.set key value
  | get _, d => d
  | remove key, d => d.remove key
  | removeTimer key, d => d.removeInvalidateTimer key
  | pushTimer key age, d => d.pushTimer key age (clock 0)
  | checkTimers, d => Server.checkTimers clock d.cache d.timers
  | guild members, d => guildLoop toSnowflake members d.cache d.timers

/-- What the call returns once `x` is done: `get` returns what it finds. -/
def Section.returned (d : CacheData) (returned : Json) : Section → Json
  | get key => d.get key
  | _ => returned

end

def createInvalidateTimer (key : Key) (secondMaxAge : Int) : List Section :=
  [.removeTimer key, .pushTimer key secondMaxAge]

/-- `snowflake::str`. -/
def str (id : Nat) : Key := Nat.toDigits 10 id

def getCachedUserAuth (userId : Key) : List Section := [.get (userId ++ "/auth".toList)]

def setCachedUserAuth (userId : Key) (data : Json) : List Section :=
  .set (userId ++ "/auth".toList) data :: createInvalidateTimer (userId ++ "/auth".toList) 300

def removeCachedUserAuth (userId : Key) : List Section := [.remove (userId ++ "/auth".toList)]

def getCachedUserGuilds (userId : Key) : List Section := [.get (userId ++ getUserGuilds)]

def setCachedUserGuilds (userId : Key) (data : Json) : List Section :=
  .set (userId ++ getUserGuilds) data :: createInvalidateTimer (userId ++ getUserGuilds) 86400

def removeCachedUserGuilds (userId : Key) : List Section :=
  [.remove (userId ++ getUserGuilds), .removeTimer (userId ++ getUserGuilds)]

def getCachedMusicatDetailedUser (shaId : Nat) : List Section :=
  if shaId = 0 then [] else [.get (str shaId ++ "/detailed_user".toList)]

def setCachedMusicatDetailedUser (shaId : Nat) (data : Json) : List Section :=
  if shaId = 0 then []
  else
    .set (str shaId ++ "/detailed_user".toList) data ::
      createInvalidateTimer (str shaId ++ "/detailed_user".toList) 3600

def handleGuildCreate (e : GuildEvent) : List Section :=
  if e.id = 0 ∨ e.ownerId = 0 then []
  else removeCachedUserGuilds (str e.ownerId) ++ [.guild e.members]

def handleGuildDelete (e : GuildEvent) : List Section :=
  if e.ownerId = 0 then []
  else removeCachedUserGuilds (str e.ownerId) ++ [.guild e.members]

/-- The functions of the cache. -/
inductive CacheCall where
  | getCachedUserAuth (userId : Key)
  | setCachedUserAuth (userId : Key) (data : Json)
  | removeCachedUserAuth (userId : Key)
  | getCachedUserGuilds (userId : Key)
  | setCachedUserGuilds (userId : Key) (data : Json)
  | removeCachedUserGuilds (userId : Key)
  | getCachedMusicatDetailedUser (shaId : Nat)
  | setCachedMusicatDetailedUser (shaId : Nat) (data : Json)
  | handleGuildCreate (e : GuildEvent)
  | handleGuildDelete (e : GuildEvent)
  | checkTimers

def CacheCall.sections : CacheCall → List Section
  | getCachedUserAuth userId => Server.getCachedUserAuth userId
  | setCachedUserAuth userId data => Server.setCachedUserAuth userId data
  | removeCachedUserAuth userId => Server.removeCachedUserAuth userId
  | getCachedUserGuilds userId => Server.getCachedUserGuilds userId
  | setCachedUserGuilds userId data => Server.setCachedUserGuilds userId data
  | removeCachedUserGuilds userId => Server.removeCachedUserGuilds userId
  | getCachedMusicatDetailedUser shaId => Server.getCachedMusicatDetailedUser shaId
  | setCachedMusicatDetailedUser shaId data => Server.setCachedMusicatDetailedUser shaId data
  | handleGuildCreate e => Server.handleGuildCreate e
  | handleGuildDelete e => Server.handleGuildDelete e
  | checkTimers => [.checkTimers]

/-- A call: the sections it has yet to take, and what it returns. -/
structure CacheRun where
  todo : List Section
  returned : Json := .null

structure ServiceCache where
  data : CacheData := {}
  calls : List CacheRun := []

inductive CacheAction where
  | call (c : CacheCall)
  /-- Call `i` takes its next section. -/
  | go (i : Nat) (clock : Nat → Int)

def cacheStep (toSnowflake : Key → Nat) (s : ServiceCache) : CacheAction → Option ServiceCache
  | .call c => some { s with calls := s.calls ++ [⟨c.sections, .null⟩] }
  | .go i clock =>
    match s.calls[i]? with
    | some ⟨x :: todo, r⟩ =>
      some ⟨x.body toSnowflake clock s.data, s.calls.set i ⟨todo, x.returned s.data r⟩⟩
    | _ => none

/-! ## Entries with a timer -/

/-- Every cached key has a timer, or is one of `Q`. -/
def Covered (Q : Key → Prop) (d : CacheData) : Prop :=
  ∀ e ∈ d.cache, (∃ t ∈ d.timers, t.key = e.1) ∨ Q e.1

namespace Covered

variable {Q : Key → Prop} {d : CacheData}

theorem mono {Q' : Key → Prop} (h : Covered Q d) (hq : ∀ k, Q k → Q' k) : Covered Q' d :=
  fun e he => (h e he).imp_right (hq e.1)

theorem set (h : Covered Q d) {key : Key} (hq : Q key) (value : Json) :
    Covered Q (d.set key value) := by
  intro e he
  rcases List.mem_cons.1 he with rfl | he
  · exact .inr hq
  · exact h e (List.mem_of_mem_filter he)

theorem remove (h : Covered Q d) (key : Key) : Covered Q (d.remove key) :=
  fun e he => h e (List.mem_of_mem_filter he)

theorem pushTimer {key : Key} (h : Covered (fun k => Q k ∨ k = key) d) (age now : Int) :
    Covered Q (d.pushTimer key age now) := by
  intro e he
  rcases h e he with ⟨t, ht, hk⟩ | hq | hk
  · exact .inl ⟨t, List.mem_append_left _ ht, hk⟩
  · exact .inr hq
  · exact .inl ⟨⟨now, age, key⟩, List.mem_append_right _ (List.mem_singleton_self _), hk.symm⟩

/-- **One timer of `key` may go** when the key is not cached, has a second timer or is in `Q`. -/
theorem removeInvalidateTimer (h : Covered Q d) {key : Key}
    (hkey : (∀ e ∈ d.cache, e.1 ≠ key) ∨ 1 < d.timers.countP (·.key = key) ∨ Q key) :
    Covered Q (d.removeInvalidateTimer key) := by
  intro e he
  by_cases hk : e.1 = key
  · subst hk
    rcases hkey with hkey | hkey | hq
    · exact absurd rfl (hkey e he)
    · refine .inl ?_
      have hpos : 0 < (d.timers.eraseP (·.key = e.1)).countP (·.key = e.1) := by
        rw [countP_eraseP]
        omega
      obtain ⟨t, ht, htk⟩ := List.countP_pos_iff.1 hpos
      exact ⟨t, ht, of_decide_eq_true htk⟩
    · exact .inr hq
  · refine (h e he).imp_left fun ⟨t, ht, htk⟩ => ⟨t, mem_eraseP_of_key_ne ht ?_, htk⟩
    rwa [htk]

/-- The sweep takes the entry of each timer it takes. -/
theorem checkTimers {clock : Nat → Int} {timers : List InvalidateTimer} :
    ∀ {cache : List (Key × Json)}, Covered Q ⟨cache, timers⟩ →
      Covered Q (checkTimers clock cache timers) := by
  suffices hspec : ∀ (cache : List (Key × Json)) (clock : Nat → Int),
      (∀ e ∈ (Server.checkTimers clock cache timers).cache, e ∈ cache) ∧
      ∀ t ∈ timers, t ∈ (Server.checkTimers clock cache timers).timers ∨
        ∀ e ∈ (Server.checkTimers clock cache timers).cache, e.1 ≠ t.key by
    intro cache h e he
    refine (h e ((hspec cache clock).1 e he)).imp_left fun ⟨t, ht, hk⟩ => ?_
    exact ⟨t, ((hspec cache clock).2 t ht).resolve_right fun hne => hne e he hk.symm, hk⟩
  induction timers with
  | nil => exact fun cache clock => ⟨fun e he => he, nofun⟩
  | cons t timers ih =>
    intro cache clock
    simp only [Server.checkTimers]
    split
    · obtain ⟨hsub, htimers⟩ := ih ((CacheData.mk cache []).remove t.key).cache
        fun n => clock (n + 1)
      refine ⟨fun e he => List.mem_of_mem_filter (hsub e he), fun t' ht' => ?_⟩
      rcases List.mem_cons.1 ht' with rfl | ht'
      · exact .inr fun e he => by simpa using List.of_mem_filter (hsub e he)
      · exact htimers t' ht'
    · obtain ⟨hsub, htimers⟩ := ih cache fun n => clock (n + 1)
      refine ⟨hsub, fun t' ht' => ?_⟩
      rcases List.mem_cons.1 ht' with rfl | ht'
      · exact .inl List.mem_cons_self
      · exact (htimers t' ht').imp_left (List.mem_cons_of_mem t)

/-- The loop of a guild handler takes timers of the entries it takes only. -/
theorem guildLoop {toSnowflake : Key → Nat} {members : List Nat} {cache : List (Key × Json)}
    {timers : List InvalidateTimer} (h : Covered Q ⟨cache, timers⟩) :
    Covered Q (guildLoop toSnowflake members cache timers) := by
  suffices hspec : ∀ timers,
      (∀ e ∈ (Server.guildLoop toSnowflake members cache timers).cache,
        e ∈ cache ∧ isMembers toSnowflake members e.1 = false) ∧
      ∀ t ∈ timers, isMembers toSnowflake members t.key = false →
        t ∈ (Server.guildLoop toSnowflake members cache timers).timers by
    intro e he
    obtain ⟨hmem, hm⟩ := (hspec timers).1 e he
    exact (h e hmem).imp_left fun ⟨t, ht, hk⟩ => ⟨t, (hspec timers).2 t ht (hk ▸ hm), hk⟩
  clear h
  induction cache with
  | nil => exact fun timers => ⟨nofun, fun t ht _ => ht⟩
  | cons e₀ cache ih =>
    intro timers
    simp only [Server.guildLoop]
    split
    · rename_i hm
      obtain ⟨hsub, htimers⟩ := ih (timers.eraseP (·.key = e₀.1))
      refine ⟨fun e he => ⟨List.mem_cons_of_mem _ (hsub e he).1, (hsub e he).2⟩,
        fun t ht hk => htimers t (mem_eraseP_of_key_ne ht fun heq => ?_) hk⟩
      rw [heq, hm] at hk
      cases hk
    · rename_i hm
      obtain ⟨hsub, htimers⟩ := ih timers
      refine ⟨fun e he => ?_, htimers⟩
      rcases List.mem_cons.1 he with rfl | he
      · exact ⟨List.mem_cons_self, by simpa using hm⟩
      · exact ⟨List.mem_cons_of_mem _ (hsub e he).1, (hsub e he).2⟩

end Covered

/-! ## Calls that have yet to push a timer -/

/-- The sections push a timer for `key`. -/
def pushes (key : Key) (l : List Section) : Bool :=
  l.any fun
    | .pushTimer k _ => k = key
    | _ => false

/-- Every `set` is followed by a timer for its key. -/
def setsPush : List Section → Bool
  | [] => true
  | .set key _ :: l => pushes key l && setsPush l
  | _ :: l => setsPush l

theorem setsPush_sections (c : CacheCall) : setsPush c.sections := by
  cases c with
  | getCachedUserAuth | removeCachedUserAuth | getCachedUserGuilds | removeCachedUserGuilds
  | checkTimers => rfl
  | setCachedUserAuth | setCachedUserGuilds =>
    simp [CacheCall.sections, setCachedUserAuth, setCachedUserGuilds, createInvalidateTimer,
      setsPush, pushes]
  | getCachedMusicatDetailedUser shaId =>
    simp only [CacheCall.sections, getCachedMusicatDetailedUser]
    split <;> rfl
  | setCachedMusicatDetailedUser shaId data =>
    simp only [CacheCall.sections, setCachedMusicatDetailedUser]
    split
    · rfl
    · simp [createInvalidateTimer, setsPush, pushes]
  | handleGuildCreate e =>
    simp only [CacheCall.sections, handleGuildCreate]
    split <;> rfl
  | handleGuildDelete e =>
    simp only [CacheCall.sections, handleGuildDelete]
    split <;> rfl

theorem setsPush_tail {x : Section} {l : List Section} (h : setsPush (x :: l)) : setsPush l := by
  cases x with
  | set key value => exact ((Bool.and_eq_true _ _).mp h).2
  | _ => exact h

/-- **One section**, when the keys of `Q` get their timer in it or are in `Q'`. -/
theorem Covered.body {toSnowflake : Key → Nat} {clock : Nat → Int} {Q Q' : Key → Prop}
    {d : CacheData} {x : Section} (h : Covered Q d)
    (hq : ∀ k, Q k → Q' k ∨ pushes k [x])
    (hset : ∀ k v, x = .set k v → Q' k)
    (hremove : ∀ k, x = .removeTimer k →
      (∀ e ∈ d.cache, e.1 ≠ k) ∨ 1 < d.timers.countP (·.key = k) ∨ Q k) :
    Covered Q' (x.body toSnowflake clock d) := by
  cases x with
  | set key value => exact (h.mono fun k hk => by simpa [pushes] using hq k hk).set (hset _ _ rfl) _
  | get key => exact h.mono fun k hk => by simpa [pushes] using hq k hk
  | remove key => exact (h.mono fun k hk => by simpa [pushes] using hq k hk).remove key
  | removeTimer key =>
    have hmono : ∀ k, Q k → Q' k := fun k hk => by simpa [pushes] using hq k hk
    exact (h.mono hmono).removeInvalidateTimer ((hremove key rfl).imp_right
      (Or.imp_right (hmono key)))
  | pushTimer key age =>
    refine Covered.pushTimer (h.mono fun k hk => (hq k hk).imp_right fun hp => ?_) _ _
    simpa [pushes, eq_comm] using hp
  | checkTimers => exact (h.mono fun k hk => by simpa [pushes] using hq k hk).checkTimers
  | guild members => exact (h.mono fun k hk => by simpa [pushes] using hq k hk).guildLoop

namespace ServiceCache

/-- A call has yet to push a timer for `key`. -/
def pending (s : ServiceCache) (key : Key) : Bool := s.calls.any fun c => pushes key c.todo

/-- A `set_cached_*` is in progress. -/
def setting (s : ServiceCache) : Bool :=
  s.calls.any fun c => c.todo.any fun
    | .pushTimer _ _ => true
    | _ => false

/-- `remove_invalidate_timer` leaves a timer, unless the key is not cached or a timer for it is
still to come. -/
def LeavesTimer (s : ServiceCache) : CacheAction → Prop
  | .go i _ =>
    match s.calls[i]? with
    | some ⟨.removeTimer key :: _, _⟩ =>
      (∀ e ∈ s.data.cache, e.1 ≠ key) ∨ 1 < s.data.timers.countP (·.key = key) ∨ s.pending key
    | _ => True
  | _ => True

instance (s : ServiceCache) (a : CacheAction) : Decidable (s.LeavesTimer a) :=
  match a with
  | .go i _ =>
    match h : s.calls[i]? with
    | some ⟨.removeTimer key :: _, _⟩ => decidable_of_iff
        ((∀ e ∈ s.data.cache, e.1 ≠ key) ∨ 1 < s.data.timers.countP (·.key = key) ∨ s.pending key)
        (by simp only [LeavesTimer, h])
    | none => isTrue (by simp only [LeavesTimer, h])
    | some ⟨[], _⟩ => isTrue (by simp only [LeavesTimer, h])
    | some ⟨.set _ _ :: _, _⟩ => isTrue (by simp only [LeavesTimer, h])
    | some ⟨.get _ :: _, _⟩ => isTrue (by simp only [LeavesTimer, h])
    | some ⟨.remove _ :: _, _⟩ => isTrue (by simp only [LeavesTimer, h])
    | some ⟨.pushTimer _ _ :: _, _⟩ => isTrue (by simp only [LeavesTimer, h])
    | some ⟨.checkTimers :: _, _⟩ => isTrue (by simp only [LeavesTimer, h])
    | some ⟨.guild _ :: _, _⟩ => isTrue (by simp only [LeavesTimer, h])
  | .call _ => isTrue trivial

/-! ## Along steps that leave a timer -/

structure ExpiryInv (s : ServiceCache) : Prop where
  calls : ∀ c ∈ s.calls, setsPush c.todo
  covered : Covered (fun k => s.pending k) s.data

theorem expiryInv_init : ExpiryInv {} := ⟨nofun, nofun⟩

/-- A key that waits for a timer gets it in the step or goes on waiting. -/
theorem pending_set {s : ServiceCache} {i : Nat} {x : Section} {todo : List Section} {r r' : Json}
    {data : CacheData} (hi : s.calls[i]? = some ⟨x :: todo, r⟩) {key : Key} (h : s.pending key) :
    (⟨data, s.calls.set i ⟨todo, r'⟩⟩ : ServiceCache).pending key ∨ pushes key [x] := by
  obtain ⟨c, hc, hp⟩ := List.any_eq_true.1 h
  obtain ⟨j, hj⟩ := List.getElem?_of_mem hc
  by_cases hij : i = j
  · subst hij
    rw [hi] at hj
    cases hj
    simp only [pushes, List.any_cons, Bool.or_eq_true] at hp
    refine hp.symm.imp (fun hp => ?_) fun hp => by simpa [pushes] using hp
    exact List.any_eq_true.2 ⟨_, List.mem_of_getElem? (List.getElem?_set_self
      (List.getElem?_eq_some_iff.1 hi).1), hp⟩
  · refine .inl (List.any_eq_true.2 ⟨c, List.mem_of_getElem? (i := j) ?_, hp⟩)
    rw [List.getElem?_set_ne hij, hj]

theorem ExpiryInv.step {toSnowflake : Key → Nat} {s s' : ServiceCache} {a : CacheAction}
    (hi : s.ExpiryInv) (ha : s.LeavesTimer a) (h : cacheStep toSnowflake s a = some s') :
    s'.ExpiryInv := by
  cases a with
  | call c =>
    cases h
    refine ⟨fun c' hc' => ?_, hi.covered.mono fun k hk => ?_⟩
    · rcases List.mem_append.1 hc' with hc' | hc'
      · exact hi.calls c' hc'
      · rw [List.mem_singleton.1 hc']
        exact setsPush_sections c
    · simp only [pending, List.any_append] at hk ⊢
      simp [hk]
  | go i clock =>
    simp only [cacheStep] at h
    split at h
    · rename_i x todo r hx
      cases h
      have hmem := List.mem_of_getElem? hx
      refine ⟨fun c hc => ?_, hi.covered.body (fun k hk => pending_set hx hk) ?_ ?_⟩
      · rcases List.mem_or_eq_of_mem_set hc with hc | rfl
        · exact hi.calls c hc
        · exact setsPush_tail (hi.calls _ hmem)
      · rintro k v rfl
        refine List.any_eq_true.2 ⟨_, List.mem_of_getElem? (List.getElem?_set_self
          (List.getElem?_eq_some_iff.1 hx).1), ?_⟩
        exact ((Bool.and_eq_true _ _).mp (hi.calls _ hmem)).1
      · rintro k rfl
        simpa only [LeavesTimer, hx] using ha
    · cases h

/-- **Every cached response has an expiry** when no `set_cached_*` is in progress, in a run in
which each `remove_invalidate_timer` leaves a timer. -/
theorem cached_has_timer {toSnowflake : Key → Nat} {l : List CacheAction} {s : ServiceCache}
    (hl : Along (cacheStep toSnowflake) LeavesTimer {} l)
    (h : run (cacheStep toSnowflake) {} l = some s) (hset : s.setting = false) :
    ∀ e ∈ s.data.cache, ∃ t ∈ s.data.timers, t.key = e.1 := by
  have hi : s.ExpiryInv := run_inv (fun _ _ _ hi ha hs => hi.step ha hs) expiryInv_init hl h
  intro e he
  refine (hi.covered e he).resolve_right fun hp => ?_
  obtain ⟨c, hc, hp⟩ := List.any_eq_true.1 hp
  obtain ⟨x, hx, hk⟩ := List.any_eq_true.1 hp
  have : s.setting = true := by
    refine List.any_eq_true.2 ⟨c, hc, List.any_eq_true.2 ⟨x, hx, ?_⟩⟩
    cases x with
    | pushTimer => rfl
    | _ => cases hk
  rw [hset] at this
  cases this

/-- The guild list of a user is cached, removed and cached again; the removal takes its second
section before the new timer is pushed. -/
def removedBefore : List CacheAction :=
  [.call (.setCachedUserGuilds ['7'] .null), .go 0 fun _ => 1, .go 0 fun _ => 1, .go 0 fun _ => 1,
    .call (.removeCachedUserGuilds ['7']), .call (.setCachedUserGuilds ['7'] .null),
    .go 1 fun _ => 2, .go 2 fun _ => 2, .go 1 fun _ => 2, .go 2 fun _ => 2, .go 2 fun _ => 2]

theorem cached_has_timer_removedBefore :
    ∃ s, run (cacheStep fun _ => 0) {} removedBefore = some s ∧
      ∀ e ∈ s.data.cache, ∃ t ∈ s.data.timers, t.key = e.1 :=
  ⟨_, rfl, @cached_has_timer (fun _ => 0) removedBefore _ (by decide) rfl (by decide)⟩

/-- The same with the removal's second section last. -/
def removedAfter : List CacheAction :=
  [.call (.setCachedUserGuilds ['7'] .null), .go 0 fun _ => 1, .go 0 fun _ => 1, .go 0 fun _ => 1,
    .call (.removeCachedUserGuilds ['7']), .call (.setCachedUserGuilds ['7'] .null),
    .go 1 fun _ => 2, .go 2 fun _ => 2, .go 2 fun _ => 2, .go 2 fun _ => 2, .go 1 fun _ => 2]

theorem cached_without_timer :
    ∃ s, run (cacheStep fun _ => 0) {} removedAfter = some s ∧ s.setting = false ∧
      ∃ e ∈ s.data.cache, ∀ t ∈ s.data.timers, t.key ≠ e.1 :=
  ⟨_, rfl, by decide, by decide⟩

end ServiceCache

end Musicat.Server
