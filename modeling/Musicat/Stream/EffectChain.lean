import Musicat.Stream.Context
import Musicat.Stream.NoLoss

/-!
# A filter chain that fails

A stream thread calls `run` of the context it is at, and each call may find that
the effects of the player have changed: then `handle_effect_chain_change` sets
up another filter chain, and throws when that fails. On the scheduler's threads
this module puts what a call of `run` and the `need_handler` after it do. No
frame from `handle_effect_chain_change` to the thread's function catches.
-/

namespace Musicat.Stream

open Lib Player GuildPlayer

/-! ## State -/

/-- A `stream_ctx`, and the filter description of its decoder. -/
structure CtxState where
  ctx : StreamCtx
  filterDescr : String
  deriving DecidableEq

structure StreamSystem where
  sched : Sched
  player : Nat → Option GuildPlayer
  /-- `get_filter_descr` of a player, from its effects. -/
  filterDescr : Nat → String
  /-- The contexts by their addresses. -/
  ctx : Nat → CtxState
  /-- The guilds whose voice client got a marker `"e"`. -/
  markers : List Nat := []
  /-- `std::terminate` was called. -/
  terminated : Bool := false

/-- What a call of `run` and of `need_handler` behind it meet. -/
structure TurnEnv where
  /-- `get_running_state`. -/
  running : Bool := true
  waitingVcReady : Bool := false
  /-- There is a voice client, and it is not terminating. -/
  voiceClient : Bool := true
  initFilters : Int := 0
  /-- What `run` returns behind the effect chain: -1 at the end of the track, or when sending
  fails. -/
  frames : Int := 0
  waitingVcReadyAfter : Bool := false
  voiceClientAfter : Bool := true
  /-- The voice client has enough in its buffer. -/
  buffered : Bool := true
  deriving DecidableEq

namespace StreamSystem

def setPlayer (s : StreamSystem) (guildId : Nat) (p : Option GuildPlayer) : StreamSystem :=
  { s with player := Function.update s.player guildId p }

def setCtx (s : StreamSystem) (c : Nat) (x : CtxState) : StreamSystem :=
  { s with ctx := Function.update s.ctx c x }

end StreamSystem

/-! ## A turn -/

/-- `handle_effect_chain_change`: the decoder's description, the player, and the code thrown. -/
def handleEffectChainChange (newDescr : String) (initFilters : Int) (descr : String)
    (p : GuildPlayer) : String × GuildPlayer × Option Int :=
  let filterQueried := newDescr != descr
  let seekQueried := !p.currentTrack.seekTo.isEmpty
  let descr := if filterQueried then newDescr else descr
  if filterQueried && initFilters < 0 then (descr, p, some 2)
  else
    let p :=
      if seekQueried then
        resetFirstTrackCurrentByte { p with currentTrack := { p.currentTrack with seekTo := "" } }
      else p
    (descr, p, none)

/-- `stream_ctx::run`: what it returns, or the code that leaves it. -/
def StreamSystem.runCtx (c : Nat) (env : TurnEnv) (s : StreamSystem) :
    StreamSystem × Except Int Int :=
  let x := s.ctx c
  if x.ctx.ended then (s, .ok (-1))
  else
    match s.player x.ctx.guildId with
    | none => (s, .ok (-1))
    | some p =>
      let x := { x with
        ctx := { x.ctx with runningState := env.running, isStopping := p.stopping } }
      let s := s.setCtx c x
      if !env.running || p.stopping then (s, .ok (-1))
      else if env.waitingVcReady then (s, .ok 0)
      else if !env.voiceClient then (s, .ok (-1))
      else
        let (descr, p, thrown) := handleEffectChainChange (s.filterDescr x.ctx.guildId)
          env.initFilters x.filterDescr p
        let s := (s.setCtx c { x with filterDescr := descr }).setPlayer x.ctx.guildId (some p)
        match thrown with
        | some e => (s, .error e)
        | none => (s, .ok env.frames)

/-- `stream_ctx::need_handler`. -/
def StreamSystem.needHandler (c : Nat) (env : TurnEnv) (s : StreamSystem) : Int :=
  let x := s.ctx c
  if x.ctx.ended then -1
  else if (s.player x.ctx.guildId).isNone then -1
  else if env.waitingVcReadyAfter then 0
  else if !env.voiceClientAfter then -1
  else if env.buffered then 0
  else 1

/-- The body of the loop over `processing_ctxs`, once, for thread `i` at context `c`. -/
def StreamSystem.turn (i c : Nat) (env : TurnEnv) (s : StreamSystem) : Option StreamSystem :=
  match s.runCtx c env with
  -- nobody catches: the code leaves `stream_thread_t::run` and the thread's function
  | (s, .error _) => some { s with terminated := true }
  | (s, .ok ret) =>
    if ret = 0 then
      if s.needHandler c env ≠ 0 then some s
      else (schedStep s.sched (.runYield i)).map fun sched => { s with sched }
    else
      let x := s.ctx c
      let guildPlayer := s.player x.ctx.guildId
      (schedStep s.sched (.runEnd i)).map fun sched =>
        { s with
          sched
          player := (x.ctx.end' env.voiceClientAfter ⟨s.player, []⟩).player
          ctx := Function.update s.ctx c { x with ctx := { x.ctx with ended := true } }
          markers :=
            if guildPlayer.isSome && env.voiceClientAfter then s.markers ++ [x.ctx.guildId]
            else s.markers }

inductive StreamAction where
  /-- Another part of the program changes a player, makes or deletes it. -/
  | player (guildId : Nat) (p : Option GuildPlayer)
  /-- The effects of a player are changed. -/
  | setFx (guildId : Nat) (descr : String)
  /-- `submit_stream_ctx`, whose `init` succeeds. -/
  | submit (guildId : Nat)
  | checkStart
  | check (need : Bool)
  | take (i : Nat)
  | wake (i : Nat)
  /-- Thread `i` calls `run` of the context it is at. -/
  | run (i : Nat) (env : TurnEnv)
  | clear (i : Nat)

/-- A step of the scheduler that calls no `run`. -/
def StreamSystem.withSched (s : StreamSystem) (a : SchedAction) : Option StreamSystem :=
  (schedStep s.sched a).map fun sched => { s with sched }

def streamStep (s : StreamSystem) (a : StreamAction) : Option StreamSystem :=
  if s.terminated then none
  else
    match a with
    | .player g p => some (s.setPlayer g p)
    | .setFx g descr => some { s with filterDescr := Function.update s.filterDescr g descr }
    | .submit g =>
      (s.withSched (.submit g)).map fun s' =>
        -- the address is used when the guild had no context
        s'.setCtx s.sched.fresh ⟨{ guildId := g, ended := false }, s.filterDescr g⟩
    | .checkStart => s.withSched .checkStart
    | .check need => s.withSched (.check need)
    | .take i => s.withSched (.take i)
    | .wake i => s.withSched (.wake i)
    | .run i env => (s.sched.threads[i]?.bind (·.processing.head?)).bind fun c => s.turn i c env
    | .clear i => s.withSched (.clear i)

/-- `count` threads, the players and their effects, and no context. -/
def StreamSystem.init (count : Nat) (player : Nat → Option GuildPlayer)
    (filterDescr : Nat → String) : StreamSystem :=
  { sched := Sched.init count, player, filterDescr, ctx := fun _ => ⟨{ guildId := 0 }, ""⟩ }

namespace StreamSystem

variable {s s' : StreamSystem} {i c : Nat} {env : TurnEnv}

/-! ## What `run` does -/

/-- The call of `run` gets to the effect chain, finds new effects, and cannot set them up. -/
structure ChainFails (s : StreamSystem) (c : Nat) (env : TurnEnv) (p : GuildPlayer) : Prop where
  live : (s.ctx c).ctx.ended = false
  player : s.player (s.ctx c).ctx.guildId = some p
  running : env.running = true
  notStopping : p.stopping = false
  vcReady : env.waitingVcReady = false
  voiceClient : env.voiceClient = true
  filterQueried : s.filterDescr (s.ctx c).ctx.guildId ≠ (s.ctx c).filterDescr
  initFilters : env.initFilters < 0

theorem handleEffectChainChange_throws {newDescr descr : String} {initFilters : Int}
    {p : GuildPlayer} :
    (handleEffectChainChange newDescr initFilters descr p).2.2 ≠ none ↔
      newDescr ≠ descr ∧ initFilters < 0 := by
  unfold handleEffectChainChange
  simp only
  split <;> simp_all

/-- The contexts of `s` are those of `t`: of the same guilds, and no other has ended. -/
def SameCtxs (s t : StreamSystem) : Prop :=
  ∀ k, (t.ctx k).ctx.guildId = (s.ctx k).ctx.guildId ∧ (t.ctx k).ctx.ended = (s.ctx k).ctx.ended

theorem SameCtxs.setCtx (h : SameCtxs s t) {x : CtxState}
    (hg : x.ctx.guildId = (s.ctx c).ctx.guildId) (he : x.ctx.ended = (s.ctx c).ctx.ended) :
    SameCtxs s (t.setCtx c x) := by
  intro k
  simp only [StreamSystem.setCtx, Function.update_apply]
  split
  · rename_i hk
    exact hk ▸ ⟨hg, he⟩
  · exact h k

theorem SameCtxs.setPlayer (h : SameCtxs s t) {g : Nat} {p : Option GuildPlayer} :
    SameCtxs s (t.setPlayer g p) := h

theorem SameCtxs.refl (s : StreamSystem) : SameCtxs s s := fun _ => ⟨rfl, rfl⟩

/-- `run` changes nothing but the player and what the context holds. -/
theorem runCtx_frame (c : Nat) (env : TurnEnv) (s : StreamSystem) :
    (s.runCtx c env).1.sched = s.sched ∧ (s.runCtx c env).1.terminated = s.terminated ∧
      SameCtxs s (s.runCtx c env).1 := by
  have hrefl := SameCtxs.refl s
  unfold runCtx
  simp only
  split
  · exact ⟨rfl, rfl, hrefl⟩
  split
  · exact ⟨rfl, rfl, hrefl⟩
  split
  · exact ⟨rfl, rfl, hrefl.setCtx rfl rfl⟩
  split
  · exact ⟨rfl, rfl, hrefl.setCtx rfl rfl⟩
  split
  · exact ⟨rfl, rfl, hrefl.setCtx rfl rfl⟩
  split
  · refine ⟨rfl, rfl, .setPlayer (.setCtx (.setCtx hrefl ?_ ?_) ?_ ?_)⟩ <;> rfl
  · refine ⟨rfl, rfl, .setPlayer (.setCtx (.setCtx hrefl ?_ ?_) ?_ ?_)⟩ <;> rfl

/-- **`run` throws exactly when a filter chain fails.** -/
theorem runCtx_throws :
    (∃ e, (s.runCtx c env).2 = .error e) ↔ ∃ p, s.ChainFails c env p := by
  constructor
  · rintro ⟨e, h⟩
    unfold runCtx at h
    simp only at h
    split at h
    · cases h
    rename_i hlive
    split at h
    · cases h
    rename_i p hp
    split at h
    · cases h
    rename_i hrun
    split at h
    · cases h
    rename_i hvc
    split at h
    · cases h
    rename_i hvoice
    split at h
    · rename_i hthrown
      obtain ⟨hnew, hinit⟩ := handleEffectChainChange_throws.1 (by rw [hthrown]; nofun)
      obtain ⟨hrunning, hstop⟩ : env.running = true ∧ p.stopping = false := by simpa using hrun
      exact ⟨p, by simpa using hlive, hp, hrunning, hstop, by simpa using hvc,
        by simpa using hvoice, hnew, hinit⟩
    · cases h
  · rintro ⟨p, h⟩
    refine ⟨2, ?_⟩
    have hthrown : (handleEffectChainChange (s.filterDescr (s.ctx c).ctx.guildId) env.initFilters
        (s.ctx c).filterDescr p).2.2 = some 2 := by
      simp [handleEffectChainChange, h.filterQueried, h.initFilters]
    simp [runCtx, h.live, h.player, h.running, h.notStopping, h.vcReady, h.voiceClient, setCtx,
      hthrown]
/-! ## What a turn does -/

/-- The effect of a turn of thread `i`, which is at `c` and has `rest` behind it. -/
inductive TurnEffect (s : StreamSystem) (i c : Nat) (th : StreamThread) (rest : List Nat)
    (env : TurnEnv) (s' : StreamSystem) : Prop where
  | throws (e : Int) (u : StreamSystem) (run : s.runCtx c env = (u, .error e))
      (after : s' = { u with terminated := true })
  | again (u : StreamSystem) (run : s.runCtx c env = (u, .ok 0)) (after : s' = u)
  | yields (u : StreamSystem) (run : s.runCtx c env = (u, .ok 0))
      (step : schedStep s.sched (.runYield i) = some s'.sched)
      (sched : s'.sched = (s.sched.setThread i
        { th with finished := th.finished ++ [c], processing := rest }).setHandled c false)
      (ctx : s'.ctx = u.ctx) (terminated : s'.terminated = u.terminated)
  | ends (ret : Int) (u : StreamSystem) (x : Ctx) (run : s.runCtx c env = (u, .ok ret))
      (step : schedStep s.sched (.runEnd i) = some s'.sched)
      (mem : x ∈ s.sched.streamCtxs) (ptr : x.ptr = c)
      (sched : s'.sched = { s.sched.setThread i
          { th with finished := th.finished ++ [c], processing := rest } with
        streamCtxs := s.sched.streamCtxs.eraseP (·.guildId = x.guildId) })
      (player : s'.player = ((u.ctx c).ctx.end' env.voiceClientAfter ⟨u.player, []⟩).player)
      (ctx : s'.ctx = Function.update u.ctx c
        { u.ctx c with ctx := { (u.ctx c).ctx with ended := true } })
      (terminated : s'.terminated = u.terminated)

theorem schedStep_runYield {u u' : Sched} {th : StreamThread} {rest : List Nat}
    (ht : u.threads[i]? = some th) (hp : th.processing = c :: rest)
    (h : schedStep u (.runYield i) = some u') :
    u' = (u.setThread i
      { th with finished := th.finished ++ [c], processing := rest }).setHandled c false := by
  obtain ⟨t, d, r, ht', hp', -, rfl⟩ := runYield_eq h
  obtain rfl := Option.some.inj (ht.symm.trans ht')
  cases hp.symm.trans hp'
  rfl

theorem schedStep_runEnd {u u' : Sched} {th : StreamThread} {rest : List Nat}
    (ht : u.threads[i]? = some th) (hp : th.processing = c :: rest)
    (h : schedStep u (.runEnd i) = some u') :
    ∃ x ∈ u.streamCtxs, x.ptr = c ∧
      u' = { u.setThread i { th with finished := th.finished ++ [c], processing := rest } with
        streamCtxs := u.streamCtxs.eraseP (·.guildId = x.guildId) } := by
  obtain ⟨t, r, x, ht', hp', -, hx, rfl⟩ := runEnd_eq h
  obtain rfl := Option.some.inj (ht.symm.trans ht')
  cases hp.symm.trans hp'
  exact ⟨x, List.mem_of_find?_eq_some hx, rfl, rfl⟩

theorem turn_effect {th : StreamThread} {rest : List Nat} (ht : s.sched.threads[i]? = some th)
    (hp : th.processing = c :: rest) (h : s.turn i c env = some s') :
    TurnEffect s i c th rest env s' := by
  obtain ⟨hsched, -, -⟩ := runCtx_frame c env s
  unfold turn at h
  cases hrun : s.runCtx c env with
  | mk u ret =>
    rw [hrun] at h hsched
    simp only at hsched
    cases ret with
    | error e => exact .throws e u hrun (Option.some.inj h).symm
    | ok ret =>
      simp only [hsched] at h
      split at h
      · rename_i hret
        rw [hret] at hrun
        split at h
        · exact .again u hrun (Option.some.inj h).symm
        · obtain ⟨sched, hs, rfl⟩ := Option.map_eq_some_iff.1 h
          exact .yields u hrun hs (schedStep_runYield ht hp hs) rfl rfl
      · obtain ⟨sched, hs, rfl⟩ := Option.map_eq_some_iff.1 h
        obtain ⟨x, hx, hc, hs'⟩ := schedStep_runEnd ht hp hs
        exact .ends ret u x hrun hs hx hc hs' rfl rfl rfl

/-! ## Every run -/

/-- Every context in `stream_ctxs` is of the guild that it is listed for, and has not ended. -/
structure StreamInv (s : StreamSystem) : Prop where
  sched : SchedInv s.sched
  linked : ∀ x ∈ s.sched.streamCtxs,
    (s.ctx x.ptr).ctx.guildId = x.guildId ∧ (s.ctx x.ptr).ctx.ended = false

theorem streamInv_init (count : Nat) (player : Nat → Option GuildPlayer)
    (filterDescr : Nat → String) : (init count player filterDescr).StreamInv :=
  ⟨schedInv_init count, nofun⟩

/-- The contexts of a later scheduler are the earlier ones. -/
theorem StreamInv.later (hi : s.StreamInv) (hsched : SchedInv s'.sched)
    (hsub : ∀ x ∈ s'.sched.streamCtxs, ∃ y ∈ s.sched.streamCtxs, y.ptr = x.ptr ∧
      y.guildId = x.guildId ∧ (s'.ctx x.ptr).ctx.guildId = (s.ctx x.ptr).ctx.guildId ∧
        (s'.ctx x.ptr).ctx.ended = (s.ctx x.ptr).ctx.ended) : s'.StreamInv where
  sched := hsched
  linked x hx := by
    obtain ⟨y, hy, hp, hg, hsg, hse⟩ := hsub x hx
    obtain ⟨hyg, hye⟩ := hi.linked y hy
    rw [hsg, hse, ← hg, ← hp]
    exact ⟨hyg, hye⟩

/-- The contexts of `u'` are contexts of `u`. -/
def Keys (u u' : Sched) : Prop :=
  ∀ x ∈ u'.streamCtxs, ∃ y ∈ u.streamCtxs, y.ptr = x.ptr ∧ y.guildId = x.guildId

theorem Keys.of_subset {u u' : Sched} (h : u'.streamCtxs ⊆ u.streamCtxs) : Keys u u' :=
  fun x hx => ⟨x, h hx, rfl, rfl⟩

theorem keys_setHandled (u : Sched) (c : Nat) (handled : Bool) :
    Keys u (u.setHandled c handled) := by
  intro x hx
  obtain ⟨y, hy, rfl⟩ := Sched.mem_setHandled.1 hx
  refine ⟨y, hy, ?_⟩
  split <;> exact ⟨rfl, rfl⟩

theorem keys_checkStep (u : Sched) (need : Bool) (k : Nat) (phase : Phase) :
    Keys u (checkStep need u k phase) := by
  have hsame : Keys u u := .of_subset (List.Subset.refl _)
  cases phase with
  | next =>
    simp only [checkStep]
    split
    · exact hsame
    · split <;> exact hsame
  | first c j max min =>
    simp only [checkStep]
    split
    · exact hsame
    · split <;> exact hsame
  | second c j max =>
    simp only [checkStep]
    split
    · exact hsame
    · split <;> exact hsame
  | mark c => exact keys_setHandled u c true

/-- Only `submit` makes a context. -/
theorem schedStep_keys {u u' : Sched} {a : SchedAction} (ha : ∀ g, a ≠ .submit g)
    (h : schedStep u a = some u') : Keys u u' := by
  have hsame : Keys u u := .of_subset (List.Subset.refl _)
  cases a with
  | submit g => exact absurd rfl (ha g)
  | checkStart =>
    simp only [schedStep] at h
    split at h
    · cases h
    · cases h
      exact hsame
  | check need =>
    obtain ⟨⟨k, phase⟩, -, rfl⟩ := Option.map_eq_some_iff.1 h
    exact keys_checkStep u need k phase
  | take i =>
    obtain ⟨t, -, -, rfl⟩ := take_eq h
    exact hsame
  | wake i =>
    obtain ⟨t, -, rfl⟩ := wake_eq h
    exact hsame
  | runEnd i =>
    obtain ⟨t, rest, x, -, -, -, -, rfl⟩ := runEnd_eq h
    exact .of_subset List.eraseP_subset
  | runYield i =>
    obtain ⟨t, c, rest, -, -, -, rfl⟩ := runYield_eq h
    exact keys_setHandled _ c false
  | clear i =>
    obtain ⟨t, -, rfl⟩ := clear_eq h
    exact hsame

theorem StreamInv.withSched {a : SchedAction} (hi : s.StreamInv) (ha : ∀ g, a ≠ .submit g)
    (h : s.withSched a = some s') : s'.StreamInv := by
  obtain ⟨sched, hs, rfl⟩ := Option.map_eq_some_iff.1 h
  refine hi.later (schedInv_step hi.sched hs) fun x hx => ?_
  obtain ⟨y, hy, hp, hg⟩ := schedStep_keys ha hs x hx
  exact ⟨y, hy, hp, hg, rfl, rfl⟩

theorem StreamInv.runCtx (hi : s.StreamInv) (c : Nat) (env : TurnEnv) :
    (s.runCtx c env).1.StreamInv := by
  obtain ⟨hsched, -, hctx⟩ := runCtx_frame c env s
  refine hi.later (hsched ▸ hi.sched) fun x hx => ⟨x, hsched ▸ hx, rfl, rfl, hctx x.ptr⟩

theorem StreamInv.turn {th : StreamThread} {rest : List Nat} (hi : s.StreamInv)
    (ht : s.sched.threads[i]? = some th) (hp : th.processing = c :: rest)
    (h : s.turn i c env = some s') : s'.StreamInv := by
  have hu := hi.runCtx c env
  obtain ⟨hsched, -, -⟩ := runCtx_frame c env s
  cases turn_effect ht hp h with
  | throws e u hrun hs =>
    rw [hrun] at hu
    rw [hs]
    exact ⟨hu.sched, hu.linked⟩
  | again u hrun hs =>
    rw [hrun] at hu
    rw [hs]
    exact hu
  | yields u hrun hstep hs hctx =>
    rw [hrun] at hu hsched
    refine hu.later (schedInv_step hi.sched hstep) fun x hx => ?_
    obtain ⟨y, hy, hp, hg⟩ := schedStep_keys (by nofun) hstep x hx
    exact ⟨y, hsched ▸ hy, hp, hg, by rw [hctx], by rw [hctx]⟩
  | ends ret u x hrun hstep hx hc hs hplayer hctx =>
    rw [hrun] at hu hsched
    refine hu.later (schedInv_step hi.sched hstep) fun y hy => ?_
    rw [hs] at hy
    obtain ⟨hmem, hne⟩ := (hi.sched.table.mem_erase hx).1 hy
    refine ⟨y, hsched ▸ hmem, rfl, rfl, ?_⟩
    rw [hctx, Function.update_of_ne (hc ▸ hne)]
    exact ⟨rfl, rfl⟩

/-- A context that is made is linked from the start. -/
theorem StreamInv.submit {g : Nat} (hi : s.StreamInv) (h : s.withSched (.submit g) = some s') :
    (s'.setCtx s.sched.fresh
      ⟨{ guildId := g, ended := false }, s.filterDescr g⟩).StreamInv := by
  obtain ⟨sched, hs, rfl⟩ := Option.map_eq_some_iff.1 h
  refine ⟨schedInv_step hi.sched hs, fun x hx => ?_⟩
  have hold (x : Ctx) (hx : x ∈ s.sched.streamCtxs) : x.ptr ≠ s.sched.fresh :=
    Nat.ne_of_lt (hi.sched.table.fresh x hx)
  simp only [schedStep] at hs
  split at hs
  · cases hs
  split at hs
  · cases hs
    simpa only [setCtx, Function.update_of_ne (hold x hx)] using hi.linked x hx
  · cases hs
    rcases List.mem_append.1 hx with hx | hx
    · simpa only [setCtx, Function.update_of_ne (hold x hx)] using hi.linked x hx
    · rw [List.mem_singleton.1 hx]
      simp [setCtx]

theorem StreamInv.step {a : StreamAction} (hi : s.StreamInv) (h : streamStep s a = some s') :
    s'.StreamInv := by
  unfold streamStep at h
  split at h
  · cases h
  cases a with
  | player g p =>
    cases h
    exact ⟨hi.sched, hi.linked⟩
  | setFx g descr =>
    cases h
    exact ⟨hi.sched, hi.linked⟩
  | submit g =>
    obtain ⟨u, hu, rfl⟩ := Option.map_eq_some_iff.1 h
    exact hi.submit hu
  | checkStart => exact hi.withSched (by nofun) h
  | check need => exact hi.withSched (by nofun) h
  | take i => exact hi.withSched (by nofun) h
  | wake i => exact hi.withSched (by nofun) h
  | run i env =>
    obtain ⟨c, hc, h⟩ := Option.bind_eq_some_iff.1 h
    obtain ⟨th, ht, hc⟩ := Option.bind_eq_some_iff.1 hc
    obtain ⟨rest, hp⟩ := List.head?_eq_some_iff.1 hc
    exact hi.turn ht hp h
  | clear i => exact hi.withSched (by nofun) h

theorem streamInv_run {count : Nat} {player : Nat → Option GuildPlayer}
    {filterDescr : Nat → String} {l : List StreamAction}
    (h : Lib.run streamStep (init count player filterDescr) l = some s) : s.StreamInv :=
  run_invariant (fun _ _ _ hi hs => StreamInv.step hi hs)
    (streamInv_init count player filterDescr) h

/-! ## Isolation -/

/-- Context `c` of guild `g` has been ended and erased, and the player is free. -/
structure Erased (s : StreamSystem) (c g : Nat) : Prop where
  ended : (s.ctx c).ctx.ended = true
  erased : ∀ x ∈ s.sched.streamCtxs, x.ptr ≠ c
  released : ∀ p, s.player g = some p → p.processingAudio = false

/-- What the turn of thread `i` at context `c` leaves when an error there stays there: the loop goes
on, at `c` or behind it, with `c` reset or erased; the other contexts are as they were; and a
context whose filter chain fails is erased. -/
structure Isolated (s s' : StreamSystem) (i c : Nat) (rest : List Nat) (env : TurnEnv) :
    Prop where
  goesOn : s'.terminated = false
  loop : ∃ th, s'.sched.threads[i]? = some th ∧ (th.processing = c :: rest ∨
    th.processing = rest ∧ ((∃ x ∈ s'.sched.streamCtxs, x.ptr = c ∧ x.handled = false) ∨
      s'.Erased c (s.ctx c).ctx.guildId))
  others : ∀ x ∈ s.sched.streamCtxs, x.ptr ≠ c → x ∈ s'.sched.streamCtxs
  failing : ∀ p, s.ChainFails c env p → s'.Erased c (s.ctx c).ctx.guildId

/-- An ended context releases its player. -/
theorem released_end' {ctx : StreamCtx} (hlive : ctx.ended = false) (voiceClient : Bool)
    (u : StreamState) (p : GuildPlayer) (h : (ctx.end' voiceClient u).player ctx.guildId = some p) :
    p.processingAudio = false := by
  unfold StreamCtx.end' at h
  rw [hlive] at h
  cases hp : u.player ctx.guildId with
  | none => simp [hp] at h
  | some q =>
    simp only [hp, Bool.false_eq_true, if_false, StreamState.setPlayer_self, Option.some.injEq] at h
    rw [← h]
    rfl

theorem getElem?_setThread {u : Sched} {th th' : StreamThread} (ht : u.threads[i]? = some th) :
    (u.setThread i th').threads[i]? = some th' := by
  obtain ⟨hlt, -⟩ := List.getElem?_eq_some_iff.1 ht
  rw [Sched.setThread, List.getElem?_set_self hlt]

/-- A turn that throws nothing is isolated. -/
theorem isolated_of_ok {th : StreamThread} {rest : List Nat} (hi : s.StreamInv)
    (hterm : s.terminated = false) (ht : s.sched.threads[i]? = some th)
    (hp : th.processing = c :: rest) (h : s.turn i c env = some s')
    (hok : ∀ p, ¬ s.ChainFails c env p) : Isolated s s' i c rest env := by
  obtain ⟨hsched, hut, hsame⟩ := runCtx_frame c env s
  have hfailing : ∀ p, s.ChainFails c env p → s'.Erased c (s.ctx c).ctx.guildId :=
    fun p hf => absurd hf (hok p)
  cases turn_effect ht hp h with
  | throws e u hrun _ =>
    obtain ⟨p, hf⟩ := runCtx_throws.1 ⟨e, congrArg Prod.snd hrun⟩
    exact absurd hf (hok p)
  | again u hrun hs =>
    rw [hrun] at hsched hut
    rw [hs]
    exact ⟨hut.trans hterm, ⟨th, hsched ▸ ht, .inl hp⟩, fun x hx _ => hsched ▸ hx,
      hs ▸ hfailing⟩
  | yields u hrun hstep hs hctx ht' =>
    rw [hrun] at hut
    -- the context is in the list, and is marked there
    have hc : c ∈ s.sched.pending := List.mem_flatMap.2
      ⟨th, List.mem_of_getElem? ht, List.mem_append_left _ (hp ▸ List.mem_cons_self)⟩
    obtain ⟨x, hx, hxc, -⟩ := hi.sched.live c hc
    refine ⟨ht'.trans (hut.trans hterm), ⟨_, by rw [hs]; exact getElem?_setThread ht,
      .inr ⟨rfl, .inl ?_⟩⟩, fun y hy hne => ?_, hfailing⟩
    · refine ⟨{ x with handled := false }, ?_, hxc, rfl⟩
      rw [hs]
      exact Sched.mem_setHandled.2 ⟨x, hx, by rw [if_pos hxc]⟩
    · rw [hs]
      exact Sched.mem_setHandled.2 ⟨y, hy, by rw [if_neg hne]⟩
  | ends ret u x hrun hstep hx hc hs hplayer hctx ht' =>
    rw [hrun] at hut hsame
    obtain ⟨hg, hlive⟩ := hsame c
    have hlive : (u.ctx c).ctx.ended = false := hlive.trans (hc ▸ (hi.linked x hx).2)
    refine ⟨ht'.trans (hut.trans hterm), ⟨_, by rw [hs]; exact getElem?_setThread ht,
      .inr ⟨rfl, .inr ⟨?_, fun y hy => ?_, fun p hplay => ?_⟩⟩⟩, fun y hy hne => ?_, hfailing⟩
    · rw [hctx, Function.update_self]
    · rw [hs] at hy
      exact hc ▸ ((hi.sched.table.mem_erase hx).1 hy).2
    · rw [hplayer, ← hg] at hplay
      exact released_end' hlive env.voiceClientAfter ⟨u.player, []⟩ p hplay
    · rw [hs]
      exact (hi.sched.table.mem_erase hx).2 ⟨hy, hc ▸ hne⟩

/-- **A turn is isolated exactly when no filter chain fails in it**: in every run, for all contexts
that the thread processes and wherever in them it is. -/
theorem isolated_iff {count : Nat} {player : Nat → Option GuildPlayer} {filterDescr : Nat → String}
    {l : List StreamAction} {th : StreamThread} {rest : List Nat}
    (hrun : Lib.run streamStep (init count player filterDescr) l = some s)
    (ht : s.sched.threads[i]? = some th) (hp : th.processing = c :: rest)
    (h : streamStep s (.run i env) = some s') :
    Isolated s s' i c rest env ↔ ∀ p, ¬ s.ChainFails c env p := by
  have hterm : s.terminated = false := by
    cases hs : s.terminated with
    | false => rfl
    | true => simp [streamStep, hs] at h
  have hturn : s.turn i c env = some s' := by
    simpa [streamStep, hterm, ht, hp] using h
  refine ⟨fun hiso p hf => ?_, isolated_of_ok (streamInv_run hrun) hterm ht hp hturn⟩
  -- nobody catches what is thrown
  obtain ⟨e, he⟩ := runCtx_throws.2 ⟨p, hf⟩
  have hdead : s'.terminated = true := by
    unfold turn at hturn
    cases hr : s.runCtx c env with
    | mk u ret =>
      rw [hr] at he hturn
      simp only at he
      rw [he] at hturn
      rw [← Option.some.inj hturn]
  rw [hiso.goesOn] at hdead
  cases hdead

/-- Two playing guilds with plain effects, and one thread that has taken both contexts. -/
def processing (_ : Nat) : Option GuildPlayer := some { processingAudio := true }
def plain (_ : Nat) : String := "anull"

def takeBoth : List StreamAction :=
  [.submit 10, .submit 20, .checkStart] ++ List.replicate 7 (.check true) ++ [.take 0]

/-- The track of the first guild ends. -/
theorem isolated_trackEnd :
    ∃ s s', Lib.run streamStep (init 1 processing plain) takeBoth = some s ∧
      streamStep s (.run 0 { frames := -1 }) = some s' ∧
      Isolated s s' 0 0 [1] { frames := -1 } :=
  ⟨_, _, rfl, rfl,
    (@isolated_iff _ _ 0 0 { frames := -1 } 1 processing plain takeBoth _ [1] rfl rfl rfl rfl).2
      fun _ hf => absurd hf.initFilters (by decide)⟩

/-- The effects of the first guild change to some that cannot be set up: nothing is ended, erased or
reset, and no thread takes a step any more. -/
theorem chain_not_isolated :
    ∃ s s', Lib.run streamStep (init 1 processing plain)
        (takeBoth ++ [.setFx 10 "atempo=0"]) = some s ∧
      streamStep s (.run 0 { initFilters := -1 }) = some s' ∧
      ¬ Isolated s s' 0 0 [1] { initFilters := -1 } ∧
      s'.sched.streamCtxs = [⟨0, 10, true⟩, ⟨1, 20, true⟩] ∧
      (s'.player 10).map (·.processingAudio) = some true ∧ ∀ a, streamStep s' a = none :=
  ⟨_, _, rfl, rfl, (by rintro ⟨h, -, -, -⟩; cases h), rfl, rfl, fun _ => rfl⟩

end StreamSystem

end Musicat.Stream
