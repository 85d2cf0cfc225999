import Mathlib.Data.List.Sort
import Musicat.Lib.Handles
import Musicat.Lib.Lists
import Musicat.Server.Identity

/-!
# All the dashboard sockets

The websockets that are open at one time. `umap` has the pointer and the user of
each socket that has registered; `send_event` looks a user up in it, and a
`publish_event` is published to the sockets that have subscribed to the topic of
the guild. Both are called by other threads and deferred to the loop, which runs
them between the events of the sockets. A closed socket's address may be used again.

Assumed of uWebSockets: the loop runs the callbacks in the order in which they were
deferred. Whether a receiver that is slow is still sent what is published to it is
left to uWebSockets.
-/

namespace Musicat.Server

open Lib Player GuildPlayer

/-! ## State -/

/-- `player::get_player_topic`. -/
def getPlayerTopic (guildId : Nat) : String := "player/" ++ toString guildId

/-- What goes to a socket: from a handler of its own events, published on a topic that it has
subscribed to, or from `send_event`, with the user that the socket is registered as then. -/
inductive Delivery where
  | reply (m : Sent)
  | published (m : List UInt8)
  | direct (userId : Nat) (m : List UInt8)

/-- What is deferred to the loop; `close` is that of `server::shutdown`. -/
inductive WsCallback where
  | publishEvent (guildId : Nat) (m : List UInt8)
  | sendEvent (userId : Nat) (m : List UInt8)
  | close
  deriving DecidableEq, Repr

structure Socket where
  sdata : SocketData
  topics : List String := []
  got : List Delivery := []
  /-- The callbacks that run until it is closed. -/
  span : Span

/-- The `map_ws_user`: pointers and users, in the order of the pointers. -/
abbrev MapWsUser := List (Nat × Nat)

structure WsServer where
  sockets : Handles Socket := {}
  umap : MapWsUser := []
  /-- What the handlers reach in each guild. -/
  worlds : Nat → World
  deferred : List WsCallback := []
  /-- The callbacks that have run. -/
  ran : List WsCallback := []
  /-- What `send_event` has sent to nobody. -/
  dropped : List (Nat × List UInt8) := []

namespace WsServer

/-- `register_ws_user`, of the map. -/
def registerWsUser (ws userId : Nat) (umap : MapWsUser) : MapWsUser :=
  (umap.eraseP (·.1 = ws)).orderedInsert (fun x y => x.1 ≤ y.1) (ws, userId)

/-- `get_user_ws`. -/
def getUserWs (userId : Nat) (umap : MapWsUser) : Option Nat :=
  (umap.find? (·.2 = userId)).map Prod.fst

/-- `unregister_ws_user`. -/
def unregisterWsUser (ws : Nat) (umap : MapWsUser) : MapWsUser := umap.eraseP (·.1 = ws)

/-- The socket of a new connection; `open` subscribes it to its topics. -/
def newSocket (sdata : SocketData) (ran : List WsCallback) : Socket where
  sdata
  topics := ["global", getPlayerTopic sdata.serverId]
  span := { since := ran.length }

/-- What a handler has done to the socket. -/
def answer (c : Conn) (h : Handle Socket) : Handle Socket :=
  { h with val := { h.val with sdata := c.sdata, got := h.val.got ++ c.sent.map .reply } }

def shut (ran : List WsCallback) (h : Handle Socket) : Handle Socket :=
  { h with alive := false, val := { h.val with span := h.val.span.stop ran } }

/-- A publish, for one socket: it is for those that have subscribed to the topic. -/
def receive (topic : String) (m : List UInt8) (h : Handle Socket) : Handle Socket :=
  if h.alive && h.val.topics.contains topic then
    { h with val := { h.val with got := h.val.got ++ [.published m] } }
  else h

def deliver (m : List UInt8) (h : Handle Socket) : Handle Socket :=
  { h with val := { h.val with got := h.val.got ++ [.direct h.val.sdata.userId m] } }

/-- `events::close`, when the socket at `ws` closes. -/
def closeSocket (ws : Nat) (s : WsServer) : WsServer :=
  { s with sockets := s.sockets.use ws (shut s.ran), umap := unregisterWsUser ws s.umap }

/-- A handler of the socket `h`; also whether the socket is open after it. -/
def runHandler (f : Conn → Conn) (h : Handle Socket) (s : WsServer) : WsServer × Bool :=
  let c := f ⟨h.val.sdata, s.worlds h.val.sdata.serverId, true, []⟩
  ({ s with
      sockets := s.sockets.use h.addr (answer c)
      worlds := Function.update s.worlds h.val.sdata.serverId c.world },
    c.isOpen)

def runCallback (s : WsServer) : WsCallback → WsServer
  | .publishEvent guildId m =>
    { s with sockets := { s.sockets with
        all := s.sockets.all.map (receive (getPlayerTopic guildId) m) } }
  | .sendEvent userId m =>
    match getUserWs userId s.umap with
    | none => { s with dropped := s.dropped ++ [(userId, m)] }
    | some ws => { s with sockets := s.sockets.use ws (deliver m) }
  | .close => (s.sockets.live.map (·.addr)).foldl (fun s ws => s.closeSocket ws) s

inductive SocketAction where
  /-- A request of a new connection, which gets the address `ws`. -/
  | connect (ws : Nat) (req : UpgradeRequest)
  | message (ws : Nat) (msg : String)
  | disconnect (ws : Nat)
  /-- Anything the rest of the bot does in a guild. -/
  | world (guildId : Nat) (w : World)
  /-- `server::defer`, from any thread, also by the handlers above. -/
  | defer (c : WsCallback)
  /-- The loop runs the next callback. -/
  | next

section
variable (trackData : MCTrack → Json) (playbackInfo : World → Json) (fxStates : GuildPlayer → Json)

/-- `socket_event_e`, of the two events that only `open` sends. -/
def socketEventPlaybackInfo : Int := 2
def socketEventFx : Int := 6

/-- `send_player_fx_info`. -/
def sendPlayerFxInfo (c : Conn) : Conn :=
  match c.world.player with
  | none => c
  | some p => c.send (.event socketEventFx (fxStates p))

/-- `send_player_queue_info`. -/
def sendPlayerQueueInfo (c : Conn) : Conn :=
  match c.world.player with
  | none => c.send (.event socketEventQueue (.array []))
  | some p => c.sendQueue trackData p

/-- `send_player_info`. -/
def sendPlayerInfo (c : Conn) : Conn :=
  let data := playbackInfo c.world
  let c := c.send (.event socketEventPlaybackInfo data)
  let c := if (data.find "title").isSome then sendPlayerFxInfo fxStates c else c
  sendPlayerQueueInfo trackData c

/-- `events::open`, behind the subscriptions. -/
def openSocket (c : Conn) : Conn :=
  sendPlayerInfo trackData playbackInfo fxStates (c.send (.text "meow~"))

variable (toSnowflake : String → Nat) (parse : String → Option Json)

/-- `events::message`; a message that registers a user also changes the map. -/
def onMessage (msg : String) (h : Handle Socket) (s : WsServer) : WsServer :=
  let (s, isOpen) := s.runHandler (message trackData toSnowflake parse msg) h
  let s := match registeredUid parse msg with
    | none => s
    | some uid => { s with umap := registerWsUser h.addr (toSnowflake uid) s.umap }
  if isOpen then s else s.closeSocket h.addr

def step (s : WsServer) : SocketAction → Option WsServer
  | .connect ws req =>
    (upgrade toSnowflake req).bind fun sdata =>
      (s.sockets.create ws (newSocket sdata s.ran)).map fun sockets =>
        ({ s with sockets }.runHandler (openSocket trackData playbackInfo fxStates)
          { addr := ws, val := newSocket sdata s.ran }).1
  | .message ws msg =>
    (s.sockets.all.find? (Handles.isAt ws)).map fun h =>
      s.onMessage trackData toSnowflake parse msg h
  | .disconnect ws =>
    (s.sockets.all.find? (Handles.isAt ws)).map fun h => s.closeSocket h.addr
  | .world guildId w => some { s with worlds := Function.update s.worlds guildId w }
  | .defer c => some { s with deferred := s.deferred ++ [c] }
  | .next =>
    match s.deferred with
    | [] => none
    | c :: deferred => some { { s with deferred }.runCallback c with ran := s.ran ++ [c] }

end

/-! ## The map of the users -/

section
variable {umap : MapWsUser} {ws userId : Nat} {e : Nat × Nat}

theorem mem_registerWsUser (hk : (umap.map Prod.fst).Nodup) :
    e ∈ registerWsUser ws userId umap ↔ e = (ws, userId) ∨ e ∈ umap ∧ e.1 ≠ ws := by
  rw [registerWsUser, List.mem_orderedInsert, eraseP_eq_filter hk]
  simp

theorem mem_unregisterWsUser (hk : (umap.map Prod.fst).Nodup) :
    e ∈ unregisterWsUser ws umap ↔ e ∈ umap ∧ e.1 ≠ ws := by
  rw [unregisterWsUser, eraseP_eq_filter hk]
  simp

theorem nodup_registerWsUser (hk : (umap.map Prod.fst).Nodup) :
    ((registerWsUser ws userId umap).map Prod.fst).Nodup := by
  have hperm := (List.perm_orderedInsert (fun x y : Nat × Nat => x.1 ≤ y.1) (ws, userId)
    (umap.eraseP (·.1 = ws))).map Prod.fst
  refine hperm.nodup_iff.2 (List.nodup_cons.2 ⟨fun hm => ?_, nodup_map_eraseP hk⟩)
  obtain ⟨x, hx, he⟩ := List.mem_map.1 hm
  exact key_ne_of_mem_eraseP hk hx he

theorem getUserWs_eq_some (h : getUserWs userId umap = some ws) : (ws, userId) ∈ umap := by
  obtain ⟨⟨w, u⟩, hf, rfl⟩ := Option.map_eq_some_iff.1 h
  obtain rfl : u = userId := by simpa using List.find?_some hf
  exact List.mem_of_find?_eq_some hf

theorem getUserWs_isSome (h : (ws, userId) ∈ umap) : (getUserWs userId umap).isSome := by
  rw [getUserWs, Option.isSome_map, List.find?_isSome]
  exact ⟨_, h, by simp⟩

/-- The map has the pointers of open sockets only, with the user that each has registered. -/
structure Registered (umap : MapWsUser) (l : List (Handle Socket)) : Prop where
  keys : (umap.map Prod.fst).Nodup
  isOpen : ∀ e ∈ umap, ∃ h ∈ l, h.addr = e.1 ∧ h.val.sdata.userId = e.2
  known : ∀ h ∈ l, h.val.sdata.userId ≠ 0 → (h.addr, h.val.sdata.userId) ∈ umap

variable {l l₁ l₂ : List (Handle Socket)} {h h' : Handle Socket}

theorem Registered.append (hr : Registered umap l) (hu : h.val.sdata.userId = 0) :
    Registered umap (l ++ [h]) where
  keys := hr.keys
  isOpen e he := by
    obtain ⟨x, hx, hxe⟩ := hr.isOpen e he
    exact ⟨x, List.mem_append_left _ hx, hxe⟩
  known x hx hne := by
    rcases List.mem_append.1 hx with hx | hx
    · exact hr.known x hx hne
    · exact absurd (List.mem_singleton.1 hx ▸ hu) hne

/-- One socket changes, and keeps its user. -/
theorem Registered.replace (hr : Registered umap (l₁ ++ h :: l₂)) (ha : h'.addr = h.addr)
    (hu : h'.val.sdata.userId = h.val.sdata.userId) : Registered umap (l₁ ++ h' :: l₂) where
  keys := hr.keys
  isOpen e he := by
    obtain ⟨x, hx, hxe⟩ := hr.isOpen e he
    rcases List.mem_append.1 hx with hx | hx
    · exact ⟨x, by simp [hx], hxe⟩
    · rcases List.mem_cons.1 hx with rfl | hx
      · exact ⟨h', by simp, by rwa [ha, hu]⟩
      · exact ⟨x, by simp [hx], hxe⟩
  known x hx hne := by
    rcases List.mem_append.1 hx with hx | hx
    · exact hr.known x (by simp [hx]) hne
    · rcases List.mem_cons.1 hx with rfl | hx
      · rw [ha, hu]
        exact hr.known h (by simp) (by rwa [← hu])
      · exact hr.known x (by simp [hx]) hne

theorem Registered.map (hr : Registered umap l) {f : Handle Socket → Handle Socket}
    (ha : ∀ h, (f h).addr = h.addr) (hu : ∀ h, (f h).val.sdata = h.val.sdata) :
    Registered umap (l.map f) where
  keys := hr.keys
  isOpen e he := by
    obtain ⟨x, hx, hxe⟩ := hr.isOpen e he
    exact ⟨f x, List.mem_map.2 ⟨x, hx, rfl⟩, by rwa [ha, hu]⟩
  known x hx hne := by
    obtain ⟨y, hy, rfl⟩ := List.mem_map.1 hx
    rw [ha, hu] at *
    exact hr.known y hy hne

/-- Every other address is in use by another socket. -/
theorem addr_ne (hn : ((l₁ ++ h :: l₂).map (·.addr)).Nodup) {x : Handle Socket}
    (hx : x ∈ l₁ ++ l₂) : x.addr ≠ h.addr := by
  rw [List.map_append, List.map_cons] at hn
  have hnot := (List.nodup_cons.1 (List.nodup_middle.1 hn)).1
  rw [← List.map_append] at hnot
  exact fun he => hnot (he ▸ List.mem_map.2 ⟨x, hx, rfl⟩)

theorem Registered.register (hr : Registered umap (l₁ ++ h :: l₂))
    (hn : ((l₁ ++ h :: l₂).map (·.addr)).Nodup) (ha : h'.addr = h.addr) :
    Registered (registerWsUser h.addr h'.val.sdata.userId umap) (l₁ ++ h' :: l₂) where
  keys := nodup_registerWsUser hr.keys
  isOpen e he := by
    rcases (mem_registerWsUser hr.keys).1 he with rfl | ⟨he, hne⟩
    · exact ⟨h', by simp, ha, rfl⟩
    · obtain ⟨x, hx, hxa, hxu⟩ := hr.isOpen e he
      rcases List.mem_append.1 hx with hx | hx
      · exact ⟨x, by simp [hx], hxa, hxu⟩
      · rcases List.mem_cons.1 hx with rfl | hx
        · exact absurd hxa.symm hne
        · exact ⟨x, by simp [hx], hxa, hxu⟩
  known x hx hne := by
    rw [mem_registerWsUser hr.keys]
    rcases List.mem_append.1 hx with hx | hx
    · exact .inr ⟨hr.known x (by simp [hx]) hne, addr_ne hn (by simp [hx])⟩
    · rcases List.mem_cons.1 hx with rfl | hx
      · exact .inl (by rw [ha])
      · exact .inr ⟨hr.known x (by simp [hx]) hne, addr_ne hn (by simp [hx])⟩

theorem Registered.unregister (hr : Registered umap (l₁ ++ h :: l₂))
    (hn : ((l₁ ++ h :: l₂).map (·.addr)).Nodup) :
    Registered (unregisterWsUser h.addr umap) (l₁ ++ l₂) where
  keys := nodup_map_eraseP hr.keys
  isOpen e he := by
    obtain ⟨he, hne⟩ := (mem_unregisterWsUser hr.keys).1 he
    obtain ⟨x, hx, hxa, hxu⟩ := hr.isOpen e he
    rcases List.mem_append.1 hx with hx | hx
    · exact ⟨x, by simp [hx], hxa, hxu⟩
    · rcases List.mem_cons.1 hx with rfl | hx
      · exact absurd hxa.symm hne
      · exact ⟨x, by simp [hx], hxa, hxu⟩
  known x hx hne := by
    have hmem : x ∈ l₁ ++ h :: l₂ := by
      rcases List.mem_append.1 hx with hx | hx <;> simp [hx]
    exact (mem_unregisterWsUser hr.keys).2 ⟨hr.known x hmem hne, addr_ne hn hx⟩

end

/-! ## What one socket is sent -/

def publishedOf : Delivery → Option (List UInt8)
  | .published m => some m
  | _ => none

def directOf : Delivery → Option (Nat × List UInt8)
  | .direct userId m => some (userId, m)
  | _ => none

/-- What is published for a guild. -/
def publishesTo (guildId : Nat) (l : List WsCallback) : List (List UInt8) :=
  l.filterMap fun
    | .publishEvent g m => if g = guildId then some m else none
    | _ => none

/-- What is sent to users. -/
def sendsOf (l : List WsCallback) : List (Nat × List UInt8) :=
  l.filterMap fun
    | .sendEvent userId m => some (userId, m)
    | _ => none

theorem publishesTo_append {guildId : Nat} {l l' : List WsCallback} :
    publishesTo guildId (l ++ l') = publishesTo guildId l ++ publishesTo guildId l' :=
  List.filterMap_append

theorem getPlayerTopic_inj {g g' : Nat} (h : getPlayerTopic g = getPlayerTopic g') : g = g' := by
  have hl := congrArg String.toList h
  simp only [getPlayerTopic, String.toList_append, List.append_cancel_left_eq] at hl
  rw [Nat.toString_eq_repr, Nat.toString_eq_repr, Nat.toList_repr, Nat.toList_repr] at hl
  have hv := congrArg (Nat.ofDigitChars 10 · 0) hl
  simpa using hv

theorem getPlayerTopic_ne_global (g : Nat) : getPlayerTopic g ≠ "global" := by
  intro h
  have hl := congrArg (·.toList.head?) h
  simp [getPlayerTopic] at hl

section
variable {ran : List WsCallback} {h : Handle Socket}

/-- A socket has the topics of its guild, and was sent what was published for the guild. -/
structure Tuned (ran : List WsCallback) (h : Handle Socket) : Prop where
  topics : h.val.topics = ["global", getPlayerTopic h.val.sdata.serverId]
  published : h.val.got.filterMap publishedOf =
    publishesTo h.val.sdata.serverId (h.val.span.during ran)
  span : h.val.span.Within ran
  alive : h.alive = true ↔ h.val.span.stopped = none

namespace Tuned

theorem new (ws : Nat) (sdata : SocketData) (ran : List WsCallback) :
    Tuned ran { addr := ws, val := newSocket sdata ran } where
  topics := rfl
  published := by
    rw [newSocket, Span.during_new]
    rfl
  span := Span.within_new ran
  alive := by simp [newSocket]

theorem answer (ht : Tuned ran h) {c : Conn} (hc : c.sdata.serverId = h.val.sdata.serverId) :
    Tuned ran (answer c h) where
  topics := by
    simp only [WsServer.answer, hc]
    exact ht.topics
  published := by
    have hnone : (c.sent.map Delivery.reply).filterMap publishedOf = [] :=
      List.filterMap_eq_nil_iff.2 fun x hx => by
        obtain ⟨m, -, rfl⟩ := List.mem_map.1 hx
        rfl
    simp only [WsServer.answer, List.filterMap_append, hnone, List.append_nil, hc]
    exact ht.published
  span := ht.span
  alive := ht.alive

theorem deliver (ht : Tuned ran h) (m : List UInt8) : Tuned ran (deliver m h) where
  topics := ht.topics
  published := by
    simp only [WsServer.deliver, List.filterMap_append]
    exact (List.append_nil _).trans ht.published
  span := ht.span
  alive := ht.alive

theorem shut (ht : Tuned ran h) (ha : h.alive = true) : Tuned ran (shut ran h) where
  topics := ht.topics
  published := by
    rw [WsServer.shut, Span.during_stop (ht.alive.1 ha)]
    exact ht.published
  span := ht.span.stop
  alive := by simp [WsServer.shut, Span.stop]

/-- A callback runs that publishes nothing for the guild, or after the socket has closed. -/
theorem append (ht : Tuned ran h) {c : WsCallback}
    (hc : h.alive = true → publishesTo h.val.sdata.serverId [c] = []) : Tuned (ran ++ [c]) h where
  topics := ht.topics
  published := by
    cases ha : h.alive with
    | true =>
      rw [Span.during_append_open ht.span (ht.alive.1 ha), publishesTo_append, hc ha,
        List.append_nil]
      exact ht.published
    | false =>
      have hstopped : h.val.span.stopped ≠ none := fun hnone => by simp [ht.alive.2 hnone] at ha
      rw [Span.during_append_stopped ht.span hstopped]
      exact ht.published
  span := ht.span.append c
  alive := ht.alive

theorem receive (ht : Tuned ran h) (g : Nat) (m : List UInt8) :
    Tuned (ran ++ [.publishEvent g m]) (receive (getPlayerTopic g) m h) := by
  have htopic : h.val.topics.contains (getPlayerTopic g) = decide (g = h.val.sdata.serverId) := by
    rw [ht.topics, Bool.eq_iff_iff]
    simp only [List.contains_cons, List.contains_nil, Bool.or_false, Bool.or_eq_true, beq_iff_eq,
      getPlayerTopic_ne_global, false_or, decide_eq_true_eq]
    exact ⟨getPlayerTopic_inj, congrArg _⟩
  unfold WsServer.receive
  rw [htopic]
  split
  · rename_i hif
    obtain ⟨ha, hg⟩ := Bool.and_eq_true_iff.1 hif
    obtain rfl := of_decide_eq_true hg
    exact {
      topics := ht.topics
      published := by
        rw [Span.during_append_open ht.span (ht.alive.1 ha), publishesTo_append, ← ht.published,
          List.filterMap_append]
        simp [publishesTo, publishedOf]
      span := ht.span.append _
      alive := ht.alive }
  · rename_i hif
    refine ht.append fun ha => ?_
    have hg : g ≠ h.val.sdata.serverId := fun hg => hif (by simp [ha, hg])
    simp [publishesTo, hg]

end Tuned

end

/-! ## What a handler does to the data of its socket -/

section
variable (trackData : MCTrack → Json) (playbackInfo : World → Json) (fxStates : GuildPlayer → Json)

theorem openSocket_sdata (c : Conn) :
    (openSocket trackData playbackInfo fxStates c).sdata = c.sdata := by
  unfold openSocket sendPlayerInfo sendPlayerQueueInfo
  dsimp only
  split <;> split <;> simp [sendPlayerFxInfo] <;> split <;> simp

variable (toSnowflake : String → Nat) (parse : String → Option Json)

/-- A message that registers a user sets the user, and any other keeps it. -/
theorem message_identity (msg : String) (c : Conn) :
    let c' := message trackData toSnowflake parse msg c
    c'.sdata.serverId = c.sdata.serverId ∧
      c'.sdata.userId = match registeredUid parse msg with
        | none => c.sdata.userId
        | some uid => toSnowflake uid := by
  simp only [message]
  split
  · rename_i h0
    simp [registeredUid, h0]
  split
  · rename_i h1
    simp [registeredUid, h1]
  split
  · rename_i h2
    simp [registeredUid, h2]
  rename_i h0 h1 h2
  split
  · rename_i hp
    simp [registeredUid, h0, h1, h2, hp, Conn.close]
  rename_i payload hp
  split
  · rename_i he
    simp [registeredUid, h0, h1, h2, hp, he, Conn.close]
  rename_i e he
  have hclose : ∀ r : Conn × Int, (if r.2 ≠ 0 then r.1.close else r.1).sdata = r.1.sdata := by
    intro r
    split <;> rfl
  rw [hclose]
  by_cases hr : e = socketEventRegister
  · subst hr
    have hreg : handleMessage trackData toSnowflake socketEventRegister payload c =
        handleRegister toSnowflake ((payload.find "d").getD .null) c := rfl
    have huid : registeredUid parse msg = uidOf ((payload.find "d").getD .null) := by
      simp [registeredUid, h0, h1, h2, hp, he]
    rw [hreg, huid, handleRegister]
    cases uidOf ((payload.find "d").getD .null) with
    | none => exact ⟨rfl, rfl⟩
    | some uid => exact ⟨rfl, rfl⟩
  · have hnone : registeredUid parse msg = none := by
      simp [registeredUid, h0, h1, h2, hp, he, hr]
    obtain ⟨-, hd | ⟨he', -⟩⟩ := handleMessage_cases trackData toSnowflake e payload c
    · rw [hd, hnone]
      exact ⟨rfl, rfl⟩
    · exact absurd he' hr

end

/-! ## The invariant -/

structure Wired (s : WsServer) : Prop where
  sound : s.sockets.misused = false
  distinct : s.sockets.Distinct
  registered : Registered s.umap s.sockets.live
  tuned : ∀ h ∈ s.sockets.all, Tuned s.ran h

section
variable {s t : WsServer} {h : Handle Socket} {f : Handle Socket → Handle Socket}

theorem stays_answer (c : Conn) : Handles.Stays (answer c) := ⟨fun _ => rfl, fun _ h => h⟩

theorem stays_shut (ran : List WsCallback) : Handles.Stays (shut ran) := ⟨fun _ => rfl, nofun⟩

theorem receive_eq (topic : String) (m : List UInt8) (h : Handle Socket) :
    ∃ got, receive topic m h = { h with val := { h.val with got } } := by
  unfold receive
  split
  · exact ⟨_, rfl⟩
  · exact ⟨h.val.got, rfl⟩

theorem receive_alive (topic : String) (m : List UInt8) (h : Handle Socket) :
    (receive topic m h).alive = h.alive := by
  obtain ⟨got, he⟩ := receive_eq topic m h
  rw [he]

theorem receive_sdata (topic : String) (m : List UInt8) (h : Handle Socket) :
    (receive topic m h).val.sdata = h.val.sdata := by
  obtain ⟨got, he⟩ := receive_eq topic m h
  rw [he]

theorem stays_receive (topic : String) (m : List UInt8) : Handles.Stays (receive topic m) where
  addr h := by
    obtain ⟨got, he⟩ := receive_eq topic m h
    rw [he]
  alive h := by
    rw [receive_alive]
    exact id

theorem stays_deliver (m : List UInt8) : Handles.Stays (deliver m) := ⟨fun _ => rfl, fun _ h => h⟩

theorem foldl_closeSocket (xs : List Nat) : ∀ s : WsServer,
    (xs.foldl (fun s ws => s.closeSocket ws) s).ran = s.ran ∧
      (xs.foldl (fun s ws => s.closeSocket ws) s).deferred = s.deferred ∧
      (xs.foldl (fun s ws => s.closeSocket ws) s).dropped = s.dropped := by
  induction xs with
  | nil => exact fun s => ⟨rfl, rfl, rfl⟩
  | cons ws xs ih => exact fun s => ih (s.closeSocket ws)

namespace Wired

/-- One live socket changes, and with it the map. -/
theorem use (hi : Wired s) (hm : h ∈ s.sockets.live) (hf : Handles.Stays f)
    (ht : Tuned s.ran (f h)) (hs : t.sockets = s.sockets.use h.addr f) (hran : t.ran = s.ran)
    (hreg : ∀ l₁ l₂, s.sockets.live = l₁ ++ h :: l₂ →
      Registered t.umap (l₁ ++ if (f h).alive then f h :: l₂ else l₂)) : Wired t where
  sound := by
    rw [hs, Handles.use_of_mem (List.mem_map.2 ⟨h, hm, rfl⟩)]
    exact hi.sound
  distinct := hs ▸ hi.distinct.use hf
  registered := by
    obtain ⟨l₁, l₂, hlive, huse⟩ := hi.distinct.live_use hm
    rw [hs, huse]
    exact hreg l₁ l₂ hlive
  tuned x hx := by
    obtain ⟨l₁, l₂, hall, huse⟩ := hi.distinct.split hm
    rw [hs, huse] at hx
    rw [hran]
    rcases List.mem_append.1 hx with hx | hx
    · exact hi.tuned x (hall ▸ List.mem_append_left _ hx)
    · rcases List.mem_cons.1 hx with rfl | hx
      · exact ht
      · exact hi.tuned x (hall ▸ List.mem_append_right _ (List.mem_cons_of_mem _ hx))

/-- A handler of a socket, which registers a user or keeps the one there is. -/
theorem handled (hi : Wired s) (hm : h ∈ s.sockets.live) {f : Conn → Conn} {umap : MapWsUser}
    (hserver : ∀ c, (f c).sdata.serverId = c.sdata.serverId)
    (hu : ∀ c : Conn, c.sdata = h.val.sdata →
      (f c).sdata.userId = c.sdata.userId ∧ umap = s.umap ∨
        umap = registerWsUser h.addr (f c).sdata.userId s.umap) :
    Wired { (s.runHandler f h).1 with umap } := by
  have ha := (List.mem_filter.1 hm).2
  have ht := hi.tuned h (List.mem_filter.1 hm).1
  have hdistinct := hi.distinct
  refine hi.use hm (stays_answer _) (ht.answer (hserver _)) rfl rfl fun l₁ l₂ hl => ?_
  have hr := hl ▸ hi.registered
  have halive : ∀ c, (WsServer.answer c h).alive = true := fun _ => ha
  have haddr : ∀ c, (WsServer.answer c h).addr = h.addr := fun _ => rfl
  rw [if_pos (halive _)]
  rw [Handles.Distinct, hl] at hdistinct
  rcases hu ⟨h.val.sdata, s.worlds h.val.sdata.serverId, true, []⟩ rfl with ⟨hsame, rfl⟩ | rfl
  · exact hr.replace rfl hsame
  · exact hr.register hdistinct (haddr (f ⟨h.val.sdata, s.worlds h.val.sdata.serverId, true, []⟩))

theorem closeSocket (hi : Wired s) (hm : h ∈ s.sockets.live) : Wired (s.closeSocket h.addr) := by
  have ht := hi.tuned h (List.mem_filter.1 hm).1
  have hdistinct := hi.distinct
  refine hi.use hm (stays_shut _) (ht.shut (List.mem_filter.1 hm).2) rfl rfl fun l₁ l₂ hl => ?_
  rw [Handles.Distinct, hl] at hdistinct
  exact (hl ▸ hi.registered).unregister hdistinct

/-- A callback has run that publishes nothing. -/
theorem advance (hi : Wired s) {c : WsCallback} (hc : ∀ g, publishesTo g [c] = []) :
    Wired { s with ran := s.ran ++ [c] } :=
  ⟨hi.sound, hi.distinct, hi.registered, fun h hm => (hi.tuned h hm).append fun _ => hc _⟩

/-- A callback sets nothing but what is deferred. -/
theorem setDeferred (hi : Wired s) (deferred : List WsCallback) : Wired { s with deferred } :=
  ⟨hi.sound, hi.distinct, hi.registered, hi.tuned⟩

theorem publishEvent (hi : Wired s) (g : Nat) (m : List UInt8) : Wired
    { s.runCallback (.publishEvent g m) with ran := s.ran ++ [.publishEvent g m] } where
  sound := hi.sound
  distinct := hi.distinct.map (stays_receive _ m)
  registered := by
    have hlive : Handles.live (s.runCallback (.publishEvent g m)).sockets =
        s.sockets.live.map (receive (getPlayerTopic g) m) := by
      rw [Handles.live, runCallback, List.filter_map, Handles.live]
      refine congrArg _ (List.filter_congr fun h _ => ?_)
      exact receive_alive _ m h
    change Registered s.umap (Handles.live (s.runCallback (.publishEvent g m)).sockets)
    rw [hlive]
    exact hi.registered.map (fun h => (stays_receive _ m).addr h) (receive_sdata _ m)
  tuned h hh := by
    obtain ⟨h', hm, rfl⟩ := List.mem_map.1 hh
    exact (hi.tuned h' hm).receive g m

theorem sendEvent (hi : Wired s) (u : Nat) (m : List UInt8) : Wired
    { s.runCallback (.sendEvent u m) with ran := s.ran ++ [.sendEvent u m] } := by
  cases hget : getUserWs u s.umap with
  | none =>
    simp only [runCallback, hget]
    exact ⟨hi.sound, hi.distinct, hi.registered,
      fun h hm => (hi.tuned h hm).append fun _ => rfl⟩
  | some ws =>
    obtain ⟨h, hm, rfl, -⟩ := hi.registered.isOpen _ (getUserWs_eq_some hget)
    have ht := hi.tuned h (List.mem_filter.1 hm).1
    simp only [runCallback, hget]
    have hsent : Wired { s with sockets := s.sockets.use h.addr (deliver m) } := by
      refine hi.use hm (stays_deliver m) (ht.deliver m) rfl rfl fun l₁ l₂ hl => ?_
      have halive : (deliver m h).alive = true := (List.mem_filter.1 hm).2
      rw [if_pos halive]
      exact (hl ▸ hi.registered).replace rfl rfl
    exact hsent.advance fun _ => rfl

/-- The sockets at the addresses `xs` are closed, one after the other. -/
theorem closeAll (xs : List Nat) : ∀ {s : WsServer}, Wired s → xs.Nodup →
    (∀ ws ∈ xs, ws ∈ s.sockets.live.map (·.addr)) →
    Wired (xs.foldl (fun s ws => s.closeSocket ws) s) := by
  induction xs with
  | nil => exact fun hi _ _ => hi
  | cons ws xs ih =>
    intro s hi hn hlive
    obtain ⟨hws, hxs⟩ := List.nodup_cons.1 hn
    obtain ⟨h, hm, rfl⟩ := List.mem_map.1 (hlive ws List.mem_cons_self)
    refine ih (hi.closeSocket hm) hxs fun ws' hws' => ?_
    obtain ⟨l₁, l₂, hl, huse⟩ := hi.distinct.live_use hm
    have hne : ws' ≠ h.addr := fun he => hws (he ▸ hws')
    have hmem := hlive ws' (List.mem_cons_of_mem _ hws')
    have hgone : (s.closeSocket h.addr).sockets.live = l₁ ++ l₂ := huse (shut s.ran)
    rw [hl] at hmem
    rw [hgone]
    simpa [hne] using hmem

theorem close (hi : Wired s) : Wired { s.runCallback .close with ran := s.ran ++ [.close] } := by
  have hclosed : Wired (s.runCallback .close) := closeAll _ hi hi.distinct fun _ h => h
  have hran : (s.runCallback .close).ran = s.ran := (foldl_closeSocket _ s).1
  rw [← hran]
  exact hclosed.advance fun _ => rfl

theorem next (hi : Wired s) : ∀ c : WsCallback,
    Wired { s.runCallback c with ran := s.ran ++ [c] }
  | .publishEvent g m => hi.publishEvent g m
  | .sendEvent u m => hi.sendEvent u m
  | .close => hi.close

variable {trackData : MCTrack → Json} {playbackInfo : World → Json}
  {fxStates : GuildPlayer → Json} {toSnowflake : String → Nat} {parse : String → Option Json}

theorem connect (hi : Wired s) {ws : Nat} {sdata : SocketData} {sockets : Handles Socket}
    (hu : sdata.userId = 0) (hc : s.sockets.create ws (newSocket sdata s.ran) = some sockets) :
    Wired ({ s with sockets }.runHandler (openSocket trackData playbackInfo fxStates)
      { addr := ws, val := newSocket sdata s.ran }).1 := by
  have hd := hi.distinct.create hc
  obtain ⟨-, rfl⟩ := Handles.create_eq_some.1 hc
  have hlive : Handles.live { s.sockets with
      all := s.sockets.all ++ [{ addr := ws, val := newSocket sdata s.ran }] } =
      s.sockets.live ++ [{ addr := ws, val := newSocket sdata s.ran }] := by
    simp [Handles.live]
  have hnew : Wired { s with sockets := { s.sockets with
      all := s.sockets.all ++ [{ addr := ws, val := newSocket sdata s.ran }] } } := {
    sound := hi.sound
    distinct := hd
    registered := hlive ▸ hi.registered.append hu
    tuned := fun h hm => by
      rcases List.mem_append.1 hm with hm | hm
      · exact hi.tuned h hm
      · exact List.mem_singleton.1 hm ▸ Tuned.new ws sdata s.ran }
  have hm : { addr := ws, val := newSocket sdata s.ran } ∈ Handles.live { s.sockets with
      all := s.sockets.all ++ [{ addr := ws, val := newSocket sdata s.ran }] } := by
    simp [hlive]
  have hsdata := openSocket_sdata trackData playbackInfo fxStates
  exact hnew.handled hm (fun c => by rw [hsdata]) fun c _ => .inl ⟨by rw [hsdata], rfl⟩

theorem onMessage (hi : Wired s) (hm : h ∈ s.sockets.live) (msg : String) :
    Wired (s.onMessage trackData toSnowflake parse msg h) := by
  have hid := message_identity trackData toSnowflake parse msg
  have hopen : ∀ (c : Conn), answer c h ∈ (s.sockets.use h.addr (answer c)).live := by
    intro c
    obtain ⟨l₁, l₂, -, huse⟩ := hi.distinct.live_use hm
    have halive : (answer c h).alive = true := (List.mem_filter.1 hm).2
    rw [huse, if_pos halive]
    simp
  unfold WsServer.onMessage
  dsimp only
  cases hreg : registeredUid parse msg with
  | none =>
    have ht := hi.handled hm (fun c => (hid c).1) fun c _ =>
      .inl ⟨by simpa only [hreg] using (hid c).2, rfl⟩
    split
    · exact ht
    · exact ht.closeSocket (h := answer _ h) (hopen _)
  | some uid =>
    have huser : ∀ c, (message trackData toSnowflake parse msg c).sdata.userId = toSnowflake uid :=
      fun c => by simpa only [hreg] using (hid c).2
    have ht := hi.handled hm (fun c => (hid c).1) fun c _ =>
      .inr (congrArg (registerWsUser h.addr · s.umap) (huser c).symm)
    dsimp only
    split
    · exact ht
    · exact ht.closeSocket (h := answer _ h) (hopen _)

theorem step (hi : Wired s) {a : SocketAction}
    (h : s.step trackData playbackInfo fxStates toSnowflake parse a = some t) : Wired t := by
  cases a with
  | connect ws req =>
    obtain ⟨sdata, hup, h⟩ := Option.bind_eq_some_iff.1 h
    obtain ⟨sockets, hc, rfl⟩ := Option.map_eq_some_iff.1 h
    exact hi.connect (upgrade_userId toSnowflake hup) hc
  | message ws msg =>
    obtain ⟨x, hf, rfl⟩ := Option.map_eq_some_iff.1 h
    have hx := Handles.isAt_iff.1 (List.find?_some hf)
    exact hi.onMessage (List.mem_filter.2 ⟨List.mem_of_find?_eq_some hf, hx.1⟩) msg
  | disconnect ws =>
    obtain ⟨x, hf, rfl⟩ := Option.map_eq_some_iff.1 h
    have hx := Handles.isAt_iff.1 (List.find?_some hf)
    exact hi.closeSocket (List.mem_filter.2 ⟨List.mem_of_find?_eq_some hf, hx.1⟩)
  | world g w =>
    cases h
    exact ⟨hi.sound, hi.distinct, hi.registered, hi.tuned⟩
  | defer c =>
    cases h
    exact hi.setDeferred _
  | next =>
    cases hd : s.deferred with
    | nil => simp [WsServer.step, hd] at h
    | cons c deferred =>
      simp only [WsServer.step, hd, Option.some.injEq] at h
      exact h ▸ (hi.setDeferred deferred).next c

end Wired

/-! ## What becomes of a message to a user -/

/-- What was sent to a socket with `send_event`. -/
def directs (h : Handle Socket) : List (Nat × List UInt8) := h.val.got.filterMap directOf

/-- What was sent to users has come to their sockets, or to nobody. -/
def Accounted (s : WsServer) : Prop :=
  (sendsOf s.ran).Perm (s.sockets.all.flatMap directs ++ s.dropped)

theorem flatMap_map_directs (hf : ∀ h, directs (f h) = directs h) (l : List (Handle Socket)) :
    (l.map f).flatMap directs = l.flatMap directs := by
  rw [List.flatMap_map]
  exact List.flatMap_congr fun h _ => hf h

theorem flatMap_use_directs (hf : ∀ h, directs (f h) = directs h) (ws : Nat)
    (r : Handles Socket) : (r.use ws f).all.flatMap directs = r.all.flatMap directs := by
  unfold Handles.use
  split
  · refine flatMap_map_directs (fun h => ?_) _
    split
    · exact hf h
    · rfl
  · rfl

theorem directs_answer (c : Conn) (h : Handle Socket) : directs (answer c h) = directs h := by
  have hnone : (c.sent.map Delivery.reply).filterMap directOf = [] :=
    List.filterMap_eq_nil_iff.2 fun x hx => by
      obtain ⟨m, -, rfl⟩ := List.mem_map.1 hx
      rfl
  rw [directs, answer, List.filterMap_append, hnone, List.append_nil]
  rfl

theorem directs_shut (ran : List WsCallback) (h : Handle Socket) :
    directs (shut ran h) = directs h := rfl

theorem directs_receive (topic : String) (m : List UInt8) (h : Handle Socket) :
    directs (receive topic m h) = directs h := by
  unfold receive
  split
  · simp [directs, directOf]
  · rfl

theorem directs_deliver (m : List UInt8) (h : Handle Socket) :
    directs (deliver m h) = directs h ++ [(h.val.sdata.userId, m)] := by
  simp [directs, deliver, directOf]

/-- What a step without a callback leaves as it is. -/
structure Framed (s t : WsServer) : Prop where
  ran : t.ran = s.ran
  deferred : t.deferred = s.deferred
  dropped : t.dropped = s.dropped
  directs : t.sockets.all.flatMap directs = s.sockets.all.flatMap directs

theorem Framed.trans {u : WsServer} (h : Framed s t) (h' : Framed t u) : Framed s u :=
  ⟨h'.ran.trans h.ran, h'.deferred.trans h.deferred, h'.dropped.trans h.dropped,
    h'.directs.trans h.directs⟩

theorem framed_closeSocket (ws : Nat) (s : WsServer) : Framed s (s.closeSocket ws) :=
  ⟨rfl, rfl, rfl, flatMap_use_directs (directs_shut _) ws _⟩

theorem framed_runHandler (f : Conn → Conn) (h : Handle Socket) (s : WsServer) :
    Framed s (s.runHandler f h).1 :=
  ⟨rfl, rfl, rfl, flatMap_use_directs (directs_answer _) _ _⟩

theorem framed_closeAll (xs : List Nat) : ∀ s : WsServer,
    Framed s (xs.foldl (fun s ws => s.closeSocket ws) s) := by
  induction xs with
  | nil => exact fun s => ⟨rfl, rfl, rfl, rfl⟩
  | cons ws xs ih => exact fun s => (framed_closeSocket ws s).trans (ih _)

section
variable {trackData : MCTrack → Json} {playbackInfo : World → Json}
  {fxStates : GuildPlayer → Json} {toSnowflake : String → Nat} {parse : String → Option Json}

theorem framed_onMessage (msg : String) (h : Handle Socket) (s : WsServer) :
    Framed s (s.onMessage trackData toSnowflake parse msg h) := by
  have hrun := framed_runHandler (message trackData toSnowflake parse msg) h s
  unfold onMessage
  dsimp only
  have hmap : ∀ umap, Framed s { (s.runHandler (message trackData toSnowflake parse msg) h).1 with
      umap } := fun _ => ⟨hrun.ran, hrun.deferred, hrun.dropped, hrun.directs⟩
  cases registeredUid parse msg with
  | none =>
    dsimp only
    split
    · exact hrun
    · exact hrun.trans (framed_closeSocket _ _)
  | some uid =>
    dsimp only
    split
    · exact hmap _
    · exact (hmap _).trans (framed_closeSocket _ _)

theorem Accounted.framed (ha : Accounted s) (hf : Framed s t) : Accounted t := by
  rw [Accounted, hf.ran, hf.directs, hf.dropped]
  exact ha

/-- The callbacks run in the order in which they were deferred, and each message to a user comes
to one socket or to none. -/
theorem next_accounted (hi : Wired s) (ha : Accounted s) (c : WsCallback) :
    Accounted { s.runCallback c with ran := s.ran ++ [c] } ∧
      (s.runCallback c).deferred = s.deferred := by
  rw [Accounted, sendsOf, List.filterMap_append, ← sendsOf]
  cases c with
  | publishEvent g m =>
    refine ⟨?_, rfl⟩
    simp only [runCallback, flatMap_map_directs (directs_receive _ m)]
    exact (List.append_nil _).symm ▸ ha
  | sendEvent u m =>
    cases hget : getUserWs u s.umap with
    | none =>
      refine ⟨?_, by simp only [runCallback, hget]⟩
      simp only [runCallback, hget]
      rw [← List.append_assoc]
      exact ha.append_right _
    | some ws =>
      obtain ⟨h, hm, rfl, rfl⟩ := hi.registered.isOpen _ (getUserWs_eq_some hget)
      obtain ⟨l₁, l₂, hall, huse⟩ := hi.distinct.split hm
      refine ⟨?_, by simp only [runCallback, hget]⟩
      simp only [runCallback, hget]
      have ha' := ha.append_right [(h.val.sdata.userId, m)]
      refine ha'.trans ?_
      simp only [hall, huse, List.flatMap_append, List.flatMap_cons, directs_deliver,
        List.append_assoc]
      refine List.Perm.append_left _ (List.Perm.append_left _ ?_)
      rw [← List.append_assoc, ← List.append_assoc]
      exact List.perm_append_comm.trans (by simp)
  | close =>
    have hf := framed_closeAll (s.sockets.live.map (·.addr)) s
    simp only [runCallback, hf.directs, hf.dropped]
    exact ⟨(List.append_nil _).symm ▸ ha, hf.deferred⟩

/-- What was deferred. -/
def posted (l : List SocketAction) : List WsCallback :=
  l.filterMap fun
    | .defer c => some c
    | _ => none

theorem posted_concat (l : List SocketAction) (a : SocketAction) :
    posted (l ++ [a]) = posted l ++ posted [a] := List.filterMap_append

/-- What the log says after a step. -/
theorem step_log {l : List SocketAction} {a : SocketAction} (hi : Wired s) (ha : Accounted s)
    (hp : s.ran ++ s.deferred = posted l)
    (h : s.step trackData playbackInfo fxStates toSnowflake parse a = some t) :
    Accounted t ∧ t.ran ++ t.deferred = posted (l ++ [a]) := by
  have framed : posted [a] = [] → Framed s t →
      Accounted t ∧ t.ran ++ t.deferred = posted (l ++ [a]) := fun hnil hf =>
    ⟨ha.framed hf, by rw [hf.ran, hf.deferred, hp, posted_concat, hnil, List.append_nil]⟩
  cases a with
  | connect ws req =>
    obtain ⟨sdata, hup, h⟩ := Option.bind_eq_some_iff.1 h
    obtain ⟨sockets, hc, rfl⟩ := Option.map_eq_some_iff.1 h
    obtain ⟨-, rfl⟩ := Handles.create_eq_some.1 hc
    have hnew : Framed s { s with sockets := { s.sockets with
        all := s.sockets.all ++ [{ addr := ws, val := newSocket sdata s.ran }] } } :=
      ⟨rfl, rfl, rfl, by simp [WsServer.directs, newSocket]⟩
    exact framed rfl (hnew.trans (framed_runHandler _ _ _))
  | message ws msg =>
    obtain ⟨x, hf, rfl⟩ := Option.map_eq_some_iff.1 h
    exact framed rfl (framed_onMessage msg x s)
  | disconnect ws =>
    obtain ⟨x, hf, rfl⟩ := Option.map_eq_some_iff.1 h
    exact framed rfl (framed_closeSocket _ s)
  | world g w =>
    cases h
    exact framed rfl ⟨rfl, rfl, rfl, rfl⟩
  | defer c =>
    cases h
    exact ⟨ha, by rw [posted_concat, ← hp, List.append_assoc]; rfl⟩
  | next =>
    cases hd : s.deferred with
    | nil => simp [WsServer.step, hd] at h
    | cons c deferred =>
      simp only [WsServer.step, hd, Option.some.injEq] at h
      obtain ⟨hacc, hdef⟩ := next_accounted (hi.setDeferred deferred) ha c
      cases h
      refine ⟨hacc, ?_⟩
      rw [posted_concat, ← hp, hd]
      simp only [hdef]
      simp [posted]

/-- **A dashboard message goes to the open sockets it is meant for**: an event is published to
those of its guild, and a message for a user is sent to one that is registered as the user. -/
theorem sockets_served {worlds : Nat → World} {l : List SocketAction}
    (h : run (WsServer.step trackData playbackInfo fxStates toSnowflake parse) { worlds } l =
      some s) :
    s.sockets.misused = false ∧
    s.ran ++ s.deferred = posted l ∧
    (∀ x ∈ s.sockets.all, x.val.got.filterMap publishedOf =
      publishesTo x.val.sdata.serverId (x.val.span.during s.ran)) ∧
    (∀ u ws, getUserWs u s.umap = some ws →
      ∃ x ∈ s.sockets.live, x.addr = ws ∧ x.val.sdata.userId = u) ∧
    (∀ x ∈ s.sockets.live, x.val.sdata.userId ≠ 0 →
      (getUserWs x.val.sdata.userId s.umap).isSome) ∧
    (sendsOf s.ran).Perm (s.sockets.all.flatMap directs ++ s.dropped) := by
  have hinit : Wired { worlds } :=
    ⟨rfl, List.nodup_nil, ⟨List.nodup_nil, by simp, by simp [Handles.live]⟩, by simp⟩
  obtain ⟨hi, ha, hp⟩ : Wired s ∧ Accounted s ∧ s.ran ++ s.deferred = posted l :=
    run_history (I := fun l s => Wired s ∧ Accounted s ∧ s.ran ++ s.deferred = posted l)
      (fun _ _ _ _ hI hs => ⟨hI.1.step hs, step_log hI.1 hI.2.1 hI.2.2 hs⟩)
      ⟨hinit, .refl _, rfl⟩ h
  exact ⟨hi.sound, hp, fun x hx => (hi.tuned x hx).published,
    fun u ws hget => hi.registered.isOpen _ (getUserWs_eq_some hget),
    fun x hx hne => getUserWs_isSome (hi.registered.known x hx hne), ha⟩

end

end

/-- Two sockets of one guild; the registered one goes away, and its address is used again. -/
def twoSockets : List SocketAction :=
  [.connect 100 (sampleRequest "1"), .connect 200 (sampleRequest "2"), .message 200 registerText,
    .defer (.sendEvent 1 [1]), .defer (.publishEvent 9 [2]), .next, .disconnect 200, .next,
    .connect 200 (sampleRequest "2"), .defer (.sendEvent 1 [3]), .defer (.publishEvent 9 [4]),
    .next, .next]

def sampleSocketStep : WsServer → SocketAction → Option WsServer :=
  step (fun _ => .null) (fun _ => .object []) (fun _ => .null) sampleSnowflake sampleParse

theorem sockets_served_twoSockets :
    ∃ s, run sampleSocketStep { worlds := fun _ => sampleWorld } twoSockets = some s ∧
      s.sockets.all.map (fun x => (x.addr, x.val.got.filterMap publishedOf, directs x)) =
        [(100, [[2], [4]], []), (200, [], [(1, [1])]), (200, [[4]], [])] ∧
      s.dropped = [(1, [3])] ∧
      s.sockets.misused = false ∧
      s.ran ++ s.deferred = posted twoSockets ∧
      (∀ x ∈ s.sockets.all, x.val.got.filterMap publishedOf =
        publishesTo x.val.sdata.serverId (x.val.span.during s.ran)) ∧
      (∀ u ws, getUserWs u s.umap = some ws →
        ∃ x ∈ s.sockets.live, x.addr = ws ∧ x.val.sdata.userId = u) ∧
      (∀ x ∈ s.sockets.live, x.val.sdata.userId ≠ 0 →
        (getUserWs x.val.sdata.userId s.umap).isSome) ∧
      (sendsOf s.ran).Perm (s.sockets.all.flatMap directs ++ s.dropped) := by
  obtain ⟨s, hs, hw⟩ := (Option.any_eq_true _ _).1 (by decide +kernel :
    (run sampleSocketStep { worlds := fun _ => sampleWorld } twoSockets).any fun s =>
      s.sockets.all.map (fun x => (x.addr, x.val.got.filterMap publishedOf, directs x)) =
        [(100, [[2], [4]], []), (200, [], [(1, [1])]), (200, [[4]], [])] ∧
      s.dropped = [(1, [3])])
  obtain ⟨hgot, hdropped⟩ := of_decide_eq_true hw
  exact ⟨s, hs, hgot, hdropped, sockets_served hs⟩

end WsServer

end Musicat.Server
