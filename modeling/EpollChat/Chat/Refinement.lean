import EpollChat.Chat.Room
import EpollChat.Chat.ServerRun

/-! The server refines the chat room. An observer who sees only the events of a
run, with the bytes that arrive, keeps the history of a room: who joined, which
texts the byte stream of each member holds so far, who left. What the server
sends to a connection is what the room shows to that member. -/

namespace EpollChat.Chat

open Cpp Framing Utils Net

/-- The texts among the callbacks of a parser. -/
def texts (callbacks : List Message) : List Bytes :=
  callbacks.filterMap fun
    | .textMessageToServer textMessage => some textMessage
    | _ => none

/-- The texts to the server in a whole byte stream. -/
def textsOf (stream : Bytes) : List Bytes := texts (parseData [] stream).1

/-- The texts of the stream that `data` completes. -/
def newTexts (stream data : Bytes) : List Bytes := (textsOf (stream ++ data)).drop (textsOf stream).length

/-- What is known from the events alone: how many connections have arrived, the
byte stream of each, and the history of the room. -/
structure Observer where
  arrivals : ℕ
  received : Address → Bytes
  history : List (Room.Happening Address Bytes)

namespace Observer

def init : Observer := ⟨0, fun _ => [], []⟩

def leave (o : Observer) (connection : Address) : Observer :=
  if connection ∈ Room.members o.history then { o with history := o.history ++ [.leave connection] } else o

/-- A connection that arrives joins, unless the room is full. Data and leaves are
those of members. -/
def observe (limit : UInt64) (o : Observer) : Event → Observer
  | .newConnection _ =>
    { o with
      arrivals := o.arrivals + 1
      history :=
        if (Room.members o.history).length < limit.toNat then o.history ++ [.join o.arrivals] else o.history }
  | .dataReceived connection data =>
    if connection ∈ Room.members o.history then
      { o with
        received := Function.update o.received connection (o.received connection ++ data)
        history := o.history ++ (newTexts (o.received connection) data).map (.say connection) }
    else o
  | .closed connection => o.leave connection
  | .error connection => o.leave connection

def run (limit : UInt64) (events : List Event) : Observer := events.foldl (observe limit) init

theorem run_concat (limit : UInt64) (events : List Event) (e : Event) :
    run limit (events ++ [e]) = (run limit events).observe limit e := by
  rw [run, List.foldl_concat]
  rfl

theorem observe_left (limit : UInt64) (o : Observer) {connection : Address} {e : Event}
    (he : e = .closed connection ∨ e = .error connection) : o.observe limit e = o.leave connection := by
  rcases he with rfl | rfl <;> rfl

end Observer

/-- The nick name of the `n`-th to join. -/
def nickNameOf (n : ℕ) : Bytes := clientNickName (UInt64.ofNat n)

/-- The message that shows a notice. -/
def Room.Notice.message : Room.Notice Bytes Bytes → Message
  | .present count => .serverInfoMessage (UInt64.ofNat count)
  | .said who what => .textMessageToClient who what
  | .gone who => .clientLeaveMessage who

/-! ### The texts of a stream -/

theorem texts_append (ms ns : List Message) : texts (ms ++ ns) = texts ms ++ texts ns := List.filterMap_append

theorem textsOf_append (stream data : Bytes) :
    textsOf (stream ++ data) = textsOf stream ++ texts (parser.drain ((parser.drain stream).2 ++ data)).1 := by
  simp only [textsOf, parseData_eq_drain, List.nil_append]
  rw [parser.drain_append, texts_append]

/-- The texts that data completes are those found by the parser that holds the
rest of the stream. -/
theorem newTexts_eq (stream data : Bytes) :
    newTexts stream data = texts (parseData (parser.drain stream).2 data).1 := by
  rw [newTexts, textsOf_append, List.drop_left, parseData_eq_drain]

/-! ### The live connections -/

theorem map_self_eraseP (connections : List ServerConnection) (connection : Address) :
    (connections.eraseP fun it => it.self = connection).map ServerConnection.self =
      (connections.map ServerConnection.self).erase connection := by
  induction connections with
  | nil => rfl
  | cons c connections ih =>
    by_cases h : c.self = connection
    · simp [h]
    · simp [h, ih]

theorem Session.mem_of_find? {s : Session} {connection : Address} {c : ServerConnection}
    (h : s.find? connection = some c) : c ∈ s.server.incomingConnections := List.mem_of_find?_eq_some h

theorem Session.not_mem_of_find? {s : Session} {connection : Address} (h : s.find? connection = none) :
    connection ∉ s.server.incomingConnections.map ServerConnection.self := by
  rw [Session.find?, List.find?_eq_none] at h
  intro hm
  obtain ⟨c, hc, rfl⟩ := List.mem_map.mp hm
  exact h c hc (by simp)

/-- The texts in what a connection sent reach the others. -/
theorem sentTo_callbacks (viewer : Address) (s : Server) (c : ServerConnection)
    (h : (s.incomingConnections.map ServerConnection.self).Nodup) (callbacks : List Message) :
    sentTo viewer (callbacks.flatMap (s.onCallback c)) =
      if viewer ∈ s.incomingConnections.map ServerConnection.self ∧ viewer ≠ c.self then
        (texts callbacks).map (.textMessageToClient c.nickName)
      else [] := by
  have htext (textMessage : Bytes) : sentTo viewer (s.onTextMessage c textMessage) =
      if viewer ∈ s.incomingConnections.map ServerConnection.self ∧ viewer ≠ c.self then
        [.textMessageToClient c.nickName textMessage] else [] := by
    rw [onTextMessage_eq, sentTo_broadcast _ (h.sublist (List.filter_sublist.map _))]
    congr 1
    simp only [List.mem_map, List.mem_filter, decide_eq_true_eq, eq_iff_iff]
    constructor
    · rintro ⟨d, ⟨hd, hne⟩, rfl⟩
      exact ⟨⟨d, hd, rfl⟩, hne⟩
    · rintro ⟨⟨d, hd, rfl⟩, hne⟩
      exact ⟨d, ⟨hd, hne⟩, rfl⟩
  induction callbacks with
  | nil => simp [texts]
  | cons m callbacks ih =>
    rw [List.flatMap_cons, sentTo_append, ih]
    cases m with
    | textMessageToServer textMessage =>
      have hcons : texts (.textMessageToServer textMessage :: callbacks) = textMessage :: texts callbacks := rfl
      rw [Server.onCallback, htext, hcons, List.map_cons]
      split <;> rfl
    | textMessageToClient nickName textMessage => rfl
    | clientLeaveMessage nickName => rfl
    | serverInfoMessage clientsCount => rfl

/-! ### The refinement -/

/-- The state of a run, as the observer of its events knows it. -/
structure Refines (limit : UInt64) (s : Session) (o : Observer) : Prop where
  limit_eq : s.server.incomingConnectionsLimit = limit
  arrivals : s.arrivals = o.arrivals
  live : s.server.incomingConnections.map ServerConnection.self = Room.members o.history
  counter : s.server.incomingConnectionsCounter = UInt64.ofNat (Room.joins o.history).length
  held : ∀ c ∈ s.server.incomingConnections, c.dataToParse = (parser.drain (o.received c.self)).2
  named : ∀ c ∈ s.server.incomingConnections, c.nickName = Room.nickOf nickNameOf o.history c.self
  joined : ∀ c ∈ Room.joins o.history, c < o.arrivals
  nodup : (Room.joins o.history).Nodup
  unread : ∀ c, o.arrivals ≤ c → o.received c = []
  bounded : (Room.members o.history).length ≤ limit.toNat
  counted : ∀ c n, .present n ∈ Room.view nickNameOf c o.history → n ≤ limit.toNat
  sent : ∀ c, sentTo c s.effects = (Room.view nickNameOf c o.history).map Room.Notice.message

namespace Refines

variable {limit : UInt64} {s : Session} {o : Observer}

theorem init (limit : UInt64) : Refines limit (.init limit) .init where
  limit_eq := rfl
  arrivals := rfl
  live := rfl
  counter := rfl
  held := by simp [Session.init, Server.init]
  named := by simp [Session.init, Server.init]
  joined := by simp [Observer.init]
  nodup := List.nodup_nil
  unread _ _ := rfl
  bounded := Nat.zero_le _
  counted c n h := absurd h List.not_mem_nil
  sent _ := rfl

theorem nodup_live (h : Refines limit s o) :
    (s.server.incomingConnections.map ServerConnection.self).Nodup := by
  rw [h.live]
  exact h.nodup.sublist (Room.members_sublist o.history)

theorem member_live (h : Refines limit s o) {c : ServerConnection} (hc : c ∈ s.server.incomingConnections) :
    c.self ∈ Room.members o.history := by
  rw [← h.live]
  exact List.mem_map_of_mem hc

theorem joined_live (h : Refines limit s o) {c : ServerConnection} (hc : c ∈ s.server.incomingConnections) :
    c.self ∈ Room.joins o.history := (Room.members_sublist o.history).subset (h.member_live hc)

theorem refused (h : Refines limit s o) (socket : TcpSocket)
    (hfull : limit.toNat ≤ s.server.incomingConnections.length) :
    Refines limit ⟨s.server, s.arrivals + 1, s.effects ++ [.destroySocket socket]⟩
      (o.observe limit (.newConnection socket)) := by
  have hlen : ¬ (Room.members o.history).length < limit.toNat := by
    rw [← h.live, List.length_map]
    omega
  rw [Observer.observe, if_neg hlen]
  exact { h with
    arrivals := congrArg (· + 1) h.arrivals
    joined := fun c hc => Nat.lt_succ_of_lt (h.joined c hc)
    unread := fun c hc => h.unread c (Nat.le_of_succ_le hc)
    sent := fun c => by simpa using h.sent c }

theorem accepted (h : Refines limit s o) (socket : TcpSocket)
    (hroom : s.server.incomingConnections.length < limit.toNat) {server : Server}
    (hs : server = ⟨s.server.incomingConnections ++
        [⟨s.arrivals, socket, clientNickName (s.server.incomingConnectionsCounter + 1), []⟩],
      s.server.incomingConnectionsCounter + 1, s.server.incomingConnectionsLimit⟩) :
    Refines limit
      ⟨server, s.arrivals + 1, s.effects ++
        .accept s.arrivals (clientNickName (s.server.incomingConnectionsCounter + 1)) :: server.notifyServerInfo⟩
      (o.observe limit (.newConnection socket)) := by
  have hlen : (Room.members o.history).length < limit.toNat := by
    rw [← h.live, List.length_map]
    exact hroom
  have hnew : o.arrivals ∉ Room.joins o.history := fun hm => Nat.lt_irrefl _ (h.joined _ hm)
  have hcounter : s.server.incomingConnectionsCounter + 1 = UInt64.ofNat ((Room.joins o.history).length + 1) := by
    rw [h.counter, UInt64.ofNat_add]
    rfl
  have hlive : server.incomingConnections.map ServerConnection.self =
      Room.members (o.history ++ [.join o.arrivals]) := by
    rw [hs, List.map_append, h.live, Room.members_join, ← h.arrivals]
    rfl
  have hnodup : (Room.joins (o.history ++ [.join o.arrivals])).Nodup := by
    rw [Room.joins_join]
    exact List.nodup_append.mpr ⟨h.nodup, by simp, by rintro a ha b hb rfl; simp_all⟩
  have hsize : server.size = UInt64.ofNat (Room.members (o.history ++ [.join o.arrivals])).length := by
    rw [Server.size, ← hlive, List.length_map]
  have hbounded : (Room.members (o.history ++ [.join o.arrivals])).length ≤ limit.toNat := by
    rw [Room.members_join, List.length_append]
    exact hlen
  rw [Observer.observe, if_pos hlen]
  refine ⟨?_, congrArg (· + 1) h.arrivals, hlive, ?_, ?_, ?_, ?_, hnodup, ?_, hbounded, fun c n hp => ?_, fun c => ?_⟩
  · rw [hs]; exact h.limit_eq
  · rw [hs, Room.joins_join, List.length_append]; exact hcounter
  · intro c hc
    rw [hs, List.mem_append, List.mem_singleton] at hc
    rcases hc with hc | rfl
    · exact h.held c hc
    · rw [h.unread _ (Nat.le_of_eq h.arrivals.symm), parser.drain_nil]
  · intro c hc
    rw [hs, List.mem_append, List.mem_singleton] at hc
    rcases hc with hc | rfl
    · rw [Room.nickOf_join (h.joined_live hc)]
      exact h.named c hc
    · dsimp only
      rw [h.arrivals, Room.nickOf_join_self hnew, hcounter]
      rfl
  · intro c hc
    rw [Room.joins_join, List.mem_append, List.mem_singleton] at hc
    rcases hc with hc | rfl
    · exact Nat.lt_succ_of_lt (h.joined c hc)
    · exact Nat.lt_succ_self _
  · exact fun c hc => h.unread c (Nat.le_of_succ_le hc)
  · rw [Room.view_concat, List.mem_append, Room.notices] at hp
    rcases hp with hp | hp
    · exact h.counted c n hp
    · split at hp
      · obtain rfl := Room.Notice.present.inj (List.mem_singleton.mp hp)
        exact hbounded
      · cases hp
  · have hn : (server.incomingConnections.map ServerConnection.self).Nodup := by
      rw [hlive]
      exact hnodup.sublist (Room.members_sublist _)
    rw [sentTo_append, h.sent, sentTo_accept, notifyServerInfo_eq, sentTo_broadcast c hn, hlive, hsize,
      Room.view_concat, List.map_append, Room.notices]
    congr 1
    split <;> rfl

theorem received (h : Refines limit s o) {c : ServerConnection} (hc : c ∈ s.server.incomingConnections)
    (data : DataBuffer) :
    Refines limit
      ⟨s.server.setDataToParse c.self (parseData c.dataToParse data).2, s.arrivals,
        s.effects ++ (parseData c.dataToParse data).1.flatMap (s.server.onCallback c)⟩
      (o.observe limit (.dataReceived c.self data)) := by
  have hnew : newTexts (o.received c.self) data = texts (parseData c.dataToParse data).1 := by
    rw [newTexts_eq, h.held c hc]
  rw [Observer.observe, if_pos (h.member_live hc)]
  refine ⟨h.limit_eq, h.arrivals, ?_, ?_, ?_, ?_, ?_, ?_, ?_, ?_, fun viewer n hp => ?_, fun viewer => ?_⟩
  · rw [map_self_setDataToParse, Room.members_says]; exact h.live
  · rw [Room.joins_says]; exact h.counter
  · intro d hd
    obtain ⟨b, hb, hself, -, -, hdata⟩ := mem_setDataToParse hd
    rw [hdata, hself]
    dsimp only
    split
    · next hbc =>
      rw [hbc, Function.update_self, parser.drain_append, parseData_eq_drain, h.held c hc]
    · next hbc => rw [Function.update_of_ne hbc]; exact h.held b hb
  · intro d hd
    obtain ⟨b, hb, hself, -, hname, -⟩ := mem_setDataToParse hd
    rw [Room.nickOf_says, hself, hname]
    exact h.named b hb
  · rw [Room.joins_says]; exact h.joined
  · rw [Room.joins_says]; exact h.nodup
  · intro d hd
    have hdc : d ≠ c.self := by
      rintro rfl
      exact Nat.not_lt.mpr hd (h.joined _ (h.joined_live hc))
    dsimp only
    rw [Function.update_of_ne hdc]
    exact h.unread d hd
  · rw [Room.members_says]; exact h.bounded
  · rw [Room.view_says, List.mem_append] at hp
    rcases hp with hp | hp
    · exact h.counted viewer n hp
    · split at hp
      · obtain ⟨_, -, he⟩ := List.mem_map.mp hp
        cases he
      · cases hp
  · rw [sentTo_append, h.sent, sentTo_callbacks viewer s.server c h.nodup_live, Room.view_says, List.map_append,
      hnew, h.live, h.named c hc]
    congr 1
    split
    · rw [List.map_map]; rfl
    · rfl

theorem left (h : Refines limit s o) {c : ServerConnection} (hc : c ∈ s.server.incomingConnections)
    {server : Server}
    (hs : server = ⟨s.server.incomingConnections.eraseP fun it => it.self = c.self,
      s.server.incomingConnectionsCounter, s.server.incomingConnectionsLimit⟩) :
    Refines limit
      ⟨server, s.arrivals, s.effects ++
        .destroySocket c.socket :: (server.notifyServerInfo ++ server.notifyClientLeave c.nickName)⟩
      (o.leave c.self) := by
  have hlive : server.incomingConnections.map ServerConnection.self =
      Room.members (o.history ++ [.leave c.self]) := by
    rw [hs, map_self_eraseP, h.live, Room.members_leave]
  have hsize : server.size = UInt64.ofNat (Room.members (o.history ++ [.leave c.self])).length := by
    rw [Server.size, ← hlive, List.length_map]
  have hsub : ∀ d ∈ server.incomingConnections, d ∈ s.server.incomingConnections := by
    rw [hs]
    exact fun d hd => List.mem_of_mem_eraseP hd
  rw [Observer.leave, if_pos (h.member_live hc)]
  have hbounded : (Room.members (o.history ++ [.leave c.self])).length ≤ limit.toNat := by
    rw [Room.members_leave]
    exact List.erase_sublist.length_le.trans h.bounded
  refine ⟨by rw [hs]; exact h.limit_eq, h.arrivals, hlive, ?_, fun d hd => h.held d (hsub d hd), ?_, ?_, ?_,
    h.unread, hbounded, fun viewer n hp => ?_, fun viewer => ?_⟩
  · rw [hs, Room.joins_leave]; exact h.counter
  · intro d hd
    rw [Room.nickOf_leave]
    exact h.named d (hsub d hd)
  · rw [Room.joins_leave]; exact h.joined
  · rw [Room.joins_leave]; exact h.nodup
  · rw [Room.view_concat, List.mem_append, Room.notices] at hp
    rcases hp with hp | hp
    · exact h.counted viewer n hp
    · split at hp
      · rw [List.mem_pair] at hp
        rcases hp with hp | hp
        · obtain rfl := Room.Notice.present.inj hp
          exact hbounded
        · cases hp
      · cases hp
  · have hn : (server.incomingConnections.map ServerConnection.self).Nodup := by
      rw [hlive, Room.members_leave]
      exact (h.nodup.sublist (Room.members_sublist _)).erase _
    rw [sentTo_append, h.sent, sentTo_destroySocket, sentTo_append, notifyServerInfo_eq, notifyClientLeave_eq,
      sentTo_broadcast viewer hn, sentTo_broadcast viewer hn, hlive, hsize, Room.view_concat, List.map_append,
      Room.notices, h.named c hc]
    congr 1
    split <;> rfl

/-- What the server does on an event, the observer understands. -/
theorem step (h : Refines limit s o) {e : Event} {s' : Session} (hs : Session.Stepped s e s') :
    Refines limit s' (o.observe limit e) := by
  cases hs with
  | refused socket hfull => exact h.refused socket (h.limit_eq ▸ hfull)
  | accepted socket server hroom hs => exact h.accepted socket (h.limit_eq ▸ hroom) hs
  | received c data hfind => exact h.received (Session.mem_of_find? hfind) data
  | left c e he hfind server hs =>
    rw [Observer.observe_left limit o he]
    exact h.left (Session.mem_of_find? hfind) hs
  | ignored connection e he hfind =>
    have hmem : connection ∉ Room.members o.history := by
      rw [← h.live]
      exact Session.not_mem_of_find? hfind
    rcases he with ⟨data, rfl⟩ | rfl | rfl
    · rwa [Observer.observe, if_neg hmem]
    · rwa [Observer.observe, Observer.leave, if_neg hmem]
    · rwa [Observer.observe, Observer.leave, if_neg hmem]

theorem run (limit : UInt64) (events : List Event) :
    Refines limit (Session.run limit events) (Observer.run limit events) := by
  induction events using List.reverseRecOn with
  | nil => exact Refines.init limit
  | append_singleton events e ih =>
    rw [Session.run_concat, Observer.run_concat]
    exact ih.step (Session.step_stepped _ e)

end Refines

/-- Callbacks without a text do nothing. -/
theorem callbacks_eq_nil (s : Server) (c : ServerConnection) {callbacks : List Message} (h : texts callbacks = []) :
    callbacks.flatMap (s.onCallback c) = [] := by
  rw [List.flatMap_eq_nil_iff]
  intro m hm
  cases m with
  | textMessageToServer textMessage =>
    have htext : textMessage ∈ texts callbacks := List.mem_filterMap.mpr ⟨_, hm, rfl⟩
    rw [h] at htext
    cases htext
  | textMessageToClient nickName textMessage => rfl
  | clientLeaveMessage nickName => rfl
  | serverInfoMessage clientsCount => rfl

/-- In every run, the buffers sent to a connection encode what the room shows to
it, with the nick name that the connection of each member has and with exact
counts; nothing is sent to the connection that data comes from, and nothing at
all where the data completes no text. -/
theorem server_refines_room (limit : UInt64) (events : List Event) (c : Address) :
    let s := Session.run limit events
    let o := Observer.run limit events
    s.server.incomingConnections.map ServerConnection.self = Room.members o.history ∧
    (∀ d ∈ s.server.incomingConnections, d.nickName = Room.nickOf nickNameOf o.history d.self) ∧
    (sentTo c s.effects).map Message.build =
      (Room.view nickNameOf c o.history).map (fun notice => notice.message.build) ∧
    (∀ n, .present n ∈ Room.view nickNameOf c o.history → (UInt64.ofNat n).toNat = n) ∧
    (∀ data, sentTo c (s.step (.dataReceived c data)).effects = sentTo c s.effects) ∧
    (∀ sender data, newTexts (o.received sender) data = [] →
      (s.step (.dataReceived sender data)).effects = s.effects) := by
  intro s o
  have h : Refines limit s o := Refines.run limit events
  refine ⟨h.live, h.named, ?_, fun n hp => ?_, fun data => ?_, fun sender data hnone => ?_⟩
  · rw [h.sent, List.map_map]
    rfl
  · exact UInt64.toNat_ofNat_of_lt' (Nat.lt_of_le_of_lt (h.counted c n hp) limit.toNat_lt)
  · rw [Session.step]
    cases hfind : s.find? c with
    | none => rfl
    | some d =>
      obtain rfl := Session.self_of_find? hfind
      dsimp only [Session.perform, Server.onDataReceived]
      rw [sentTo_append, sentTo_callbacks d.self s.server d h.nodup_live, if_neg (fun hne => hne.2 rfl),
        List.append_nil]
  · rw [Session.step]
    cases hfind : s.find? sender with
    | none => rfl
    | some d =>
      obtain rfl := Session.self_of_find? hfind
      rw [newTexts_eq, ← h.held d (Session.mem_of_find? hfind)] at hnone
      dsimp only [Session.perform, Server.onDataReceived]
      rw [callbacks_eq_nil s.server d hnone, List.append_nil]

end EpollChat.Chat
