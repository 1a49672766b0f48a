import Mathlib.Data.List.Induction
import EpollChat.Chat.Server

/-! Runs of the server: any sequence of arriving connections, received data and
closed connections. One inversion lemma says all that an event can do; the
invariants of the runs are proved from it. -/

namespace EpollChat.Chat

open Cpp Utils Net

/-- What can happen to a server. -/
inductive Event where
  | newConnection (newIncomingSocket : TcpSocket)
  | dataReceived (connection : Address) (data : DataBuffer)
  | closed (connection : Address)
  | error (connection : Address)
  deriving DecidableEq

/-- A run of the server: its state, how many connections have arrived, and all it
has done. The address of an arriving connection is its number, so no two objects
of the run are confused. -/
structure Session where
  server : Server
  arrivals : ℕ
  effects : List Effect
  deriving DecidableEq

namespace Session

def init (incomingConnectionsLimit : UInt64) : Session := ⟨.init incomingConnectionsLimit, 0, []⟩

def find? (s : Session) (connection : Address) : Option ServerConnection :=
  s.server.incomingConnections.find? fun it => it.self = connection

def perform (s : Session) (r : Server × List Effect) : Session :=
  { s with server := r.1, effects := s.effects ++ r.2 }

/-- One event. Only a live connection receives data or is closed: an event of
any other connection is no event. -/
def step (s : Session) : Event → Session
  | .newConnection socket => { s.perform (s.server.onNewConnection socket s.arrivals) with arrivals := s.arrivals + 1 }
  | .dataReceived connection data => match s.find? connection with
    | none => s
    | some c => s.perform (s.server.onDataReceived c data)
  | .closed connection => match s.server.onConnectionClosed connection with
    | none => s
    | some r => s.perform r
  | .error connection => match s.server.onConnectionClosed connection with
    | none => s
    | some r => s.perform r

def run (limit : UInt64) (events : List Event) : Session := events.foldl step (init limit)

theorem run_concat (limit : UInt64) (events : List Event) (e : Event) :
    run limit (events ++ [e]) = (run limit events).step e := by
  rw [run, List.foldl_concat]
  rfl

end Session

/-- The messages sent to a connection, in order. -/
def sentTo (connection : Address) (effects : List Effect) : List Message :=
  effects.filterMap fun
    | .send receiver message => if receiver = connection then some message else none
    | _ => none

/-- The nick names given, in order. -/
def acceptedNickNames (effects : List Effect) : List Bytes :=
  effects.filterMap fun
    | .accept _ nickName => some nickName
    | _ => none

/-! ### What one event does -/

namespace Session

/-- The outcomes of an event. -/
inductive Stepped (s : Session) : Event → Session → Prop
  | refused (socket : TcpSocket)
      (h : s.server.incomingConnectionsLimit.toNat ≤ s.server.incomingConnections.length) :
      Stepped s (.newConnection socket)
        ⟨s.server, s.arrivals + 1, s.effects ++ [.destroySocket socket]⟩
  | accepted (socket : TcpSocket) (server : Server)
      (h : s.server.incomingConnections.length < s.server.incomingConnectionsLimit.toNat)
      (hs : server = ⟨s.server.incomingConnections ++
          [⟨s.arrivals, socket, clientNickName (s.server.incomingConnectionsCounter + 1), []⟩],
        s.server.incomingConnectionsCounter + 1, s.server.incomingConnectionsLimit⟩) :
      Stepped s (.newConnection socket)
        ⟨server, s.arrivals + 1, s.effects ++
          .accept s.arrivals (clientNickName (s.server.incomingConnectionsCounter + 1)) :: server.notifyServerInfo⟩
  | received (c : ServerConnection) (data : DataBuffer) (h : s.find? c.self = some c) :
      Stepped s (.dataReceived c.self data)
        ⟨s.server.setDataToParse c.self (parseData c.dataToParse data).2, s.arrivals,
          s.effects ++ (parseData c.dataToParse data).1.flatMap (s.server.onCallback c)⟩
  | left (c : ServerConnection) (e : Event) (he : e = .closed c.self ∨ e = .error c.self)
      (h : s.find? c.self = some c) (server : Server)
      (hs : server = ⟨s.server.incomingConnections.eraseP fun it => it.self = c.self,
        s.server.incomingConnectionsCounter, s.server.incomingConnectionsLimit⟩) :
      Stepped s e
        ⟨server, s.arrivals, s.effects ++
          .destroySocket c.socket :: (server.notifyServerInfo ++ server.notifyClientLeave c.nickName)⟩
  | ignored (connection : Address) (e : Event)
      (he : (∃ data, e = .dataReceived connection data) ∨ e = .closed connection ∨ e = .error connection)
      (h : s.find? connection = none) : Stepped s e s

theorem self_of_find? {s : Session} {connection : Address} {c : ServerConnection}
    (h : s.find? connection = some c) : c.self = connection := by
  simpa using List.find?_some h

theorem step_stepped (s : Session) (e : Event) : Stepped s e (s.step e) := by
  cases e with
  | newConnection socket =>
    rw [step, perform, Server.onNewConnection]
    split
    · next h => exact .refused socket h
    · next h => exact .accepted socket _ (Nat.not_le.mp h) rfl
  | dataReceived connection data =>
    rw [step]
    cases h : s.find? connection with
    | none => exact .ignored connection _ (.inl ⟨data, rfl⟩) h
    | some c =>
      obtain rfl := self_of_find? h
      exact .received c data h
  | closed connection =>
    rw [step, Server.onConnectionClosed, Server.removeClient]
    cases h : s.find? connection with
    | none =>
      rw [find?] at h
      rw [h]
      exact .ignored connection _ (.inr (.inl rfl)) h
    | some c =>
      obtain rfl := self_of_find? h
      rw [find?] at h
      rw [h]
      exact .left c _ (.inl rfl) h _ rfl
  | error connection =>
    rw [step, Server.onConnectionClosed, Server.removeClient]
    cases h : s.find? connection with
    | none =>
      rw [find?] at h
      rw [h]
      exact .ignored connection _ (.inr (.inr rfl)) h
    | some c =>
      obtain rfl := self_of_find? h
      rw [find?] at h
      rw [h]
      exact .left c _ (.inr rfl) h _ rfl

/-- An event only adds to what was done. -/
theorem Stepped.effects_append {s s' : Session} {e : Event} (h : Stepped s e s') :
    ∃ more, s'.effects = s.effects ++ more := by
  cases h with
  | refused => exact ⟨_, rfl⟩
  | accepted => exact ⟨_, rfl⟩
  | received => exact ⟨_, rfl⟩
  | left => exact ⟨_, rfl⟩
  | ignored => exact ⟨[], (List.append_nil _).symm⟩

/-- An invariant of the steps holds in every state of every run. -/
theorem run_induction {I : Session → Prop} (limit : UInt64) (hinit : I (init limit))
    (hstep : ∀ s e s', I s → Stepped s e s' → I s') (events : List Event) : I (run limit events) := by
  induction events using List.reverseRecOn with
  | nil => exact hinit
  | append_singleton events e ih =>
    rw [run_concat]
    exact hstep _ e _ ih (step_stepped _ e)

end Session

/-! ### Keeping what is not parsed -/

@[simp] theorem map_self_setDataToParse (s : Server) (connection : Address) (data : DataBuffer) :
    (s.setDataToParse connection data).incomingConnections.map ServerConnection.self =
      s.incomingConnections.map ServerConnection.self := by
  rw [Server.setDataToParse, List.map_map]
  apply List.map_congr_left
  intro it _
  simp only [Function.comp]
  split <;> rfl

theorem mem_setDataToParse {s : Server} {connection : Address} {data : DataBuffer} {c : ServerConnection}
    (h : c ∈ (s.setDataToParse connection data).incomingConnections) :
    ∃ d ∈ s.incomingConnections, c.self = d.self ∧ c.socket = d.socket ∧ c.nickName = d.nickName ∧
      c.dataToParse = if d.self = connection then data else d.dataToParse := by
  rw [Server.setDataToParse, List.mem_map] at h
  obtain ⟨d, hd, rfl⟩ := h
  refine ⟨d, hd, ?_⟩
  split <;> exact ⟨rfl, rfl, rfl, rfl⟩

/-! ### Reading the effects -/

/-- The same message sent to each connection. -/
def broadcast (connections : List ServerConnection) (message : Message) : List Effect :=
  connections.map fun it => .send it.self message

theorem notifyServerInfo_eq (s : Server) :
    s.notifyServerInfo = broadcast s.incomingConnections (.serverInfoMessage s.size) := rfl

theorem notifyClientLeave_eq (s : Server) (nickName : Bytes) :
    s.notifyClientLeave nickName = broadcast s.incomingConnections (.clientLeaveMessage nickName) := rfl

theorem onTextMessage_eq (s : Server) (connection : ServerConnection) (textMessage : Bytes) :
    s.onTextMessage connection textMessage =
      broadcast (s.incomingConnections.filter fun it => it.self ≠ connection.self)
        (.textMessageToClient connection.nickName textMessage) := rfl

@[simp] theorem acceptedNickNames_append (es fs : List Effect) :
    acceptedNickNames (es ++ fs) = acceptedNickNames es ++ acceptedNickNames fs := List.filterMap_append

@[simp] theorem acceptedNickNames_nil : acceptedNickNames [] = [] := rfl

@[simp] theorem acceptedNickNames_accept (connection : Address) (nickName : Bytes) (es : List Effect) :
    acceptedNickNames (.accept connection nickName :: es) = nickName :: acceptedNickNames es := rfl

@[simp] theorem acceptedNickNames_destroySocket (socket : TcpSocket) (es : List Effect) :
    acceptedNickNames (.destroySocket socket :: es) = acceptedNickNames es := rfl

@[simp] theorem acceptedNickNames_broadcast (connections : List ServerConnection) (message : Message) :
    acceptedNickNames (broadcast connections message) = [] := by
  induction connections with
  | nil => rfl
  | cons c connections ih => exact ih

@[simp] theorem acceptedNickNames_onCallback (s : Server) (c : ServerConnection) (callbacks : List Message) :
    acceptedNickNames (callbacks.flatMap (s.onCallback c)) = [] := by
  induction callbacks with
  | nil => rfl
  | cons m callbacks ih =>
    rw [List.flatMap_cons, acceptedNickNames_append, ih, List.append_nil]
    cases m <;> first | rfl | exact acceptedNickNames_broadcast _ _

@[simp] theorem sentTo_nil (c : Address) : sentTo c [] = [] := rfl

@[simp] theorem sentTo_append (c : Address) (es fs : List Effect) :
    sentTo c (es ++ fs) = sentTo c es ++ sentTo c fs := List.filterMap_append

@[simp] theorem sentTo_accept (c connection : Address) (nickName : Bytes) (es : List Effect) :
    sentTo c (.accept connection nickName :: es) = sentTo c es := rfl

@[simp] theorem sentTo_destroySocket (c : Address) (socket : TcpSocket) (es : List Effect) :
    sentTo c (.destroySocket socket :: es) = sentTo c es := rfl

theorem sentTo_send (c receiver : Address) (message : Message) (es : List Effect) :
    sentTo c (.send receiver message :: es) = (if receiver = c then [message] else []) ++ sentTo c es := by
  by_cases h : receiver = c <;> simp [sentTo, h]

/-- A broadcast reaches each of its connections once. -/
theorem sentTo_broadcast (c : Address) {connections : List ServerConnection}
    (h : (connections.map ServerConnection.self).Nodup) (message : Message) :
    sentTo c (broadcast connections message) =
      if c ∈ connections.map ServerConnection.self then [message] else [] := by
  induction connections with
  | nil => rfl
  | cons d connections ih =>
    rw [List.map_cons, List.nodup_cons] at h
    rw [broadcast, List.map_cons, sentTo_send, ← broadcast, ih h.2]
    by_cases hc : d.self = c
    · subst hc
      simp [h.1]
    · simp [hc, Ne.symm hc]

end EpollChat.Chat
