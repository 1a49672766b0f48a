import EpollChat.Chat.Parser
import EpollChat.Net.TcpSocket

/-! `chat::Server` and `chat::ServerConnection`. The functions return the new
state and, in order, what they do to the outside: buffers handed to `SendData` and
sockets destroyed. A connection is known by the address of its
`ServerConnection`. -/

namespace EpollChat.Chat

open Cpp Utils Net

structure ServerConnection where
  self : Address
  socket : TcpSocket
  nickName : Bytes
  dataToParse : DataBuffer
  deriving DecidableEq

/-- What a server does to the outside. -/
inductive Effect where
  /-- A connection is made, with its nick name. -/
  | accept (connection : Address) (nickName : Bytes)
  /-- A message is built and handed to `SendData` of the connection's socket. -/
  | send (connection : Address) (message : Message)
  /-- A socket is destroyed. -/
  | destroySocket (socket : TcpSocket)
  deriving DecidableEq

namespace ServerConnection

def sendTextMessage (c : ServerConnection) (senderNickName textMessage : Bytes) : Effect :=
  .send c.self (.textMessageToClient senderNickName textMessage)

def sendClientLeaveMessage (c : ServerConnection) (nickName : Bytes) : Effect :=
  .send c.self (.clientLeaveMessage nickName)

def sendServerInfoMessage (c : ServerConnection) (clientsCount : UInt64) : Effect :=
  .send c.self (.serverInfoMessage clientsCount)

end ServerConnection

structure Server where
  incomingConnections : List ServerConnection
  incomingConnectionsCounter : UInt64
  incomingConnectionsLimit : UInt64
  deriving DecidableEq

/-- The nick name made from a counter value. -/
def clientNickName (counter : UInt64) : Bytes := bytes ['C', 'l', 'i', 'e', 'n', 't'] ++ Cpp.toString counter

namespace Server

def init (incomingConnectionsLimit : UInt64) : Server := ⟨[], 0, incomingConnectionsLimit⟩

def size (s : Server) : UInt64 := UInt64.ofNat s.incomingConnections.length

def notifyServerInfo (s : Server) : List Effect :=
  s.incomingConnections.map fun connectionToSend => connectionToSend.sendServerInfoMessage s.size

def notifyClientLeave (s : Server) (nickName : Bytes) : List Effect :=
  s.incomingConnections.map fun connectionToSend => connectionToSend.sendClientLeaveMessage nickName

/-- `self` is the address of the new `ServerConnection`. -/
def onNewConnection (s : Server) (newIncomingSocket : TcpSocket) (self : Address) : Server × List Effect :=
  if s.incomingConnectionsLimit.toNat ≤ s.incomingConnections.length then
    (s, [.destroySocket newIncomingSocket])
  else
    let counter := s.incomingConnectionsCounter + 1
    let newNickName := clientNickName counter
    let newIncomingConnection : ServerConnection := ⟨self, newIncomingSocket, newNickName, []⟩
    let s := { s with
      incomingConnections := s.incomingConnections ++ [newIncomingConnection]
      incomingConnectionsCounter := counter }
    (s, .accept self newNickName :: s.notifyServerInfo)

def onTextMessage (s : Server) (connection : ServerConnection) (textMessage : Bytes) : List Effect :=
  (s.incomingConnections.filter fun connectionToSend => connectionToSend.self ≠ connection.self).map
    fun connectionToSend => connectionToSend.sendTextMessage connection.nickName textMessage

/-- `none` is `erase(end())`, which is undefined. -/
def removeClient (s : Server) (connection : Address) : Option (Server × List Effect) :=
  match s.incomingConnections.find? (fun it => it.self = connection) with
  | none => none
  | some removed =>
    let s := { s with incomingConnections := s.incomingConnections.eraseP fun it => it.self = connection }
    some (s, .destroySocket removed.socket :: (s.notifyServerInfo ++ s.notifyClientLeave removed.nickName))

def onConnectionClosed (s : Server) (connection : Address) : Option (Server × List Effect) :=
  s.removeClient connection

/-- The callbacks of a server's connection: only a text to the server is handled. -/
def onCallback (s : Server) (connection : ServerConnection) : Message → List Effect
  | .textMessageToServer textMessage => s.onTextMessage connection textMessage
  | _ => []

def setDataToParse (s : Server) (connection : Address) (dataToParse : DataBuffer) : Server :=
  { s with incomingConnections := s.incomingConnections.map fun it =>
      if it.self = connection then { it with dataToParse := dataToParse } else it }

/-- `ServerConnection::OnDataReceived`. -/
def onDataReceived (s : Server) (connection : ServerConnection) (data : DataBuffer) : Server × List Effect :=
  let parsed := parseData connection.dataToParse data
  (s.setDataToParse connection.self parsed.2, parsed.1.flatMap (s.onCallback connection))

end Server

end EpollChat.Chat
