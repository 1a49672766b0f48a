import EpollChat.Chat.Parser
import EpollChat.Cli.StdInputReader

/-! The process `chat_client` after a successful `Connect`: `chat::Client` with its
connection, the connection's socket and connect timer, and the reader of the
standard input, all subscribed to one poller. The state keeps the calls made on
the client and by it, in order. -/

namespace EpollChat.Chat

open Cpp Utils Net Cli

structure ClientConnection where
  socket : TcpSocket
  dataToParse : DataBuffer
  deriving DecidableEq

/-- The calls on the client by its connection and its reader, and those it makes
on its connection and its output writer. -/
inductive ClientCall where
  | onTextMessage (nickName textMessage : Bytes)
  | onClientLeaveMessage (nickName : Bytes)
  | onServerInfoMessage (clientsCount : UInt64)
  | onConnected
  | onConnectionTimeout
  | onConnectionError
  | onConnectionClosed
  | onMessageRead (message : Bytes)
  | onReaderClosed
  | popBackOfEmpty
  | closeClient
  | sendTextMessage (textMessage : Bytes)
  /-- A member of `*client_connection_` is called where the pointer is null. -/
  | nullDereference
  | resetInputLine
  | writeMessage (message : Bytes)
  | writeError (error : Bytes)
  | updateClientsCount (clientsCount : UInt64)
  | updateConnectionState (state : Bytes)
  | updateClientInfo (info : Bytes)
  deriving DecidableEq

/-- What the system calls return in the handling of one event: the `SO_ERROR` of
the socket, and the results of `read`. -/
structure ClientAnswers where
  soError : ℕ
  reads : List ReadResult

structure Client where
  poller : Poller
  clientConnection : Option ClientConnection
  inputReader : Address
  calls : List ClientCall

namespace Client

def record (w : Client) (calls : List ClientCall) : Client := { w with calls := w.calls ++ calls }

@[simp] theorem record_clientConnection (w : Client) (calls : List ClientCall) :
    (w.record calls).clientConnection = w.clientConnection := rfl

def closeClient (w : Client) : Client :=
  let poller := match w.clientConnection with
    | none => w.poller
    | some c => c.socket.destroy w.poller
  { w.record [.closeClient] with clientConnection := none, poller := poller.stop }

def onConnected (w : Client) : Client :=
  w.record [.onConnected, .updateConnectionState (bytes "Connected to server".toList)]

def onConnectionTimeout (w : Client) : Client :=
  (w.record [.onConnectionTimeout, .writeError (bytes "Connection timeout.".toList)]).closeClient

def onConnectionError (w : Client) : Client :=
  (w.record [.onConnectionError, .writeError (bytes "Connection error.".toList)]).closeClient

def onConnectionClosed (w : Client) : Client :=
  (w.record [.onConnectionClosed, .writeError (bytes "Connection closed.".toList)]).closeClient

def onMessageRead (w : Client) (message : Bytes) : Client :=
  let w := w.record [.onMessageRead message, .resetInputLine]
  match w.clientConnection with
  | none => w.record [.nullDereference]
  | some c =>
    if c.socket.connected then
      w.record [.writeMessage (bytes "You : ".toList ++ message), .sendTextMessage message]
    else w

def onReaderClosed (w : Client) : Client := (w.record [.onReaderClosed]).closeClient

/-- The callbacks of the connection's parser. A text to the server is ignored. -/
def onCallback : Message → List ClientCall
  | .textMessageToServer _ => []
  | .textMessageToClient nickName textMessage =>
    [.onTextMessage nickName textMessage, .writeMessage (nickName ++ bytes ": ".toList ++ textMessage)]
  | .clientLeaveMessage nickName =>
    [.onClientLeaveMessage nickName,
      .writeMessage (bytes "*".toList ++ nickName ++ bytes " has left the chat".toList)]
  | .serverInfoMessage clientsCount => [.onServerInfoMessage clientsCount, .updateClientsCount clientsCount]

/-- `ClientConnection::OnDataReceived`. -/
def onDataReceived (w : Client) (c : ClientConnection) (data : DataBuffer) : Client :=
  let parsed := parseData c.dataToParse data
  { w with clientConnection := some { c with dataToParse := parsed.2 } }.record (parsed.1.flatMap onCallback)

/-- The calls of the socket on its listener, the connection. -/
def onSocketCall (w : Client) (c : ClientConnection) : ListenerCall → Client
  | .onDataReceived data => w.onDataReceived c data
  | .onConnected => w.onConnected
  | .onConnectionTimeout => w.onConnectionTimeout
  | .onError => w.onConnectionError
  | .onClosed => w.onConnectionClosed

/-- A real run ends with undefined behaviour. Here it goes on: `pop_back` leaves an
empty string empty, and no member is called where the pointer is null. -/
def onReaderCall (w : Client) : ReaderCall → Client
  | .onMessageRead message => w.onMessageRead message
  | .onReaderClosed => w.onReaderClosed
  | .popBackOfEmpty => (w.record [.popBackOfEmpty]).onMessageRead []

/-! ### Dispatch -/

/-- An object of the process. -/
inductive Object where
  | inputReader
  | socket (c : ClientConnection)
  | timer (c : ClientConnection)

/-- The object at an address. -/
def objectAt (w : Client) (a : Address) : Option Object :=
  if a = w.inputReader then some .inputReader
  else match w.clientConnection with
    | none => none
    | some c =>
      if a = c.socket.self then some (.socket c)
      else match c.socket.connectionTimeout with
        | none => none
        | some timer => if a = timer.self then some (.timer c) else none

def getFileDescriptor (w : Client) (a : Address) : Option FileDescriptor :=
  match w.objectAt a with
  | none => none
  | some .inputReader => some stdinFileno
  | some (.socket c) => some c.socket.connectSocketFd
  | some (.timer c) => c.socket.connectionTimeout.map Timer.timerFd

def onOut (a : Address) (answers : ClientAnswers) (w : Client) : Client :=
  match w.objectAt a with
  | some (.socket c) =>
    let out := c.socket.onOut answers.soError w.poller
    match out.2.2 with
    | none => w
    | some call =>
      let c := { c with socket := out.1 }
      { w with clientConnection := some c, poller := out.2.1 }.onSocketCall c call
  | _ => w

def onIn (a : Address) (answers : ClientAnswers) (w : Client) : Client :=
  match w.objectAt a with
  | none => w
  | some .inputReader => match StdInputReader.onIn answers.reads with
    | none => w
    | some call => w.onReaderCall call
  | some (.socket c) => match TcpSocket.onIn answers.reads with
    | none => w
    | some call => w.onSocketCall c call
  | some (.timer c) => w.onSocketCall c .onConnectionTimeout

def onClosed (a : Address) (_ : ClientAnswers) (w : Client) : Client :=
  match w.objectAt a with
  | some .inputReader => w.onReaderClosed
  | some (.socket c) => w.onSocketCall c .onClosed
  | _ => w

def onError (a : Address) (_ : ClientAnswers) (w : Client) : Client :=
  match w.objectAt a with
  | some .inputReader => w.onReaderClosed
  | some (.socket c) => w.onSocketCall c .onError
  | _ => w

def process : Process Client ClientAnswers := ⟨poller, getFileDescriptor, onOut, onIn, onClosed, onError⟩

end Client

/-- The addresses of the objects of a client and their descriptors, all distinct. -/
structure ClientObjects where
  socket : Address
  timer : Address
  inputReader : Address
  connectSocketFd : FileDescriptor
  timerFd : FileDescriptor
  addresses : [socket, timer, inputReader].Nodup
  descriptors : [connectSocketFd, timerFd, stdinFileno].Nodup

/-- The client as `main` leaves it to `Poller::Run`. -/
def Client.start (o : ClientObjects) : Client :=
  let connected := TcpSocket.connect o.socket o.connectSocketFd ⟨o.timer, o.timerFd⟩ ⟨[], false⟩
  { poller := connected.2.insert o.inputReader
    clientConnection := some ⟨connected.1, []⟩
    inputReader := o.inputReader
    calls := [.updateClientInfo (bytes "To exit from the chat press Ctrl+D or Ctrl+C.".toList),
      .updateConnectionState (bytes "Connecting to server...".toList)] }

end EpollChat.Chat
