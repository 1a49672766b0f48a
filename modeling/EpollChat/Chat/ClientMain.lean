import EpollChat.Chat.ClientScreen
import EpollChat.Exceptions.Scopes
import EpollChat.Net.SetUp
import EpollChat.Net.SocketAddress
import EpollChat.Utils.Handlers

/-! `main` of `chat_client`, with what its calls may throw: the set-up, the loop of the
poller, in which the handlers draw on the terminal as they go, and the destructors, at
the end and when an exception is passed on. A handler is as in `Client`, except that
each call is made on the writer, that `getsockopt` may fail, that a destructor removes a
registered descriptor or terminates, and that undefined behaviour ends the run. -/

namespace EpollChat.Chat

open Cpp Utils Net Cli Loops Exceptions

/-- The client, the descriptors registered with its epoll instance, and its terminal. -/
structure ClientProcess where
  client : Client
  registered : List FileDescriptor
  console : Console

/-- What the system calls return in the handling of one event: `getsockopt`, which reads
the `SO_ERROR` of the socket, and the calls of `read`. -/
structure HandlerAnswers where
  getSockOpt : SysResult ℕ
  reads : List ReadResult

namespace HandlerAnswers

/-- The answers as `Client` takes them, which makes nothing of a `getsockopt` that fails. -/
def toClient (answers : HandlerAnswers) : ClientAnswers := ⟨answers.getSockOpt.toOption.getD 0, answers.reads⟩

def Fails (answers : HandlerAnswers) : Prop := ∃ errno, answers.getSockOpt = .error errno

def toClientEvent (ev : EpollEvent HandlerAnswers) : EpollEvent ClientAnswers :=
  { ev with answers := ev.answers.toClient }

end HandlerAnswers

abbrev ClientM (α : Type) := Computation (Raised Exception) ClientProcess α

/-- What is answered before the loop: by `epoll_create1`, by the system calls of
`Connect` and those in the constructor of the reader. The objects are allocated at
these addresses. -/
structure ClientSetUp where
  epollCreate : SysResult Unit
  socket : Address
  connect : ConnectAnswers
  inputReader : Address
  subscribe : SubscribeAnswers

namespace ClientMain

/-! ### Parts of the state -/

def onConsole {α : Type} (c : WriterM α) : ClientM α :=
  c.within ClientProcess.console (fun console w => { w with console := console }) .thrown

/-- What a socket with this descriptor and this timer is set up in. -/
def setUp (fd : Option FileDescriptor) (timer : Option Timer) (w : ClientProcess) : SetUp :=
  ⟨w.client.poller, w.registered, fd, timer⟩

def putSetUp (s : SetUp) (w : ClientProcess) : ClientProcess :=
  { w with client := { w.client with poller := s.poller }, registered := s.registered }

def onPoller {α : Type} (fd : Option FileDescriptor) (timer : Option Timer)
    (c : Computation (Raised Exception) SetUp α) : ClientM α := c.within (setUp fd timer) putSetUp id

def modifyClient (f : Client → Client) : ClientM Unit := .lift (modify fun w => { w with client := f w.client })

def getClient : ClientM Client := .gets ClientProcess.client

variable (strerror : Errno → String)

/-! ### Calls -/

/-- A call is recorded, and made if it is on the writer. -/
def tell (call : ClientCall) : ClientM Unit := do
  modifyClient fun w => w.record [call]
  match call.writerCall with
  | none => pure ()
  | some writerCall => onConsole (writerCall.perform strerror)

def tellAll (calls : List ClientCall) : ClientM Unit := calls.forM (tell strerror)

/-- Undefined behaviour, recorded as such. -/
def undefined (call : ClientCall) : ClientM Unit := do
  modifyClient fun w => w.record [call]
  raise .undefined

/-! ### Destructors -/

/-- The destructor of a timer. -/
def destroyTimer : Option Timer → ClientM Unit
  | none => pure ()
  | some timer => noexcept (onPoller none none (throwing (SetUp.unsubscribe strerror timer.self (some timer.timerFd))))

/-- The destructor of `client_connection_`, if it is not null. -/
def destroyConnection : ClientM Unit := do
  match (← getClient).clientConnection with
  | none => pure ()
  | some c => noexcept (onPoller (some c.socket.connectSocketFd) c.socket.connectionTimeout
      (throwing (SetUp.destroyTcpSocket strerror c.socket.self)))

/-- The destructor of `StdInputReader`. -/
def destroyReader : ClientM Unit := do
  noexcept (onPoller none none
    (throwing (SetUp.unsubscribe strerror (← getClient).inputReader (some stdinFileno))))

/-! ### The handlers -/

def closeClient : ClientM Unit := do
  destroyConnection strerror
  modifyClient fun w => { w.record [.closeClient] with clientConnection := none, poller := w.poller.stop }

def onConnected : ClientM Unit :=
  tellAll strerror [.onConnected, .updateConnectionState (bytes "Connected to server".toList)]

def onConnectionTimeout : ClientM Unit := do
  tellAll strerror [.onConnectionTimeout, .writeError (bytes "Connection timeout.".toList)]
  closeClient strerror

def onConnectionError : ClientM Unit := do
  tellAll strerror [.onConnectionError, .writeError (bytes "Connection error.".toList)]
  closeClient strerror

def onConnectionClosed : ClientM Unit := do
  tellAll strerror [.onConnectionClosed, .writeError (bytes "Connection closed.".toList)]
  closeClient strerror

def onMessageRead (message : Bytes) : ClientM Unit := do
  tellAll strerror [.onMessageRead message, .resetInputLine]
  match (← getClient).clientConnection with
  | none => undefined .nullDereference
  | some c =>
    if c.socket.connected then
      tellAll strerror [.writeMessage (bytes "You : ".toList ++ message), .sendTextMessage message]
    else pure ()

def onReaderClosed : ClientM Unit := do
  tell strerror .onReaderClosed
  closeClient strerror

def setConnection (c : ClientConnection) : ClientM Unit := modifyClient fun w => { w with clientConnection := some c }

/-- The callbacks come as the parser reads; what it leaves is looked at by none of them. -/
def onDataReceived (c : ClientConnection) (data : DataBuffer) : ClientM Unit := do
  let parsed := parseData c.dataToParse data
  setConnection { c with dataToParse := parsed.2 }
  tellAll strerror (parsed.1.flatMap Client.onCallback)

def onSocketCall (c : ClientConnection) : ListenerCall → ClientM Unit
  | .onDataReceived data => onDataReceived strerror c data
  | .onConnected => onConnected strerror
  | .onConnectionTimeout => onConnectionTimeout strerror
  | .onError => onConnectionError strerror
  | .onClosed => onConnectionClosed strerror

def onReaderCall : ReaderCall → ClientM Unit
  | .onMessageRead message => onMessageRead strerror message
  | .onReaderClosed => onReaderClosed strerror
  | .popBackOfEmpty => undefined .popBackOfEmpty

/-- `TcpSocket::OnOut`, on a socket that is not connected. -/
def onFirstOut (c : ClientConnection) (getSockOpt : SysResult ℕ) : ClientM Unit := do
  destroyTimer strerror c.socket.connectionTimeout
  setConnection { c with socket := { c.socket with connectionTimeout := none } }
  match getSockOpt with
  | .error errno => raise (.thrown ⟨"getsockopt", strerror errno⟩)
  | .ok soError =>
    if TcpSocket.connectionIsSuccess soError then
      setConnection { c with socket := { c.socket with connectionTimeout := none, connected := true } }
      onConnected strerror
    else
      onConnectionError strerror

def onOut (a : Address) (answers : HandlerAnswers) : ClientM Unit := do
  match (← getClient).objectAt a with
  | some (.socket c) => if c.socket.connected then pure () else onFirstOut strerror c answers.getSockOpt
  | _ => pure ()

def onIn (a : Address) (answers : HandlerAnswers) : ClientM Unit := do
  match (← getClient).objectAt a with
  | none => pure ()
  | some .inputReader => match StdInputReader.onIn answers.reads with
    | none => pure ()
    | some call => onReaderCall strerror call
  | some (.socket c) => match TcpSocket.onIn answers.reads with
    | none => pure ()
    | some call => onSocketCall strerror c call
  | some (.timer c) => onSocketCall strerror c .onConnectionTimeout

def onClosed (a : Address) (_ : HandlerAnswers) : ClientM Unit := do
  match (← getClient).objectAt a with
  | some .inputReader => onReaderClosed strerror
  | some (.socket c) => onSocketCall strerror c .onClosed
  | _ => pure ()

def onError (a : Address) (_ : HandlerAnswers) : ClientM Unit := do
  match (← getClient).objectAt a with
  | some .inputReader => onReaderClosed strerror
  | some (.socket c) => onSocketCall strerror c .onError
  | _ => pure ()

def handlers : Handlers (Raised Exception) ClientProcess HandlerAnswers where
  poller w := w.client.poller
  getFileDescriptor w := w.client.getFileDescriptor
  onOut := onOut strerror
  onIn := onIn strerror
  onClosed := onClosed strerror
  onError := onError strerror

/-! ### `main` -/

variable (inetPton : Bytes → Option UInt32) (a : ClientSetUp)

def parseAddress (serverIp serverPort : Bytes) : ClientM SockAddrIn :=
  match SocketAddress.make inetPton serverIp serverPort with
  | .error e => raise (.thrown e)
  | .ok serverAddress => pure serverAddress

/-- The constructor of `Poller`. -/
def makePoller : ClientM Unit := match a.epollCreate with
  | .error errno => raise (.thrown ⟨"epoll_create", strerror errno⟩)
  | .ok () => pure ()

/-- The socket, its `Connect` and the connection around it. -/
def makeConnection : ClientM Unit := do
  let s ← onPoller none none (do
    scope (throwing (SetUp.destroyTcpSocket strerror a.socket)) (throwing (SetUp.connect strerror a.socket a.connect))
    Computation.lift get)
  modifyClient fun w => { w with
    clientConnection := s.fd.map fun fd => ⟨⟨a.socket, fd, false, s.timer⟩, []⟩ }

/-- The constructor of `StdInputReader`. -/
def makeReader : ClientM Unit :=
  onPoller none none (throwing (SetUp.subscribe strerror a.inputReader stdinFileno a.subscribe))

/-- The constructor of `Client`. -/
def makeClient : ClientM Unit := tellAll strerror
  [.updateClientInfo (bytes "To exit from the chat press Ctrl+D or Ctrl+C.".toList),
    .updateConnectionState (bytes "Connecting to server...".toList)]

/-- What is done as long as there is the reader. -/
def readerScope (batches : Stream' (List (EpollEvent HandlerAnswers))) : ClientM Unit := do
  onConsole (StdOutputWriter.construct strerror)
  makeClient strerror
  (handlers strerror).run batches

/-- What is done as long as there is the connection. -/
def connectionScope (batches : Stream' (List (EpollEvent HandlerAnswers))) : ClientM Unit := do
  makeReader strerror a
  scope (destroyReader strerror) (readerScope strerror batches)

/-- What `main` tries. In the end the client is destroyed, its reader first. -/
def body (batches : Stream' (List (EpollEvent HandlerAnswers))) (serverIp serverPort : Bytes) : ClientM ℕ := do
  let _serverAddress ← parseAddress inetPton serverIp serverPort
  makePoller strerror a
  makeConnection strerror a
  scope (destroyConnection strerror) (connectionScope strerror a batches)
  destroyReader strerror
  destroyConnection strerror
  return 0

/-- How `main` fails: with a text on `std::cerr`. -/
def fail (text : String) : ClientM ℕ := do
  onConsole (StdOutputWriter.writeToCerr (bytes text.toList))
  return 1

/-- `main`, on the words after the name of the program. -/
def main (batches : Stream' (List (EpollEvent HandlerAnswers))) : List Bytes → ClientM ℕ
  | serverIp :: serverPort :: _ =>
    catching (body strerror inetPton a batches serverIp serverPort) fun e => fail (e.what ++ "\n")
  | _ => fail "Usage: chat_client server_ip server_port\n"

/-- The process before `main`. -/
def init (sizes : Stream' (SysResult Winsize)) : ClientProcess :=
  ⟨⟨⟨[], false⟩, none, a.inputReader, []⟩, [], ⟨.empty, [], [], sizes⟩⟩

end ClientMain

end EpollChat.Chat
