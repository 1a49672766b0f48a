import EpollChat.Chat.Server
import EpollChat.Net.TcpConnectionReceiver

/-! The process `chat_server`: the poller, the receiver of connections, the server
with the connections it owns, and the descriptors that the kernel has open. Memory
and descriptors are used again once they are free, so the state also numbers the
sockets in the order of their making: an address stands for different objects at
different times, a number never does. -/

namespace EpollChat.Chat

open Cpp Utils Net

/-- What is kept of a run: the handlers that the poller called, on which object and
whether it was alive; the connections that the server was told are closed; and
`erase(end())`, which is undefined. -/
inductive ServerCall where
  | handler (target : Address) (serial : ℕ) (alive : Bool)
  | onConnectionClosed (serial : ℕ)
  | eraseEnd
  deriving DecidableEq

/-- What the system calls return in the handling of one event. -/
structure ServerAnswers where
  soError : ℕ
  reads : List ReadResult
  accepts : List AcceptResult

structure ServerProcess where
  poller : Poller
  connectionReceiver : TcpConnectionReceiver
  server : Server
  openFds : List FileDescriptor
  serials : Address → ℕ
  created : ℕ
  calls : List ServerCall

namespace ServerProcess

def record (w : ServerProcess) (call : ServerCall) : ServerProcess := { w with calls := w.calls ++ [call] }

/-- The objects that are alive, with their descriptors. -/
def objects (w : ServerProcess) : List (Address × FileDescriptor) :=
  (w.connectionReceiver.self, w.connectionReceiver.listenSocketFd) ::
    w.server.incomingConnections.map fun c => (c.socket.self, c.socket.connectSocketFd)

/-- The constructor of a `TcpSocket` for an incoming connection. -/
def newSocket (w : ServerProcess) (incoming : Accepted) : ServerProcess :=
  { w with
    poller := w.poller.insert incoming.socket
    openFds := incoming.newIncomingSocketFd :: w.openFds
    serials := Function.update w.serials incoming.socket w.created
    created := w.created + 1 }

def destroySocket (w : ServerProcess) (socket : TcpSocket) : ServerProcess :=
  { w with poller := socket.destroy w.poller, openFds := w.openFds.erase socket.connectSocketFd }

/-- The sockets destroyed among what a server does. -/
def destroyed (effects : List Effect) : List TcpSocket :=
  effects.filterMap fun
    | .destroySocket socket => some socket
    | _ => none

def perform (w : ServerProcess) (r : Server × List Effect) : ServerProcess :=
  (destroyed r.2).foldl destroySocket { w with server := r.1 }

def onNewConnection (incoming : Accepted) (w : ServerProcess) : ServerProcess :=
  (w.newSocket incoming).perform
    (w.server.onNewConnection (.incoming incoming.socket incoming.newIncomingSocketFd) incoming.connection)

/-- `ServerConnection::OnClosed`, and `OnError`. -/
def onConnectionClosed (w : ServerProcess) (c : ServerConnection) : ServerProcess :=
  let w := w.record (.onConnectionClosed (w.serials c.socket.self))
  match w.server.onConnectionClosed c.self with
  | none => w.record .eraseEnd
  | some r => w.perform r

/-- The calls of a socket on its listener, the connection. -/
def onSocketCall (w : ServerProcess) (c : ServerConnection) : ListenerCall → ServerProcess
  | .onDataReceived data => w.perform (w.server.onDataReceived c data)
  | .onConnected => w
  | .onConnectionTimeout => w
  | .onError => w.onConnectionClosed c
  | .onClosed => w.onConnectionClosed c

/-! ### Dispatch -/

inductive Object where
  | connectionReceiver
  | socket (c : ServerConnection)

/-- The object at an address. -/
def objectAt (w : ServerProcess) (a : Address) : Option Object :=
  if a = w.connectionReceiver.self then some .connectionReceiver
  else (w.server.incomingConnections.find? fun c => c.socket.self = a).map .socket

def getFileDescriptor (w : ServerProcess) (a : Address) : Option FileDescriptor :=
  match w.objectAt a with
  | none => none
  | some .connectionReceiver => some w.connectionReceiver.listenSocketFd
  | some (.socket c) => some c.socket.connectSocketFd

/-- A handler is called on the object at an address. -/
def called (w : ServerProcess) (a : Address) : ServerProcess :=
  w.record (.handler a (w.serials a) (w.objectAt a).isSome)

def setSocket (w : ServerProcess) (connection : Address) (socket : TcpSocket) : ServerProcess :=
  { w with server := { w.server with incomingConnections := w.server.incomingConnections.map fun it =>
      if it.self = connection then { it with socket := socket } else it } }

def onOut (a : Address) (answers : ServerAnswers) (w : ServerProcess) : ServerProcess :=
  let w := w.called a
  match w.objectAt a with
  | some (.socket c) =>
    let out := c.socket.onOut answers.soError w.poller
    match out.2.2 with
    | none => w
    | some call => ({ w with poller := out.2.1 }.setSocket c.self out.1).onSocketCall { c with socket := out.1 } call
  | _ => w

def onIn (a : Address) (answers : ServerAnswers) (w : ServerProcess) : ServerProcess :=
  let w := w.called a
  match w.objectAt a with
  | none => w
  | some .connectionReceiver => TcpConnectionReceiver.onInLoop onNewConnection w answers.accepts
  | some (.socket c) => match TcpSocket.onIn answers.reads with
    | none => w
    | some call => w.onSocketCall c call

/-- `OnListenError` does nothing. -/
def onClosed (a : Address) (_ : ServerAnswers) (w : ServerProcess) : ServerProcess :=
  let w := w.called a
  match w.objectAt a with
  | some (.socket c) => w.onSocketCall c .onClosed
  | _ => w

def onError (a : Address) (_ : ServerAnswers) (w : ServerProcess) : ServerProcess :=
  let w := w.called a
  match w.objectAt a with
  | some (.socket c) => w.onSocketCall c .onError
  | _ => w

def process : Process ServerProcess ServerAnswers := ⟨poller, getFileDescriptor, onOut, onIn, onClosed, onError⟩

/-- The server as `main` leaves it to `Poller::Run`. The listening descriptor is
open, among others. -/
def start (limit : UInt64) (receiver : TcpConnectionReceiver) (otherFds : List FileDescriptor) : ServerProcess where
  poller := (Poller.mk [] false).insert receiver.self
  connectionReceiver := receiver
  server := .init limit
  openFds := receiver.listenSocketFd :: otherFds
  serials := fun _ => 0
  created := 1
  calls := []

/-! ### What the kernel and the allocator guarantee -/

/-- A new descriptor is not open, and new objects are put where none is. -/
def Fresh (w : ServerProcess) (incoming : Accepted) : Prop :=
  incoming.newIncomingSocketFd ∉ w.openFds ∧
  incoming.socket ∉ w.objects.map Prod.fst ∧
  incoming.connection ∉ w.server.incomingConnections.map ServerConnection.self

/-- So for every descriptor that `accept` returns in one activation. -/
def AcceptsFresh (w : ServerProcess) : List AcceptResult → Prop
  | [] => True
  | .accepted incoming :: results => w.Fresh incoming ∧ AcceptsFresh (onNewConnection incoming w) results
  | .eagain :: _ => True
  | .error :: _ => True

def Registered (w : ServerProcess) (fd : FileDescriptor) : Prop :=
  ∃ a ∈ w.poller.subscribers, w.getFileDescriptor a = some fd

/-- The answers in each event of a batch. -/
def AnswersFresh (w : ServerProcess) : List (EpollEvent ServerAnswers) → Prop
  | [] => True
  | ev :: batch =>
    (ev.fd = w.connectionReceiver.listenSocketFd → w.AcceptsFresh ev.answers.accepts) ∧
      AnswersFresh (process.notifySubscriber ev w) batch

/-- A batch holds registered descriptors, each at most once. -/
def Delivers (w : ServerProcess) (batch : List (EpollEvent ServerAnswers)) : Prop :=
  (batch.map EpollEvent.fd).Nodup ∧ (∀ ev ∈ batch, w.Registered ev.fd) ∧ w.AnswersFresh batch

def DeliversAll (w : ServerProcess) : List (List (EpollEvent ServerAnswers)) → Prop
  | [] => True
  | batch :: batches => w.Delivers batch ∧ DeliversAll (process.notifyAll batch w) batches

instance (w : ServerProcess) (incoming : Accepted) : Decidable (w.Fresh incoming) :=
  inferInstanceAs (Decidable (_ ∧ _))

instance decidableAcceptsFresh : (w : ServerProcess) → (results : List AcceptResult) →
    Decidable (w.AcceptsFresh results)
  | _, [] => isTrue trivial
  | w, .accepted incoming :: results =>
    let _ := decidableAcceptsFresh (onNewConnection incoming w) results
    inferInstanceAs (Decidable (_ ∧ _))
  | _, .eagain :: _ => isTrue trivial
  | _, .error :: _ => isTrue trivial

instance (w : ServerProcess) (fd : FileDescriptor) : Decidable (w.Registered fd) :=
  inferInstanceAs (Decidable (∃ a ∈ w.poller.subscribers, _))

instance decidableAnswersFresh : (w : ServerProcess) → (batch : List (EpollEvent ServerAnswers)) →
    Decidable (w.AnswersFresh batch)
  | _, [] => isTrue trivial
  | w, ev :: batch =>
    let _ := decidableAnswersFresh (process.notifySubscriber ev w) batch
    inferInstanceAs (Decidable (_ ∧ _))

instance (w : ServerProcess) (batch : List (EpollEvent ServerAnswers)) : Decidable (w.Delivers batch) :=
  inferInstanceAs (Decidable (_ ∧ _))

instance decidableDeliversAll : (w : ServerProcess) → (batches : List (List (EpollEvent ServerAnswers))) →
    Decidable (w.DeliversAll batches)
  | _, [] => isTrue trivial
  | w, batch :: batches =>
    let _ := decidableDeliversAll (process.notifyAll batch w) batches
    inferInstanceAs (Decidable (_ ∧ _))

end ServerProcess

end EpollChat.Chat
