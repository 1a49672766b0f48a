import EpollChat.Chat.Message
import EpollChat.Utils.Poller

/-! `net::TcpSocket`, up to the calls it makes on its listener. The results of
`read`, `send` and `getsockopt` are arguments. -/

namespace EpollChat.Net

open Cpp Utils Chat

/-- `utils::Timer`. -/
structure Timer where
  self : Address
  timerFd : FileDescriptor
  deriving DecidableEq

structure TcpSocket where
  self : Address
  connectSocketFd : FileDescriptor
  connected : Bool
  connectionTimeout : Option Timer
  deriving DecidableEq

/-- What one `read` returns: bytes, end of file, or -1 with `errno`. -/
inductive ReadResult where
  | data (chunk : Bytes)
  | endOfFile
  | eagain
  | error
  deriving DecidableEq

/-- The call made on the `TcpSocketListener`. -/
inductive ListenerCall where
  | onDataReceived (data : DataBuffer)
  | onConnected
  | onConnectionTimeout
  | onError
  | onClosed
  deriving DecidableEq

/-- What one `send` returns. -/
inductive SendResult where
  | error
  | accepted (count : ℕ)
  deriving DecidableEq

namespace TcpSocket

/-- A socket for an incoming connection. -/
def incoming (self : Address) (incomingSocketFd : FileDescriptor) : TcpSocket :=
  ⟨self, incomingSocketFd, true, none⟩

/-- A successful `Connect`, with the timer it makes. -/
def connect (self : Address) (connectSocketFd : FileDescriptor) (timer : Timer) (p : Poller) : TcpSocket × Poller :=
  (⟨self, connectSocketFd, false, some timer⟩, (p.insert self).insert timer.self)

/-- The destructor, that of the timer included. -/
def destroy (s : TcpSocket) (p : Poller) : Poller :=
  let p := p.erase s.self
  match s.connectionTimeout with
  | none => p
  | some timer => p.erase timer.self

theorem nodup_destroy {s : TcpSocket} {p : Poller} (h : p.subscribers.Nodup) : (s.destroy p).subscribers.Nodup := by
  unfold destroy
  cases s.connectionTimeout with
  | none => exact Poller.nodup_erase h s.self
  | some timer => exact Poller.nodup_erase (Poller.nodup_erase h s.self) timer.self

/-- A socket and its timer go together. -/
theorem mem_destroy {s : TcpSocket} {p : Poller} (h : p.subscribers.Nodup) {a : Address} :
    a ∈ (s.destroy p).subscribers ↔
      a ≠ s.self ∧ (∀ timer ∈ s.connectionTimeout, a ≠ timer.self) ∧ a ∈ p.subscribers := by
  unfold destroy
  cases s.connectionTimeout with
  | none => simp [Poller.mem_erase h]
  | some timer =>
    simp only [Poller.mem_erase (Poller.nodup_erase h s.self), Poller.mem_erase h, Option.mem_some_iff, forall_eq']
    tauto

/-- The bytes on the wire after `SendData`, given those before: what `send` did
not take is dropped, and so is its result. -/
def sendData (sent : Bytes) (data : DataBuffer) : SendResult → Bytes
  | .error => sent
  | .accepted count => sent ++ data.take count

/-- The loop of `OnIn`. With no result left, `read` has not returned yet. -/
def onInLoop (buffer : DataBuffer) : List ReadResult → Option ListenerCall
  | [] => none
  | .eagain :: _ => if buffer.isEmpty then none else some (.onDataReceived buffer)
  | .endOfFile :: _ => some .onClosed
  | .error :: _ => some .onError
  | .data chunk :: reads => onInLoop (buffer ++ chunk) reads

def onIn (reads : List ReadResult) : Option ListenerCall := onInLoop [] reads

/-- What `OnIn` can call. -/
theorem onIn_cases (reads : List ReadResult) :
    onIn reads = none ∨ (∃ data, onIn reads = some (.onDataReceived data)) ∨ onIn reads = some .onClosed ∨
      onIn reads = some .onError := by
  suffices ∀ buffer, onInLoop buffer reads = none ∨ (∃ data, onInLoop buffer reads = some (.onDataReceived data)) ∨
      onInLoop buffer reads = some .onClosed ∨ onInLoop buffer reads = some .onError from this []
  induction reads with
  | nil => exact fun _ => .inl rfl
  | cons r reads ih =>
    intro buffer
    cases r with
    | data chunk => exact ih _
    | endOfFile => exact .inr (.inr (.inl rfl))
    | error => exact .inr (.inr (.inr rfl))
    | eagain =>
      rw [onInLoop]
      split
      · exact .inl rfl
      · exact .inr (.inl ⟨buffer, rfl⟩)

/-- `ConnectionIsSuccess`, for a `getsockopt` that succeeds. -/
def connectionIsSuccess (soError : ℕ) : Bool := soError = 0

/-- The first call means that the process of the connection is completed. -/
def onOut (s : TcpSocket) (soError : ℕ) (p : Poller) : TcpSocket × Poller × Option ListenerCall :=
  if s.connected then (s, p, none)
  else
    let p := match s.connectionTimeout with
      | none => p
      | some timer => p.erase timer.self
    if connectionIsSuccess soError then
      ({ s with connectionTimeout := none, connected := true }, p, some .onConnected)
    else ({ s with connectionTimeout := none }, p, some .onError)

end TcpSocket

end EpollChat.Net
