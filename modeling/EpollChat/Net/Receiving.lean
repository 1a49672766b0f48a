import EpollChat.Chat.Parser
import EpollChat.Net.TcpSocket

/-! What a connection's parser is given of the bytes read from its socket, over a
sequence of activations of `OnIn`. The bytes are given when `read` reports that
there are no more of them, and only then. -/

namespace EpollChat.Net

open Cpp Framing Chat

/-- How the reads of an activation end. -/
inductive ReadEnd where
  | allRead
  | endOfFile
  | error
  deriving DecidableEq

def ReadEnd.result : ReadEnd → ReadResult
  | .allRead => .eagain
  | .endOfFile => .endOfFile
  | .error => .error

/-- The data of the call, if it is `OnDataReceived`. -/
def ListenerCall.dataReceived : ListenerCall → Option DataBuffer
  | .onDataReceived data => some data
  | _ => none

/-- The results of `read` in one activation of `OnIn`. -/
structure Activation where
  chunks : List Bytes
  ending : ReadEnd
  deriving DecidableEq

namespace Activation

def reads (a : Activation) : List ReadResult := a.chunks.map ReadResult.data ++ [a.ending.result]

def bytesRead (a : Activation) : Bytes := a.chunks.flatten

/-- What the activation passes to `OnDataReceived`. -/
def received (a : Activation) : Option DataBuffer := (TcpSocket.onIn a.reads).bind ListenerCall.dataReceived

/-- All bytes read are passed on, in one call. -/
def Delivers (a : Activation) : Prop := a.received = if a.bytesRead.isEmpty then none else some a.bytesRead

/-- The reads end because all data is read, or there was none. -/
def ReadsAll (a : Activation) : Prop := a.ending = .allRead ∨ a.bytesRead = []

instance decidableReadsAll (a : Activation) : Decidable a.ReadsAll := inferInstanceAs (Decidable (_ ∨ _))

/-! ### One activation -/

theorem onInLoop_chunks (buffer : DataBuffer) (chunks : List Bytes) (reads : List ReadResult) :
    TcpSocket.onInLoop buffer (chunks.map ReadResult.data ++ reads) =
      TcpSocket.onInLoop (buffer ++ chunks.flatten) reads := by
  induction chunks generalizing buffer with
  | nil => rw [List.map_nil, List.nil_append, List.flatten_nil, List.append_nil]
  | cons chunk chunks ih =>
    rw [List.map_cons, List.cons_append, TcpSocket.onInLoop, ih, List.flatten_cons, List.append_assoc]

/-- The call is decided by the ending; only one of them looks at the bytes. -/
theorem onIn_reads (a : Activation) :
    TcpSocket.onIn a.reads = match a.ending with
      | .allRead => if a.bytesRead.isEmpty then none else some (.onDataReceived a.bytesRead)
      | .endOfFile => some .onClosed
      | .error => some .onError := by
  rw [TcpSocket.onIn, reads, onInLoop_chunks, List.nil_append]
  cases a.ending <;> rfl

theorem received_of_allRead {a : Activation} (h : a.ending = .allRead) :
    a.received = if a.bytesRead.isEmpty then none else some a.bytesRead := by
  rw [received, onIn_reads, h]
  dsimp only
  split <;> rfl

theorem received_of_ne {a : Activation} (h : a.ending ≠ .allRead) : a.received = none := by
  rw [received, onIn_reads]
  cases he : a.ending with
  | allRead => exact absurd he h
  | endOfFile => rfl
  | error => rfl

theorem delivers_iff (a : Activation) : a.Delivers ↔ a.ReadsAll := by
  by_cases h : a.ending = .allRead
  · exact iff_of_true (received_of_allRead h) (.inl h)
  · rw [Delivers, ReadsAll, received_of_ne h, or_iff_right h, ← List.isEmpty_iff]
    cases a.bytesRead.isEmpty <;> simp

/-- The bytes passed on are those read, or none of them. -/
theorem received_flatten (a : Activation) :
    a.received.toList.flatten = if a.ReadsAll then a.bytesRead else [] := by
  split
  · next h =>
    rw [(delivers_iff a).mpr h]
    split
    · next he => exact (List.isEmpty_iff.mp he).symm
    · exact List.append_nil _
  · next h => rw [received_of_ne fun he => h (.inl he)]; rfl

/-! ### A sequence of activations -/

/-- The data given to the parser of the connection, call by call. -/
def given (activations : List Activation) : List DataBuffer := activations.flatMap fun a => a.received.toList

def stream (activations : List Activation) : Bytes := (activations.map bytesRead).flatten

theorem given_cons (a : Activation) (activations : List Activation) :
    (given (a :: activations)).flatten =
      (if a.ReadsAll then a.bytesRead else []) ++ (given activations).flatten := by
  rw [given, List.flatMap_cons, List.flatten_append, received_flatten, given]

theorem stream_cons (a : Activation) (activations : List Activation) :
    stream (a :: activations) = a.bytesRead ++ stream activations := rfl

theorem length_given_le (activations : List Activation) :
    (given activations).flatten.length ≤ (stream activations).length := by
  induction activations with
  | nil => exact Nat.le_refl 0
  | cons a activations ih =>
    rw [given_cons, stream_cons, List.length_append, List.length_append]
    split
    · omega
    · rw [List.length_nil]
      omega

theorem given_eq_stream_iff (activations : List Activation) :
    (given activations).flatten = stream activations ↔ ∀ a ∈ activations, a.ReadsAll := by
  induction activations with
  | nil => simp [given, stream]
  | cons a activations ih =>
    rw [given_cons, stream_cons, List.forall_mem_cons, ← ih]
    by_cases h : a.ReadsAll
    · rw [if_pos h, List.append_cancel_left_eq, and_iff_right h]
    · -- the bytes of this activation are missing, and the others cannot make up for them
      refine iff_of_false (fun he => ?_) fun hall => h hall.1
      have hpos : 0 < a.bytesRead.length := List.length_pos_of_ne_nil fun hnil => h (.inr hnil)
      have hlen := congrArg List.length he
      have hle := length_given_le activations
      rw [if_neg h, List.nil_append, List.length_append] at hlen
      omega

end Activation

open Activation

/-- Every activation passes on all it has read, and the parser is given the bytes
read from the socket, if and only if no end of file and no error comes after data
in one activation; then the messages are those of the whole stream. -/
theorem received_all_iff (activations : List Activation) :
    ((∀ a ∈ activations, a.Delivers) ↔ ∀ a ∈ activations, a.ReadsAll) ∧
    ((given activations).flatten = stream activations ↔ ∀ a ∈ activations, a.ReadsAll) ∧
    ((∀ a ∈ activations, a.ReadsAll) →
      parseDataAll [] (given activations) = parseData [] (stream activations)) := by
  refine ⟨forall₂_congr fun a _ => a.delivers_iff, given_eq_stream_iff activations, fun h => ?_⟩
  rw [parseDataAll_nil, (given_eq_stream_iff activations).mpr h, parseData_eq_drain, List.nil_append]

/-- A text that is read together with the peer's close is lost. -/
theorem message_before_close_is_lost :
    let m := Message.textMessageToServer (bytes ['h', 'i'])
    let a : Activation := ⟨[m.build], .endOfFile⟩
    parseData [] m.build = ([m], []) ∧ TcpSocket.onIn a.reads = some .onClosed ∧ ¬ a.Delivers ∧
      (parseDataAll [] (given [a])).1 = [] := by
  refine ⟨by decide +kernel, rfl, ?_, rfl⟩
  rw [delivers_iff]
  decide

end EpollChat.Net
