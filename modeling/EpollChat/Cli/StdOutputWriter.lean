import EpollChat.Cpp.Numbers
import EpollChat.Loops.Computation
import EpollChat.Utils.Exception
import Mathlib.Data.Stream.Defs

/-! `cli::StdOutputWriter`: the texts it keeps, and what its functions write. The loops
are as in the source, so a function may run on. What `ioctl` reports from call to
call is part of the state; `strerror` is a parameter. -/

namespace EpollChat.Cli

open Cpp Utils Loops

def messageLimit : ℕ := 100

/-- `struct winsize`. -/
structure Winsize where
  wsRow : UInt16
  wsCol : UInt16

/-- The members. The newest message comes first. -/
structure StdOutputWriter where
  messages : List Bytes
  clientsCountLine : Bytes
  connectionStateLine : Bytes
  infoLine : Bytes
  length_messages : messages.length ≤ messageLimit

/-- The writer; what has been written to `std::cout` and to `std::cerr`; and the reports
of `ioctl` that are still to come. -/
structure Console where
  writer : StdOutputWriter
  cout : Bytes
  cerr : Bytes
  sizes : Stream' (SysResult Winsize)

abbrev WriterM (α : Type) := Computation Exception Console α

namespace StdOutputWriter

def empty : StdOutputWriter := ⟨[], [], [], [], Nat.zero_le _⟩

/-- `WriteMessage` on the list: at the limit the oldest message is dropped. -/
def pushMessage (w : StdOutputWriter) (message : Bytes) : StdOutputWriter :=
  { w with
    messages := message :: if messageLimit ≤ w.messages.length then w.messages.dropLast else w.messages
    length_messages := by
      have := w.length_messages
      split
      · rw [List.length_cons, List.length_dropLast]
        unfold messageLimit at *
        omega
      · rw [List.length_cons]
        omega }

/-! ### The output -/

def saveCursor : Bytes := bytes ['\x1b', '[', 's']

def restoreCursor : Bytes := bytes ['\x1b', '[', 'u']

def cursorUp : Bytes := bytes ['\x1b', '[', '1', 'F']

def eraseLine : Bytes := bytes ['\x1b', '[', '2', 'K']

def removeLine : Bytes := bytes ['\x1b', '[', '1', 'M']

def blankText : Bytes := bytes [' ']

def endl : Bytes := bytes ['\n']

def write (out : Bytes) : WriterM Unit := .lift (modify fun s => { s with cout := s.cout ++ out })

def writeToCerr (out : Bytes) : WriterM Unit := .lift (modify fun s => { s with cerr := s.cerr ++ out })

def modifyMembers (f : StdOutputWriter → StdOutputWriter) : WriterM Unit :=
  .lift (modify fun s => { s with writer := f s.writer })

variable (strerror : Errno → String)

/-- `ioctl(0, TIOCGWINSZ, &w)`. -/
def ioctl : WriterM Winsize := .lift fun s =>
  match s.sizes.head with
  | .ok w => .ok w { s with sizes := s.sizes.tail }
  | .error errno => .error ⟨"ioctl", strerror errno⟩ { s with sizes := s.sizes.tail }

def getScreenHeight : WriterM ℕ := do
  let w ← ioctl strerror
  return w.wsRow.toNat

def getScreenWidth : WriterM ℕ := do
  let w ← ioctl strerror
  return w.wsCol.toNat

/-- A round of the loop of `PrintText`, on `text` and `parts_to_print`. -/
def splitRound (screenWidth : ℕ) : Bytes × List Bytes → WriterM ((Bytes × List Bytes) ⊕ List Bytes)
  | (text, partsToPrint) =>
    if text.isEmpty then return .inr partsToPrint
    else
      let partToPrint := if screenWidth < text.length then text.take screenWidth else text
      return .inl (text.drop partToPrint.length, partToPrint :: partsToPrint)

def printPart (partToPrint : Bytes) : WriterM Unit := do
  write cursorUp
  write eraseLine
  write partToPrint

def printText (text : Bytes) : WriterM Unit := do
  let screenWidth ← getScreenWidth strerror
  let partsToPrint ← Computation.loop (splitRound screenWidth) (text, if text.isEmpty then [blankText] else [])
  partsToPrint.forM printPart

def updateScreen : WriterM Unit := do
  write saveCursor
  let s ← Computation.lift get
  printText strerror blankText
  printText strerror s.writer.infoLine
  printText strerror s.writer.connectionStateLine
  printText strerror s.writer.clientsCountLine
  printText strerror blankText
  s.writer.messages.forM (printText strerror)
  write restoreCursor

/-! ### The member functions -/

def writeMessage (message : Bytes) : WriterM Unit := do
  modifyMembers fun w => w.pushMessage message
  updateScreen strerror

def writeError (error : Bytes) : WriterM Unit := do
  writeToCerr endl
  writeToCerr (error ++ endl)

def updateClientsCount (clientsCount : UInt64) : WriterM Unit := do
  modifyMembers fun w => { w with clientsCountLine := bytes "Clients count: ".toList ++ Cpp.toString clientsCount }
  updateScreen strerror

def updateConnectionState (state : Bytes) : WriterM Unit := do
  modifyMembers fun w => { w with connectionStateLine := bytes "Connection state: ".toList ++ state }
  updateScreen strerror

def updateClientInfo (info : Bytes) : WriterM Unit := do
  modifyMembers fun w => { w with infoLine := info }
  updateScreen strerror

def resetInputLine : WriterM Unit := do
  write cursorUp
  write removeLine
  updateScreen strerror

/-- A round of the loop of the constructor. -/
def clearRound (i : ℕ) : WriterM (ℕ ⊕ Unit) := do
  let height ← getScreenHeight strerror
  if i < height then
    write endl
    return .inl (i + 1)
  else return .inr ()

/-- The constructor. -/
def construct : WriterM Unit := do
  modifyMembers fun _ => empty
  Computation.loop (clearRound strerror) 0
  resetInputLine strerror

end StdOutputWriter

/-- A call of a member function. -/
inductive WriterCall where
  | writeMessage (message : Bytes)
  | writeError (error : Bytes)
  | updateClientsCount (clientsCount : UInt64)
  | updateConnectionState (state : Bytes)
  | updateClientInfo (info : Bytes)
  | resetInputLine

def WriterCall.perform (strerror : Errno → String) : WriterCall → WriterM Unit
  | writeMessage message => StdOutputWriter.writeMessage strerror message
  | writeError error => StdOutputWriter.writeError error
  | updateClientsCount clientsCount => StdOutputWriter.updateClientsCount strerror clientsCount
  | updateConnectionState state => StdOutputWriter.updateConnectionState strerror state
  | updateClientInfo info => StdOutputWriter.updateClientInfo strerror info
  | resetInputLine => StdOutputWriter.resetInputLine strerror

end EpollChat.Cli
