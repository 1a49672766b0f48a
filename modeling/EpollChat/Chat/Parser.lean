import EpollChat.Chat.Message
import EpollChat.Framing.Decoder

/-! `chat::Parser`, the incremental parser of both ends. `current_it_byte_` and
`current_message_lenght_` are a cursor into `data_to_parse_`; the exceptions
`ErrorMessage` and `IncompleteMessage` are the stops `malformed` and
`incomplete`, and the cursor stays where they are thrown. -/

namespace EpollChat.Chat

open Cpp Framing

abbrev ParseM (α : Type) := Scan Byte α

/-- The overflow test comes before the end-of-buffer test. -/
def getNextByte : ParseM Byte := do
  let s ← get
  if s.count > maxMessageLength then throw .malformed
  else
    match s.unread with
    | [] => throw .incomplete
    | byte :: rest =>
      set (Cursor.mk rest (s.count + 1))
      return byte

def parseHeader : ParseM Byte := do
  let header ← getNextByte
  let byte ← getNextByte
  if byte ≠ separator then throw .malformed
  else return header

/-- At most `fuel` bytes of the loop of `ParseText`. -/
def parseTextLoop : ℕ → Bytes → ParseM Bytes
  | 0, _ => throw .incomplete
  | fuel + 1, result => do
    let byte ← getNextByte
    if byte ≠ separator then parseTextLoop fuel (result ++ [byte])
    else return result

/-- `GetNextByte` throws before the fuel runs out, see `parseTextLoop_fuel`. -/
def parseText : ParseM Bytes := parseTextLoop (maxMessageLength + 2) []

def parseInteger : ParseM UInt64 := do
  let text ← parseText
  match stoul text with
  | some result => return result
  | none => throw .malformed

/-- The cases of `ParseMessage`. The message returned is the callback made, with
its arguments. -/
def parseFields (header : Byte) : ParseM Message :=
  if header = textMessageToServerHeader then do
    let textMessage ← parseText
    return .textMessageToServer textMessage
  else if header = textMessageToClientHeader then do
    let nickName ← parseText
    let textMessage ← parseText
    return .textMessageToClient nickName textMessage
  else if header = clientLeaveMessageHeader then do
    let nickName ← parseText
    return .clientLeaveMessage nickName
  else if header = serverInfoMessageHeader then do
    let clientsCount ← parseInteger
    return .serverInfoMessage clientsCount
  else throw .malformed

def parseMessage : ParseM Message := do
  let header ← parseHeader
  parseFields header

/-- At most `fuel` turns of the loop of `ParseData`: the callbacks made, and the
bytes kept in `data_to_parse_`. -/
def parseDataLoop : ℕ → DataBuffer → List Message × DataBuffer
  | 0, dataToParse => ([], dataToParse)
  | fuel + 1, dataToParse =>
    if dataToParse.isEmpty then ([], dataToParse)
    else match parseMessage ⟨dataToParse, 0⟩ with
      | .ok callback s => (callback :: (parseDataLoop fuel s.unread).1, (parseDataLoop fuel s.unread).2)
      | .error .malformed s => parseDataLoop fuel s.unread
      | .error .incomplete _ => ([], dataToParse)

/-- `ParseData` on a parser that holds `dataToParse`. Every turn erases a byte,
so the loop ends by itself, see `parseData_eq_drain`. -/
def parseData (dataToParse data : DataBuffer) : List Message × DataBuffer :=
  parseDataLoop (dataToParse ++ data).length (dataToParse ++ data)

/-- A sequence of calls of `ParseData`: all the callbacks, and what is kept in the end. -/
def parseDataAll (dataToParse : DataBuffer) : List DataBuffer → List Message × DataBuffer
  | [] => ([], dataToParse)
  | data :: more =>
    let now := parseData dataToParse data
    let later := parseDataAll now.2 more
    (now.1 ++ later.1, later.2)

/-! ### The parser is a lawful scanner -/

theorem getNextByte_eq : getNextByte = next maxMessageLength := by
  funext s
  obtain ⟨unread, count⟩ := s
  rw [getNextByte, bind_of_ok (get_apply _), next]
  split
  · rfl
  · cases unread <;> rfl

theorem lawful_getNextByte : Lawful maxMessageLength getNextByte := by
  rw [getNextByte_eq]
  exact lawful_next _

theorem lawful_parseHeader : Lawful maxMessageLength parseHeader :=
  lawful_getNextByte.bind fun header => lawful_getNextByte.bind fun _ =>
    (Lawful.throw .malformed).ite (Lawful.pure header)

theorem lawful_parseTextLoop (fuel : ℕ) (result : Bytes) :
    Lawful maxMessageLength (parseTextLoop fuel result) := by
  induction fuel generalizing result with
  | zero => exact Lawful.throw .incomplete
  | succ fuel ih => exact lawful_getNextByte.bind fun byte => (ih _).ite (Lawful.pure result)

theorem lawful_parseText : Lawful maxMessageLength parseText := lawful_parseTextLoop _ _

theorem lawful_parseInteger : Lawful maxMessageLength parseInteger :=
  lawful_parseText.bind fun text => by
    cases stoul text with
    | some result => exact Lawful.pure result
    | none => exact Lawful.throw .malformed

theorem lawful_parseFields (header : Byte) : Lawful maxMessageLength (parseFields header) :=
  (lawful_parseText.bind fun _ => Lawful.pure _).ite <|
  (lawful_parseText.bind fun _ => lawful_parseText.bind fun _ => Lawful.pure _).ite <|
  (lawful_parseText.bind fun _ => Lawful.pure _).ite <|
  (lawful_parseInteger.bind fun _ => Lawful.pure _).ite (Lawful.throw .malformed)

theorem lawful_parseMessage : Lawful maxMessageLength parseMessage :=
  lawful_parseHeader.bind lawful_parseFields

theorem begins_parseMessage : Begins parseMessage := by
  have hnext : Begins getNextByte := by
    rw [getNextByte_eq]
    exact begins_next _
  have hheader : Begins parseHeader := hnext.bind fun header => lawful_getNextByte.bind fun _ =>
    (Lawful.throw .malformed).ite (Lawful.pure header)
  exact hheader.bind lawful_parseFields

/-- More fuel than bytes below the limit changes nothing: the loop of `ParseText`
ends by a separator or by an exception. -/
theorem parseTextLoop_fuel (fuel : ℕ) (result : Bytes) (s : Cursor Byte)
    (h : maxMessageLength + 2 ≤ s.count + fuel) (hfuel : 0 < fuel) :
    parseTextLoop fuel result s = parseTextLoop (fuel + 1) result s := by
  induction fuel generalizing result s with
  | zero => exact absurd hfuel (Nat.lt_irrefl 0)
  | succ fuel ih =>
    rw [parseTextLoop, parseTextLoop, getNextByte_eq]
    rcases next_cases maxMessageLength s with ⟨-, he⟩ | ⟨-, -, he⟩ | ⟨hs, byte, rest, -, he⟩
    · rw [bind_of_error he, bind_of_error he]
    · rw [bind_of_error he, bind_of_error he]
    · rw [bind_of_ok he, bind_of_ok he]
      split
      · exact ih _ _ (by dsimp only; omega) (by omega)
      · rfl

/-! ### The parser as a decoder of the stream -/

/-- `ParseMessage` cuts one frame off the front of `data_to_parse_`. -/
def parser : Decoder Byte Message := Decoder.ofScan parseMessage lawful_parseMessage begins_parseMessage

theorem parser_step (buf : DataBuffer) : parser.step buf = scanStep parseMessage buf := rfl

theorem parseDataLoop_eq_drainLoop (fuel : ℕ) (dataToParse : DataBuffer) :
    parseDataLoop fuel dataToParse = parser.drainLoop fuel dataToParse := by
  induction fuel generalizing dataToParse with
  | zero => rfl
  | succ fuel ih =>
    rw [parseDataLoop]
    split
    · next h =>
      rw [List.isEmpty_iff.mp h, parser.drainLoop_of_incomplete parser.step_nil]
    · rw [Decoder.drainLoop, parser_step, scanStep]
      cases hr : parseMessage ⟨dataToParse, 0⟩ with
      | ok callback s => simp only [ih, Option.toList_some, List.singleton_append]
      | error stop s =>
        cases stop with
        | malformed => simp only [ih, Option.toList_none, List.nil_append]
        | incomplete => rfl

theorem parseData_eq_drain (dataToParse data : DataBuffer) :
    parseData dataToParse data = parser.drain (dataToParse ++ data) :=
  parseDataLoop_eq_drainLoop _ _

theorem parseDataAll_eq_feed (dataToParse : DataBuffer) (pieces : List DataBuffer) :
    parseDataAll dataToParse pieces = parser.feed dataToParse pieces := by
  induction pieces generalizing dataToParse with
  | nil => rfl
  | cons data more ih => rw [parseDataAll, Decoder.feed, parseData_eq_drain, ih]

/-- A fresh parser finds the messages of the whole stream, in any pieces. -/
theorem parseDataAll_nil (pieces : List DataBuffer) :
    parseDataAll [] pieces = parser.drain pieces.flatten := by
  rw [parseDataAll_eq_feed, parser.feed_nil_eq_drain]

/-- What a parser keeps needs more input. -/
theorem step_parseDataAll (earlier : List DataBuffer) :
    parser.step (parseDataAll [] earlier).2 = .incomplete := by
  rw [parseDataAll_nil]
  exact parser.step_drain _

/-- After any earlier calls, the callbacks and the kept bytes do not depend on
how the data is cut into calls of `ParseData`. -/
theorem parseData_fragmentation (earlier pieces : List DataBuffer) :
    parseDataAll (parseDataAll [] earlier).2 pieces =
      parseData (parseDataAll [] earlier).2 pieces.flatten := by
  rw [parseDataAll_eq_feed, parseData_eq_drain, parser.feed_eq_drain (step_parseDataAll earlier)]

end EpollChat.Chat
