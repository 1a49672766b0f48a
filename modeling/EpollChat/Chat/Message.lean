import EpollChat.Cpp.Numbers

/-! The wire format of `chat::Parser`: the four kinds of messages and the
buffers that the `Build*` functions make of them. -/

namespace EpollChat.Chat

open Cpp

/-- `net::DataBuffer`, a `std::vector<char>`. -/
abbrev DataBuffer := Bytes

def maxMessageLength : ℕ := 1024
def separator : Byte := 0
def textMessageToClientHeader : Byte := 'c'.toUInt8
def textMessageToServerHeader : Byte := 's'.toUInt8
def clientLeaveMessageHeader : Byte := 'l'.toUInt8
def serverInfoMessageHeader : Byte := 'i'.toUInt8

def headers : List Byte :=
  [textMessageToServerHeader, textMessageToClientHeader, clientLeaveMessageHeader, serverInfoMessageHeader]

theorem mem_headers {header : Byte} : header ∈ headers ↔
    header = textMessageToServerHeader ∨ header = textMessageToClientHeader ∨ header = clientLeaveMessageHeader ∨
      header = serverInfoMessageHeader := by
  simp only [headers, List.mem_cons, List.not_mem_nil, or_false]

/-- A message with its arguments: those of a `Build*` function, and of the
parser's callback for the same kind. -/
inductive Message where
  | textMessageToServer (textMessage : Bytes)
  | textMessageToClient (nickName textMessage : Bytes)
  | clientLeaveMessage (nickName : Bytes)
  | serverInfoMessage (clientsCount : UInt64)
  deriving DecidableEq

/-! ### Building -/

def buildText (buffer : DataBuffer) (text : Bytes) : DataBuffer := buffer ++ text ++ [separator]

def buildTextMessageToServer (textMessage : Bytes) : DataBuffer :=
  buildText [textMessageToServerHeader, separator] textMessage

def buildTextMessageToClient (nickName textMessage : Bytes) : DataBuffer :=
  buildText (buildText [textMessageToClientHeader, separator] nickName) textMessage

def buildClientLeaveMessage (nickName : Bytes) : DataBuffer :=
  buildText [clientLeaveMessageHeader, separator] nickName

def buildServerInfoMessage (clientsCount : UInt64) : DataBuffer :=
  buildText [serverInfoMessageHeader, separator] (Cpp.toString clientsCount)

namespace Message

/-- The buffer of a message. -/
def build : Message → DataBuffer
  | textMessageToServer textMessage => buildTextMessageToServer textMessage
  | textMessageToClient nickName textMessage => buildTextMessageToClient nickName textMessage
  | clientLeaveMessage nickName => buildClientLeaveMessage nickName
  | serverInfoMessage clientsCount => buildServerInfoMessage clientsCount

def header : Message → Byte
  | textMessageToServer _ => textMessageToServerHeader
  | textMessageToClient _ _ => textMessageToClientHeader
  | clientLeaveMessage _ => clientLeaveMessageHeader
  | serverInfoMessage _ => serverInfoMessageHeader

/-- The texts that follow the header. -/
def fields : Message → List Bytes
  | textMessageToServer textMessage => [textMessage]
  | textMessageToClient nickName textMessage => [nickName, textMessage]
  | clientLeaveMessage nickName => [nickName]
  | serverInfoMessage clientsCount => [Cpp.toString clientsCount]

/-- The strings of the message contain no null byte. -/
def SeparatorFree (m : Message) : Prop := ∀ field ∈ m.fields, separator ∉ field

instance (m : Message) : Decidable m.SeparatorFree := inferInstanceAs (Decidable (∀ field ∈ m.fields, _))

/-- The bytes after the header and its separator. -/
def body (m : Message) : Bytes := m.fields.flatMap fun field => field ++ [separator]

@[simp] theorem body_textMessageToServer (text : Bytes) :
    (textMessageToServer text).body = text ++ [separator] := by simp [body, fields]

@[simp] theorem body_textMessageToClient (nickName text : Bytes) :
    (textMessageToClient nickName text).body = nickName ++ separator :: (text ++ [separator]) := by
  simp [body, fields]

@[simp] theorem body_clientLeaveMessage (nickName : Bytes) :
    (clientLeaveMessage nickName).body = nickName ++ [separator] := by simp [body, fields]

@[simp] theorem body_serverInfoMessage (n : UInt64) :
    (serverInfoMessage n).body = Cpp.toString n ++ [separator] := by simp [body, fields]

/-- Every message is its header and a separator, then each field and a separator. -/
theorem build_eq (m : Message) : m.build = m.header :: separator :: m.body := by
  cases m <;> simp [build, header, buildTextMessageToServer, buildTextMessageToClient,
    buildClientLeaveMessage, buildServerInfoMessage, buildText]

@[simp] theorem length_build_textMessageToServer (text : Bytes) :
    (textMessageToServer text).build.length = text.length + 3 := by simp [build_eq]

@[simp] theorem length_build_textMessageToClient (nickName text : Bytes) :
    (textMessageToClient nickName text).build.length = nickName.length + text.length + 4 := by
  simp [build_eq]
  omega

@[simp] theorem length_build_clientLeaveMessage (nickName : Bytes) :
    (clientLeaveMessage nickName).build.length = nickName.length + 3 := by simp [build_eq]

@[simp] theorem length_build_serverInfoMessage (n : UInt64) :
    (serverInfoMessage n).build.length = (Cpp.toString n).length + 3 := by simp [build_eq]

@[simp] theorem separatorFree_textMessageToServer {text : Bytes} :
    (textMessageToServer text).SeparatorFree ↔ separator ∉ text := by simp [SeparatorFree, fields]

@[simp] theorem separatorFree_textMessageToClient {nickName text : Bytes} :
    (textMessageToClient nickName text).SeparatorFree ↔ separator ∉ nickName ∧ separator ∉ text := by
  simp [SeparatorFree, fields]

@[simp] theorem separatorFree_clientLeaveMessage {nickName : Bytes} :
    (clientLeaveMessage nickName).SeparatorFree ↔ separator ∉ nickName := by simp [SeparatorFree, fields]

@[simp] theorem separatorFree_serverInfoMessage (n : UInt64) : (serverInfoMessage n).SeparatorFree := by
  intro field hf
  rw [fields, List.mem_singleton] at hf
  exact hf ▸ zero_not_mem_toString n

end Message

end EpollChat.Chat
