import EpollChat.Chat.ClientRun
import EpollChat.Net.Sending

/-! What a client hears, says and shows. Its connection tells it of the messages in the
bytes that its socket has passed on, whatever the events were; what the reader gives to
`OnMessageRead` while it is connected is sent; and the lines on its screen are these two,
each once, in the order in which they came. -/

namespace EpollChat.Chat

open Cpp Utils Net Cli

/-- The messages that the connection told the client of. -/
def told (calls : List ClientCall) : List Message :=
  calls.filterMap fun
    | .onTextMessage nickName textMessage => some (.textMessageToClient nickName textMessage)
    | .onClientLeaveMessage nickName => some (.clientLeaveMessage nickName)
    | .onServerInfoMessage clientsCount => some (.serverInfoMessage clientsCount)
    | _ => none

/-- The texts sent to the server. -/
def sentTexts (calls : List ClientCall) : List Bytes :=
  calls.filterMap fun
    | .sendTextMessage textMessage => some textMessage
    | _ => none

/-- What the client wrote to the screen as messages, and as the clients count. -/
def written (calls : List ClientCall) : List Bytes :=
  calls.filterMap fun
    | .writeMessage message => some message
    | _ => none

def writtenCounts (calls : List ClientCall) : List UInt64 :=
  calls.filterMap fun
    | .updateClientsCount clientsCount => some clientsCount
    | _ => none

/-- A line of the conversation as one user sees it. -/
inductive Line where
  | said (nickName textMessage : Bytes)
  | left (nickName : Bytes)
  | own (textMessage : Bytes)
  deriving DecidableEq

namespace Line

def text : Line → Bytes
  | said nickName textMessage => nickName ++ bytes ": ".toList ++ textMessage
  | left nickName => bytes "*".toList ++ nickName ++ bytes " has left the chat".toList
  | own textMessage => bytes "You : ".toList ++ textMessage

/-- The line for a message of the server, if there is one. -/
def ofMessage : Message → Option Line
  | .textMessageToClient nickName textMessage => some (said nickName textMessage)
  | .clientLeaveMessage nickName => some (left nickName)
  | _ => none

def isOwn : Line → Bool
  | own _ => true
  | _ => false

def ownText : Line → Option Bytes
  | own textMessage => some textMessage
  | _ => none

end Line

/-- The conversation, by the calls on the client and those it makes. -/
def lines (calls : List ClientCall) : List Line :=
  calls.filterMap fun
    | .onTextMessage nickName textMessage => some (.said nickName textMessage)
    | .onClientLeaveMessage nickName => some (.left nickName)
    | .sendTextMessage textMessage => some (.own textMessage)
    | _ => none

/-- The counts among messages of the server. -/
def countsOf (messages : List Message) : List UInt64 :=
  messages.filterMap fun
    | .serverInfoMessage clientsCount => some clientsCount
    | _ => none

/-- A message that a client has a callback for. -/
def Message.isToClient : Message → Bool
  | textMessageToServer _ => false
  | _ => true

section
variable (calls more : List ClientCall)

@[simp] theorem told_append : told (calls ++ more) = told calls ++ told more := List.filterMap_append

@[simp] theorem sentTexts_append : sentTexts (calls ++ more) = sentTexts calls ++ sentTexts more :=
  List.filterMap_append

@[simp] theorem written_append : written (calls ++ more) = written calls ++ written more := List.filterMap_append

@[simp] theorem writtenCounts_append : writtenCounts (calls ++ more) = writtenCounts calls ++ writtenCounts more :=
  List.filterMap_append

@[simp] theorem lines_append : lines (calls ++ more) = lines calls ++ lines more := List.filterMap_append

@[simp] theorem countsOf_append (ms ns : List Message) : countsOf (ms ++ ns) = countsOf ms ++ countsOf ns :=
  List.filterMap_append

/-- The lines are those of what the client was told and those of what it sent. -/
theorem lines_split : (lines calls).filter (fun l => ¬ l.isOwn) = (told calls).filterMap Line.ofMessage ∧
    (lines calls).filterMap Line.ownText = sentTexts calls := by
  induction calls with
  | nil => exact ⟨rfl, rfl⟩
  | cons c calls ih =>
    obtain ⟨hnotices, hown⟩ := ih
    rw [← List.singleton_append, lines_append, told_append, sentTexts_append, List.filter_append,
      List.filterMap_append, List.filterMap_append, hnotices, hown]
    cases c <;> exact ⟨rfl, rfl⟩

end

/-- The calls write the lines and the counts that they are about. -/
structure Shows (calls : List ClientCall) : Prop where
  lines : written calls = (lines calls).map Line.text
  counts : writtenCounts calls = countsOf (told calls)

theorem Shows.append {calls more : List ClientCall} (h : Shows calls) (hmore : Shows more) : Shows (calls ++ more) :=
  ⟨by rw [written_append, lines_append, List.map_append, h.lines, hmore.lines],
    by rw [writtenCounts_append, told_append, countsOf_append, h.counts, hmore.counts]⟩

/-- What the socket passes on of what it reads, and what the reader does. What is read
before the end of the stream or an error is passed on by neither; the reader cuts its
text at null bytes and takes its last byte off. -/
def passed (reads : List ReadResult) : Bytes :=
  match TcpSocket.onIn reads with
  | some (.onDataReceived data) => data
  | _ => []

def entered (reads : List ReadResult) : List Bytes :=
  match StdInputReader.onIn reads with
  | some (.onMessageRead message) => [message]
  | some .popBackOfEmpty => [[]]
  | _ => []

namespace Client

/-- The connection is there, and made. -/
def isConnected (w : Client) : Bool :=
  match w.clientConnection with
  | none => false
  | some c => c.socket.connected

/-- The client has been told of what is in these bytes, and its parser holds the rest. -/
structure Heard (w : Client) (read : Bytes) : Prop where
  told : told w.calls = (parser.drain read).1.filter Message.isToClient
  held : ∀ c, w.clientConnection = some c → c.dataToParse = (parser.drain read).2

/-- From `w` to `w'` the data was passed on and the texts were sent. -/
structure Talks (w w' : Client) (data : Bytes) (sent : List Bytes) : Prop where
  heard : ∀ read, w.Heard read → w'.Heard (read ++ data)
  calls : ∃ new, w'.calls = w.calls ++ new ∧ sentTexts new = sent ∧ Shows new

namespace Talks

variable {w w' w'' : Client} {data more : Bytes} {sent others : List Bytes}

theorem refl (w : Client) : Talks w w [] [] :=
  ⟨fun read h => by rwa [List.append_nil], [], (List.append_nil _).symm, rfl, rfl, rfl⟩

theorem trans (h : Talks w w' data sent) (h' : Talks w' w'' more others) :
    Talks w w'' (data ++ more) (sent ++ others) := by
  obtain ⟨new, hcalls, hsent, hshows⟩ := h.calls
  obtain ⟨new', hcalls', hsent', hshows'⟩ := h'.calls
  refine ⟨fun read hr => ?_, new ++ new', by rw [hcalls', hcalls, List.append_assoc], ?_, hshows.append hshows'⟩
  · rw [← List.append_assoc]
    exact h'.heard _ (h.heard read hr)
  · rw [sentTexts_append, hsent, hsent']

/-- What is only recorded, without being told anything. -/
theorem record (w : Client) (calls : List ClientCall) (htold : told calls = []) (hshows : Shows calls) :
    Talks w (w.record calls) [] (sentTexts calls) := by
  refine ⟨fun read h => ?_, calls, rfl, rfl, hshows⟩
  rw [List.append_nil]
  exact ⟨(told_append _ _).trans (by rw [htold, List.append_nil, h.told]), h.held⟩

/-- A client that gives up its connection, or changes its socket. -/
theorem of_held (hcalls : w'.calls = w.calls)
    (hheld : ∀ c', w'.clientConnection = some c' → ∃ c, w.clientConnection = some c ∧ c.dataToParse = c'.dataToParse) :
    Talks w w' [] [] := by
  refine ⟨fun read h => ?_, [], by rw [hcalls, List.append_nil], rfl, rfl, rfl⟩
  rw [List.append_nil]
  refine ⟨by rw [hcalls, h.told], fun c' hc' => ?_⟩
  obtain ⟨c, hc, he⟩ := hheld c' hc'
  rw [← he, h.held c hc]

theorem notifyIf {handler : Address → ClientAnswers → Client → Client} {a : Address} {answers : ClientAnswers}
    (h : Talks w (handler a answers w) [] []) (flag : Bool) :
    Talks w (process.notifyIf flag handler (some a) answers w) [] [] := by
  rw [process.notifyIf_some]
  split
  · exact h
  · exact refl w

end Talks

variable (w : Client)

/-! ### What each handler does -/

theorem talks_closeClient : Talks w w.closeClient [] [] := by
  have hrecord := Talks.record w [.closeClient] rfl ⟨rfl, rfl⟩
  exact hrecord.trans (Talks.of_held rfl nofun)

/-- The three ways in which the connection ends. -/
theorem talks_close {calls : List ClientCall} (htold : told calls = []) (hsent : sentTexts calls = [])
    (hshows : Shows calls) : Talks w (w.record calls).closeClient [] [] := by
  have hrecord := Talks.record w calls htold hshows
  rw [hsent] at hrecord
  exact hrecord.trans (talks_closeClient _)

theorem talks_onConnectionTimeout : Talks w w.onConnectionTimeout [] [] := talks_close w rfl rfl ⟨rfl, rfl⟩

theorem talks_onConnectionError : Talks w w.onConnectionError [] [] := talks_close w rfl rfl ⟨rfl, rfl⟩

theorem talks_onConnectionClosed : Talks w w.onConnectionClosed [] [] := talks_close w rfl rfl ⟨rfl, rfl⟩

theorem talks_onReaderClosed : Talks w w.onReaderClosed [] [] := talks_close w rfl rfl ⟨rfl, rfl⟩

theorem talks_onConnected : Talks w w.onConnected [] [] := Talks.record w _ rfl ⟨rfl, rfl⟩

/-- A message that the reader gives is sent if the client is connected. -/
theorem talks_onMessageRead (message : Bytes) :
    Talks w (w.onMessageRead message) [] (if w.isConnected then [message] else []) := by
  have hfirst := Talks.record w [.onMessageRead message, .resetInputLine] rfl ⟨rfl, rfl⟩
  rw [onMessageRead, isConnected]
  cases hc : w.clientConnection with
  | none =>
    simp only [record_clientConnection, hc]
    exact hfirst.trans (Talks.record _ [.nullDereference] rfl ⟨rfl, rfl⟩)
  | some c =>
    simp only [record_clientConnection, hc]
    split
    · exact hfirst.trans (Talks.record _
        [.writeMessage (bytes "You : ".toList ++ message), .sendTextMessage message] rfl ⟨rfl, rfl⟩)
    · exact hfirst

theorem told_onCallback (callbacks : List Message) :
    told (callbacks.flatMap onCallback) = callbacks.filter Message.isToClient ∧
      sentTexts (callbacks.flatMap onCallback) = [] ∧ Shows (callbacks.flatMap onCallback) := by
  induction callbacks with
  | nil => exact ⟨rfl, rfl, rfl, rfl⟩
  | cons m callbacks ih =>
    obtain ⟨htold, hsent, hshows⟩ := ih
    have hm : told (onCallback m) = [m].filter Message.isToClient ∧ sentTexts (onCallback m) = [] ∧
        Shows (onCallback m) := by
      cases m <;> exact ⟨rfl, rfl, rfl, rfl⟩
    rw [List.flatMap_cons, told_append, sentTexts_append, hm.1, htold, hm.2.1, hsent, ← List.filter_append]
    exact ⟨rfl, rfl, hm.2.2.append hshows⟩

/-- The connection tells the client of the messages that the data completes. -/
theorem talks_onDataReceived {w : Client} {c : ClientConnection} (hc : w.clientConnection = some c)
    (data : DataBuffer) : Talks w (w.onDataReceived c data) data [] := by
  obtain ⟨htold, hsent, hshows⟩ := told_onCallback (parseData c.dataToParse data).1
  refine ⟨fun read h => ?_, _, rfl, hsent, hshows⟩
  have hparsed : parseData c.dataToParse data = parser.drain ((parser.drain read).2 ++ data) := by
    rw [h.held c hc, parseData_eq_drain]
  constructor
  · rw [parser.drain_append, List.filter_append, ← hparsed, ← htold, ← h.told]
    exact told_append _ _
  · intro c' hc'
    obtain rfl : { c with dataToParse := (parseData c.dataToParse data).2 } = c' := Option.some.inj hc'
    rw [parser.drain_append, ← hparsed]

theorem objectAt_socket_eq {w : Client} {a : Address} {c : ClientConnection} (h : w.objectAt a = some (.socket c)) :
    w.clientConnection = some c := by
  unfold objectAt at h
  grind

/-- The first writable event changes the socket only. -/
theorem talks_onOut (w : Client) (a : Address) (answers : ClientAnswers) : Talks w (onOut a answers w) [] [] := by
  unfold onOut
  cases ho : w.objectAt a with
  | none => exact Talks.refl w
  | some object =>
    cases object with
    | inputReader => exact Talks.refl w
    | timer c => exact Talks.refl w
    | socket c =>
      have hc := objectAt_socket_eq ho
      have hchanged (socket : TcpSocket) (poller : Poller) :
          Talks w { w with clientConnection := some { c with socket := socket }, poller := poller } [] [] :=
        Talks.of_held rfl fun c' hc' => ⟨c, hc, by rw [← Option.some.inj hc']⟩
      dsimp only
      unfold TcpSocket.onOut
      split_ifs
      · exact Talks.refl w
      · exact (hchanged _ _).trans (talks_onConnected _)
      · exact (hchanged _ _).trans (talks_onConnectionError _)

theorem talks_onClosed (w : Client) (a : Address) (answers : ClientAnswers) : Talks w (onClosed a answers w) [] [] := by
  unfold onClosed
  split
  · exact talks_onReaderClosed w
  · exact talks_onConnectionClosed w
  · exact Talks.refl w

theorem talks_onError (w : Client) (a : Address) (answers : ClientAnswers) : Talks w (onError a answers w) [] [] := by
  unfold onError
  split
  · exact talks_onReaderClosed w
  · exact talks_onConnectionError w
  · exact Talks.refl w

theorem talks_onIn_reader {w : Client} {a : Address} (h : w.objectAt a = some .inputReader) (answers : ClientAnswers) :
    Talks w (onIn a answers w) [] (if w.isConnected then entered answers.reads else []) := by
  rw [onIn, h, entered]
  dsimp only
  cases hcall : StdInputReader.onIn answers.reads with
  | none =>
    rw [ite_self]
    exact Talks.refl w
  | some call =>
    cases call with
    | onMessageRead message => exact talks_onMessageRead w message
    | onReaderClosed =>
      rw [ite_self]
      exact talks_onReaderClosed w
    | popBackOfEmpty =>
      have hrecord := Talks.record w [.popBackOfEmpty] rfl ⟨rfl, rfl⟩
      exact hrecord.trans (talks_onMessageRead _ [])

theorem talks_onIn_socket {w : Client} {a : Address} {c : ClientConnection} (h : w.objectAt a = some (.socket c))
    (answers : ClientAnswers) : Talks w (onIn a answers w) (passed answers.reads) [] := by
  rw [onIn, h, passed]
  dsimp only
  rcases TcpSocket.onIn_cases answers.reads with hr | ⟨data, hr⟩ | hr | hr
  · rw [hr]
    exact Talks.refl w
  · rw [hr]
    exact talks_onDataReceived (objectAt_socket_eq h) data
  · rw [hr]
    exact talks_onConnectionClosed w
  · rw [hr]
    exact talks_onConnectionError w

theorem talks_onIn_timer {w : Client} {a : Address} {c : ClientConnection} (h : w.objectAt a = some (.timer c))
    (answers : ClientAnswers) : Talks w (onIn a answers w) [] [] := by
  rw [onIn, h]
  exact talks_onConnectionTimeout w

end Client

/-! ### Events -/

namespace Phase

variable (o : ClientObjects)

/-- The socket is read in the event: it is still there when its turn to read comes. -/
def ReadsSocket (p : Phase) (ev : EpollEvent ClientAnswers) : Prop :=
  p ≠ .closed ∧ ev.fd = o.connectSocketFd ∧ ev.epollIn ∧
    ¬ (ev.epollOut ∧ p = .connecting ∧ ¬ TcpSocket.connectionIsSuccess ev.answers.soError)

instance (p : Phase) (ev : EpollEvent ClientAnswers) : Decidable (p.ReadsSocket o ev) :=
  inferInstanceAs (Decidable (_ ∧ _))

/-- What the connection is given in the event. -/
def given (p : Phase) (ev : EpollEvent ClientAnswers) : Bytes :=
  if p.ReadsSocket o ev then passed ev.answers.reads else []

/-- What the reader gives in the event, while the client is connected. -/
def sends (p : Phase) (ev : EpollEvent ClientAnswers) : List Bytes :=
  if p = .connected ∧ ev.fd = stdinFileno ∧ ev.epollIn then entered ev.answers.reads else []

def givenAll (p : Phase) : List (EpollEvent ClientAnswers) → Bytes
  | [] => []
  | ev :: events => p.given o ev ++ (p.next o ev).givenAll events

def sendsAll (p : Phase) : List (EpollEvent ClientAnswers) → List Bytes
  | [] => []
  | ev :: events => p.sends ev ++ (p.next o ev).sendsAll events

/-- A closed client is given nothing and sends nothing. -/
theorem all_closed (events : List (EpollEvent ClientAnswers)) :
    closed.givenAll o events = [] ∧ closed.sendsAll o events = [] := by
  induction events with
  | nil => exact ⟨rfl, rfl⟩
  | cons ev events ih =>
    have hnext : closed.next o ev = .closed := if_pos rfl
    rw [givenAll, sendsAll, hnext, ih.1, ih.2, given, sends, if_neg fun h => h.1 rfl, if_neg (by simp)]
    exact ⟨rfl, rfl⟩

theorem all_append (p : Phase) (events more : List (EpollEvent ClientAnswers)) :
    p.givenAll o (events ++ more) = p.givenAll o events ++ (p.nextAll o events).givenAll o more ∧
      p.sendsAll o (events ++ more) = p.sendsAll o events ++ (p.nextAll o events).sendsAll o more := by
  induction events generalizing p with
  | nil => exact ⟨rfl, rfl⟩
  | cons ev events ih =>
    have hnext : p.nextAll o (ev :: events) = (p.next o ev).nextAll o events := rfl
    rw [List.cons_append, givenAll, givenAll, sendsAll, sendsAll, (ih _).1, (ih _).2, hnext, List.append_assoc,
      List.append_assoc]
    exact ⟨rfl, rfl⟩

end Phase

namespace Client

variable {o : ClientObjects} {p : Phase} {w : Client}

theorem At.isConnected (h : At o p w) : w.isConnected = decide (p = .connected) := by
  rw [Client.isConnected]
  by_cases hp : p = .closed
  · subst hp
    rw [h.closed]
    rfl
  · obtain ⟨c, hc, -, -, hconnected⟩ := h.exists_socket hp
    rw [hc]
    exact hconnected

theorem Talks.notifyIf_subscribed {handler : Address → ClientAnswers → Client → Client} {a : Address}
    {answers : ClientAnswers} {data : Bytes} {sent : List Bytes} (h : Talks w (handler a answers w) data sent)
    (ha : a ∈ w.poller.subscribers) (flag : Bool) :
    Talks w (process.notifyIf flag handler (some a) answers w) (if flag then data else []) (if flag then sent else []) := by
  rw [process.notifyIf_some]
  cases flag with
  | true => rwa [if_pos ⟨rfl, ha⟩]
  | false =>
    rw [if_neg (by simp)]
    exact refl w

/-- After the socket or the reader was readable, nothing is passed on or sent any more. -/
theorem Talks.ends {w' : Client} {data : Bytes} {sent : List Bytes} (h : Talks w w' data sent) (a : Address)
    (ev : EpollEvent ClientAnswers) :
    Talks w (process.notifyIf ev.epollErr process.onError (some a) ev.answers
      (process.notifyIf ev.epollHup process.onClosed (some a) ev.answers w')) data sent := by
  have hhup := h.trans ((talks_onClosed w' a ev.answers).notifyIf ev.epollHup)
  have herr := hhup.trans ((talks_onError _ a ev.answers).notifyIf ev.epollErr)
  simp only [List.append_nil] at herr
  exact herr

theorem talks_reader (h : At o p w) {ev : EpollEvent ClientAnswers} (hfd : ev.fd = stdinFileno) :
    Talks w (process.notifySubscriber ev w) (p.given o ev) (p.sends ev) := by
  have hlookup := h.getSubscriber h.mem_reader (hfd ▸ h.getFileDescriptor_reader)
  have hout : process.notifyIf ev.epollOut process.onOut (some o.inputReader) ev.answers w = w := by
    refine process.notifyIf_id ?_ _
    show onOut o.inputReader ev.answers w = w
    simp only [onOut, h.objectAt_reader]
  simp only [Process.notifySubscriber, hlookup, hout]
  refine Talks.ends ?_ o.inputReader ev
  have hin := (talks_onIn_reader h.objectAt_reader ev.answers).notifyIf_subscribed h.mem_reader ev.epollIn
  have hgiven : p.given o ev = if ev.epollIn then [] else [] := by
    rw [Phase.given, if_neg, ite_self]
    exact fun hr => (At.descriptors o).2.1 (hr.2.1.symm.trans hfd)
  have hsends : p.sends ev = if ev.epollIn then if w.isConnected then entered ev.answers.reads else [] else [] := by
    rw [Phase.sends, h.isConnected]
    cases ev.epollIn <;> simp [hfd]
  rwa [hgiven, hsends]

theorem talks_socket (h : At o p w) (hp : p ≠ .closed) {ev : EpollEvent ClientAnswers}
    (hfd : ev.fd = o.connectSocketFd) : Talks w (process.notifySubscriber ev w) (p.given o ev) (p.sends ev) := by
  have hlookup := h.getSubscriber (h.mem_socket.mpr hp) (hfd ▸ h.getFileDescriptor_socket hp)
  have hsends : p.sends ev = [] := if_neg fun hs => (At.descriptors o).2.1 (hfd.symm.trans hs.2.1)
  simp only [Process.notifySubscriber, hlookup, hsends]
  refine Talks.ends ?_ o.socket ev
  have hout := moves_socket_out h ev.epollOut ev.answers
  have htalks := (talks_onOut w o.socket ev.answers).notifyIf ev.epollOut
  by_cases hreads : p.ReadsSocket o ev
  · -- the socket is still there
    have hopen : (if ev.epollOut ∧ p = .connecting then
        if TcpSocket.connectionIsSuccess ev.answers.soError then .connected else .closed else p) ≠ Phase.closed := by
      split_ifs with h₁ h₂
      · decide
      · exact absurd ⟨h₁.1, h₁.2, h₂⟩ hreads.2.2.2
      · exact hp
    obtain ⟨c, hc, hself, -, -⟩ := hout.reached.exists_socket hopen
    have hin := (talks_onIn_socket (hout.reached.objectAt_socket hc hself) ev.answers).notifyIf_subscribed
      (hout.reached.mem_socket.mpr hopen) ev.epollIn
    rw [if_pos hreads.2.2.1, ite_self] at hin
    rw [Phase.given, if_pos hreads]
    exact htalks.trans hin
  · have hidle : process.notifyIf ev.epollIn process.onIn (some o.socket) ev.answers
        (process.notifyIf ev.epollOut process.onOut (some o.socket) ev.answers w) =
        process.notifyIf ev.epollOut process.onOut (some o.socket) ev.answers w := by
      rw [process.notifyIf_some, if_neg]
      rintro ⟨hin, hm⟩
      have hclosed : ev.epollOut ∧ p = .connecting ∧ ¬ TcpSocket.connectionIsSuccess ev.answers.soError := by
        by_contra hopen
        exact hreads ⟨hp, hfd, hin, hopen⟩
      rw [if_pos ⟨hclosed.1, hclosed.2.1⟩, if_neg hclosed.2.2] at hout
      exact hout.reached.mem_socket.mp hm rfl
    rw [Phase.given, if_neg hreads, hidle]
    exact htalks

theorem talks_timer (h : At o .connecting w) {ev : EpollEvent ClientAnswers} (hfd : ev.fd = o.timerFd) :
    Talks w (process.notifySubscriber ev w) (Phase.given o .connecting ev) (Phase.sends .connecting ev) := by
  have hlookup := h.getSubscriber (h.mem_timer.mpr rfl) (hfd ▸ h.getFileDescriptor_timer)
  have hgiven : Phase.given o .connecting ev = [] := if_neg fun hr => (At.descriptors o).1 (hr.2.1.symm.trans hfd)
  have hsends : Phase.sends .connecting ev = [] := if_neg (by simp)
  have hout : process.notifyIf ev.epollOut process.onOut (some o.timer) ev.answers w = w :=
    timer_idle h (fun c hc => by simp only [process, onOut, hc]) _
  simp only [Process.notifySubscriber, hlookup, hout, hgiven, hsends]
  obtain ⟨c, -, hobject, -⟩ := h.objectAt_timer
  exact Talks.ends ((talks_onIn_timer hobject ev.answers).notifyIf ev.epollIn) o.timer ev

/-- What an event gives to the connection and what it sends, by the phase. -/
theorem talks_event (h : At o p w) (ev : EpollEvent ClientAnswers) :
    Talks w (process.notifySubscriber ev w) (p.given o ev) (p.sends ev) := by
  by_cases hreader : ev.fd = stdinFileno
  · exact talks_reader h hreader
  have hsends : p.sends ev = [] := if_neg fun hs => hreader hs.2.1
  by_cases hs : ev.fd = o.connectSocketFd ∧ p ≠ .closed
  · exact talks_socket h hs.2 hs.1
  have hgiven : p.given o ev = [] := if_neg fun hr => hs ⟨hr.2.1, hr.1⟩
  by_cases ht : ev.fd = o.timerFd ∧ p = .connecting
  · obtain ⟨hfd, rfl⟩ := ht
    exact talks_timer h hfd
  have hlookup : process.getSubscriberByFileDescriptor w ev.fd = none := by
    apply process.getSubscriber_eq_none
    intro b hb hfd
    rcases h.getFileDescriptor_eq hb with ⟨-, hb⟩ | ⟨-, hp, hb⟩ | ⟨-, hp, hb⟩
    · exact hreader (Option.some.inj (hb.symm.trans hfd)).symm
    · exact hs ⟨(Option.some.inj (hb.symm.trans hfd)).symm, hp⟩
    · exact ht ⟨(Option.some.inj (hb.symm.trans hfd)).symm, hp⟩
  rw [process.notifySubscriber_of_none hlookup, hgiven, hsends]
  exact Talks.refl w

theorem talks_batch (h : At o p w) (batch : List (EpollEvent ClientAnswers)) :
    Talks w (process.notifyAll batch w) (p.givenAll o batch) (p.sendsAll o batch) := by
  induction batch generalizing p w with
  | nil => exact Talks.refl w
  | cons ev batch ih =>
    rw [process.notifyAll_cons]
    exact (talks_event h ev).trans (ih (moves_event h ev).reached)

/-- A run stops after the batch in which the client is closed; what is left would have
no effect. -/
theorem talks_run (h : At o p w) (batches : List (List (EpollEvent ClientAnswers))) :
    Talks w (process.run batches w) (p.givenAll o batches.flatten) (p.sendsAll o batches.flatten) := by
  induction batches generalizing p w with
  | nil => exact Talks.refl w
  | cons batch batches ih =>
    have hb := talks_batch h batch
    have hreached := (moves_batch h batch).reached
    have hstopped : (process.poller (process.notifyAll batch w)).isStopped = _ := hreached.stopped
    rw [Process.run, hstopped, List.flatten_cons, (p.all_append o batch _).1, (p.all_append o batch _).2]
    by_cases hp : p.nextAll o batch = .closed
    · rw [if_pos (by simpa using hp), hp, (Phase.all_closed o _).1, (Phase.all_closed o _).2, List.append_nil,
        List.append_nil]
      exact hb
    · rw [if_neg (by simpa using hp)]
      exact hb.trans (ih hreached)

theorem heard_start (o : ClientObjects) : (start o).Heard [] :=
  ⟨by rw [parser.drain_nil]; rfl, fun c hc => by rw [← Option.some.inj hc, parser.drain_nil]⟩

theorem filterMap_ofMessage (messages : List Message) :
    (messages.filter Message.isToClient).filterMap Line.ofMessage = messages.filterMap Line.ofMessage ∧
      countsOf (messages.filter Message.isToClient) = countsOf messages := by
  induction messages with
  | nil => exact ⟨rfl, rfl⟩
  | cons m messages ih =>
    rw [← List.singleton_append, List.filter_append, List.filterMap_append, List.filterMap_append, countsOf_append,
      countsOf_append, ih.1, ih.2]
    cases m <;> exact ⟨rfl, rfl⟩

/-- What a run has told the client, sent and shown. -/
theorem shows_run (o : ClientObjects) (batches : List (List (EpollEvent ClientAnswers))) :
    told (run o batches).calls =
        (parseData [] (Phase.givenAll o .connecting batches.flatten)).1.filter Message.isToClient ∧
      sentTexts (run o batches).calls = Phase.sendsAll o .connecting batches.flatten ∧ Shows (run o batches).calls := by
  obtain ⟨hheard, new, hcalls, hsent, hshows⟩ := talks_run (at_start o) batches
  have hstart : (run o batches).calls = (start o).calls ++ new := hcalls
  refine ⟨?_, ?_, ?_⟩
  · have h := (hheard [] (heard_start o)).told
    rw [List.nil_append] at h
    rw [parseData_eq_drain, List.nil_append]
    exact h
  · rw [hstart, sentTexts_append, hsent]
    rfl
  · rw [hstart]
    exact Shows.append ⟨rfl, rfl⟩ hshows

end Client

/-- In every run: what the client writes are lines that tell, in order, of the texts and
leaves in all the bytes that its socket passed on to the connection, and of the texts
that the reader gave to `OnMessageRead` while it was connected; just these texts are
sent; and the counts written are those in the bytes. A real run ends with undefined
behaviour, where this one goes on. -/
theorem client_shows_conversation (o : ClientObjects) (batches : List (List (EpollEvent ClientAnswers))) :
    let calls := (Client.run o batches).calls
    let messages := (parseData [] (Phase.givenAll o .connecting batches.flatten)).1
    let texts := Phase.sendsAll o .connecting batches.flatten
    (∃ lines : List Line, written calls = lines.map Line.text ∧
      lines.filter (fun l => ¬ l.isOwn) = messages.filterMap Line.ofMessage ∧ lines.filterMap Line.ownText = texts) ∧
    sentTexts calls = texts ∧ writtenCounts calls = countsOf messages := by
  intro calls messages texts
  obtain ⟨htold, hsent, hshows⟩ := Client.shows_run o batches
  obtain ⟨hnotices, hown⟩ := lines_split calls
  obtain ⟨hlines, hcounts⟩ := Client.filterMap_ofMessage messages
  refine ⟨⟨lines calls, hshows.lines, ?_, hown.trans hsent⟩, hsent, ?_⟩
  · rw [hnotices, htold, hlines]
  · rw [hshows.counts, htold, hcounts]

end EpollChat.Chat
