import EpollChat.Chat.ClientPhase

/-! The client follows its phases. In each phase exactly certain objects are alive
and subscribed; every event moves the client as the phases say, and the calls it
makes are those that the phases allow. -/

namespace EpollChat.Chat

open Cpp Utils Net Cli

variable {o : ClientObjects}

/-- The socket of the connection in each phase. -/
def Phase.socket (o : ClientObjects) : Phase → Option TcpSocket
  | .connecting => some ⟨o.socket, o.connectSocketFd, false, some ⟨o.timer, o.timerFd⟩⟩
  | .connected => some ⟨o.socket, o.connectSocketFd, true, none⟩
  | .closed => none

def Phase.subscribers (o : ClientObjects) : Phase → List Address
  | .connecting => [o.inputReader, o.socket, o.timer]
  | .connected => [o.inputReader, o.socket]
  | .closed => [o.inputReader]

namespace Client

/-- The client is in the phase. -/
structure At (o : ClientObjects) (p : Phase) (w : Client) : Prop where
  socket : w.clientConnection.map ClientConnection.socket = p.socket o
  reader : w.inputReader = o.inputReader
  subscribers : ∀ a, a ∈ w.poller.subscribers ↔ a ∈ p.subscribers o
  nodup : w.poller.subscribers.Nodup
  stopped : w.poller.isStopped = decide (p = .closed)

namespace At

variable {p : Phase} {w : Client}

theorem addresses (o : ClientObjects) :
    o.socket ≠ o.timer ∧ o.socket ≠ o.inputReader ∧ o.timer ≠ o.inputReader := by
  simpa [and_assoc] using o.addresses

theorem descriptors (o : ClientObjects) :
    o.connectSocketFd ≠ o.timerFd ∧ o.connectSocketFd ≠ stdinFileno ∧ o.timerFd ≠ stdinFileno := by
  simpa [and_assoc] using o.descriptors

theorem connecting (h : At o .connecting w) :
    ∃ data, w.clientConnection =
      some ⟨⟨o.socket, o.connectSocketFd, false, some ⟨o.timer, o.timerFd⟩⟩, data⟩ := by
  obtain ⟨c, hc, hs⟩ := Option.map_eq_some_iff.mp h.socket
  exact ⟨c.dataToParse, by rw [hc, ← hs]⟩

theorem connected (h : At o .connected w) :
    ∃ data, w.clientConnection = some ⟨⟨o.socket, o.connectSocketFd, true, none⟩, data⟩ := by
  obtain ⟨c, hc, hs⟩ := Option.map_eq_some_iff.mp h.socket
  exact ⟨c.dataToParse, by rw [hc, ← hs]⟩

theorem closed (h : At o .closed w) : w.clientConnection = none := Option.map_eq_none_iff.mp h.socket

theorem record (h : At o p w) (calls : List ClientCall) : At o p (w.record calls) := { h with }

/-- The client is closed when no socket and no timer is left. -/
theorem closed_of_destroy {c : ClientConnection} (hr : w.inputReader = o.inputReader)
    (hc : w.clientConnection = some c) (hn : w.poller.subscribers.Nodup)
    (hs : ∀ a, a ∈ (c.socket.destroy w.poller).subscribers ↔ a = o.inputReader) : At o .closed w.closeClient := by
  have hpoller : w.closeClient.poller = (c.socket.destroy w.poller).stop := by simp only [Client.closeClient, hc]
  refine ⟨rfl, hr, fun a => ?_, ?_, rfl⟩
  · rw [hpoller, Phase.subscribers, List.mem_singleton]
    exact hs a
  · rw [hpoller]
    exact TcpSocket.nodup_destroy hn

theorem closeClient (h : At o p w) : At o .closed w.closeClient := by
  obtain ⟨hst, hsr, htr⟩ := addresses o
  cases p with
  | connecting =>
    obtain ⟨data, hc⟩ := h.connecting
    refine closed_of_destroy h.reader hc h.nodup fun a => ?_
    simp only [TcpSocket.mem_destroy h.nodup, h.subscribers, Phase.subscribers, List.mem_cons, List.not_mem_nil,
      or_false, Option.mem_some_iff, forall_eq']
    constructor
    · rintro ⟨hs, ht, rfl | rfl | rfl⟩
      · rfl
      · exact absurd rfl hs
      · exact absurd rfl ht
    · rintro rfl
      exact ⟨hsr.symm, htr.symm, .inl rfl⟩
  | connected =>
    obtain ⟨data, hc⟩ := h.connected
    refine closed_of_destroy h.reader hc h.nodup fun a => ?_
    simp only [TcpSocket.mem_destroy h.nodup, h.subscribers, Phase.subscribers, List.mem_cons, List.not_mem_nil,
      or_false]
    constructor
    · rintro ⟨hs, -, rfl | rfl⟩
      · rfl
      · exact absurd rfl hs
    · rintro rfl
      exact ⟨hsr.symm, nofun, .inl rfl⟩
  | closed =>
    have hpoller : w.closeClient.poller = w.poller.stop := by simp only [Client.closeClient, h.closed]
    refine ⟨rfl, h.reader, fun a => ?_, ?_, rfl⟩
    · rw [hpoller]
      exact h.subscribers a
    · rw [hpoller]
      exact h.nodup

/-! ### Who has a descriptor -/

theorem objectAt_reader (h : At o p w) : w.objectAt o.inputReader = some .inputReader := by
  rw [objectAt, h.reader, if_pos rfl]

theorem objectAt_socket {c : ClientConnection} (h : At o p w) (hc : w.clientConnection = some c)
    (hs : c.socket.self = o.socket) : w.objectAt o.socket = some (.socket c) := by
  rw [objectAt, h.reader, if_neg (addresses o).2.1, hc]
  simp only [hs, if_true]

theorem objectAt_timer (h : At o .connecting w) : ∃ c, w.clientConnection = some c ∧
    w.objectAt o.timer = some (.timer c) ∧ c.socket.connectionTimeout = some ⟨o.timer, o.timerFd⟩ := by
  obtain ⟨data, hc⟩ := h.connecting
  refine ⟨_, hc, ?_, rfl⟩
  rw [objectAt, h.reader, if_neg (addresses o).2.2, hc]
  simp only [(addresses o).1.symm, if_false, if_true]

theorem exists_socket (h : At o p w) (hp : p ≠ .closed) : ∃ c, w.clientConnection = some c ∧
    c.socket.self = o.socket ∧ c.socket.connectSocketFd = o.connectSocketFd ∧
    c.socket.connected = decide (p = .connected) := by
  cases p with
  | connecting => obtain ⟨data, hc⟩ := h.connecting; exact ⟨_, hc, rfl, rfl, rfl⟩
  | connected => obtain ⟨data, hc⟩ := h.connected; exact ⟨_, hc, rfl, rfl, rfl⟩
  | closed => exact absurd rfl hp

theorem getFileDescriptor_reader (h : At o p w) : w.getFileDescriptor o.inputReader = some stdinFileno := by
  rw [getFileDescriptor, h.objectAt_reader]

theorem getFileDescriptor_socket (h : At o p w) (hp : p ≠ .closed) :
    w.getFileDescriptor o.socket = some o.connectSocketFd := by
  obtain ⟨c, hc, hs, hfd, -⟩ := h.exists_socket hp
  rw [getFileDescriptor, h.objectAt_socket hc hs]
  exact congrArg some hfd

theorem getFileDescriptor_timer (h : At o .connecting w) : w.getFileDescriptor o.timer = some o.timerFd := by
  obtain ⟨c, -, ho, ht⟩ := h.objectAt_timer
  rw [getFileDescriptor, ho]
  simp only [ht, Option.map_some]

/-- The descriptors of the subscribers. -/
theorem getFileDescriptor_eq (h : At o p w) {a : Address} (ha : a ∈ w.poller.subscribers) :
    (a = o.inputReader ∧ w.getFileDescriptor a = some stdinFileno) ∨
    (a = o.socket ∧ p ≠ .closed ∧ w.getFileDescriptor a = some o.connectSocketFd) ∨
    (a = o.timer ∧ p = .connecting ∧ w.getFileDescriptor a = some o.timerFd) := by
  rw [h.subscribers] at ha
  cases p with
  | connecting =>
    simp only [Phase.subscribers, List.mem_cons, List.not_mem_nil, or_false] at ha
    rcases ha with rfl | rfl | rfl
    · exact .inl ⟨rfl, h.getFileDescriptor_reader⟩
    · exact .inr (.inl ⟨rfl, by decide, h.getFileDescriptor_socket (by decide)⟩)
    · exact .inr (.inr ⟨rfl, rfl, h.getFileDescriptor_timer⟩)
  | connected =>
    simp only [Phase.subscribers, List.mem_cons, List.not_mem_nil, or_false] at ha
    rcases ha with rfl | rfl
    · exact .inl ⟨rfl, h.getFileDescriptor_reader⟩
    · exact .inr (.inl ⟨rfl, by decide, h.getFileDescriptor_socket (by decide)⟩)
  | closed =>
    simp only [Phase.subscribers, List.mem_cons, List.not_mem_nil, or_false] at ha
    exact .inl ⟨ha, ha ▸ h.getFileDescriptor_reader⟩

/-- No two subscribers have one descriptor. -/
theorem eq_of_getFileDescriptor (h : At o p w) {a b : Address} {fd : FileDescriptor} (ha : a ∈ w.poller.subscribers)
    (hb : b ∈ w.poller.subscribers) (hafd : w.getFileDescriptor a = some fd) (hbfd : w.getFileDescriptor b = some fd) :
    a = b := by
  obtain ⟨hne, hsocket, htimer⟩ := descriptors o
  rcases h.getFileDescriptor_eq ha with ⟨rfl, ha⟩ | ⟨rfl, -, ha⟩ | ⟨rfl, -, ha⟩
  all_goals
    rcases h.getFileDescriptor_eq hb with ⟨rfl, hb⟩ | ⟨rfl, -, hb⟩ | ⟨rfl, -, hb⟩
  all_goals
    first
    | rfl
    | have heq := Option.some.inj ((ha.symm.trans hafd).trans (hbfd.symm.trans hb))
      grind

/-- The subscriber with the descriptor is found. -/
theorem getSubscriber (h : At o p w) {a : Address} {fd : FileDescriptor} (ha : a ∈ w.poller.subscribers)
    (hfd : w.getFileDescriptor a = some fd) : process.getSubscriberByFileDescriptor w fd = some a :=
  process.getSubscriber_eq_some ha hfd fun _ hb hbfd => h.eq_of_getFileDescriptor hb ha hbfd hfd

theorem mem_reader (h : At o p w) : o.inputReader ∈ w.poller.subscribers := by
  rw [h.subscribers]
  cases p <;> simp [Phase.subscribers]

theorem mem_socket (h : At o p w) : o.socket ∈ w.poller.subscribers ↔ p ≠ .closed := by
  rw [h.subscribers]
  cases p <;> simp [Phase.subscribers, (addresses o).2.1]

theorem mem_timer (h : At o p w) : o.timer ∈ w.poller.subscribers ↔ p = .connecting := by
  rw [h.subscribers]
  cases p <;> simp [Phase.subscribers, (addresses o).2.2, (addresses o).1.symm]

end At

/-! ### Moving from phase to phase -/

/-- The client goes from `w`, in phase `p`, to `w'`, in phase `q`, by calls that
the phases allow; among them a null pointer is used just if `null`. -/
structure Moves (o : ClientObjects) (p q : Phase) (null : Prop) (w w' : Client) : Prop where
  reached : At o q w'
  calls : ∃ new, w'.calls = w.calls ++ new ∧ p.afterAll new = some q ∧ (.nullDereference ∈ new ↔ null)

namespace Moves

variable {p q r : Phase} {w w' w'' : Client} {a b : Prop}

theorem refl (h : At o p w) : Moves o p p False w w :=
  ⟨h, [], (List.append_nil _).symm, rfl, by simp⟩

theorem trans (h₁ : Moves o p q a w w') (h₂ : Moves o q r b w' w'') : Moves o p r (a ∨ b) w w'' := by
  obtain ⟨new₁, hc₁, hp₁, hn₁⟩ := h₁.calls
  obtain ⟨new₂, hc₂, hp₂, hn₂⟩ := h₂.calls
  refine ⟨h₂.reached, new₁ ++ new₂, by rw [hc₂, hc₁, List.append_assoc], ?_, ?_⟩
  · rw [Phase.afterAll_append, hp₁]
    exact hp₂
  · rw [List.mem_append, hn₁, hn₂]

theorem congr (h : Moves o p q a w w') (hq : q = r) (hab : a ↔ b) : Moves o p r b w w' := by
  subst hq
  obtain ⟨new, hc, hp, hn⟩ := h.calls
  exact ⟨h.reached, new, hc, hp, hn.trans hab⟩

theorem record (h : At o p w) (calls : List ClientCall) (hc : p.afterAll calls = some p) :
    Moves o p p (.nullDereference ∈ calls) w (w.record calls) :=
  ⟨h.record calls, calls, rfl, hc, Iff.rfl⟩

/-- The client is closed after some calls. -/
theorem close (h : At o p w) (calls : List ClientCall) (hc : (p.afterAll calls).isSome)
    (hnull : .nullDereference ∉ calls) : Moves o p .closed False w (w.record calls).closeClient := by
  have hcalls : (w.record calls).closeClient.calls = w.calls ++ calls ++ [.closeClient] := rfl
  refine ⟨(h.record calls).closeClient, calls ++ [.closeClient], by rw [hcalls, List.append_assoc], ?_, ?_⟩
  · obtain ⟨q, hq⟩ := Option.isSome_iff_exists.mp hc
    rw [Phase.afterAll_append, hq]
    cases q <;> rfl
  · simpa using hnull

/-- A subscriber may or may not be notified. -/
theorem notifyIf {s : Address} {handler : Address → ClientAnswers → Client → Client} {answers : ClientAnswers}
    (hm : Moves o p q a w (handler s answers w)) (h : At o p w) (hs : s ∈ w.poller.subscribers) (flag : Bool) :
    Moves o p (if flag then q else p) (flag ∧ a) w (process.notifyIf flag handler (some s) answers w) := by
  rw [process.notifyIf_some]
  cases flag with
  | false => exact (refl h).congr rfl (by simp)
  | true =>
    have hnotified : true = true ∧ s ∈ (process.poller w).subscribers := ⟨rfl, hs⟩
    rw [if_pos hnotified]
    exact hm.congr rfl (by simp)

end Moves

variable {p : Phase} {w : Client}

/-! ### Events of the standard input -/

theorem moves_onReaderClosed (h : At o p w) : Moves o p .closed False w w.onReaderClosed :=
  Moves.close h [.onReaderClosed] (by cases p <;> rfl) (by decide)

theorem moves_onMessageRead (h : At o p w) (message : Bytes) :
    Moves o p p (p = .closed) w (w.onMessageRead message) := by
  have hfirst := Moves.record h [.onMessageRead message, .resetInputLine] (by cases p <;> rfl)
  rw [onMessageRead]
  by_cases hp : p = .closed
  · subst hp
    simp only [record_clientConnection, h.closed]
    refine (hfirst.trans (Moves.record hfirst.reached [.nullDereference] rfl)).congr rfl ?_
    simp
  · obtain ⟨c, hc, -, -, -⟩ := h.exists_socket hp
    simp only [record_clientConnection, hc]
    split
    · refine (hfirst.trans (Moves.record hfirst.reached
        [.writeMessage (bytes "You : ".toList ++ message), .sendTextMessage message] ?_)).congr rfl ?_
      · cases p <;> rfl
      · simp [hp]
    · exact hfirst.congr rfl (by simp [hp])

theorem moves_onReaderCall (h : At o p w) (call : Cli.ReaderCall) :
    Moves o p (if call = .onReaderClosed then .closed else p)
      (p = .closed ∧ call ≠ .onReaderClosed) w (w.onReaderCall call) := by
  cases call with
  | onMessageRead message => exact (moves_onMessageRead h message).congr (by simp) (by simp)
  | onReaderClosed => exact (moves_onReaderClosed h).congr (by simp) (by simp)
  | popBackOfEmpty =>
    have hfirst := Moves.record h [.popBackOfEmpty] (by cases p <;> rfl)
    exact (hfirst.trans (moves_onMessageRead hfirst.reached [])).congr (by simp) (by simp)

theorem moves_reader_in (h : At o p w) (flag : Bool) (answers : ClientAnswers) :
    Moves o p (if flag ∧ StdInputReader.onIn answers.reads = some .onReaderClosed then .closed else p)
      (flag ∧ p = .closed ∧ StdInputReader.ReadsAll answers.reads) w
      (process.notifyIf flag onIn (some o.inputReader) answers w) := by
  have hin : Moves o p (if StdInputReader.onIn answers.reads = some .onReaderClosed then .closed else p)
      (p = .closed ∧ StdInputReader.ReadsAll answers.reads) w (onIn o.inputReader answers w) := by
    rw [StdInputReader.readsAll_iff]
    simp only [onIn, h.objectAt_reader]
    cases hcall : StdInputReader.onIn answers.reads with
    | none => exact (Moves.refl h).congr (by simp) (by simp)
    | some call => exact (moves_onReaderCall h call).congr (by simp) (by simp)
  refine (hin.notifyIf h h.mem_reader flag).congr ?_ Iff.rfl
  cases flag <;> simp

theorem onClosed_reader (h : At o p w) (answers : ClientAnswers) :
    onClosed o.inputReader answers w = w.onReaderClosed := by simp only [onClosed, h.objectAt_reader]

theorem onError_reader (h : At o p w) (answers : ClientAnswers) :
    onError o.inputReader answers w = w.onReaderClosed := by simp only [onError, h.objectAt_reader]

theorem moves_reader_ends (h : At o p w) {handler : Address → ClientAnswers → Client → Client} {answers : ClientAnswers}
    (hh : handler o.inputReader answers w = w.onReaderClosed) (flag : Bool) :
    Moves o p (if flag then .closed else p) False w
      (process.notifyIf flag handler (some o.inputReader) answers w) := by
  have hclosed : Moves o p .closed False w (handler o.inputReader answers w) := by
    rw [hh]
    exact moves_onReaderClosed h
  exact (hclosed.notifyIf h h.mem_reader flag).congr rfl (by simp)

/-- An event of the standard input. -/
theorem moves_reader (h : At o p w) {ev : EpollEvent ClientAnswers} (hfd : ev.fd = stdinFileno)
    (hlookup : process.getSubscriberByFileDescriptor w ev.fd = some o.inputReader) :
    Moves o p (p.next o ev) (p = .closed ∧ ReadsMessage ev) w (process.notifySubscriber ev w) := by
  have hout : process.notifyIf ev.epollOut process.onOut (some o.inputReader) ev.answers w = w := by
    refine process.notifyIf_id ?_ _
    show onOut o.inputReader ev.answers w = w
    simp only [onOut, h.objectAt_reader]
  simp only [Process.notifySubscriber, hlookup, hout]
  have hin := moves_reader_in h ev.epollIn ev.answers
  have hhup := hin.trans (moves_reader_ends hin.reached (onClosed_reader hin.reached ev.answers) ev.epollHup)
  have herr := hhup.trans (moves_reader_ends hhup.reached (onError_reader hhup.reached ev.answers) ev.epollErr)
  refine herr.congr ?_ ?_
  · rw [Phase.next, if_pos hfd]
    cases p <;> cases ev.epollIn <;> cases ev.epollHup <;> cases ev.epollErr <;> simp
  · simp only [ReadsMessage, hfd, true_and, or_false]
    tauto

/-! ### Events of the socket -/

theorem afterAll_callbacks (hp : p ≠ .closed) (callbacks : List Message) :
    p.afterAll (callbacks.flatMap onCallback) = some p ∧ .nullDereference ∉ callbacks.flatMap onCallback := by
  induction callbacks with
  | nil => exact ⟨rfl, List.not_mem_nil⟩
  | cons m callbacks ih =>
    have hm : p.afterAll (onCallback m) = some p ∧ .nullDereference ∉ onCallback m := by
      cases m <;> cases p <;> first | exact absurd rfl hp | exact ⟨rfl, by simp [onCallback]⟩
    rw [List.flatMap_cons, Phase.afterAll_append, hm.1, List.mem_append, not_or]
    exact ⟨ih.1, hm.2, ih.2⟩

theorem moves_onConnectionError (h : At o p w) (hp : p ≠ .closed) :
    Moves o p .closed False w w.onConnectionError :=
  Moves.close h _ (by cases p <;> first | rfl | exact absurd rfl hp) (by decide)

theorem moves_onConnectionClosed (h : At o p w) (hp : p ≠ .closed) :
    Moves o p .closed False w w.onConnectionClosed :=
  Moves.close h _ (by cases p <;> first | rfl | exact absurd rfl hp) (by decide)

theorem moves_onDataReceived (h : At o p w) (hp : p ≠ .closed) {c : ClientConnection}
    (hc : w.clientConnection = some c) (data : DataBuffer) :
    Moves o p p False w (w.onDataReceived c data) := by
  have hparsed : At o p { w with clientConnection := some { c with dataToParse := (parseData c.dataToParse data).2 } } :=
    { h with socket := by rw [← h.socket, hc]; rfl }
  obtain ⟨hp, hnull⟩ := afterAll_callbacks hp (parseData c.dataToParse data).1
  exact ⟨hparsed.record _, _, rfl, hp, iff_of_false hnull id⟩

/-- A socket that is gone is not notified. -/
theorem moves_notify_socket {q : Phase} {handler : Address → ClientAnswers → Client → Client} {answers : ClientAnswers}
    (h : At o p w) (hm : p ≠ .closed → Moves o p q False w (handler o.socket answers w)) (flag : Bool) :
    Moves o p (if flag ∧ p ≠ .closed then q else p) False w
      (process.notifyIf flag handler (some o.socket) answers w) := by
  by_cases hp : p = .closed
  · rw [process.notifyIf_gone fun hs => h.mem_socket.mp hs hp]
    exact (Moves.refl h).congr (by simp [hp]) Iff.rfl
  · exact ((hm hp).notifyIf h (h.mem_socket.mpr hp) flag).congr (by simp [hp]) (by simp)

theorem moves_socket_in (h : At o p w) (flag : Bool) (answers : ClientAnswers) :
    Moves o p (if flag ∧ ReadsEnd answers.reads then .closed else p) False w
      (process.notifyIf flag onIn (some o.socket) answers w) := by
  have hin (hp : p ≠ .closed) :
      Moves o p (if ReadsEnd answers.reads then .closed else p) False w (onIn o.socket answers w) := by
    obtain ⟨c, hc, hself, -, -⟩ := h.exists_socket hp
    simp only [onIn, h.objectAt_socket hc hself]
    rcases TcpSocket.onIn_cases answers.reads with hr | ⟨data, hr⟩ | hr | hr
    · rw [if_neg (by simp [ReadsEnd, hr]), hr]
      exact Moves.refl h
    · rw [if_neg (by simp [ReadsEnd, hr]), hr]
      exact moves_onDataReceived h hp hc data
    · rw [if_pos (.inl hr), hr]
      exact moves_onConnectionClosed h hp
    · rw [if_pos (.inr hr), hr]
      exact moves_onConnectionError h hp
  refine (moves_notify_socket h hin flag).congr ?_ Iff.rfl
  cases p <;> cases flag <;> simp

theorem moves_onClosed_socket (h : At o p w) (hp : p ≠ .closed) (answers : ClientAnswers) :
    Moves o p .closed False w (onClosed o.socket answers w) := by
  obtain ⟨c, hc, hself, -, -⟩ := h.exists_socket hp
  simp only [onClosed, h.objectAt_socket hc hself]
  exact moves_onConnectionClosed h hp

theorem moves_onError_socket (h : At o p w) (hp : p ≠ .closed) (answers : ClientAnswers) :
    Moves o p .closed False w (onError o.socket answers w) := by
  obtain ⟨c, hc, hself, -, -⟩ := h.exists_socket hp
  simp only [onError, h.objectAt_socket hc hself]
  exact moves_onConnectionError h hp

theorem moves_socket_ends (h : At o p w) {handler : Address → ClientAnswers → Client → Client} {answers : ClientAnswers}
    (hclosed : p ≠ .closed → Moves o p .closed False w (handler o.socket answers w)) (flag : Bool) :
    Moves o p (if flag then .closed else p) False w
      (process.notifyIf flag handler (some o.socket) answers w) := by
  refine (moves_notify_socket h hclosed flag).congr ?_ Iff.rfl
  cases p <;> cases flag <;> rfl

/-- The first writable event ends the connecting, one way or the other, and the
timer with it. -/
theorem moves_onOut_connecting (h : At o .connecting w) (answers : ClientAnswers) :
    Moves o .connecting (if TcpSocket.connectionIsSuccess answers.soError then .connected else .closed) False w
      (onOut o.socket answers w) := by
  obtain ⟨data, hc⟩ := h.connecting
  have ha := At.addresses o
  have hn := Poller.nodup_erase h.nodup o.timer
  have hmem (a : Address) : a ∈ (w.poller.erase o.timer).subscribers ↔ a ∈ Phase.connected.subscribers o := by
    simp only [Poller.mem_erase h.nodup, h.subscribers, Phase.subscribers, List.mem_cons, List.not_mem_nil, or_false]
    constructor
    · rintro ⟨ht, rfl | rfl | rfl⟩
      · exact .inl rfl
      · exact .inr rfl
      · exact absurd rfl ht
    · rintro (rfl | rfl)
      · exact ⟨ha.2.2.symm, .inl rfl⟩
      · exact ⟨ha.1, .inr (.inl rfl)⟩
  by_cases hsuccess : TcpSocket.connectionIsSuccess answers.soError = true
  · simp only [onOut, h.objectAt_socket hc rfl, TcpSocket.onOut, hsuccess, Bool.false_eq_true, if_false, if_true]
    refine ⟨⟨rfl, h.reader, hmem, hn, h.stopped⟩, _, rfl, rfl, ?_⟩
    simp
  · -- the client is closed while its socket has neither connected nor a timer, as in no phase
    let v : Client := { w with
      clientConnection := some ⟨⟨o.socket, o.connectSocketFd, false, none⟩, data⟩
      poller := w.poller.erase o.timer }
    have hv : onOut o.socket answers w = v.onConnectionError := by
      simp only [onOut, h.objectAt_socket hc rfl, TcpSocket.onOut, hsuccess, Bool.false_eq_true, if_false]
      rfl
    rw [hv, if_neg hsuccess]
    refine ⟨At.closed_of_destroy h.reader rfl hn fun a => ?_,
      [.onConnectionError, .writeError (bytes "Connection error.".toList), .closeClient], ?_, rfl, by simp⟩
    · refine (TcpSocket.mem_destroy hn).trans ⟨?_, ?_⟩
      · rintro ⟨hs, -, hm⟩
        rcases List.mem_pair.mp ((hmem a).mp hm) with rfl | rfl
        · rfl
        · exact absurd rfl hs
      · rintro rfl
        exact ⟨ha.2.1.symm, nofun, (hmem _).mpr List.mem_cons_self⟩
    · show w.calls ++ [.onConnectionError, .writeError (bytes "Connection error.".toList)] ++ [.closeClient] = _
      rw [List.append_assoc]
      rfl

theorem moves_socket_out (h : At o p w) (flag : Bool) (answers : ClientAnswers) :
    Moves o p (if flag ∧ p = .connecting then
        if TcpSocket.connectionIsSuccess answers.soError then .connected else .closed else p) False w
      (process.notifyIf flag onOut (some o.socket) answers w) := by
  cases p with
  | connecting =>
    refine ((moves_onOut_connecting h answers).notifyIf h (h.mem_socket.mpr (by decide)) flag).congr ?_ (by simp)
    cases flag <;> simp
  | connected =>
    obtain ⟨data, hc⟩ := h.connected
    have hout : onOut o.socket answers w = w := by
      simp only [onOut, h.objectAt_socket hc rfl, TcpSocket.onOut, if_true]
    rw [process.notifyIf_id hout]
    exact (Moves.refl h).congr (by simp) Iff.rfl
  | closed =>
    rw [process.notifyIf_gone (fun hm => h.mem_socket.mp hm rfl)]
    exact (Moves.refl h).congr (by simp) Iff.rfl

/-- The phase after an event of the socket, by the order of its handlers. -/
theorem next_socket (hp : p ≠ .closed) {ev : EpollEvent ClientAnswers} (hfd : ev.fd = o.connectSocketFd) :
    p.next o ev =
      if ev.epollErr then .closed
      else if ev.epollHup then .closed
      else if ev.epollIn ∧ ReadsEnd ev.answers.reads then .closed
      else if ev.epollOut ∧ p = .connecting then
        if TcpSocket.connectionIsSuccess ev.answers.soError then .connected else .closed
      else p := by
  have hne : ev.fd ≠ stdinFileno := by
    rw [hfd]
    exact (At.descriptors o).2.1
  rw [Phase.next, if_neg hp, if_neg hne, if_pos hfd]
  cases p with
  | connecting => grind
  | connected => grind
  | closed => exact absurd rfl hp

/-- An event of the socket. -/
theorem moves_socket (h : At o p w) (hp : p ≠ .closed) {ev : EpollEvent ClientAnswers}
    (hfd : ev.fd = o.connectSocketFd)
    (hlookup : process.getSubscriberByFileDescriptor w ev.fd = some o.socket) :
    Moves o p (p.next o ev) False w (process.notifySubscriber ev w) := by
  simp only [Process.notifySubscriber, hlookup]
  have hout := moves_socket_out h ev.epollOut ev.answers
  have hin := hout.trans (moves_socket_in hout.reached ev.epollIn ev.answers)
  have hhup := hin.trans (moves_socket_ends hin.reached
    (fun hp => moves_onClosed_socket hin.reached hp ev.answers) ev.epollHup)
  have herr := hhup.trans (moves_socket_ends hhup.reached
    (fun hp => moves_onError_socket hhup.reached hp ev.answers) ev.epollErr)
  exact herr.congr (next_socket hp hfd).symm (by simp)

/-! ### Events of the timer -/

/-- The timer only has something to do when it is readable. -/
theorem timer_idle (h : At o p w) {handler : Address → ClientAnswers → Client → Client} {answers : ClientAnswers}
    (hidle : ∀ c, w.objectAt o.timer = some (.timer c) → handler o.timer answers w = w) (flag : Bool) :
    process.notifyIf flag handler (some o.timer) answers w = w := by
  by_cases hp : p = .connecting
  · subst hp
    obtain ⟨c, -, hobject, -⟩ := h.objectAt_timer
    exact process.notifyIf_id (hidle c hobject) flag
  · exact process.notifyIf_gone (fun hm => hp (h.mem_timer.mp hm)) flag handler answers

/-- An event of the timer. -/
theorem moves_timer (h : At o .connecting w) {ev : EpollEvent ClientAnswers} (hfd : ev.fd = o.timerFd)
    (hlookup : process.getSubscriberByFileDescriptor w ev.fd = some o.timer) :
    Moves o .connecting (Phase.next o .connecting ev) False w (process.notifySubscriber ev w) := by
  have htimeout : Moves o .connecting .closed False w (onIn o.timer ev.answers w) := by
    obtain ⟨c, hc, hobject, -⟩ := h.objectAt_timer
    simp only [onIn, hobject]
    exact Moves.close h _ rfl (by decide)
  have hin := htimeout.notifyIf h (h.mem_timer.mpr rfl) ev.epollIn
  have hout : process.notifyIf ev.epollOut process.onOut (some o.timer) ev.answers w = w :=
    timer_idle h (fun c hc => by simp only [process, onOut, hc]) _
  simp only [Process.notifySubscriber, hlookup, hout]
  have hhup : process.notifyIf ev.epollHup process.onClosed (some o.timer) ev.answers
      (process.notifyIf ev.epollIn process.onIn (some o.timer) ev.answers w) =
      process.notifyIf ev.epollIn process.onIn (some o.timer) ev.answers w :=
    timer_idle hin.reached (fun c hc => by simp only [process, onClosed] at hc ⊢; rw [hc]) _
  have herr : process.notifyIf ev.epollErr process.onError (some o.timer) ev.answers
      (process.notifyIf ev.epollIn process.onIn (some o.timer) ev.answers w) =
      process.notifyIf ev.epollIn process.onIn (some o.timer) ev.answers w :=
    timer_idle hin.reached (fun c hc => by simp only [process, onError] at hc ⊢; rw [hc]) _
  rw [hhup, herr]
  refine hin.congr ?_ (by simp)
  obtain ⟨hne, -, hne'⟩ := At.descriptors o
  have hopen : Phase.connecting ≠ .closed := by decide
  rw [Phase.next, if_neg hopen, hfd, if_neg hne', if_neg hne.symm]
  simp

/-! ### Events, batches and runs -/

/-- Every event moves the client as its phase says, and a null pointer is used
just if the user's message comes when the client is closed. -/
theorem moves_event (h : At o p w) (ev : EpollEvent ClientAnswers) :
    Moves o p (p.next o ev) (p = .closed ∧ ReadsMessage ev) w (process.notifySubscriber ev w) := by
  by_cases hreader : ev.fd = stdinFileno
  · exact moves_reader h hreader (h.getSubscriber h.mem_reader (hreader ▸ h.getFileDescriptor_reader))
  have hquiet : ¬ (p = .closed ∧ ReadsMessage ev) := fun hm => hreader hm.2.1
  by_cases hs : ev.fd = o.connectSocketFd ∧ p ≠ .closed
  · have hlookup := h.getSubscriber (h.mem_socket.mpr hs.2) (hs.1 ▸ h.getFileDescriptor_socket hs.2)
    exact (moves_socket h hs.2 hs.1 hlookup).congr rfl (by simp [hquiet])
  by_cases ht : ev.fd = o.timerFd ∧ p = .connecting
  · obtain ⟨hfd, rfl⟩ := ht
    have hlookup := h.getSubscriber (h.mem_timer.mpr rfl) (hfd ▸ h.getFileDescriptor_timer)
    exact (moves_timer h hfd hlookup).congr rfl (by simp)
  -- nothing has the descriptor
  have hlookup : process.getSubscriberByFileDescriptor w ev.fd = none := by
    apply process.getSubscriber_eq_none
    intro b hb hfd
    rcases h.getFileDescriptor_eq hb with ⟨-, hb⟩ | ⟨-, hp, hb⟩ | ⟨-, hp, hb⟩
    · exact hreader (Option.some.inj (hb.symm.trans hfd)).symm
    · exact hs ⟨(Option.some.inj (hb.symm.trans hfd)).symm, hp⟩
    · exact ht ⟨(Option.some.inj (hb.symm.trans hfd)).symm, hp⟩
  rw [process.notifySubscriber_of_none hlookup]
  refine (Moves.refl h).congr ?_ (by simp [hquiet])
  rw [Phase.next, if_neg hreader]
  split
  · next hp => exact hp
  · next hp =>
    rw [if_neg fun hfd => hs ⟨hfd, hp⟩, if_neg fun hfd => ht ⟨hfd.1, hfd.2.1⟩]

theorem moves_batch (h : At o p w) (batch : List (EpollEvent ClientAnswers)) :
    Moves o p (p.nextAll o batch) (¬ Phase.BatchQuiet o p batch) w (process.notifyAll batch w) := by
  induction batch generalizing p w with
  | nil => exact (Moves.refl h).congr rfl (by simp [Phase.BatchQuiet])
  | cons ev batch ih =>
    have hev := moves_event h ev
    rw [process.notifyAll_cons]
    refine (hev.trans (ih hev.reached)).congr rfl ?_
    rw [Phase.BatchQuiet, not_and_or, not_not]

/-- A whole run, from any client that is not closed. -/
theorem moves_run (h : At o p w) (batches : List (List (EpollEvent ClientAnswers))) :
    ∃ q, Moves o p q (¬ Phase.Quiet o p batches) w (process.run batches w) := by
  induction batches generalizing p w with
  | nil => exact ⟨p, (Moves.refl h).congr rfl (by simp [Phase.Quiet])⟩
  | cons batch batches ih =>
    have hb := moves_batch h batch
    have hstopped : (process.poller (process.notifyAll batch w)).isStopped = _ := hb.reached.stopped
    rw [Process.run, hstopped, Phase.Quiet]
    by_cases hp : p.nextAll o batch = .closed
    · rw [if_pos (by simpa using hp)]
      exact ⟨_, hb.congr rfl (by simp [hp])⟩
    · rw [if_neg (by simpa using hp)]
      obtain ⟨q, hq⟩ := ih hb.reached
      exact ⟨q, (hb.trans hq).congr rfl (by rw [or_iff_right hp, not_and_or])⟩

theorem at_start (o : ClientObjects) : At o .connecting (start o) := by
  obtain ⟨h₁, h₂, h₃⟩ := At.addresses o
  refine ⟨rfl, rfl, fun a => ?_, ?_, ?_⟩
  · simp [start, TcpSocket.connect, Phase.subscribers, or_comm, or_left_comm]
  · exact Poller.nodup_insert (Poller.nodup_insert (Poller.nodup_insert List.nodup_nil _) _) _
  · simp [start, TcpSocket.connect]

end Client

/-- A run of `chat_client`. -/
def Client.run (o : ClientObjects) (batches : List (List (EpollEvent ClientAnswers))) : Client :=
  Client.process.run batches (Client.start o)

theorem Client.moves_run_start (o : ClientObjects) (batches : List (List (EpollEvent ClientAnswers))) :
    ∃ q, Moves o .connecting q (¬ Phase.Quiet o .connecting batches) (start o) (run o batches) :=
  moves_run (at_start o) batches

/-- The client uses its connection after giving it up in exactly the runs in which
the standard input is read to its end for now, with any bytes or none, later in a batch
than an event that closes the client. -/
theorem nullDereference_iff (o : ClientObjects) (batches : List (List (EpollEvent ClientAnswers))) :
    .nullDereference ∉ (Client.run o batches).calls ↔ Phase.Quiet o .connecting batches := by
  obtain ⟨q, -, new, hcalls, -, hnull⟩ := Client.moves_run_start o batches
  have hstart : .nullDereference ∉ (Client.start o).calls := by simp [Client.start]
  rw [hcalls, List.mem_append, hnull]
  tauto

/-- The server closes the connection and the user's line `hi` comes in the same
batch: the client has given up its connection when it reads the line. -/
theorem message_after_close_uses_null :
    let o : ClientObjects := ⟨1, 2, 3, 4, 5, by decide, by decide⟩
    .nullDereference ∈ (Client.run o
      [[⟨4, false, false, true, false, ⟨0, []⟩⟩,
        ⟨0, false, true, false, false, ⟨0, [.data (bytes ['h', 'i', '\n']), .eagain]⟩⟩]]).calls := by
  decide

/-- Nothing has to be entered for that. -/
example :
    let o : ClientObjects := ⟨1, 2, 3, 4, 5, by decide, by decide⟩
    .nullDereference ∈ (Client.run o
      [[⟨4, false, false, true, false, ⟨0, []⟩⟩, ⟨0, false, true, false, false, ⟨0, [.eagain]⟩⟩]]).calls := by
  decide

/-- In every run: the connection is made at most once and does not time out
afterwards; it ends at most once; and after its end, or after the client is
closed, it notifies nothing. -/
theorem client_life_cycle (o : ClientObjects) (batches : List (List (EpollEvent ClientAnswers))) :
    let calls := (Client.run o batches).calls
    calls.count .onConnected ≤ 1 ∧
    (∀ before after, calls = before ++ .onConnected :: after → .onConnectionTimeout ∉ after) ∧
    calls.countP ClientCall.isTerminal ≤ 1 ∧
    (∀ before c after, calls = before ++ c :: after → c.isTerminal ∨ c = .closeClient →
      ∀ d ∈ after, ¬ d.isNotification) := by
  obtain ⟨q, -, new, hcalls, hlife, -⟩ := Client.moves_run_start o batches
  have hall : Phase.connecting.afterAll (Client.run o batches).calls = some q := by
    rw [hcalls, Phase.afterAll_append]
    exact hlife
  exact life_cycle hall

end EpollChat.Chat
