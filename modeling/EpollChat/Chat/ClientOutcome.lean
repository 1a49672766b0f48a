import EpollChat.Chat.ClientMain
import EpollChat.Net.Registered

/-! The handlers of `main` and those of `Client`. On a terminal of which it is known what
a call on the writer can do, a handler leads to the client that the handler of `Client`
gives, or an exception of the terminal leaves it, with nothing else registered than the
objects that are there, or undefined behaviour ends it that the other one records. No
destructor throws. -/

namespace EpollChat.Chat

open Cpp Utils Net Cli Loops Exceptions Loops.Computation

/-- The objects of the connection, with their descriptors. -/
def Client.connectionObjects (w : Client) : List (Address × FileDescriptor) := match w.clientConnection with
  | none => []
  | some c => c.socket.objects

/-- The poller after the destructor of the connection. -/
def Client.pollerWithout (w : Client) : Poller := match w.clientConnection with
  | none => w.poller
  | some c => c.socket.destroy w.poller

/-- The objects of a client. -/
def Client.objects (w : Client) : List (Address × FileDescriptor) :=
  w.connectionObjects ++ [(w.inputReader, stdinFileno)]

theorem Client.objects_of_connection {w : Client} {c : ClientConnection} (hc : w.clientConnection = some c) :
    w.objects = c.socket.objects ++ [(w.inputReader, stdinFileno)] := by
  rw [objects, connectionObjects, hc]

/-- No undefined behaviour is recorded. -/
def Defined (calls : List ClientCall) : Prop := .nullDereference ∉ calls ∧ .popBackOfEmpty ∉ calls

instance (calls : List ClientCall) : Decidable (Defined calls) := inferInstanceAs (Decidable (_ ∧ _))

theorem defined_append {calls more : List ClientCall} : Defined (calls ++ more) ↔ Defined calls ∧ Defined more := by
  simp only [Defined, List.mem_append, not_or]
  tauto

/-- What is known of a terminal: what it is like before anything is written, what it
shows after some calls on the writer, and whether a call may fail or hang. -/
structure Tty (strerror : Errno → String) where
  starts : Console → Prop
  shows : List WriterCall → Console → Prop
  fails : Prop
  hangs : Prop
  construct : ∀ {s}, starts s →
    (StdOutputWriter.construct strerror).Does s (fun _ t => shows [] t) (fun _ _ => fails) hangs
  perform : ∀ {history s} (call : WriterCall), shows history s →
    (call.perform strerror).Does s (fun _ t => shows (history ++ [call]) t) (fun _ _ => fails) hangs

/-- A terminal of which nothing is known. -/
def Tty.unknown (strerror : Errno → String) : Tty strerror where
  starts _ := True
  shows _ _ := True
  fails := True
  hangs := True
  construct _ := .anything _ _
  perform _ _ := .anything _ _

namespace ClientMain

variable {strerror : Errno → String} (T : Tty strerror)

/-! ### From client to client -/

/-- Exactly the objects are registered. -/
def Held (w : ClientProcess) : Prop := Registers w.client.poller w.registered w.client.objects

structure Sound (w : ClientProcess) : Prop where
  held : Held w
  defined : Defined w.client.calls
  shown : T.shows w.client.writerCalls w.console

/-- How a run may be left without a result. -/
def Stops (undefined : Prop) : Raised Exception → ClientProcess → Prop
  | .thrown _, t => T.fails ∧ Held t
  | .terminated, _ => False
  | .undefined, _ => undefined

theorem Stops.mono {undefined undefined' : Prop} (h : undefined → undefined') (r : Raised Exception)
    (t : ClientProcess) (hr : Stops T undefined r t) : Stops T undefined' r t := by
  cases r with
  | thrown e => exact hr
  | terminated => exact hr
  | undefined => exact h hr

/-- From each sound process with the client `u`, the computation leads to the client `v`. -/
structure Leads (m : ClientM Unit) (u v : Client) : Prop where
  does : ∀ {w : ClientProcess}, w.client = u → Sound T w →
    m.Does w (fun _ t => t.client = v ∧ Sound T t) (Stops T (¬ Defined v.calls)) T.hangs
  calls : u.calls <+: v.calls

namespace Leads

variable {T} {m m' : ClientM Unit} {f : Client → ClientM Unit} {u v v' : Client}

theorem pure (u : Client) : Leads T (pure ()) u u := ⟨fun hw h => .pure ⟨hw, h⟩, List.prefix_refl _⟩

theorem bind (h : Leads T m u v) (h' : Leads T m' v v') : Leads T (do m; m') u v' := by
  refine ⟨fun hw hsound => ?_, h.calls.trans h'.calls⟩
  obtain ⟨more, hmore⟩ := h'.calls
  have hundefined : ¬ Defined v.calls → ¬ Defined v'.calls := fun hv hv' => hv (by
    rw [← hmore] at hv'
    exact (defined_append.mp hv').1)
  exact ((h.does hw hsound).mono (fun _ _ => id) (Stops.mono T hundefined) id).bind fun _ _ ht => h'.does ht.1 ht.2

/-- What the state says is what the client says. -/
theorem gets {α : Type} {g : ClientProcess → α} {k : α → ClientM Unit} {a : α}
    (hg : ∀ w, w.client = u → g w = a) (h : Leads T (k a) u v) : Leads T (Computation.gets g >>= k) u v :=
  ⟨fun {w} hw hsound => Does.gets_bind (by rw [hg w hw]; exact h.does hw hsound), h.calls⟩

theorem getClient (h : Leads T (f u) u v) : Leads T (do f (← getClient)) u v := gets (fun _ => id) h

/-- What certainly returns, does not change the terminal and makes no call on it. -/
theorem of_results (h : ∀ {w : ClientProcess}, w.client = u → Held w →
      ∃ t, m.Results w (.ok () t) ∧ t.client = v ∧ Held t ∧ t.console = w.console) {new : List ClientCall}
    (hcalls : v.calls = u.calls ++ new) (hdefined : Defined new)
    (hnew : new.filterMap ClientCall.writerCall = []) : Leads T m u v := by
  refine ⟨fun {w} hw hsound => ?_, hcalls ▸ List.prefix_append _ _⟩
  obtain ⟨t, ht, hclient, hheld, hconsole⟩ := h hw hsound.held
  have hwriter : t.client.writerCalls = w.client.writerCalls := by
    rw [hclient, hw, Client.writerCalls, Client.writerCalls, hcalls, List.filterMap_append, hnew, List.append_nil]
  refine .of_ok ht ⟨hclient, hheld, ?_, ?_⟩
  · rw [hclient, hcalls, defined_append, ← hw]
    exact ⟨hsound.defined, hdefined⟩
  · rw [hwriter, hconsole]
    exact hsound.shown

end Leads

/-! ### Calls -/

variable {T} {u : Client}

theorem leads_tell {call : ClientCall} (h : Defined [call]) : Leads T (tell strerror call) u (u.record [call]) := by
  refine ⟨fun {w} hw hsound => ?_, List.prefix_append _ _⟩
  let w' : ClientProcess := { w with client := w.client.record [call] }
  have hrecord : (modifyClient fun w => w.record [call]).Results w (.ok () w') := ⟨0, rfl⟩
  have hdefined : Defined w'.client.calls := defined_append.mpr ⟨hsound.defined, h⟩
  have hwriter : w'.client.writerCalls = w.client.writerCalls ++ [call].filterMap ClientCall.writerCall :=
    List.filterMap_append
  have hclient : w'.client = u.record [call] := congrArg (fun w => w.record [call]) hw
  refine (Does.of_ok (P := fun _ t => t = w') hrecord rfl).bind fun _ t ht => ?_
  subst ht
  cases hcall : call.writerCall with
  | none =>
    rw [List.filterMap_cons_none hcall, List.filterMap_nil, List.append_nil] at hwriter
    exact .pure ⟨hclient, hsound.held, hdefined, hwriter ▸ hsound.shown⟩
  | some writerCall =>
    rw [List.filterMap_cons_some hcall, List.filterMap_nil] at hwriter
    have hperform : (writerCall.perform strerror).Does w'.console _ _ _ := T.perform writerCall hsound.shown
    refine hperform.within (fun _ console hshown => ?_) fun _ _ hfails => ?_
    · exact ⟨hclient, hsound.held, hdefined, hwriter ▸ hshown⟩
    · exact ⟨hfails, hsound.held⟩

theorem leads_tellAll {calls : List ClientCall} (h : Defined calls) :
    Leads T (tellAll strerror calls) u (u.record calls) := by
  induction calls generalizing u with
  | nil =>
    rw [Client.record, List.append_nil]
    exact .pure u
  | cons call calls ih =>
    obtain ⟨hcall, hcalls⟩ := defined_append.mp (show Defined ([call] ++ calls) from h)
    have hrecord : u.record (call :: calls) = (u.record [call]).record calls := by
      rw [Client.record, Client.record, Client.record, List.append_assoc, List.singleton_append]
    rw [hrecord]
    exact (leads_tell hcall).bind (ih hcalls)

/-- However the other run goes on after it. -/
theorem leads_undefined {call : ClientCall} (h : ¬ Defined [call]) {v : Client}
    (hv : (u.record [call]).calls <+: v.calls) : Leads T (undefined call) u v := by
  refine ⟨fun {w} hw hsound => ?_, (List.prefix_append _ _).trans hv⟩
  obtain ⟨more, hmore⟩ := hv
  have hrecord : (modifyClient fun w => w.record [call]).Results w (.ok () _) := ⟨0, rfl⟩
  refine .of_error (hrecord.bind_ok (results_raise .undefined _)) fun hdefined => h ?_
  rw [← hmore] at hdefined
  exact (defined_append.mp (defined_append.mp hdefined).1).2

theorem leads_throw {v : Client} (hT : T.fails) (e : Exception) (h : u.calls <+: v.calls) :
    Leads T (raise (.thrown e)) u v :=
  ⟨fun _ hsound => .of_error (results_raise _ _) ⟨hT, hsound.held⟩, h⟩

/-! ### Destructors -/

theorem results_onPoller {fd : Option FileDescriptor} {timer : Option Timer} {m : SetUpM Unit} {w : ClientProcess}
    {s : SetUp} (h : m (setUp fd timer w) = .ok () s) :
    (noexcept (onPoller fd timer (throwing m))).Results w (.ok () (putSetUp s w)) :=
  results_noexcept_ok (results_within.mpr ⟨_, results_throwing_ok h, rfl⟩)

theorem results_getClient (w : ClientProcess) : getClient.Results w (.ok w.client w) := ⟨0, rfl⟩

variable (strerror) in
/-- The objects of the connection are removed, whatever else is registered. -/
theorem results_destroyConnection {w : ClientProcess} {objects : List (Address × FileDescriptor)}
    (h : Registers w.client.poller w.registered (w.client.connectionObjects ++ objects)) :
    ∃ registered, Registers w.client.pollerWithout registered objects ∧ (destroyConnection strerror).Results w
      (.ok () { w with client := { w.client with poller := w.client.pollerWithout }, registered := registered }) := by
  obtain ⟨⟨poller, clientConnection, inputReader, calls⟩, registered, console⟩ := w
  cases clientConnection with
  | none => exact ⟨registered, h, (results_getClient _).bind_ok ⟨0, rfl⟩⟩
  | some c =>
    obtain ⟨s, hs, hpoller, hrest⟩ : ∃ s, SetUp.destroyTcpSocket strerror c.socket.self
        ⟨poller, registered, some c.socket.connectSocketFd, c.socket.connectionTimeout⟩ = .ok () s ∧
        s.poller = c.socket.destroy poller ∧ Registers s.poller s.registered objects := Registers.destroyTcpSocket h
    dsimp only [Client.pollerWithout]
    rw [← hpoller]
    exact ⟨s.registered, hrest, (results_getClient _).bind_ok (results_onPoller hs)⟩

variable (strerror) in
theorem results_destroyReader {w : ClientProcess} {objects : List (Address × FileDescriptor)}
    (h : Registers w.client.poller w.registered ((w.client.inputReader, stdinFileno) :: objects)) :
    ∃ registered, Registers (w.client.poller.erase w.client.inputReader) registered objects ∧
      (destroyReader strerror).Results w (.ok () { w with
        client := { w.client with poller := w.client.poller.erase w.client.inputReader }
        registered := registered }) := by
  have hunsubscribe : SetUp.unsubscribe strerror w.client.inputReader (some stdinFileno) (setUp none none w) = _ :=
    Registers.unsubscribe h
  exact ⟨_, h.erase, (results_getClient w).bind_ok (results_onPoller hunsubscribe)⟩

theorem leads_closeClient (u : Client) : Leads T (closeClient strerror) u u.closeClient := by
  refine Leads.of_results (fun {w} hw h => ?_) (show u.closeClient.calls = u.calls ++ [.closeClient] from rfl)
    (by decide) rfl
  obtain ⟨registered, hrest, hdestroy⟩ := results_destroyConnection strerror h
  refine ⟨_, hdestroy.bind_ok ⟨0, rfl⟩, congrArg Client.closeClient hw, hrest.stop, rfl⟩

/-! ### The handlers -/

theorem leads_onConnected (u : Client) : Leads T (onConnected strerror) u u.onConnected := leads_tellAll (by decide)

theorem leads_onConnectionTimeout (u : Client) : Leads T (onConnectionTimeout strerror) u u.onConnectionTimeout :=
  (leads_tellAll (by decide)).bind (leads_closeClient _)

theorem leads_onConnectionError (u : Client) : Leads T (onConnectionError strerror) u u.onConnectionError :=
  (leads_tellAll (by decide)).bind (leads_closeClient _)

theorem leads_onConnectionClosed (u : Client) : Leads T (onConnectionClosed strerror) u u.onConnectionClosed :=
  (leads_tellAll (by decide)).bind (leads_closeClient _)

theorem leads_onReaderClosed (u : Client) : Leads T (onReaderClosed strerror) u u.onReaderClosed :=
  (leads_tell (by decide)).bind (leads_closeClient _)

theorem leads_onMessageRead (u : Client) (message : Bytes) :
    Leads T (onMessageRead strerror message) u (u.onMessageRead message) := by
  have hfirst : Leads T (tellAll strerror [.onMessageRead message, .resetInputLine]) u _ :=
    leads_tellAll (by simp [Defined])
  refine hfirst.bind (.getClient ?_)
  have hnull : ¬ Defined [.nullDereference] := by decide
  cases hc : u.clientConnection with
  | none =>
    simp only [Client.onMessageRead, Client.record_clientConnection, hc]
    exact leads_undefined hnull (List.prefix_refl _)
  | some c =>
    simp only [Client.onMessageRead, Client.record_clientConnection, hc]
    split
    · exact leads_tellAll (by simp [Defined])
    · exact .pure _

theorem defined_callbacks (callbacks : List Message) : Defined (callbacks.flatMap Client.onCallback) := by
  induction callbacks with
  | nil => decide
  | cons m callbacks ih =>
    rw [List.flatMap_cons, defined_append]
    refine ⟨?_, ih⟩
    cases m <;> simp [Defined, Client.onCallback]

/-- The connection with another state, as long as its objects are the same. -/
theorem leads_setConnection {c c' : ClientConnection} (hc : u.clientConnection = some c)
    (hobjects : c'.socket.objects = c.socket.objects) :
    Leads T (setConnection c') u { u with clientConnection := some c' } := by
  refine Leads.of_results (fun {w} hw h => ?_) (List.append_nil _).symm (by decide) rfl
  subst hw
  rw [Held, Client.objects_of_connection hc, ← hobjects] at h
  exact ⟨{ w with client := { w.client with clientConnection := some c' } }, ⟨0, rfl⟩, rfl, h, rfl⟩

theorem leads_onDataReceived {c : ClientConnection} (hc : u.clientConnection = some c) (data : DataBuffer) :
    Leads T (onDataReceived strerror c data) u (u.onDataReceived c data) := by
  have hparsed : Leads T (setConnection { c with dataToParse := (parseData c.dataToParse data).2 }) u _ :=
    leads_setConnection hc rfl
  exact hparsed.bind (leads_tellAll (defined_callbacks _))

theorem leads_onSocketCall {c : ClientConnection} (hc : u.clientConnection = some c) (call : ListenerCall) :
    Leads T (onSocketCall strerror c call) u (u.onSocketCall c call) := by
  cases call with
  | onDataReceived data => exact leads_onDataReceived hc data
  | onConnected => exact leads_onConnected u
  | onConnectionTimeout => exact leads_onConnectionTimeout u
  | onError => exact leads_onConnectionError u
  | onClosed => exact leads_onConnectionClosed u

theorem leads_onReaderCall (u : Client) (call : ReaderCall) :
    Leads T (onReaderCall strerror call) u (u.onReaderCall call) := by
  cases call with
  | onMessageRead message => exact leads_onMessageRead u message
  | onReaderClosed => exact leads_onReaderClosed u
  | popBackOfEmpty =>
    have hundefined : ¬ Defined [.popBackOfEmpty] := by decide
    have hrest : Leads T (onMessageRead strerror []) (u.record [.popBackOfEmpty]) _ := leads_onMessageRead _ []
    exact leads_undefined hundefined hrest.calls

/-- The poller after the destructor of the timer. -/
def pollerWithoutTimer (poller : Poller) : Option Timer → Poller
  | none => poller
  | some timer => poller.erase timer.self

/-- The timer is destroyed, and the socket has none. -/
theorem leads_destroyTimer {c c' : ClientConnection} (hc : u.clientConnection = some c)
    (hobjects : c'.socket.objects = [(c.socket.self, c.socket.connectSocketFd)]) :
    Leads T (do destroyTimer strerror c.socket.connectionTimeout; setConnection c') u { u with
      clientConnection := some c'
      poller := pollerWithoutTimer u.poller c.socket.connectionTimeout } := by
  refine Leads.of_results (fun {w} hw h => ?_) (List.append_nil _).symm (by decide) rfl
  subst hw
  rw [Held, Client.objects_of_connection hc, TcpSocket.objects] at h
  cases htimer : c.socket.connectionTimeout with
  | none =>
    rw [htimer, Option.toList_none, List.map_nil, ← hobjects] at h
    exact ⟨{ w with client := { w.client with clientConnection := some c' } }, ⟨0, rfl⟩, rfl, h, rfl⟩
  | some timer =>
    rw [htimer, Option.toList_some, List.map_singleton] at h
    have hperm : Registers w.client.poller w.registered ((timer.self, timer.timerFd) ::
        (c'.socket.objects ++ [(w.client.inputReader, stdinFileno)])) := by
      rw [hobjects]
      exact h.perm (List.Perm.swap _ _ _)
    have hunsubscribe : SetUp.unsubscribe strerror timer.self (some timer.timerFd) (setUp none none w) = _ :=
      Registers.unsubscribe hperm
    exact ⟨_, (results_onPoller hunsubscribe).bind_ok ⟨0, rfl⟩, rfl, hperm.erase, rfl⟩

/-- When `getsockopt` fails, the timer has been destroyed. -/
theorem leads_onFirstOut {c : ClientConnection} (hc : u.clientConnection = some c) {answers : HandlerAnswers}
    (hT : answers.Fails → T.fails) :
    Leads T (onFirstOut strerror c answers.getSockOpt) u
      (if TcpSocket.connectionIsSuccess answers.toClient.soError then Client.onConnected { u with
        clientConnection := some { c with socket := { c.socket with connectionTimeout := none, connected := true } }
        poller := pollerWithoutTimer u.poller c.socket.connectionTimeout }
      else Client.onConnectionError { u with
        clientConnection := some { c with socket := { c.socket with connectionTimeout := none } }
        poller := pollerWithoutTimer u.poller c.socket.connectionTimeout }) := by
  unfold onFirstOut
  rw [← bind_assoc]
  refine (leads_destroyTimer hc rfl).bind ?_
  cases hsockopt : answers.getSockOpt with
  | error errno =>
    have hsuccess : TcpSocket.connectionIsSuccess answers.toClient.soError = true := by
      rw [HandlerAnswers.toClient, hsockopt]
      rfl
    rw [if_pos hsuccess]
    exact leads_throw (hT ⟨errno, hsockopt⟩) _ (List.prefix_append _ _)
  | ok soError =>
    have hsoError : answers.toClient.soError = soError := by
      rw [HandlerAnswers.toClient, hsockopt]
      rfl
    rw [hsoError]
    dsimp only
    split
    · exact Leads.bind (leads_setConnection rfl rfl) (leads_onConnected _)
    · exact leads_onConnectionError _

theorem connection_of_objectAt {a : Address} {c : ClientConnection}
    (h : u.objectAt a = some (.socket c) ∨ u.objectAt a = some (.timer c)) : u.clientConnection = some c := by
  unfold Client.objectAt at h
  grind

theorem leads_onOut (u : Client) (a : Address) {answers : HandlerAnswers} (hT : answers.Fails → T.fails) :
    Leads T (onOut strerror a answers) u (u.onOut a answers.toClient) := by
  refine .getClient ?_
  unfold Client.onOut
  cases hobject : u.objectAt a with
  | none => exact .pure u
  | some object => cases object with
    | inputReader => exact .pure u
    | timer c => exact .pure u
    | socket c =>
      dsimp only
      cases hconnected : c.socket.connected with
      | true =>
        simp only [TcpSocket.onOut, hconnected, if_true]
        exact .pure u
      | false =>
        have hfirst : Leads T (onFirstOut strerror c answers.getSockOpt) u _ :=
          leads_onFirstOut (connection_of_objectAt (.inl hobject)) hT
        simp only [TcpSocket.onOut, hconnected, Bool.false_eq_true, if_false]
        by_cases hsuccess : TcpSocket.connectionIsSuccess answers.toClient.soError = true
        · rw [if_pos hsuccess] at hfirst ⊢
          exact hfirst
        · rw [if_neg hsuccess] at hfirst ⊢
          exact hfirst

theorem leads_onIn (u : Client) (a : Address) (answers : HandlerAnswers) :
    Leads T (onIn strerror a answers) u (u.onIn a answers.toClient) := by
  refine .getClient ?_
  dsimp only [Client.onIn, HandlerAnswers.toClient]
  cases hobject : u.objectAt a with
  | none => exact .pure u
  | some object => cases object with
    | inputReader =>
      cases StdInputReader.onIn answers.reads with
      | none => exact .pure u
      | some call => exact leads_onReaderCall u call
    | socket c =>
      cases TcpSocket.onIn answers.reads with
      | none => exact .pure u
      | some call => exact leads_onSocketCall (connection_of_objectAt (.inl hobject)) call
    | timer c => exact leads_onSocketCall (connection_of_objectAt (.inr hobject)) .onConnectionTimeout

theorem leads_onClosed (u : Client) (a : Address) (answers : HandlerAnswers) :
    Leads T (onClosed strerror a answers) u (u.onClosed a answers.toClient) := by
  refine .getClient ?_
  unfold Client.onClosed
  cases hobject : u.objectAt a with
  | none => exact .pure u
  | some object => cases object with
    | inputReader => exact leads_onReaderClosed u
    | socket c => exact leads_onSocketCall (connection_of_objectAt (.inl hobject)) .onClosed
    | timer c => exact .pure u

theorem leads_onError (u : Client) (a : Address) (answers : HandlerAnswers) :
    Leads T (onError strerror a answers) u (u.onError a answers.toClient) := by
  refine .getClient ?_
  unfold Client.onError
  cases hobject : u.objectAt a with
  | none => exact .pure u
  | some object => cases object with
    | inputReader => exact leads_onReaderClosed u
    | socket c => exact leads_onSocketCall (connection_of_objectAt (.inl hobject)) .onError
    | timer c => exact .pure u

/-! ### Events and batches -/

theorem leads_notifyIf {handler : Address → HandlerAnswers → ClientM Unit}
    {handler' : Address → ClientAnswers → Client → Client} {answers : HandlerAnswers}
    (h : ∀ u a, Leads T (handler a answers) u (handler' a answers.toClient u)) (u : Client) (flag : Bool)
    (subscriber : Option Address) : Leads T ((handlers strerror).notifyIf flag handler answers subscriber) u
      (Client.process.notifyIf flag handler' subscriber answers.toClient u) := by
  cases subscriber with
  | none => exact .pure u
  | some a =>
    refine .gets (a := u.poller) (fun w hw => congrArg Client.poller hw) ?_
    unfold Process.notifyIf
    show Leads T _ u (if flag && u.poller.subscriberIsExist (some a) then _ else _)
    split
    · exact h u a
    · exact .pure u

theorem leads_notifySubscriber (u : Client) {ev : EpollEvent HandlerAnswers} (hT : ev.answers.Fails → T.fails) :
    Leads T ((handlers strerror).notifySubscriber ev) u
      (Client.process.notifySubscriber (HandlerAnswers.toClientEvent ev) u) := by
  refine .gets (a := Client.process.getSubscriberByFileDescriptor u ev.fd) (fun w hw => hw ▸ rfl) ?_
  exact (leads_notifyIf (fun u a => leads_onOut u a hT) u ev.epollOut _).bind <|
    (leads_notifyIf (fun u a => leads_onIn u a ev.answers) _ ev.epollIn _).bind <|
    (leads_notifyIf (fun u a => leads_onClosed u a ev.answers) _ ev.epollHup _).bind
    (leads_notifyIf (fun u a => leads_onError u a ev.answers) _ ev.epollErr _)

theorem leads_batch (u : Client) {batch : List (EpollEvent HandlerAnswers)}
    (hT : ∀ ev ∈ batch, ev.answers.Fails → T.fails) :
    Leads T (batch.forM (handlers strerror).notifySubscriber) u
      (Client.process.notifyAll (batch.map HandlerAnswers.toClientEvent) u) := by
  induction batch generalizing u with
  | nil => exact .pure u
  | cons ev batch ih =>
    obtain ⟨hev, hbatch⟩ := List.forall_mem_cons.mp hT
    exact (leads_notifySubscriber u hev).bind (ih _ hbatch)

end ClientMain

end EpollChat.Chat
