import EpollChat.Chat.ClientDisplay
import EpollChat.Chat.ClientOutcome

/-! The life of `chat_client`, from its command line to its status. Whatever fails in
the set-up or on the terminal, `main` gives a status with nothing left registered, or the
process is terminated, which happens exactly if no socket can be opened for the
connection. If nothing fails, `main` makes the runs of `Client`, each call on the writer
as it comes. -/

namespace EpollChat.Chat

open Cpp Utils Net Cli Loops Exceptions Loops.Computation

/-- The client after some rounds of its loop. -/
def Client.rounds (o : ClientObjects) (batches : Stream' (List (EpollEvent HandlerAnswers))) (n : ℕ) : Client :=
  Client.run o ((batches.take n).map fun batch => batch.map HandlerAnswers.toClientEvent)

/-- Some call of `getsockopt` fails only if calls may fail. -/
def Tty.Allows {strerror : Errno → String} (T : Tty strerror) (batches : Stream' (List (EpollEvent HandlerAnswers))) :
    Prop :=
  ∀ n, ∀ ev ∈ batches.get n, ev.answers.Fails → T.fails

namespace ClientSetUp

/-- The objects and their descriptors, as far as they are made. -/
structure Makes (a : ClientSetUp) (o : ClientObjects) : Prop where
  socket : a.socket = o.socket
  timer : a.connect.timer.self = o.timer
  inputReader : a.inputReader = o.inputReader
  connectSocketFd : ∀ fd, a.connect.socket = .ok fd → fd = o.connectSocketFd
  timerFd : ∀ fd, a.connect.timer.create = .ok fd → fd = o.timerFd

/-- No system call fails before the loop. -/
structure Succeeds (a : ClientSetUp) : Prop where
  epollCreate : a.epollCreate = .ok ()
  connect : a.connect.Succeed
  subscribe : a.subscribe.Succeed

end ClientSetUp

namespace ClientMain

variable {strerror : Errno → String} {T : Tty strerror} {inetPton : Bytes → Option UInt32} {a : ClientSetUp}
  {o : ClientObjects} {batches : Stream' (List (EpollEvent HandlerAnswers))}

/-! ### The loop -/

theorem rounds_succ_of_running {n : ℕ} (h : (Client.rounds o batches n).poller.isStopped = false) :
    Client.rounds o batches (n + 1) =
      Client.process.notifyAll ((batches.get n).map HandlerAnswers.toClientEvent) (Client.rounds o batches n) := by
  rw [Client.rounds, Client.run, Stream'.take_succ', List.map_append, List.map_singleton]
  exact Client.process.run_concat_of_running h _

theorem rounds_succ_of_stopped {n : ℕ} (h : (Client.rounds o batches n).poller.isStopped = true) :
    Client.rounds o batches (n + 1) = Client.rounds o batches n := by
  rw [Client.rounds, Client.run, Stream'.take_succ', List.map_append, List.map_singleton]
  have hstart : (Client.process.poller (Client.start o)).isStopped = false := (Client.at_start o).stopped
  exact Client.process.run_concat_of_stopped hstart h _

/-- The client has been stopped. -/
def Stopped (T : Tty strerror) (o : ClientObjects) (batches : Stream' (List (EpollEvent HandlerAnswers)))
    (t : ClientProcess) : Prop :=
  ∃ n, (Client.rounds o batches n).poller.isStopped = true ∧ t.client = Client.rounds o batches n ∧ Sound T t

/-- Some round meets undefined behaviour. -/
def Undefined (o : ClientObjects) (batches : Stream' (List (EpollEvent HandlerAnswers))) : Prop :=
  ∃ n, ¬ Defined (Client.rounds o batches n).calls

/-- The client is never stopped. -/
def Forever (o : ClientObjects) (batches : Stream' (List (EpollEvent HandlerAnswers))) : Prop :=
  ∀ n, (Client.rounds o batches n).poller.isStopped = false ∧ Defined (Client.rounds o batches n).calls

/-- The loop is left when the client has been stopped, or goes on as long as it has not. -/
theorem does_run (hT : T.Allows batches) {w : ClientProcess} (hw : w.client = Client.start o) (hsound : Sound T w) :
    ((handlers strerror).run batches).Does w
      (fun _ t => Stopped T o batches t) (Stops T (Undefined o batches)) (T.hangs ∨ Forever o batches) := by
  have hstart : (Client.rounds o batches 0).poller.isStopped = false := (Client.at_start o).stopped
  refine (handlers strerror).does_run (fun n t => (Client.rounds o batches n).poller.isStopped = false ∧
    t.client = Client.rounds o batches n ∧ Sound T t) ?_ ?_ ⟨hstart, hw, hsound⟩
  · rintro n t ⟨hrunning, hclient, hsound⟩
    have hbatch : Leads T ((batches.get n).forM (handlers strerror).notifySubscriber) (Client.rounds o batches n)
        (Client.rounds o batches (n + 1)) := by
      rw [rounds_succ_of_running hrunning]
      exact leads_batch _ (hT n)
    refine (hbatch.does hclient hsound).mono ?_ (Stops.mono T fun h => ⟨n + 1, h⟩) .inl
    rintro _ u ⟨hu, hsound'⟩
    have hpoller : (handlers strerror).poller u = (Client.rounds o batches (n + 1)).poller :=
      congrArg Client.poller hu
    rw [hpoller]
    exact ⟨fun hstopped => ⟨n + 1, hstopped, hu, hsound'⟩, fun hrunning => ⟨hrunning, hu, hsound'⟩⟩
  · refine fun h => .inr fun n => ?_
    obtain ⟨t, hrunning, hclient, hsound⟩ := h n
    exact ⟨hrunning, hclient ▸ hsound.defined⟩

/-! ### The scopes of `main` -/

/-- How `main` may be left without a status: with these objects left registered, for a
reason, or terminated, or in undefined behaviour. -/
def LeftWith (objects : Client → List (Address × FileDescriptor)) (reason terminated undefined : Prop) :
    Raised Exception → ClientProcess → Prop
  | .thrown _, t => reason ∧ Registers t.client.poller t.registered (objects t.client)
  | .terminated, _ => terminated
  | .undefined, _ => undefined

theorem LeftWith.mono {objects : Client → List (Address × FileDescriptor)}
    {reason terminated terminated' undefined : Prop} (h : terminated → terminated') (r : Raised Exception) (t : ClientProcess)
    (hr : LeftWith objects reason terminated undefined r t) : LeftWith objects reason terminated' undefined r t := by
  cases r with
  | thrown e => exact hr
  | terminated => exact h hr
  | undefined => exact hr

/-- The loop has been left, and the calls have been made. -/
def Finished (T : Tty strerror) (o : ClientObjects) (batches : Stream' (List (EpollEvent HandlerAnswers)))
    (t : ClientProcess) : Prop :=
  ∃ n, (Client.rounds o batches n).poller.isStopped = true ∧ Defined (Client.rounds o batches n).calls ∧
    t.client.calls = (Client.rounds o batches n).calls ∧ T.shows (Client.rounds o batches n).writerCalls t.console

/-- The client when its constructor is called, and before the reader is there. -/
def unstarted (o : ClientObjects) : Client := { Client.start o with calls := [] }

def unread (o : ClientObjects) : Client :=
  let connected := TcpSocket.connect o.socket o.connectSocketFd ⟨o.timer, o.timerFd⟩ ⟨[], false⟩
  ⟨connected.2, some ⟨connected.1, []⟩, o.inputReader, []⟩

theorem does_readerScope (hT : T.Allows batches) {w : ClientProcess} (hw : w.client = unstarted o) (hheld : Held w)
    (hstarts : T.starts w.console) :
    (readerScope strerror batches).Does w
      (fun _ t => Stopped T o batches t)
      (Stops T (Undefined o batches)) (T.hangs ∨ Forever o batches) := by
  have hcalls : w.client.calls = [] := by
    rw [hw]
    rfl
  have hconstruct : (onConsole (StdOutputWriter.construct strerror)).Does w
      (fun _ t => t.client = unstarted o ∧ Sound T t) (Stops T (Undefined o batches)) (T.hangs ∨ Forever o batches) := by
    refine ((T.construct hstarts).mono (fun _ _ => id) (fun _ _ => id) .inl).within (fun _ console hshown => ?_)
      fun _ _ hfails => ⟨hfails, hheld⟩
    refine ⟨hw, hheld, ?_, ?_⟩
    · show Defined w.client.calls
      rw [hcalls]
      decide
    · show T.shows (w.client.calls.filterMap ClientCall.writerCall) console
      rw [hcalls]
      exact hshown
  refine hconstruct.bind fun _ t ht => ?_
  have hclient : Leads T (makeClient strerror) (unstarted o) (Client.start o) := leads_tellAll (by decide)
  have hnever : ¬ Defined (Client.start o).calls → Undefined o batches := fun h => ⟨0, h⟩
  refine ((hclient.does ht.1 ht.2).mono (fun _ _ => id) (Stops.mono T hnever) .inl).bind fun _ u hu => ?_
  exact does_run hT hu.1 hu.2

theorem does_makeReader (ho : a.Makes o) {w : ClientProcess} (hw : w.client = unread o)
    (hregisters : Registers w.client.poller w.registered w.client.connectionObjects) (reason undefined : Prop)
    (hreason : ¬ a.subscribe.Succeed → reason) (D : Prop) :
    (makeReader strerror a).Does w (fun _ t => t.client = unstarted o ∧ Held t ∧ t.console = w.console)
      (LeftWith Client.connectionObjects reason False undefined) D := by
  by_cases h : a.subscribe.Succeed
  · have hsubscribe : SetUp.subscribe strerror a.inputReader stdinFileno a.subscribe (setUp none none w) = .ok () _ :=
      SetUp.subscribe_of_succeed h
    refine .of_ok (results_within.mpr ⟨_, results_throwing_ok hsubscribe, rfl⟩) ⟨?_, ?_, rfl⟩
    · simp only [putSetUp, setUp, SetUp.subscribed, hw, ho.inputReader]
      rfl
    · have hfresh : o.inputReader ∉ w.client.connectionObjects.map Prod.fst := by
        rw [hw]
        obtain ⟨-, hsocket, htimer⟩ := Client.At.addresses o
        simpa [unread, Client.connectionObjects, TcpSocket.connect, TcpSocket.objects] using
          ⟨hsocket.symm, htimer.symm⟩
      have hinsert : Registers (w.client.poller.insert o.inputReader) (stdinFileno :: w.registered)
          ((o.inputReader, stdinFileno) :: w.client.connectionObjects) := hregisters.insert hfresh
      have hreader : w.client.inputReader = o.inputReader := by
        rw [hw]
        rfl
      show Registers (w.client.poller.insert a.inputReader) (stdinFileno :: w.registered)
        (w.client.connectionObjects ++ [(w.client.inputReader, stdinFileno)])
      rw [ho.inputReader, hreader]
      exact hinsert.perm (List.perm_append_singleton _ _).symm
  · obtain ⟨e, he⟩ : ∃ e, SetUp.subscribe strerror a.inputReader stdinFileno a.subscribe (setUp none none w) =
        .error e _ := SetUp.subscribe_of_not_succeed h
    exact .of_error (results_within.mpr ⟨_, results_throwing_error he, rfl⟩) ⟨hreason h, hregisters⟩

theorem does_connectionScope (ho : a.Makes o) (hT : T.Allows batches) {w : ClientProcess} (hw : w.client = unread o)
    (hregisters : Registers w.client.poller w.registered w.client.connectionObjects) (hstarts : T.starts w.console) :
    (connectionScope strerror a batches).Does w
      (fun _ t => Stopped T o batches t)
      (LeftWith Client.connectionObjects (T.fails ∨ ¬ a.Succeeds) False (Undefined o batches))
      (T.hangs ∨ Forever o batches) := by
  have hreason : ¬ a.subscribe.Succeed → T.fails ∨ ¬ a.Succeeds := fun h => .inr fun hs => h hs.subscribe
  refine (does_makeReader ho hw hregisters _ _ hreason _).bind ?_
  rintro _ t ⟨hclient, hheld, hconsole⟩
  refine does_scope (does_readerScope hT hclient hheld (hconsole ▸ hstarts)) ?_ (fun _ => id) fun _ => id
  rintro e u ⟨hfails, hu⟩
  obtain ⟨registered, hrest, hdestroy⟩ := results_destroyReader strerror (hu.perm (List.perm_append_singleton _ _))
  exact ⟨_, hdestroy, .inl hfails, hrest⟩

theorem does_scope_connection (ho : a.Makes o) (hT : T.Allows batches) {w : ClientProcess} (hw : w.client = unread o)
    (hregisters : Registers w.client.poller w.registered w.client.connectionObjects) (hstarts : T.starts w.console)
    (terminated : Prop) :
    (scope (destroyConnection strerror) (connectionScope strerror a batches)).Does w (fun _ t => Stopped T o batches t)
      (LeftWith (fun _ => []) (T.fails ∨ ¬ a.Succeeds) terminated (Undefined o batches))
      (T.hangs ∨ Forever o batches) := by
  refine does_scope (does_connectionScope ho hT hw hregisters hstarts) ?_ (fun _ => False.elim) fun _ => id
  rintro e t ⟨hreason, ht⟩
  have hall : Registers t.client.poller t.registered (t.client.connectionObjects ++ []) := by rwa [List.append_nil]
  obtain ⟨registered, hnothing, hdestroy⟩ := results_destroyConnection strerror hall
  exact ⟨_, hdestroy, hreason, hnothing⟩

variable (strerror) in
/-- The end of `main`: nothing is left registered. -/
theorem results_destroyClient {w : ClientProcess} (h : Held w) :
    ∃ t : ClientProcess,
      (do destroyReader strerror; destroyConnection strerror; return 0 : ClientM ℕ).Results w (.ok 0 t) ∧
      Registers t.client.poller t.registered [] ∧ t.client.calls = w.client.calls ∧ t.console = w.console := by
  obtain ⟨registered, hrest, hreader⟩ := results_destroyReader strerror (h.perm (List.perm_append_singleton _ _))
  let u : ClientProcess := { w with
    client := { w.client with poller := w.client.poller.erase w.client.inputReader }
    registered := registered }
  have hu : Registers u.client.poller u.registered (u.client.connectionObjects ++ []) := by rwa [List.append_nil]
  obtain ⟨registered', hnothing, hconnection⟩ := results_destroyConnection strerror hu
  exact ⟨_, hreader.bind_ok (hconnection.bind_ok ⟨0, rfl⟩), hnothing, rfl, rfl⟩

/-! ### The set-up -/

/-- Before `main` makes the connection. -/
def Untouched (a : ClientSetUp) (w : ClientProcess) : Prop :=
  w.client = ⟨⟨[], false⟩, none, a.inputReader, []⟩ ∧ w.registered = []

theorem unread_of_connects (ho : a.Makes o) {s t : SetUp} {fd : FileDescriptor} {timer : Timer}
    (h : SetUp.Connects a.connect a.socket s t fd timer) (hs : s.poller = ⟨[], false⟩) :
    (⟨t.poller, some ⟨⟨a.socket, fd, false, t.timer⟩, []⟩, a.inputReader, []⟩ : Client) = unread o := by
  have htimer : timer = ⟨o.timer, o.timerFd⟩ := by
    rw [← ho.timer, ← ho.timerFd _ h.created, ← h.allocated]
  rw [h.armed, h.poller, ho.connectSocketFd fd h.socket, htimer, ho.socket, ho.inputReader, hs]
  rfl

theorem registers_unread (ho : a.Makes o) {s t : SetUp} {fd : FileDescriptor} {timer : Timer}
    (h : SetUp.Connects a.connect a.socket s t fd timer) (hs : s.poller = ⟨[], false⟩)
    (hregistered : s.registered = []) :
    Registers t.poller t.registered (unread o).connectionObjects := by
  have hsocket : Registers ((Poller.mk [] false).insert a.socket) [fd] [(a.socket, fd)] :=
    (Registers.nothing false).insert List.not_mem_nil
  have hfresh : timer.self ∉ [(a.socket, fd)].map Prod.fst := by
    rw [h.allocated, ho.timer, ho.socket, List.map_singleton, List.mem_singleton]
    exact (Client.At.addresses o).1.symm
  have hboth : Registers _ (timer.timerFd :: [fd]) _ := hsocket.insert hfresh
  rw [← unread_of_connects ho h hs, h.registered, h.poller, hs, hregistered, h.armed]
  exact hboth.perm (List.Perm.swap _ _ _)

theorem does_makeConnection (ho : a.Makes o) {w : ClientProcess} (hw : Untouched a w) {reason : Prop}
    (hreason : ¬ a.connect.Succeed → reason) (undefined D : Prop) :
    (makeConnection strerror a).Does w
      (fun _ t => t.client = unread o ∧ Registers t.client.poller t.registered t.client.connectionObjects ∧
        t.console = w.console)
      (LeftWith (fun _ => []) reason (∀ fd, ¬ SetUp.Opens a.connect.toSocketAnswers fd) undefined) D := by
  obtain ⟨hclient, hregistered⟩ := hw
  have hpoller : w.client.poller = ⟨[], false⟩ := by rw [hclient]
  have hsocket : (scope (throwing (SetUp.destroyTcpSocket strerror a.socket))
      (throwing (SetUp.connect strerror a.socket a.connect))).Does (setUp none none w) _ _ D :=
    SetUp.does_connect (by simp [setUp, hpoller]) rfl rfl (by simp [setUp, hregistered]) D
  refine Does.bind (P := fun s t => t = putSetUp s w ∧
    ∃ fd timer, SetUp.Connects a.connect a.socket (setUp none none w) s fd timer) ?_ ?_
  · refine (hsocket.bind fun _ t ht => Does.of_ok (P := fun s t => s = t ∧
      ∃ fd timer, SetUp.Connects a.connect a.socket (setUp none none w) s fd timer)
      ⟨0, rfl⟩ ⟨rfl, ht⟩).within (fun s t ⟨hs, ht⟩ => ⟨by rw [hs], ht⟩) ?_
    intro r t hr
    cases r with
    | thrown e =>
      obtain ⟨hfails, ht, hnothing⟩ := hr
      refine ⟨hreason hfails, ?_⟩
      show Registers t.poller t.registered []
      rw [ht, hnothing]
      simp only [setUp, hpoller, hregistered]
      exact .nothing false
    | terminated => exact hr
    | undefined => exact hr.elim
  · rintro s _ ⟨rfl, fd, timer, hconnects⟩
    let t : ClientProcess := { putSetUp s w with client := { (putSetUp s w).client with
      clientConnection := s.fd.map fun fd => ⟨⟨a.socket, fd, false, s.timer⟩, []⟩ } }
    have hunread : t.client = unread o := by
      rw [← unread_of_connects ho hconnects hpoller]
      simp only [t, putSetUp, hclient, hconnects.opened, Option.map_some]
    have hregisters : Registers t.client.poller t.registered t.client.connectionObjects := by
      have hobjects : t.client.connectionObjects = (unread o).connectionObjects := congrArg _ hunread
      rw [hobjects]
      exact registers_unread ho hconnects hpoller hregistered
    exact .of_ok (t := t) ⟨0, rfl⟩ ⟨hunread, hregisters, rfl⟩

/-! ### `main` -/

/-- The command line has an address. -/
def Addressed (inetPton : Bytes → Option UInt32) (arguments : List Bytes) : Prop :=
  ∃ serverIp serverPort rest serverAddress, arguments = serverIp :: serverPort :: rest ∧
    SocketAddress.make inetPton serverIp serverPort = .ok serverAddress

theorem does_makePoller {w : ClientProcess} (hw : Untouched a w) {reason : Prop} (hreason : ¬ a.Succeeds → reason)
    (terminated undefined D : Prop) :
    (makePoller strerror a).Does w (fun _ t => a.epollCreate = .ok () ∧ t = w)
      (LeftWith (fun _ => []) reason terminated undefined) D := by
  rw [makePoller]
  cases hepoll : a.epollCreate with
  | ok _ => exact .pure ⟨rfl, rfl⟩
  | error errno =>
    refine .of_error (results_raise _ w) ⟨hreason fun hs => (nomatch hepoll.symm.trans hs.epollCreate), ?_⟩
    rw [hw.1, hw.2]
    exact .nothing false

theorem does_body (ho : a.Makes o) (hT : T.Allows batches) {w : ClientProcess} (hw : Untouched a w)
    (hstarts : T.starts w.console) {serverIp serverPort : Bytes} {serverAddress : SockAddrIn}
    (haddress : SocketAddress.make inetPton serverIp serverPort = .ok serverAddress) :
    (body strerror inetPton a batches serverIp serverPort).Does w
      (fun status t => status = 0 ∧ Registers t.client.poller t.registered [] ∧ Finished T o batches t)
      (LeftWith (fun _ => []) (T.fails ∨ ¬ a.Succeeds)
        (a.epollCreate = .ok () ∧ ∀ fd, ¬ SetUp.Opens a.connect.toSocketAnswers fd) (Undefined o batches))
      (T.hangs ∨ Forever o batches) := by
  have hparse : (parseAddress inetPton serverIp serverPort).Results w (.ok serverAddress w) := by
    rw [parseAddress, haddress]
    exact ⟨0, rfl⟩
  refine (Does.of_ok (P := fun _ t => t = w) hparse rfl).bind fun _ t ht => ?_
  subst ht
  refine (does_makePoller hw .inr _ _ _).bind fun _ u hu => ?_
  obtain ⟨hepoll, rfl⟩ := hu
  have hconnect : ¬ a.connect.Succeed → T.fails ∨ ¬ a.Succeeds := fun h => .inr fun hs => h hs.connect
  refine ((does_makeConnection ho hw hconnect (Undefined o batches) _).mono (fun _ _ => id)
    (LeftWith.mono fun hr => ⟨hepoll, hr⟩) id).bind fun _ v hv => ?_
  obtain ⟨hclient, hregisters, hconsole⟩ := hv
  refine (does_scope_connection ho hT hclient hregisters (hconsole ▸ hstarts) _).bind ?_
  rintro _ t ⟨n, hstopped, hclient, hsound⟩
  obtain ⟨u, hu, hnothing, hcalls, hconsole⟩ := results_destroyClient strerror hsound.held
  refine .of_ok hu ⟨rfl, hnothing, n, hstopped, hclient ▸ hsound.defined, by rw [hcalls, hclient], ?_⟩
  rw [hconsole, ← hclient]
  exact hsound.shown

/-- Something is wrong with the command line or with the set-up. -/
def Unready (inetPton : Bytes → Option UInt32) (a : ClientSetUp) (arguments : List Bytes) : Prop :=
  ¬ (Addressed inetPton arguments ∧ a.Succeeds)

/-- No socket can be opened for the connection that `main` comes to make. -/
def Socketless (inetPton : Bytes → Option UInt32) (a : ClientSetUp) (arguments : List Bytes) : Prop :=
  Addressed inetPton arguments ∧ a.epollCreate = .ok () ∧ ∀ fd, ¬ SetUp.Opens a.connect.toSocketAnswers fd

/-- A line has been written to `std::cerr`. -/
def Reported (t : ClientProcess) : Prop := ∃ before message, t.console.cerr = before ++ bytes (message ++ "\n").toList

theorem does_tried (ho : a.Makes o) (hT : T.Allows batches) {w : ClientProcess} (hw : Untouched a w)
    (hstarts : T.starts w.console) (serverIp serverPort : Bytes) (rest : List Bytes) :
    (body strerror inetPton a batches serverIp serverPort).Does w
      (fun status t => status = 0 ∧ Registers t.client.poller t.registered [] ∧ Finished T o batches t)
      (LeftWith (fun _ => []) (T.fails ∨ Unready inetPton a (serverIp :: serverPort :: rest))
        (Socketless inetPton a (serverIp :: serverPort :: rest)) (Undefined o batches))
      (T.hangs ∨ Forever o batches) := by
  cases haddress : SocketAddress.make inetPton serverIp serverPort with
  | ok serverAddress =>
    have haddressed : Addressed inetPton (serverIp :: serverPort :: rest) := ⟨_, _, _, _, rfl, haddress⟩
    refine (does_body ho hT hw hstarts haddress).mono (fun _ _ => id) (fun r t hr => ?_) id
    cases r with
    | thrown e => exact ⟨hr.1.imp_right fun h hready => h hready.2, hr.2⟩
    | terminated => exact ⟨haddressed, hr⟩
    | undefined => exact hr
  | error e =>
    have hunready : Unready inetPton a (serverIp :: serverPort :: rest) := by
      rintro ⟨⟨_, _, _, serverAddress, ⟨⟩, hok⟩, -⟩
      exact nomatch haddress.symm.trans hok
    have hparse : (parseAddress inetPton serverIp serverPort).Results w (.error (.thrown e) w) := by
      rw [parseAddress, haddress]
      exact results_raise _ w
    refine .of_error (hparse.bind_error _) ⟨.inr hunready, ?_⟩
    rw [hw.1, hw.2]
    exact .nothing false

theorem results_fail (w : ClientProcess) (message : String) :
    ∃ t : ClientProcess, (fail (message ++ "\n")).Results w (.ok 1 t) ∧ t.client = w.client ∧ t.registered = w.registered ∧
      Reported t :=
  ⟨{ w with console := { w.console with cerr := w.console.cerr ++ bytes (message ++ "\n").toList } }, ⟨0, rfl⟩, rfl, rfl,
    _, _, rfl⟩

/-- A status is given with nothing left registered: that of a client that has been
stopped, or that of a failure, which has been reported. -/
def Ends (T : Tty strerror) (o : ClientObjects) (batches : Stream' (List (EpollEvent HandlerAnswers)))
    (unready : Prop) (status : ℕ) (t : ClientProcess) : Prop :=
  Registers t.client.poller t.registered [] ∧
    (status = 0 ∧ Finished T o batches t ∨ status = 1 ∧ (T.fails ∨ unready) ∧ Reported t)

theorem does_fail {w : ClientProcess} (hnothing : Registers w.client.poller w.registered []) {unready : Prop}
    (hreason : T.fails ∨ unready) (message : String) (E : Raised Exception → ClientProcess → Prop) (D : Prop) :
    (fail (message ++ "\n")).Does w (Ends T o batches unready) E D := by
  obtain ⟨t, ht, hclient, hregistered, hreported⟩ := results_fail w message
  refine .of_ok ht ⟨?_, .inr ⟨rfl, hreason, hreported⟩⟩
  rw [hclient, hregistered]
  exact hnothing

theorem does_main (ho : a.Makes o) (hT : T.Allows batches) {w : ClientProcess} (hw : Untouched a w)
    (hstarts : T.starts w.console) (arguments : List Bytes) :
    (main strerror inetPton a batches arguments).Does w (Ends T o batches (Unready inetPton a arguments))
      (LeftWith (fun _ => []) False (Socketless inetPton a arguments) (Undefined o batches))
      (T.hangs ∨ Forever o batches) := by
  have hnothing : Registers w.client.poller w.registered [] := by
    rw [hw.1, hw.2]
    exact .nothing false
  have husage (h : ∀ serverIp serverPort rest, arguments ≠ serverIp :: serverPort :: rest) :
      (fail "Usage: chat_client server_ip server_port\n").Does w (Ends T o batches (Unready inetPton a arguments))
        (LeftWith (fun _ => []) False (Socketless inetPton a arguments) (Undefined o batches))
        (T.hangs ∨ Forever o batches) :=
    does_fail hnothing (.inr fun ⟨⟨_, _, _, _, heq, _⟩, _⟩ => h _ _ _ heq) "Usage: chat_client server_ip server_port" _ _
  match arguments with
  | [] => exact husage (by simp)
  | [_] => exact husage (by simp)
  | serverIp :: serverPort :: rest =>
    refine does_catching ((does_tried ho hT hw hstarts serverIp serverPort rest).mono
      (fun _ _ ⟨hstatus, hnothing, hfinished⟩ => ⟨hnothing, .inl ⟨hstatus, hfinished⟩⟩) (fun _ _ => id) id) ?_
      (fun _ => id) (fun _ => id)
    rintro e t ⟨hreason, hnothing⟩
    exact does_fail hnothing hreason e.what _ _

/-- What was opened for the connection is destroyed without having been registered. -/
theorem main_terminates {w : ClientProcess} (hw : Untouched a w) {arguments : List Bytes}
    (h : Socketless inetPton a arguments) :
    ∃ t, (main strerror inetPton a batches arguments).Results w (.error .terminated t) := by
  obtain ⟨⟨serverIp, serverPort, rest, serverAddress, rfl, haddress⟩, hepoll, hopens⟩ := h
  have hparse : (parseAddress inetPton serverIp serverPort).Results w (.ok serverAddress w) := by
    rw [parseAddress, haddress]
    exact ⟨0, rfl⟩
  have hpoller : (makePoller strerror a).Results w (.ok () w) := by
    rw [makePoller, hepoll]
    exact ⟨0, rfl⟩
  obtain ⟨s, hs⟩ : ∃ s, (scope (throwing (SetUp.destroyTcpSocket strerror a.socket))
      (throwing (SetUp.connect strerror a.socket a.connect))).Results (setUp none none w) (.error .terminated s) :=
    SetUp.connect_terminates rfl (by simp [setUp, hw.2]) hopens
  have hconnection : (makeConnection strerror a).Results w (.error .terminated (putSetUp s w)) :=
    .bind_error _ (results_within.mpr ⟨_, hs.bind_error _, rfl⟩)
  have hbody : (body strerror inetPton a batches serverIp serverPort).Results w (.error .terminated (putSetUp s w)) :=
    hparse.bind_ok (hpoller.bind_ok (hconnection.bind_error _))
  exact ⟨_, hbody.handling_error (results_raise _ _)⟩

/-! ### Rounds -/

theorem prefix_rounds (n k : ℕ) : (Client.rounds o batches n).calls <+: (Client.rounds o batches (n + k)).calls := by
  induction k with
  | zero => exact List.prefix_refl _
  | succ k ih =>
    refine ih.trans ?_
    rw [← Nat.add_assoc]
    cases hstopped : (Client.rounds o batches (n + k)).poller.isStopped with
    | true => rw [rounds_succ_of_stopped hstopped]
    | false =>
      rw [rounds_succ_of_running hstopped]
      exact (leads_batch (T := Tty.unknown fun _ => "") _ fun _ _ _ => trivial).calls

theorem rounds_of_stopped {n : ℕ} (h : (Client.rounds o batches n).poller.isStopped = true) (k : ℕ) :
    Client.rounds o batches (n + k) = Client.rounds o batches n := by
  induction k with
  | zero => rfl
  | succ k ih => rw [← Nat.add_assoc, rounds_succ_of_stopped (ih ▸ h), ih]

/-- A client that is stopped meets no undefined behaviour if it has met none. -/
theorem not_undefined {n : ℕ} (hstopped : (Client.rounds o batches n).poller.isStopped = true)
    (hdefined : Defined (Client.rounds o batches n).calls) : ¬ Undefined o batches := by
  rintro ⟨m, hm⟩
  rcases Nat.le_total m n with hle | hle
  · obtain ⟨k, rfl⟩ := Nat.exists_eq_add_of_le hle
    obtain ⟨more, hmore⟩ := prefix_rounds (o := o) m k
    exact hm (defined_append.mp (hmore ▸ hdefined)).1
  · obtain ⟨k, rfl⟩ := Nat.exists_eq_add_of_le hle
    exact hm (rounds_of_stopped hstopped k ▸ hdefined)

end ClientMain

/-- A terminal that reports the same width at every call. -/
def Tty.ofWidth (strerror : Errno → String) {columns : UInt16} (hcolumns : columns ≠ 0) {s : Console}
    (hs : Reports s.sizes columns) : Tty strerror where
  starts t := t = s
  shows history t := (session strerror history).Results s (.ok () t) ∧ Reports t.sizes columns
  fails := False
  hangs := False
  construct ht := by
    subst ht
    obtain ⟨t, ht, -, hsizes, -⟩ := displays_construct strerror hcolumns hs
    exact .of_ok ht ⟨ht.bind_ok ⟨0, rfl⟩, hsizes⟩
  perform {history t} call h := by
    obtain ⟨hsession, hsizes⟩ := h
    obtain ⟨u, hu, hsizes'⟩ : ∃ u, (call.perform strerror).Results t (.ok () u) ∧ Reports u.sizes columns := by
      rcases call.draws_or_writeError with h | ⟨error, rfl⟩
      · exact ⟨_, WriterCall.results_perform h hcolumns hsizes, hsizes.drop _⟩
      · exact ⟨_, WriterCall.results_writeError error, hsizes⟩
    have hsplit : session strerror (history ++ [call]) = (do session strerror history; call.perform strerror) := by
      simp only [session, List.forM_eq_forM, List.forM_append, List.forM_cons, List.forM_nil, bind_assoc,
        bind_pure_unit]
    refine .of_ok hu ⟨?_, hsizes'⟩
    rw [hsplit]
    exact hsession.bind_ok hu

open ClientMain

/-- Whatever the command line, the answers of the system calls, the reports of the
terminal and the events: `main` does not let an exception through. If it gives a status,
nothing is left registered, and the status is 0 after the client has been stopped, with
no undefined behaviour, and 1 after a line on `std::cerr`. The process is terminated if and only if the address is
good, the poller is made and no socket is opened and subscribed. Undefined behaviour is
met only in a round that records it. -/
theorem client_main_ends (strerror : Errno → String) (inetPton : Bytes → Option UInt32) {a : ClientSetUp}
    {o : ClientObjects} (ho : a.Makes o) (arguments : List Bytes) (sizes : Stream' (SysResult Winsize))
    (batches : Stream' (List (EpollEvent HandlerAnswers))) :
    let outcome := ClientMain.main strerror inetPton a batches arguments
    let start := ClientMain.init a sizes
    (∀ status t, outcome.Results start (.ok status t) →
      t.client.poller.subscribers = [] ∧ t.registered = [] ∧
      (status = 0 ∧ (∃ n, (Client.rounds o batches n).poller.isStopped = true ∧ Defined t.client.calls ∧
        t.client.calls = (Client.rounds o batches n).calls) ∨ status = 1 ∧ Reported t)) ∧
    (∀ e t, ¬ outcome.Results start (.error (.thrown e) t)) ∧
    ((∃ t, outcome.Results start (.error .terminated t)) ↔ Socketless inetPton a arguments) ∧
    ((∃ t, outcome.Results start (.error .undefined t)) → Undefined o batches) := by
  intro outcome start
  have hdoes : outcome.Does start _ _ _ :=
    does_main (T := Tty.unknown strerror) ho (fun _ _ _ _ => trivial) ⟨rfl, rfl⟩ trivial arguments
  refine ⟨fun status t h => ?_, fun e t h => (hdoes.thrown h).1, ⟨fun ⟨t, h⟩ => hdoes.thrown h, ?_⟩,
    fun ⟨t, h⟩ => hdoes.thrown h⟩
  · obtain ⟨hnothing, hends⟩ := hdoes.returned h
    obtain ⟨hsubscribers, hregistered⟩ := hnothing.eq_nil
    refine ⟨hsubscribers, hregistered, hends.imp ?_ fun h => ⟨h.1, h.2.2⟩⟩
    rintro ⟨hstatus, n, hstopped, hdefined, hcalls, -⟩
    exact ⟨hstatus, n, hstopped, hcalls ▸ hdefined, hcalls⟩
  · exact fun h => main_terminates ⟨rfl, rfl⟩ h

/-- The descriptors are used up: there is no socket, and the process is terminated. -/
theorem client_main_ends_socketless :
    let done : SubscribeAnswers := ⟨.ok (), .ok (), .ok ()⟩
    let a : ClientSetUp := ⟨.ok (), 100, ⟨⟨.error 24, done⟩, .ok (), ⟨200, .ok 5, .ok (), done⟩⟩, 300, done⟩
    ∃ t, (ClientMain.main (fun _ => "") (fun _ => some 0x100007f) a (Stream'.const [])
      [bytes "127.0.0.1".toList, bytes "80".toList]).Results
        (ClientMain.init a (Stream'.const (.ok ⟨24, 80⟩))) (.error .terminated t) := by
  intro done a
  have ho : a.Makes ⟨100, 200, 300, 4, 5, by decide, by decide⟩ :=
    ⟨rfl, rfl, rfl, fun _ h => (nomatch h), fun _ h => (Except.ok.inj h).symm⟩
  refine (client_main_ends (fun _ => "") (fun _ => some 0x100007f) ho _ _ _).2.2.1.mpr ⟨⟨_, _, _, ?_, rfl, ?_⟩, rfl, ?_⟩
  · exact ⟨pfInet, htons 80, 0x100007f⟩
  · decide +kernel
  · exact fun fd h => nomatch h.1

/-- If the address is good, nothing fails before the loop and no `getsockopt` fails in it,
on a terminal that reports the same non-zero width at every call: `main` has the status 0 if and only if the
client of some run is stopped without undefined behaviour, after just the calls of that
run, each call on the writer having been made; it meets undefined behaviour if and only
if some run records it; and there is no other result. -/
theorem client_main_runs (strerror : Errno → String) {inetPton : Bytes → Option UInt32} {a : ClientSetUp}
    {o : ClientObjects} (ho : a.Makes o) {arguments : List Bytes} (haddressed : Addressed inetPton arguments)
    (hsucceeds : a.Succeeds) {columns : UInt16} (hcolumns : columns ≠ 0) {sizes : Stream' (SysResult Winsize)}
    (hsizes : Reports sizes columns) {batches : Stream' (List (EpollEvent HandlerAnswers))}
    (hanswers : ∀ n, ∀ ev ∈ batches.get n, ¬ ev.answers.Fails) :
    let outcome := ClientMain.main strerror inetPton a batches arguments
    let start := ClientMain.init a sizes
    (∀ r, outcome.Results start r →
      (∃ t n, r = .ok 0 t ∧ (Client.rounds o batches n).poller.isStopped = true ∧
        t.client.calls = (Client.rounds o batches n).calls ∧
        (session strerror (Client.rounds o batches n).writerCalls).Results start.console (.ok () t.console)) ∨
      ∃ t, r = .error .undefined t) ∧
    ((∃ t, outcome.Results start (.ok 0 t)) ↔
      ∃ n, (Client.rounds o batches n).poller.isStopped = true ∧ Defined (Client.rounds o batches n).calls) ∧
    ((∃ t, outcome.Results start (.error .undefined t)) ↔ Undefined o batches) := by
  intro outcome start
  have hready : ¬ (False ∨ Unready inetPton a arguments) := by
    rintro (h | h)
    · exact h
    · exact h ⟨haddressed, hsucceeds⟩
  have hdoes : outcome.Does start (ClientMain.Ends (Tty.ofWidth strerror hcolumns (s := start.console) hsizes) o batches _) _ _ :=
    does_main ho (fun n ev hev hfails => hanswers n ev hev hfails) ⟨rfl, rfl⟩ rfl arguments
  have hresult : ∀ r, outcome.Results start r →
      (∃ t, r = .ok 0 t ∧ Finished (Tty.ofWidth strerror hcolumns (s := start.console) hsizes) o batches t) ∨
        (∃ t, r = .error .undefined t) ∧ Undefined o batches := by
    intro r h
    match r, h with
    | .ok status t, h =>
      rcases (hdoes.returned h).2 with ⟨rfl, hfinished⟩ | ⟨-, hreason, -⟩
      · exact .inl ⟨t, rfl, hfinished⟩
      · exact absurd hreason hready
    | .error (.thrown e) t, h => exact (hdoes.thrown h).1.elim
    | .error .terminated t, h =>
      obtain ⟨-, -, hopens⟩ : Socketless inetPton a arguments := hdoes.thrown h
      obtain ⟨fd, hfd⟩ := hsucceeds.connect.opens
      exact absurd hfd (hopens fd)
    | .error .undefined t, h => exact .inr ⟨⟨t, rfl⟩, hdoes.thrown h⟩
  have hends (h : ¬ Forever o batches) : outcome.Ends start := by
    by_contra hends
    rcases hdoes.ranOn hends with hhangs | hforever
    · exact hhangs
    · exact h hforever
  refine ⟨fun r h => ?_, ⟨fun ⟨t, h⟩ => ?_, fun ⟨n, hstopped, hdefined⟩ => ?_⟩, ⟨fun ⟨t, h⟩ => ?_, fun hundefined => ?_⟩⟩
  · rcases hresult r h with ⟨t, rfl, n, hstopped, -, hcalls, hshown, -⟩ | ⟨hr, -⟩
    · exact .inl ⟨t, n, rfl, hstopped, hcalls, hshown⟩
    · exact .inr hr
  · rcases hresult _ h with ⟨_, -, n, hstopped, hdefined, -⟩ | ⟨⟨_, hr⟩, -⟩
    · exact ⟨n, hstopped, hdefined⟩
    · exact nomatch hr
  · obtain ⟨r, hr⟩ := hends fun hforever => Bool.false_ne_true ((hforever n).1.symm.trans hstopped)
    rcases hresult r hr with ⟨t, rfl, -⟩ | ⟨-, hundefined⟩
    · exact ⟨t, hr⟩
    · exact absurd hundefined (not_undefined hstopped hdefined)
  · rcases hresult _ h with ⟨_, hr, -⟩ | ⟨-, hundefined⟩
    · exact nomatch hr
    · exact hundefined
  · obtain ⟨r, hr⟩ := hends fun hforever => hundefined.elim fun n hn => hn (hforever n).2
    rcases hresult r hr with ⟨t, rfl, n, hstopped, hdefined, -⟩ | ⟨⟨t, rfl⟩, -⟩
    · exact absurd hundefined (not_undefined hstopped hdefined)
    · exact ⟨t, hr⟩

/-- The standard input is closed at once. -/
theorem client_main_runs_closed :
    let done : SubscribeAnswers := ⟨.ok (), .ok (), .ok ()⟩
    let a : ClientSetUp := ⟨.ok (), 100, ⟨⟨.ok 4, done⟩, .error einprogress, ⟨200, .ok 5, .ok (), done⟩⟩, 300, done⟩
    ∃ t, (ClientMain.main (fun _ => "") (fun _ => some 0x100007f) a
      (Stream'.const [⟨0, false, false, true, false, ⟨.ok 0, []⟩⟩]) [bytes "127.0.0.1".toList, bytes "80".toList]).Results
        (ClientMain.init a (Stream'.const (.ok ⟨24, 80⟩))) (.ok 0 t) := by
  intro done a
  have ho : a.Makes ⟨100, 200, 300, 4, 5, by decide, by decide⟩ :=
    ⟨rfl, rfl, rfl, fun _ h => (Except.ok.inj h).symm, fun _ h => (Except.ok.inj h).symm⟩
  have hdone : done.Succeed := ⟨rfl, rfl, rfl⟩
  have hsucceeds : a.Succeeds := ⟨rfl, ⟨⟨4, rfl, hdone⟩, .inr rfl, ⟨5, rfl⟩, rfl, hdone⟩, hdone⟩
  have haddress : SocketAddress.make (fun _ => some 0x100007f) (bytes "127.0.0.1".toList) (bytes "80".toList) =
      .ok ⟨pfInet, htons 80, 0x100007f⟩ := by decide +kernel
  have hcolumns : (80 : UInt16) ≠ 0 := by decide
  refine (client_main_runs (fun _ => "") ho ⟨_, _, _, _, rfl, haddress⟩ hsucceeds hcolumns (fun _ => ⟨_, rfl, rfl⟩)
    ?_).2.1.mpr ⟨1, by decide, by decide⟩
  rintro n _ hev ⟨errno, h⟩
  obtain rfl := List.mem_singleton.mp hev
  exact nomatch h

end EpollChat.Chat
