import EpollChat.Chat.Refinement
import EpollChat.Chat.Renaming
import EpollChat.Chat.ServerDispatch

/-! The process `chat_server` does what a session of its server does. The session
knows a connection by its number, the process by its address, which is used again
after the connection is gone; by the numbers of the sockets each state of the
process is one of the session, for what the events of the poller stand for, and
what is handed to `SendData` is the same. -/

namespace EpollChat.Chat

open Cpp Utils Net

namespace ServerProcess

/-- The number of a live connection, by its address. -/
def number (w : ServerProcess) (connection : Address) : Address :=
  match w.server.incomingConnections.find? fun c => c.self = connection with
  | none => 0
  | some c => w.serials c.socket.self - 1

/-! ### What the server does -/

/-- The process with all that its server has done, the connections by their numbers. -/
structure Logged where
  process : ServerProcess
  effects : List Effect

namespace Logged

def called (x : Logged) (a : Address) : Logged := { x with process := x.process.called a }

/-- The process goes on to `w`, and its server has done `effects`. -/
def log (x : Logged) (w : ServerProcess) (effects : List Effect) : Logged :=
  ⟨w, x.effects ++ effects.map (Effect.rename w.number)⟩

def onNewConnection (incoming : Accepted) (x : Logged) : Logged :=
  x.log (x.process.onNewConnection incoming)
    (x.process.server.onNewConnection (.incoming incoming.socket incoming.newIncomingSocketFd) incoming.connection).2

def onConnectionClosed (x : Logged) (c : ServerConnection) : Logged :=
  x.log (x.process.onConnectionClosed c) (match x.process.server.onConnectionClosed c.self with
    | none => []
    | some r => r.2)

def onSocketCall (x : Logged) (c : ServerConnection) : ListenerCall → Logged
  | .onDataReceived data =>
    x.log (x.process.onSocketCall c (.onDataReceived data)) (x.process.server.onDataReceived c data).2
  | .onConnected => x
  | .onConnectionTimeout => x
  | .onError => x.onConnectionClosed c
  | .onClosed => x.onConnectionClosed c

def onOut (a : Address) (answers : ServerAnswers) (x : Logged) : Logged :=
  let x := x.called a
  match x.process.objectAt a with
  | some (.socket c) =>
    let out := c.socket.onOut answers.soError x.process.poller
    match out.2.2 with
    | none => x
    | some call =>
      let w := { x.process with poller := out.2.1 }.setSocket c.self out.1
      { x with process := w }.onSocketCall { c with socket := out.1 } call
  | _ => x

def onIn (a : Address) (answers : ServerAnswers) (x : Logged) : Logged :=
  let x := x.called a
  match x.process.objectAt a with
  | none => x
  | some .connectionReceiver => TcpConnectionReceiver.onInLoop onNewConnection x answers.accepts
  | some (.socket c) => match TcpSocket.onIn answers.reads with
    | none => x
    | some call => x.onSocketCall c call

def onClosed (a : Address) (_ : ServerAnswers) (x : Logged) : Logged :=
  let x := x.called a
  match x.process.objectAt a with
  | some (.socket c) => x.onSocketCall c .onClosed
  | _ => x

def onError (a : Address) (_ : ServerAnswers) (x : Logged) : Logged :=
  let x := x.called a
  match x.process.objectAt a with
  | some (.socket c) => x.onSocketCall c .onError
  | _ => x

def logged : Process Logged ServerAnswers :=
  ⟨fun x => x.process.poller, fun x => x.process.getFileDescriptor, onOut, onIn, onClosed, onError⟩

theorem process_onSocketCall (x : Logged) (c : ServerConnection) (call : ListenerCall) :
    (x.onSocketCall c call).process = x.process.onSocketCall c call := by
  cases call <;> rfl

theorem process_onInLoop (x : Logged) (results : List AcceptResult) :
    (TcpConnectionReceiver.onInLoop onNewConnection x results).process =
      TcpConnectionReceiver.onInLoop ServerProcess.onNewConnection x.process results := by
  induction results generalizing x with
  | nil => rfl
  | cons result results ih =>
    cases result with
    | accepted incoming => exact ih _
    | eagain => rfl
    | error => rfl

/-- Without the log it is the process. -/
theorem logged_projects : logged.Projects ServerProcess.process Logged.process where
  poller _ := rfl
  getFileDescriptor _ := rfl
  onOut a answers x := by
    simp only [ServerProcess.process, ServerProcess.onOut, logged, onOut, called]
    cases (x.process.called a).objectAt a with
    | none => rfl
    | some object =>
      cases object with
      | connectionReceiver => rfl
      | socket c =>
        dsimp only
        cases (c.socket.onOut answers.soError (x.process.called a).poller).2.2 with
        | none => rfl
        | some call =>
          dsimp only
          rw [process_onSocketCall]
  onIn a answers x := by
    simp only [ServerProcess.process, ServerProcess.onIn, logged, onIn, called]
    cases (x.process.called a).objectAt a with
    | none => rfl
    | some object =>
      cases object with
      | connectionReceiver =>
        dsimp only
        rw [process_onInLoop]
      | socket c =>
        cases TcpSocket.onIn answers.reads with
        | none => rfl
        | some call =>
          dsimp only
          rw [process_onSocketCall]
  onClosed a answers x := by
    simp only [ServerProcess.process, ServerProcess.onClosed, logged, onClosed, called]
    cases (x.process.called a).objectAt a with
    | none => rfl
    | some object => cases object <;> rfl
  onError a answers x := by
    simp only [ServerProcess.process, ServerProcess.onError, logged, onError, called]
    cases (x.process.called a).objectAt a with
    | none => rfl
    | some object => cases object <;> rfl

/-- Only reading is of interest to the receiver. -/
theorem receiver_handlers {x : Logged} {t : Address} (ht : x.process.connectionReceiver.self = t)
    (answers : ServerAnswers) :
    onOut t answers x = x.called t ∧
    onIn t answers x = TcpConnectionReceiver.onInLoop onNewConnection (x.called t) answers.accepts ∧
    onClosed t answers x = x.called t ∧ onError t answers x = x.called t := by
  have hobject : (x.called t).process.objectAt t = some .connectionReceiver :=
    ht ▸ objectAt_called_receiver x.process
  simp only [onOut, onIn, onClosed, onError, hobject, true_and]

end Logged

/-! ### What the events stand for -/

/-- What a call of the socket of connection `k` is to the server. -/
def told (k : Address) : ListenerCall → List Event
  | .onDataReceived data => [.dataReceived k data]
  | .onConnected => []
  | .onConnectionTimeout => []
  | .onError => [.error k]
  | .onClosed => [.closed k]

def arrived : List AcceptResult → List Event
  | .accepted incoming :: results =>
    .newConnection (.incoming incoming.socket incoming.newIncomingSocketFd) :: arrived results
  | _ => []

/-- What an event of the poller is to the server. -/
def happened (w : ServerProcess) (ev : EpollEvent ServerAnswers) : List Event :=
  match (process.getSubscriberByFileDescriptor w ev.fd).bind w.objectAt with
  | none => []
  | some .connectionReceiver => if ev.epollIn then arrived ev.answers.accepts else []
  | some (.socket c) =>
    let k := w.number c.self
    (if ev.epollIn then (TcpSocket.onIn ev.answers.reads).elim [] (told k) else []) ++
      (if ev.epollHup then [.closed k] else []) ++ if ev.epollErr then [.error k] else []

def happenedAll (w : ServerProcess) : List (EpollEvent ServerAnswers) → List Event
  | [] => []
  | ev :: evs => w.happened ev ++ (process.notifySubscriber ev w).happenedAll evs

theorem happenedAll_append (w : ServerProcess) (evs more : List (EpollEvent ServerAnswers)) :
    w.happenedAll (evs ++ more) = w.happenedAll evs ++ (process.notifyAll evs w).happenedAll more := by
  induction evs generalizing w with
  | nil => rfl
  | cons ev evs ih => rw [List.cons_append, happenedAll, happenedAll, ih, List.append_assoc, process.notifyAll_cons]

theorem told_idle {s : Session} {k : Address} (h : s.find? k = none) (call : ListenerCall) :
    (told k call).foldl Session.step s = s := by
  have hclosed : s.server.onConnectionClosed k = none := by
    rw [Session.find?] at h
    rw [Server.onConnectionClosed, Server.removeClient, h]
  cases call with
  | onDataReceived data =>
    rw [told, List.foldl_cons, List.foldl_nil, Session.step, h]
  | onConnected => rfl
  | onConnectionTimeout => rfl
  | onError => rw [told, List.foldl_cons, List.foldl_nil, Session.step, hclosed]
  | onClosed => rw [told, List.foldl_cons, List.foldl_nil, Session.step, hclosed]

/-- The object at `t` is the socket of connection `k`, or it is gone. -/
def Logged.Here (x : Logged) (s : Session) (t k : Address) : Prop :=
  (∃ c ∈ x.process.server.incomingConnections, c.socket.self = t ∧ x.process.number c.self = k) ∨
    (t ∉ x.process.poller.subscribers ∧ s.find? k = none)

/-! ### The simulation -/

/-- The session is in the state of the process, by the numbers, and has done the same;
and the open descriptors are those of the live objects and of nothing else. -/
structure Simulates (otherFds : List FileDescriptor) (x : Logged) (s : Session) : Prop where
  consistent : Consistent x.process
  positive : ∀ n ∈ x.process.liveSerials, 1 ≤ n
  server : x.process.server.rename x.process.number = s.server
  arrivals : x.process.created = s.arrivals + 1
  effects : x.effects = s.effects
  openFds : x.process.openFds.Perm (x.process.objects.map Prod.snd ++ otherFds)

section Closing
variable {w : ServerProcess}

/-- The server forgets a live connection, destroys its socket and tells the others. -/
theorem onConnectionClosed_some {c : ServerConnection} (hc : c ∈ w.server.incomingConnections)
    (h : (w.server.incomingConnections.map ServerConnection.self).Nodup) :
    ∃ r, w.server.onConnectionClosed c.self = some r ∧ destroyed r.2 = [c.socket] ∧
      w.server.incomingConnections.Perm (c :: r.1.incomingConnections) := by
  have hfind := find?_of_nodup ServerConnection.self h hc
  refine ⟨_, by rw [Server.onConnectionClosed, Server.removeClient, hfind], ?_,
    perm_eraseP_of_nodup ServerConnection.self h hc⟩
  rw [destroyed_destroySocket, destroyed_append, notifyServerInfo_eq, notifyClientLeave_eq, destroyed_broadcast,
    destroyed_broadcast]
  rfl

end Closing

section Numbers
variable {w : ServerProcess}

theorem Consistent.number_eq (h : Consistent w) {c : ServerConnection} (hc : c ∈ w.server.incomingConnections) :
    w.number c.self = w.serials c.socket.self - 1 := by
  rw [number, find?_of_nodup ServerConnection.self h.connections hc]

/-- The object with a descriptor is the one that is notified. -/
theorem Consistent.getSubscriber (h : Consistent w) {t : Address} {fd : FileDescriptor} (ht : (t, fd) ∈ w.objects) :
    process.getSubscriberByFileDescriptor w fd = some t := by
  refine process.getSubscriber_eq_some ((h.subscribers t).mpr (List.mem_map_of_mem ht)) (h.getFileDescriptor_eq ht)
    fun b hb hfd => ?_
  obtain ⟨y, hy, rfl⟩ := List.mem_map.mp ((h.subscribers b).mp hb)
  have hy' : y.2 = fd := Option.some.inj ((h.getFileDescriptor_eq hy).symm.trans hfd)
  exact congrArg Prod.fst (List.inj_on_of_nodup_map h.descriptors hy ht hy')

theorem liveSerials_eq (w : ServerProcess) : w.liveSerials = (w.objects.tail.map Prod.fst).map w.serials := by
  rw [objects, List.tail_cons, List.map_map, List.map_map]
  rfl

/-- The connections have different numbers. -/
theorem Consistent.separates (h : Consistent w) (hpositive : ∀ n ∈ w.liveSerials, 1 ≤ n) :
    w.server.Separates w.number := by
  intro c hc d hd he
  rw [h.number_eq hc, h.number_eq hd] at he
  have hnodup := (List.nodup_append.mp h.numbered).1
  have hserial := Nat.sub_one_cancel (hpositive _ (List.mem_map_of_mem hc)) (hpositive _ (List.mem_map_of_mem hd)) he
  rw [List.inj_on_of_nodup_map hnodup hc hd hserial]

end Numbers

namespace Simulates

variable {otherFds : List FileDescriptor} {x : Logged} {s : Session} (h : Simulates otherFds x s)
include h

theorem separates : x.process.server.Separates x.process.number := h.consistent.separates h.positive

/-- A live connection is known to the session by its number. -/
theorem find? {c : ServerConnection} (hc : c ∈ x.process.server.incomingConnections) :
    s.find? (x.process.number c.self) = some (c.rename x.process.number) := by
  rw [Session.find?, ← h.server, Server.find?_rename h.separates hc,
    find?_of_nodup ServerConnection.self h.consistent.connections hc]
  rfl

theorem called {t : Address} {fd : FileDescriptor} (ht : (t, fd) ∈ x.process.objects) :
    Simulates otherFds (x.called t) s where
  consistent := (kept_called h.consistent ht).consistent
  positive := h.positive
  server := h.server
  arrivals := h.arrivals
  effects := h.effects
  openFds := h.openFds

/-- The process goes on, and the session does what its server has done. -/
theorem log {w : ServerProcess} {r : Server × List Effect} {effects : List Effect} (hw : Consistent w)
    (hpositive : ∀ n ∈ w.liveSerials, 1 ≤ n) (hserver : w.server.rename w.number = r.1)
    (hcreated : w.created = x.process.created) (heffects : effects.map (Effect.rename w.number) = r.2)
    (hfds : w.openFds.Perm (w.objects.map Prod.snd ++ otherFds)) :
    Simulates otherFds (x.log w effects) (s.perform r) where
  consistent := hw
  positive := hpositive
  server := hserver
  arrivals := hcreated.trans h.arrivals
  effects := by rw [Logged.log, Session.perform, h.effects, heffects]
  openFds := hfds

/-- Data is received by a live connection. -/
theorem received {c : ServerConnection} (hc : c ∈ x.process.server.incomingConnections) (data : DataBuffer) :
    Simulates otherFds (x.onSocketCall c (.onDataReceived data))
      (s.step (.dataReceived (x.process.number c.self) data)) := by
  have hkept := h.consistent.received (mem_objects_of_mem hc) data
  rw [Session.step, h.find? hc]
  dsimp only
  rw [← h.server, Server.onDataReceived_rename h.separates hc]
  simp only [Logged.onSocketCall]
  rw [onDataReceived_eq] at hkept ⊢
  set w' : ServerProcess := { x.process with
    server := x.process.server.setDataToParse c.self (parseData c.dataToParse data).2 } with hw'
  -- the numbers are the same, as the sockets are
  have hnumber : w'.number = x.process.number := by
    funext a
    have hself : ((fun it : ServerConnection => decide (it.self = a)) ∘ fun it : ServerConnection =>
        if it.self = c.self then { it with dataToParse := (parseData c.dataToParse data).2 } else it) =
          fun it => decide (it.self = a) := by
      funext it
      simp only [Function.comp_apply]
      split <;> rfl
    rw [number, number, hw', Server.setDataToParse, List.find?_map, hself]
    cases x.process.server.incomingConnections.find? fun it => it.self = a with
    | none => rfl
    | some d =>
      simp only [Option.map_some]
      split <;> rfl
  have hobjects : w'.objects = x.process.objects := objects_setDataToParse x.process c.self _
  refine h.log hkept.consistent ?_ ?_ rfl ?_ ?_
  · rw [liveSerials_eq, hobjects]
    exact fun n hn => h.positive n (liveSerials_eq x.process ▸ hn)
  · rw [hnumber]
    rfl
  · rw [hnumber]
  · rw [hobjects]
    exact h.openFds

/-- A live connection is closed, and its number is not used any more. -/
theorem closed {c : ServerConnection} (hc : c ∈ x.process.server.incomingConnections) :
    ∃ r, s.server.onConnectionClosed (x.process.number c.self) = some r ∧
      Simulates otherFds (x.onConnectionClosed c) (s.perform r) ∧
      x.process.number c.self ∉ r.1.incomingConnections.map ServerConnection.self := by
  have hkept := h.consistent.closed hc
  obtain ⟨r, hr, hdestroyed, hperm⟩ := onConnectionClosed_some hc h.consistent.connections
  have heq : x.process.onConnectionClosed c = { x.process with
      server := r.1
      poller := c.socket.destroy x.process.poller
      openFds := x.process.openFds.erase c.socket.connectSocketFd
      calls := x.process.calls ++ [.onConnectionClosed (x.process.serials c.socket.self)] } := by
    simp only [ServerProcess.onConnectionClosed, record, hr, perform, hdestroyed]
    rfl
  rw [Logged.onConnectionClosed, hr]
  rw [heq] at hkept ⊢
  set w' : ServerProcess := { x.process with
    server := r.1
    poller := c.socket.destroy x.process.poller
    openFds := x.process.openFds.erase c.socket.connectSocketFd
    calls := x.process.calls ++ [.onConnectionClosed (x.process.serials c.socket.self)] } with hw'
  have hnumber : ∀ d ∈ r.1.incomingConnections, w'.number d.self = x.process.number d.self := fun d hd => by
    rw [hkept.consistent.number_eq hd, h.consistent.number_eq (hperm.mem_iff.mpr (List.mem_cons_of_mem c hd))]
  have hobjects : (x.process.objects.map Prod.snd).Perm (c.socket.connectSocketFd :: w'.objects.map Prod.snd) :=
    (((hperm.map fun d : ServerConnection => (d.socket.self, d.socket.connectSocketFd)).cons _).trans
      (List.Perm.swap _ _ _)).map Prod.snd
  refine ⟨(r.1.rename w'.number, r.2.map (Effect.rename w'.number)), ?_, ?_, ?_⟩
  · rw [← h.server, Server.onConnectionClosed_rename h.separates hc, hr, Server.rename_congr hnumber,
      Server.onConnectionClosed_congr hr hnumber]
    rfl
  · refine h.log hkept.consistent (fun n hn => ?_) rfl rfl rfl ?_
    · exact h.positive n ((hperm.map _).mem_iff.mpr (List.mem_cons_of_mem _ hn))
    · have hfds := (h.openFds.trans (hobjects.append_right otherFds)).erase c.socket.connectSocketFd
      rwa [List.cons_append, List.erase_cons_head] at hfds
  · intro hm
    obtain ⟨_, hd', he⟩ := List.mem_map.mp hm
    obtain ⟨d, hd, rfl⟩ := List.mem_map.mp hd'
    have hsame : x.process.number d.self = x.process.number c.self := (hnumber d hd).symm.trans he
    rw [h.separates.eq_iff (hperm.mem_iff.mpr (List.mem_cons_of_mem c hd)) hc] at hsame
    have hnodup := (hperm.map ServerConnection.self).nodup_iff.mp h.consistent.connections
    rw [List.map_cons, List.nodup_cons] at hnodup
    exact hnodup.1 (hsame ▸ List.mem_map_of_mem hd)

/-- A connection that is refused leaves nothing but its number. -/
theorem refused {incoming : Accepted} (hf : x.process.Fresh incoming)
    (hfull : x.process.server.incomingConnectionsLimit.toNat ≤ x.process.server.incomingConnections.length) :
    Simulates otherFds (x.onNewConnection incoming)
      ⟨s.server, s.arrivals + 1,
        s.effects ++ [.destroySocket (.incoming incoming.socket incoming.newIncomingSocketFd)]⟩ := by
  have hkept := h.consistent.refused hf
  have hr : x.process.server.onNewConnection (.incoming incoming.socket incoming.newIncomingSocketFd)
      incoming.connection =
        (x.process.server, [.destroySocket (.incoming incoming.socket incoming.newIncomingSocketFd)]) := by
    rw [Server.onNewConnection, if_pos hfull]
  have heq : x.process.onNewConnection incoming = (x.process.newSocket incoming).destroySocket
      (.incoming incoming.socket incoming.newIncomingSocketFd) := by
    rw [ServerProcess.onNewConnection, hr]
    rfl
  rw [Logged.onNewConnection, hr, heq]
  set w' := (x.process.newSocket incoming).destroySocket
    (.incoming incoming.socket incoming.newIncomingSocketFd) with hw'
  have hnumber : ∀ c ∈ w'.server.incomingConnections, w'.number c.self = x.process.number c.self := fun c hc => by
    rw [hkept.consistent.number_eq hc, h.consistent.number_eq hc]
    exact congrArg (· - 1) (serials_newSocket hf (mem_objects_of_mem hc))
  refine ⟨hkept.consistent, fun n hn => ?_, ?_, congrArg (· + 1) h.arrivals, ?_, ?_⟩
  · exact h.positive n (liveSerials_newSocket hf ▸ hn)
  · exact (Server.rename_congr hnumber).trans h.server
  · exact congrArg (· ++ _) h.effects
  · have hopen : w'.openFds = x.process.openFds := List.erase_cons_head ..
    rw [Logged.log, hopen]
    exact h.openFds

/-- A connection that is accepted is known by the next number. -/
theorem accepted {incoming : Accepted} (hf : x.process.Fresh incoming)
    (hroom : x.process.server.incomingConnections.length < x.process.server.incomingConnectionsLimit.toNat) :
    let r := s.server.onNewConnection (.incoming incoming.socket incoming.newIncomingSocketFd) s.arrivals
    Simulates otherFds (x.onNewConnection incoming) ⟨r.1, s.arrivals + 1, s.effects ++ r.2⟩ := by
  intro r
  let c : ServerConnection := ⟨incoming.connection, .incoming incoming.socket incoming.newIncomingSocketFd,
    clientNickName (x.process.server.incomingConnectionsCounter + 1), []⟩
  let server : Server := { x.process.server with
    incomingConnections := x.process.server.incomingConnections ++ [c]
    incomingConnectionsCounter := x.process.server.incomingConnectionsCounter + 1 }
  have hlist : server.incomingConnections = x.process.server.incomingConnections ++ [c] := rfl
  have hkept := h.consistent.accepted hf (c := c) rfl rfl hlist
  have hr : x.process.server.onNewConnection c.socket c.self = (server, .accept c.self c.nickName :: server.notifyServerInfo) := by
    rw [Server.onNewConnection, if_neg (Nat.not_le.mpr hroom)]
  have heq : x.process.onNewConnection incoming = { x.process.newSocket incoming with server := server } := by
    rw [ServerProcess.onNewConnection, hr, perform, destroyed_accept, notifyServerInfo_eq, destroyed_broadcast]
    rfl
  rw [Logged.onNewConnection, hr, heq]
  set w' : ServerProcess := { x.process.newSocket incoming with server := server } with hw'
  have hc : c ∈ w'.server.incomingConnections := List.mem_append_right _ (List.mem_singleton_self c)
  have hold {d : ServerConnection} (hd : d ∈ x.process.server.incomingConnections) :
      w'.serials d.socket.self = x.process.serials d.socket.self := serials_newSocket hf (mem_objects_of_mem hd)
  have hnew : w'.serials c.socket.self = s.arrivals + 1 := (Function.update_self ..).trans h.arrivals
  have hnumber : ∀ d ∈ x.process.server.incomingConnections, w'.number d.self = x.process.number d.self :=
    fun d hd => by
      rw [hkept.consistent.number_eq (List.mem_append_left _ hd), h.consistent.number_eq hd, hold hd]
  have hsession : r = (server.rename w'.number,
      (.accept c.self c.nickName :: server.notifyServerInfo).map (Effect.rename w'.number)) := by
    have harrivals : s.arrivals = w'.number c.self := by
      rw [hkept.consistent.number_eq hc, hnew]
      rfl
    have hrenamed := Server.onNewConnection_rename w'.number x.process.server c.socket c.self
    rwa [Server.rename_congr hnumber, h.server, hr, ← harrivals] at hrenamed
  have hobjects : w'.objects = x.process.objects ++ [(incoming.socket, incoming.newIncomingSocketFd)] := by
    rw [objects, objects, List.cons_append]
    exact congrArg (_ :: ·) List.map_append
  refine ⟨hkept.consistent, fun n hn => ?_, ?_, congrArg (· + 1) h.arrivals, ?_, ?_⟩
  · obtain ⟨d, hd, rfl⟩ := List.mem_map.mp hn
    rcases List.mem_append.mp hd with hd | hd
    · exact (hold hd).symm ▸ h.positive _ (List.mem_map_of_mem hd)
    · rw [List.mem_singleton] at hd
      subst hd
      exact hnew.symm ▸ Nat.le_add_left 1 _
  · rw [hsession]
    rfl
  · rw [hsession, Logged.log, h.effects]
  · rw [Logged.log, hobjects, List.map_append, List.append_assoc]
    refine (h.openFds.cons incoming.newIncomingSocketFd).trans ?_
    exact List.perm_middle.symm

/-- A connection arrives, and takes the next number. -/
theorem newConnection {incoming : Accepted} (hf : x.process.Fresh incoming) :
    Simulates otherFds (x.onNewConnection incoming)
      (s.step (.newConnection (.incoming incoming.socket incoming.newIncomingSocketFd))) := by
  have hlimit : s.server.incomingConnectionsLimit = x.process.server.incomingConnectionsLimit := by
    rw [← h.server]
    rfl
  have hlength : s.server.incomingConnections.length = x.process.server.incomingConnections.length := by
    rw [← h.server]
    exact List.length_map ..
  rw [Session.step, Session.perform]
  rcases Nat.lt_or_ge x.process.server.incomingConnections.length
    x.process.server.incomingConnectionsLimit.toNat with hroom | hfull
  · exact h.accepted hf hroom
  · rw [Server.onNewConnection, if_pos (by rwa [hlimit, hlength])]
    exact h.refused hf hfull

/-- All the connections of one activation. -/
theorem accepts {results : List AcceptResult} (hf : x.process.AcceptsFresh results) :
    Simulates otherFds (TcpConnectionReceiver.onInLoop Logged.onNewConnection x results)
      ((arrived results).foldl Session.step s) := by
  induction results generalizing x s with
  | nil => exact h
  | cons result results ih =>
    cases result with
    | accepted incoming => exact ih (h.newConnection hf.1) hf.2
    | eagain => exact h
    | error => exact h

/-! ### Events -/

/-- A socket's call on its connection, number `k`. -/
theorem socketCall {c : ServerConnection} (hc : c ∈ x.process.server.incomingConnections) {t k : Address}
    (ht : c.socket.self = t) (hk : x.process.number c.self = k) (call : ListenerCall) :
    Simulates otherFds (x.onSocketCall c call) ((told k call).foldl Session.step s) ∧
      (x.onSocketCall c call).Here ((told k call).foldl Session.step s) t k := by
  subst ht hk
  -- `OnClosed` and `OnError` are the same
  have hclosing {e : Event} (he : ∀ r, s.server.onConnectionClosed (x.process.number c.self) = some r →
      s.step e = s.perform r) : Simulates otherFds (x.onConnectionClosed c) (s.step e) ∧
        (x.onConnectionClosed c).Here (s.step e) c.socket.self (x.process.number c.self) := by
    obtain ⟨r, hr, hsim, hgone⟩ := h.closed hc
    rw [he r hr]
    refine ⟨hsim, .inr ⟨?_, ?_⟩⟩
    · obtain ⟨server, -, heq⟩ := onConnectionClosed_eq hc h.consistent.connections
      rw [Logged.onConnectionClosed, Logged.log, heq]
      exact fun hm => ((TcpSocket.mem_destroy h.consistent.subscribersNodup).mp hm).1 rfl
    · rw [Session.find?, List.find?_eq_none]
      exact fun d hd hself => hgone (of_decide_eq_true hself ▸ List.mem_map_of_mem hd)
  cases call with
  | onDataReceived data =>
    have hsim := h.received hc data
    have heq : (x.onSocketCall c (.onDataReceived data)).process = { x.process with
        server := x.process.server.setDataToParse c.self (parseData c.dataToParse data).2 } :=
      onDataReceived_eq x.process c data
    have hmem : { c with dataToParse := (parseData c.dataToParse data).2 } ∈
        (x.onSocketCall c (.onDataReceived data)).process.server.incomingConnections := by
      rw [heq]
      exact List.mem_map.mpr ⟨c, hc, if_pos rfl⟩
    refine ⟨hsim, .inl ⟨_, hmem, rfl, ?_⟩⟩
    rw [hsim.consistent.number_eq hmem, h.consistent.number_eq hc, heq]
  | onConnected => exact ⟨h, .inl ⟨c, hc, rfl, rfl⟩⟩
  | onConnectionTimeout => exact ⟨h, .inl ⟨c, hc, rfl, rfl⟩⟩
  | onError => exact hclosing (e := .error _) fun r hr => by rw [Session.step, hr]
  | onClosed => exact hclosing (e := .closed _) fun r hr => by rw [Session.step, hr]

section
variable {c : ServerConnection} (hc : c ∈ x.process.server.incomingConnections) {t : Address}
  (ht : c.socket.self = t) (answers : ServerAnswers)
include hc ht

theorem objectAt_called : (x.called t).process.objectAt t = some (.socket c) := by
  subst ht
  exact h.consistent.objectAt_socket hc

/-- The socket of an incoming connection is connected from the start. -/
theorem onOut_eq : Logged.onOut t answers x =
    (none : Option ListenerCall).elim (x.called t) ((x.called t).onSocketCall c) := by
  have hout : c.socket.onOut answers.soError (x.called t).process.poller = (c.socket, (x.called t).process.poller, none) := by
    rw [h.consistent.incoming c hc]
    rfl
  simp only [Logged.onOut, h.objectAt_called hc ht, hout]
  rfl

theorem onIn_eq : Logged.onIn t answers x =
    (TcpSocket.onIn answers.reads).elim (x.called t) ((x.called t).onSocketCall c) := by
  simp only [Logged.onIn, h.objectAt_called hc ht]
  cases TcpSocket.onIn answers.reads <;> rfl

theorem onClosed_eq : Logged.onClosed t answers x =
    (some ListenerCall.onClosed).elim (x.called t) ((x.called t).onSocketCall c) := by
  simp only [Logged.onClosed, h.objectAt_called hc ht]
  rfl

theorem onError_eq : Logged.onError t answers x =
    (some ListenerCall.onError).elim (x.called t) ((x.called t).onSocketCall c) := by
  simp only [Logged.onError, h.objectAt_called hc ht]
  rfl

end

/-- A handler of the socket at `t`, which makes the call if the socket is still there. -/
theorem notifyIf {t k : Address} (hx : x.Here s t k) {handler : Address → ServerAnswers → Logged → Logged}
    {answers : ServerAnswers} {call : Option ListenerCall}
    (hh : ∀ c ∈ x.process.server.incomingConnections, c.socket.self = t →
      handler t answers x = call.elim (x.called t) ((x.called t).onSocketCall c)) (flag : Bool) :
    let events := if flag then call.elim [] (told k) else []
    Simulates otherFds (Logged.logged.notifyIf flag handler (some t) answers x) (events.foldl Session.step s) ∧
      (Logged.logged.notifyIf flag handler (some t) answers x).Here (events.foldl Session.step s) t k := by
  cases flag with
  | false => exact ⟨h, hx⟩
  | true =>
    rw [Process.notifyIf_some]
    rcases hx with ⟨c, hc, hct, hck⟩ | ⟨hgone, hfind⟩
    · have hobject : (t, c.socket.connectSocketFd) ∈ x.process.objects := hct ▸ mem_objects_of_mem hc
      have hthere : t ∈ (Logged.logged.poller x).subscribers :=
        (h.consistent.subscribers t).mpr (List.mem_map_of_mem hobject)
      simp only [if_true, true_and, if_pos hthere, hh c hc hct]
      have hcalled := h.called hobject
      cases call with
      | none => exact ⟨hcalled, .inl ⟨c, hc, hct, hck⟩⟩
      | some call => exact hcalled.socketCall hc hct hck call
    · have hgone' : t ∉ (Logged.logged.poller x).subscribers := hgone
      have hidle : (call.elim [] (told k)).foldl Session.step s = s := by
        cases call with
        | none => rfl
        | some call => exact told_idle hfind call
      simp only [if_true, true_and, if_neg hgone', hidle]
      exact ⟨h, .inr ⟨hgone, hfind⟩⟩

/-- An event of the socket of a live connection. -/
theorem event_socket {c : ServerConnection} (hc : c ∈ x.process.server.incomingConnections)
    {ev : EpollEvent ServerAnswers} (hfd : ev.fd = c.socket.connectSocketFd) :
    Simulates otherFds (Logged.logged.notifySubscriber ev x) ((x.process.happened ev).foldl Session.step s) := by
  have hobject : (c.socket.self, ev.fd) ∈ x.process.objects := hfd ▸ mem_objects_of_mem hc
  have hlookup := h.consistent.getSubscriber hobject
  have hlookup' : Logged.logged.getSubscriberByFileDescriptor x ev.fd = some c.socket.self := hlookup
  have hhappened : x.process.happened ev =
      (if ev.epollIn then (TcpSocket.onIn ev.answers.reads).elim [] (told (x.process.number c.self)) else []) ++
        (if ev.epollHup then [.closed (x.process.number c.self)] else []) ++
        if ev.epollErr then [.error (x.process.number c.self)] else [] := by
    rw [happened, hlookup, Option.bind_some, h.consistent.objectAt_socket hc]
  rw [hhappened, List.foldl_append, List.foldl_append]
  simp only [Process.notifySubscriber, hlookup']
  have hhere : x.Here s c.socket.self (x.process.number c.self) := .inl ⟨c, hc, rfl, rfl⟩
  obtain ⟨hout, hhere⟩ := h.notifyIf hhere (fun _ hc hct => h.onOut_eq hc hct ev.answers) ev.epollOut
  obtain ⟨hin, hhere⟩ := hout.notifyIf hhere (fun _ hc hct => hout.onIn_eq hc hct ev.answers) ev.epollIn
  obtain ⟨hhup, hhere⟩ := hin.notifyIf hhere (fun _ hc hct => hin.onClosed_eq hc hct ev.answers) ev.epollHup
  obtain ⟨herr, -⟩ := hhup.notifyIf hhere (fun _ hc hct => hhup.onError_eq hc hct ev.answers) ev.epollErr
  simp only [Option.elim_none, ite_self, List.foldl_nil, Option.elim_some, told] at herr
  exact herr

/-- A handler of the receiver that does nothing. -/
theorem notifyIf_called {t : Address} (ht : x.process.connectionReceiver.self = t)
    {handler : Address → ServerAnswers → Logged → Logged} {answers : ServerAnswers}
    (hh : handler t answers x = x.called t) (flag : Bool) :
    let x' := Logged.logged.notifyIf flag handler (some t) answers x
    Simulates otherFds x' s ∧ x'.process.connectionReceiver = x.process.connectionReceiver ∧
      ∀ results, x.process.AcceptsFresh results → x'.process.AcceptsFresh results := by
  rw [Process.notifyIf_some, hh]
  split
  · subst ht
    exact ⟨h.called (receiver_mem_objects x.process), rfl, fun results hf => acceptsFresh_record hf⟩
  · exact ⟨h, rfl, fun _ hf => hf⟩

/-- The receiver accepts what has arrived. -/
theorem notifyIf_accepts {t : Address} (ht : x.process.connectionReceiver.self = t) {answers : ServerAnswers}
    (hf : x.process.AcceptsFresh answers.accepts) (flag : Bool) :
    let x' := Logged.logged.notifyIf flag Logged.onIn (some t) answers x
    Simulates otherFds x' ((if flag then arrived answers.accepts else []).foldl Session.step s) ∧
      x'.process.connectionReceiver = x.process.connectionReceiver := by
  cases flag with
  | false => exact ⟨h, rfl⟩
  | true =>
    subst ht
    have hobject := receiver_mem_objects x.process
    have hthere : x.process.connectionReceiver.self ∈ (Logged.logged.poller x).subscribers :=
      (h.consistent.subscribers _).mpr (List.mem_map_of_mem hobject)
    have hcalled := h.called hobject
    have hf' : (x.called x.process.connectionReceiver.self).process.AcceptsFresh answers.accepts :=
      acceptsFresh_record hf
    simp only [Process.notifyIf_some, if_true, true_and, if_pos hthere, (Logged.receiver_handlers rfl answers).2.1]
    refine ⟨hcalled.accepts hf', ?_⟩
    rw [Logged.process_onInLoop]
    exact (hcalled.consistent.accepts hf').receiver

/-- An event of the listening descriptor. -/
theorem event_receiver {ev : EpollEvent ServerAnswers} (hfd : ev.fd = x.process.connectionReceiver.listenSocketFd)
    (hf : x.process.AcceptsFresh ev.answers.accepts) :
    Simulates otherFds (Logged.logged.notifySubscriber ev x) ((x.process.happened ev).foldl Session.step s) := by
  have hlookup := h.consistent.getSubscriber (hfd ▸ receiver_mem_objects x.process)
  have hlookup' : Logged.logged.getSubscriberByFileDescriptor x ev.fd = some x.process.connectionReceiver.self := hlookup
  rw [happened, hlookup, Option.bind_some, objectAt_receiver]
  simp only [Process.notifySubscriber, hlookup']
  have handlers {y : Logged} (hy : y.process.connectionReceiver = x.process.connectionReceiver) :=
    Logged.receiver_handlers (congrArg TcpConnectionReceiver.self hy) ev.answers
  obtain ⟨hout, he₁, hfresh⟩ := h.notifyIf_called rfl (handlers rfl).1 ev.epollOut
  obtain ⟨hin, he₂⟩ := hout.notifyIf_accepts (congrArg _ he₁) (hfresh _ hf) ev.epollIn
  have he₂' := he₂.trans he₁
  obtain ⟨hhup, he₃, -⟩ := hin.notifyIf_called (congrArg _ he₂') (handlers he₂').2.2.1 ev.epollHup
  have he₃' := he₃.trans he₂'
  exact (hhup.notifyIf_called (congrArg _ he₃') (handlers he₃').2.2.2 ev.epollErr).1

/-- Whatever the event, the session follows. -/
theorem event {ev : EpollEvent ServerAnswers} {t : Address} (ht : (t, ev.fd) ∈ x.process.objects)
    (hf : ev.fd = x.process.connectionReceiver.listenSocketFd → x.process.AcceptsFresh ev.answers.accepts) :
    Simulates otherFds (Logged.logged.notifySubscriber ev x) ((x.process.happened ev).foldl Session.step s) := by
  rcases mem_objects.mp ht with he | ⟨c, hc, he⟩
  · have hfd := congrArg Prod.snd he
    exact h.event_receiver hfd (hf hfd)
  · exact h.event_socket hc (congrArg Prod.snd he)

omit h in
theorem batch {w₀ : ServerProcess} {batch : List (EpollEvent ServerAnswers)} (h : Simulates otherFds x s)
    (hready : Ready w₀ x.process batch) :
    Simulates otherFds (Logged.logged.notifyAll batch x) ((x.process.happenedAll batch).foldl Session.step s) := by
  induction batch generalizing x s with
  | nil => exact h
  | cons ev batch ih =>
    obtain ⟨t, -, ht, -⟩ := hready.owners ev List.mem_cons_self
    have hprocess := Logged.logged_projects.notifySubscriber ev x
    rw [Process.notifyAll_cons, happenedAll, List.foldl_append, hprocess]
    exact ih (h.event ht hready.fresh.1) (hprocess ▸ hready.event.1)

theorem run {batches : List (List (EpollEvent ServerAnswers))} (hd : x.process.DeliversAll batches) :
    Simulates otherFds (Logged.logged.run batches x)
      ((x.process.happenedAll batches.flatten).foldl Session.step s) := by
  induction batches generalizing x s with
  | nil => exact h
  | cons batch batches ih =>
    have hb := h.batch (ready_of_delivers h.consistent hd.1)
    have hrunning : (Logged.logged.poller (Logged.logged.notifyAll batch x)).isStopped = false := hb.consistent.running
    have hprocess := Logged.logged_projects.notifyAll batch x
    rw [Process.run, hrunning, List.flatten_cons, happenedAll_append, List.foldl_append, hprocess]
    exact ih hb (hprocess ▸ hd.2)

end Simulates

theorem simulates_start (limit : UInt64) (receiver : TcpConnectionReceiver) (otherFds : List FileDescriptor) :
    Simulates otherFds ⟨start limit receiver otherFds, []⟩ (.init limit) where
  consistent := consistent_start limit receiver otherFds
  positive := nofun
  server := rfl
  arrivals := rfl
  effects := rfl
  openFds := List.Perm.refl _

end ServerProcess

open ServerProcess

/-- In every run of the process, over any batches that the kernel can deliver: the
session, for what these events stand for, is in the state of the process and has done
the same, each connection under the number of its socket; no two live connections have
the same number; and what was sent to a connection is what the room shows to it. -/
theorem process_refines_session (limit : UInt64) (receiver : TcpConnectionReceiver) (otherFds : List FileDescriptor)
    (batches : List (List (EpollEvent ServerAnswers))) (h : (start limit receiver otherFds).DeliversAll batches) :
    let w := process.run batches (start limit receiver otherFds)
    let x := Logged.logged.run batches ⟨start limit receiver otherFds, []⟩
    let events := (start limit receiver otherFds).happenedAll batches.flatten
    x.process = w ∧ x.effects = (Session.run limit events).effects ∧
    w.server.rename w.number = (Session.run limit events).server ∧ w.server.Separates w.number ∧
    ∀ k, sentTo k x.effects = (Room.view nickNameOf k (Observer.run limit events).history).map Room.Notice.message := by
  intro w x events
  have hs : Simulates otherFds x (Session.run limit events) := (simulates_start limit receiver otherFds).run h
  have hw : x.process = w := (Logged.logged_projects.run batches _).symm
  refine ⟨hw, hs.effects, hw ▸ hs.server, hw ▸ hs.separates, fun k => ?_⟩
  rw [hs.effects]
  exact (Refines.run limit events).sent k

/-- A client says `a` and goes, and in the same batch another one comes to its place in
memory and gets its descriptor: to the session they are the connections 0 and 1. -/
theorem process_refines_session_reuse :
    let arrives : EpollEvent ServerAnswers := ⟨3, false, true, false, false, ⟨0, [], [.accepted ⟨5, 20, 30⟩, .eagain]⟩⟩
    let speaks : EpollEvent ServerAnswers := ⟨5, true, true, false, false,
      ⟨0, [.data (Message.textMessageToServer [97]).build, .eagain], []⟩⟩
    let closes : EpollEvent ServerAnswers := ⟨5, true, true, true, true, ⟨0, [.endOfFile], []⟩⟩
    let w := process.run [[arrives], [speaks], [closes, arrives]] (start 1 ⟨10, 3⟩ [0, 1, 2])
    w.server.rename w.number = (Session.run 1 [.newConnection (.incoming 20 5),
      .dataReceived 0 (Message.textMessageToServer [97]).build, .closed 0, .closed 0, .error 0,
      .newConnection (.incoming 20 5)]).server :=
  (process_refines_session 1 ⟨10, 3⟩ [0, 1, 2]
    [[⟨3, false, true, false, false, ⟨0, [], [.accepted ⟨5, 20, 30⟩, .eagain]⟩⟩],
      [⟨5, true, true, false, false, ⟨0, [.data (Message.textMessageToServer [97]).build, .eagain], []⟩⟩],
      [⟨5, true, true, true, true, ⟨0, [.endOfFile], []⟩⟩,
        ⟨3, false, true, false, false, ⟨0, [], [.accepted ⟨5, 20, 30⟩, .eagain]⟩⟩]] (by decide)).2.2.1

/-- In every run, the open descriptors are that of the receiver, one for each live
connection, and those that were open at the start: none is lost, and there are never
more than the limit allows. -/
theorem open_descriptors (limit : UInt64) (receiver : TcpConnectionReceiver) (otherFds : List FileDescriptor)
    (batches : List (List (EpollEvent ServerAnswers))) (h : (start limit receiver otherFds).DeliversAll batches) :
    let w := process.run batches (start limit receiver otherFds)
    w.openFds.Perm (w.connectionReceiver.listenSocketFd ::
      w.server.incomingConnections.map (fun c => c.socket.connectSocketFd) ++ otherFds) ∧
    w.openFds.length ≤ limit.toNat + 1 + otherFds.length := by
  intro w
  have hs := (simulates_start limit receiver otherFds).run h
  have hw : (Logged.logged.run batches ⟨start limit receiver otherFds, []⟩).process = w :=
    (Logged.logged_projects.run batches _).symm
  have hlive : w.server.incomingConnections.length ≤ limit.toNat := by
    have hrefines := Refines.run limit ((start limit receiver otherFds).happenedAll batches.flatten)
    have hbounded := hrefines.bounded
    rw [← hrefines.live, List.length_map] at hbounded
    refine le_of_eq_of_le ?_ hbounded
    have hserver := congrArg (fun server => server.incomingConnections.length) hs.server
    rw [hw] at hserver
    exact (List.length_map _).symm.trans hserver
  have hopen := hs.openFds
  rw [hw, objects, List.map_cons, List.map_map] at hopen
  refine ⟨hopen, ?_⟩
  rw [hopen.length_eq, List.length_append, List.length_cons, List.length_map]
  omega

theorem open_descriptors_reuse :
    let arrives : EpollEvent ServerAnswers := ⟨3, false, true, false, false, ⟨0, [], [.accepted ⟨5, 20, 30⟩, .eagain]⟩⟩
    let closes : EpollEvent ServerAnswers := ⟨5, true, true, true, true, ⟨0, [.endOfFile], []⟩⟩
    (process.run [[arrives], [closes, arrives]] (start 1 ⟨10, 3⟩ [0, 1, 2])).openFds.length ≤ 5 :=
  (open_descriptors 1 ⟨10, 3⟩ [0, 1, 2]
    [[⟨3, false, true, false, false, ⟨0, [], [.accepted ⟨5, 20, 30⟩, .eagain]⟩⟩],
      [⟨5, true, true, true, true, ⟨0, [.endOfFile], []⟩⟩,
        ⟨3, false, true, false, false, ⟨0, [], [.accepted ⟨5, 20, 30⟩, .eagain]⟩⟩]] (by decide)).2

end EpollChat.Chat
