import EpollChat.Chat.ServerProcess
import EpollChat.Chat.ServerRun

/-! Dispatch in the server hits live objects. Between events the subscribers are the
objects that are alive. An event only ever destroys the object it is for, and what
it makes is put where nothing is; so the object of a later event of the same batch
is still there, and no other object has come to have its descriptor. -/

namespace EpollChat.Chat

open Cpp Utils Net

namespace ServerProcess

/-- The connections reported closed, by number. -/
def reported (calls : List ServerCall) : List ℕ :=
  calls.filterMap fun
    | .onConnectionClosed serial => some serial
    | _ => none

def liveSerials (w : ServerProcess) : List ℕ := w.server.incomingConnections.map fun c => w.serials c.socket.self

/-- What holds between events. -/
structure Consistent (w : ServerProcess) : Prop where
  /-- Exactly the live objects are subscribed. -/
  subscribers : ∀ a, a ∈ w.poller.subscribers ↔ a ∈ w.objects.map Prod.fst
  subscribersNodup : w.poller.subscribers.Nodup
  addresses : (w.objects.map Prod.fst).Nodup
  descriptors : (w.objects.map Prod.snd).Nodup
  fdsOpen : ∀ fd ∈ w.objects.map Prod.snd, fd ∈ w.openFds
  connections : (w.server.incomingConnections.map ServerConnection.self).Nodup
  /-- The sockets are those of incoming connections. -/
  incoming : ∀ c ∈ w.server.incomingConnections, c.socket = .incoming c.socket.self c.socket.connectSocketFd
  running : w.poller.isStopped = false
  /-- No connection that is alive has been reported closed, and none twice. -/
  numbered : (w.liveSerials ++ reported w.calls).Nodup
  bounded : ∀ n ∈ w.liveSerials ++ reported w.calls, n < w.created
  defined : .eraseEnd ∉ w.calls

/-- A call made while an event of the object `target`, number `serial`, is handled. -/
def MadeFor (target : Address) (serial : ℕ) : ServerCall → Prop
  | .handler a n alive => a = target ∧ n = serial ∧ alive = true
  | _ => True

/-- From `w` to `w'` nothing happened to any object but the one at `t`, and only
this one was called. -/
structure Kept (t : Address) (fd : FileDescriptor) (w w' : ServerProcess) : Prop where
  consistent : Consistent w'
  others : ∀ x ∈ w.objects, x.1 ≠ t → x ∈ w'.objects ∧ w'.serials x.1 = w.serials x.1
  serial : w'.serials t = w.serials t
  descriptor : ∀ x ∈ w'.objects, x.1 = t → x.2 = fd
  receiver : w'.connectionReceiver = w.connectionReceiver
  calls : ∃ new, w'.calls = w.calls ++ new ∧ ∀ call ∈ new, MadeFor t (w.serials t) call

/-! ### Lists whose elements have distinct keys -/

section
variable {α κ : Type} [DecidableEq κ] (f : α → κ) {l : List α} {c : α}

theorem find?_of_nodup (h : (l.map f).Nodup) (hc : c ∈ l) : l.find? (fun x => f x = f c) = some c := by
  induction l with
  | nil => cases hc
  | cons d l ih =>
    rw [List.map_cons, List.nodup_cons] at h
    rcases List.mem_cons.mp hc with rfl | hc
    · simp
    · have hne : f d ≠ f c := fun he => h.1 (he ▸ List.mem_map_of_mem hc)
      rw [List.find?_cons_of_neg (by simpa using hne)]
      exact ih h.2 hc

theorem perm_eraseP_of_nodup (h : (l.map f).Nodup) (hc : c ∈ l) : l.Perm (c :: l.eraseP fun x => f x = f c) := by
  induction l with
  | nil => cases hc
  | cons d l ih =>
    rw [List.map_cons, List.nodup_cons] at h
    rcases List.mem_cons.mp hc with rfl | hc
    · simp
    · have hne : f d ≠ f c := fun he => h.1 (he ▸ List.mem_map_of_mem hc)
      rw [List.eraseP_cons_of_neg (by simpa using hne)]
      exact ((ih h.2 hc).cons d).trans (List.Perm.swap c d _)

end

namespace Kept

variable {t : Address} {fd : FileDescriptor} {w w' w'' : ServerProcess}

theorem refl (h : Consistent w) (ht : (t, fd) ∈ w.objects) : Kept t fd w w where
  consistent := h
  others x hx _ := ⟨hx, rfl⟩
  serial := rfl
  descriptor x hx he := by
    have := List.inj_on_of_nodup_map h.addresses hx ht he
    rw [this]
  receiver := rfl
  calls := ⟨[], (List.append_nil _).symm, fun _ hc => absurd hc List.not_mem_nil⟩

theorem trans (h₁ : Kept t fd w w') (h₂ : Kept t fd w' w'') : Kept t fd w w'' where
  consistent := h₂.consistent
  others x hx hne := by
    obtain ⟨hx', hs'⟩ := h₁.others x hx hne
    obtain ⟨hx'', hs''⟩ := h₂.others x hx' hne
    exact ⟨hx'', hs''.trans hs'⟩
  serial := h₂.serial.trans h₁.serial
  descriptor := h₂.descriptor
  receiver := h₂.receiver.trans h₁.receiver
  calls := by
    obtain ⟨new₁, hc₁, hm₁⟩ := h₁.calls
    obtain ⟨new₂, hc₂, hm₂⟩ := h₂.calls
    rw [h₁.serial] at hm₂
    exact ⟨new₁ ++ new₂, by rw [hc₂, hc₁, List.append_assoc], List.forall_mem_append.mpr ⟨hm₁, hm₂⟩⟩

end Kept

variable {w : ServerProcess}

/-! ### Finding objects -/

theorem mem_objects {x : Address × FileDescriptor} : x ∈ w.objects ↔
    x = (w.connectionReceiver.self, w.connectionReceiver.listenSocketFd) ∨
      ∃ c ∈ w.server.incomingConnections, x = (c.socket.self, c.socket.connectSocketFd) := by
  rw [objects, List.mem_cons, List.mem_map]
  simp only [eq_comm]

theorem objectAt_receiver (w : ServerProcess) :
    w.objectAt w.connectionReceiver.self = some .connectionReceiver := by
  rw [objectAt, if_pos rfl]

theorem Consistent.objectAt_socket (h : Consistent w) {c : ServerConnection}
    (hc : c ∈ w.server.incomingConnections) : w.objectAt c.socket.self = some (.socket c) := by
  have ha := h.addresses
  rw [objects, List.map_cons, List.map_map, List.nodup_cons] at ha
  have hne : c.socket.self ≠ w.connectionReceiver.self := by
    rintro he
    exact ha.1 (List.mem_map.mpr ⟨c, hc, he⟩)
  rw [objectAt, if_neg hne, find?_of_nodup (fun d : ServerConnection => d.socket.self) ha.2 hc]
  rfl

/-! ### What the operations do -/

@[simp] theorem reported_append (calls more : List ServerCall) :
    reported (calls ++ more) = reported calls ++ reported more := List.filterMap_append

@[simp] theorem destroyed_append (es fs : List Effect) : destroyed (es ++ fs) = destroyed es ++ destroyed fs :=
  List.filterMap_append

@[simp] theorem destroyed_accept (connection : Address) (nickName : Bytes) (es : List Effect) :
    destroyed (.accept connection nickName :: es) = destroyed es := rfl

@[simp] theorem destroyed_destroySocket (socket : TcpSocket) (es : List Effect) :
    destroyed (.destroySocket socket :: es) = socket :: destroyed es := rfl

@[simp] theorem destroyed_broadcast (connections : List ServerConnection) (message : Message) :
    destroyed (broadcast connections message) = [] := by
  induction connections with
  | nil => rfl
  | cons c connections ih => exact ih

@[simp] theorem destroyed_onCallback (s : Server) (c : ServerConnection) (callbacks : List Message) :
    destroyed (callbacks.flatMap (s.onCallback c)) = [] := by
  induction callbacks with
  | nil => rfl
  | cons m callbacks ih =>
    rw [List.flatMap_cons, destroyed_append, ih, List.append_nil]
    cases m <;> first | rfl | exact destroyed_broadcast _ _

theorem onDataReceived_eq (w : ServerProcess) (c : ServerConnection) (data : DataBuffer) :
    w.onSocketCall c (.onDataReceived data) =
      { w with server := w.server.setDataToParse c.self (parseData c.dataToParse data).2 } := by
  simp only [onSocketCall, perform, Server.onDataReceived, destroyed_onCallback, List.foldl_nil]

/-- A connection is closed: it leaves the list and its socket goes. -/
theorem onConnectionClosed_eq {c : ServerConnection} (hc : c ∈ w.server.incomingConnections)
    (h : (w.server.incomingConnections.map ServerConnection.self).Nodup) :
    ∃ server : Server,
      server.incomingConnections = (w.server.incomingConnections.eraseP fun it => it.self = c.self) ∧
      w.onConnectionClosed c =
        { w with
          server := server
          poller := c.socket.destroy w.poller
          openFds := w.openFds.erase c.socket.connectSocketFd
          calls := w.calls ++ [.onConnectionClosed (w.serials c.socket.self)] } := by
  have hfind : w.server.incomingConnections.find? (fun it => it.self = c.self) = some c :=
    find?_of_nodup ServerConnection.self h hc
  refine ⟨{ w.server with incomingConnections := w.server.incomingConnections.eraseP fun it => it.self = c.self },
    rfl, ?_⟩
  simp only [onConnectionClosed, record, Server.onConnectionClosed, Server.removeClient, hfind, perform]
  rw [destroyed_destroySocket, notifyServerInfo_eq, notifyClientLeave_eq, destroyed_append, destroyed_broadcast,
    destroyed_broadcast]
  rfl

/-- A new connection is refused, and its socket goes at once, or it is the last of
the list. -/
theorem onNewConnection_eq (incoming : Accepted) (w : ServerProcess) :
    onNewConnection incoming w = (w.newSocket incoming).destroySocket
        (.incoming incoming.socket incoming.newIncomingSocketFd) ∨
    ∃ (c : ServerConnection) (server : Server), c.self = incoming.connection ∧
      c.socket = .incoming incoming.socket incoming.newIncomingSocketFd ∧
      server.incomingConnections = w.server.incomingConnections ++ [c] ∧
      onNewConnection incoming w = { w.newSocket incoming with server := server } := by
  simp only [onNewConnection, Server.onNewConnection]
  split
  · exact .inl rfl
  · let c : ServerConnection := ⟨incoming.connection, .incoming incoming.socket incoming.newIncomingSocketFd,
      clientNickName (w.server.incomingConnectionsCounter + 1), []⟩
    refine .inr ⟨c, { w.server with
      incomingConnections := w.server.incomingConnections ++ [c]
      incomingConnectionsCounter := w.server.incomingConnectionsCounter + 1 }, rfl, rfl, rfl, ?_⟩
    rw [perform, destroyed_accept, notifyServerInfo_eq, destroyed_broadcast]
    rfl

/-! ### Every operation keeps the others -/

@[simp] theorem reported_called (w : ServerProcess) (t : Address) : reported (w.called t).calls = reported w.calls := by
  simp [called, record, reported]

theorem Consistent.called (h : Consistent w) {t : Address} {fd : FileDescriptor} (ht : (t, fd) ∈ w.objects)
    (hobject : (w.objectAt t).isSome) : Kept t fd w (w.called t) where
  consistent := { h with
    numbered := by rw [reported_called]; exact h.numbered
    bounded := by rw [reported_called]; exact h.bounded
    defined := by simpa [ServerProcess.called, record] using h.defined }
  others x hx _ := ⟨hx, rfl⟩
  serial := rfl
  descriptor := (Kept.refl h ht).descriptor
  receiver := rfl
  calls := ⟨_, rfl, by simp [MadeFor, hobject]⟩

theorem objects_setDataToParse (w : ServerProcess) (connection : Address) (data : DataBuffer) :
    { w with server := w.server.setDataToParse connection data }.objects = w.objects := by
  simp only [objects, Server.setDataToParse, List.map_map]
  congr 1
  apply List.map_congr_left
  intro c _
  simp only [Function.comp]
  split <;> rfl

theorem Consistent.received (h : Consistent w) {c : ServerConnection} {fd : FileDescriptor}
    (ht : (c.socket.self, fd) ∈ w.objects) (data : DataBuffer) :
    Kept c.socket.self fd w (w.onSocketCall c (.onDataReceived data)) := by
  rw [onDataReceived_eq]
  generalize (parseData c.dataToParse data).2 = rest
  have hobjects := objects_setDataToParse w c.self rest
  have hserials : liveSerials { w with server := w.server.setDataToParse c.self rest } = w.liveSerials := by
    simp only [liveSerials, Server.setDataToParse, List.map_map]
    apply List.map_congr_left
    intro d _
    simp only [Function.comp]
    split <;> rfl
  refine ⟨{ h with
    subscribers := by rw [hobjects]; exact h.subscribers
    addresses := by rw [hobjects]; exact h.addresses
    descriptors := by rw [hobjects]; exact h.descriptors
    fdsOpen := by rw [hobjects]; exact h.fdsOpen
    connections := ?_
    incoming := ?_
    numbered := by rw [hserials]; exact h.numbered
    bounded := by rw [hserials]; exact h.bounded }, fun x hx _ => ⟨hobjects ▸ hx, rfl⟩, rfl, ?_, rfl,
    [], (List.append_nil _).symm, fun _ hc => absurd hc List.not_mem_nil⟩
  · rw [map_self_setDataToParse]
    exact h.connections
  · intro d hd
    obtain ⟨b, hb, -, hsocket, -, -⟩ := mem_setDataToParse hd
    rw [hsocket]
    exact h.incoming b hb
  · rw [hobjects]
    exact (Kept.refl h ht).descriptor

theorem mem_objects_of_mem {c : ServerConnection}
    (hc : c ∈ w.server.incomingConnections) : (c.socket.self, c.socket.connectSocketFd) ∈ w.objects :=
  mem_objects.mpr (.inr ⟨c, hc, rfl⟩)

/-- A connection that is closed takes its socket with it and nothing else. -/
theorem Consistent.closed (h : Consistent w) {c : ServerConnection} (hc : c ∈ w.server.incomingConnections) :
    Kept c.socket.self c.socket.connectSocketFd w (w.onConnectionClosed c) := by
  obtain ⟨server, hlist, heq⟩ := onConnectionClosed_eq hc h.connections
  rw [heq]
  set w' : ServerProcess := { w with
    server := server
    poller := c.socket.destroy w.poller
    openFds := w.openFds.erase c.socket.connectSocketFd
    calls := w.calls ++ [.onConnectionClosed (w.serials c.socket.self)] } with hw'
  have hperm : w.server.incomingConnections.Perm (c :: server.incomingConnections) := by
    rw [hlist]
    exact perm_eraseP_of_nodup ServerConnection.self h.connections hc
  have hobjects : w.objects.Perm ((c.socket.self, c.socket.connectSocketFd) :: w'.objects) :=
    ((hperm.map fun d : ServerConnection => (d.socket.self, d.socket.connectSocketFd)).cons _).trans
      (List.Perm.swap _ _ _)
  have haddresses := (hobjects.map Prod.fst).nodup_iff.mp h.addresses
  have hdescriptors := (hobjects.map Prod.snd).nodup_iff.mp h.descriptors
  rw [List.map_cons, List.nodup_cons] at haddresses hdescriptors
  have hdestroy : c.socket.destroy w.poller = w.poller.erase c.socket.self := by
    rw [h.incoming c hc]
    rfl
  have hlive : w.liveSerials.Perm (w.serials c.socket.self :: w'.liveSerials) :=
    hperm.map fun d : ServerConnection => w.serials d.socket.self
  have hnumbers : (w'.liveSerials ++ reported w'.calls).Perm (w.liveSerials ++ reported w.calls) := by
    have hr : reported w'.calls = reported w.calls ++ [w.serials c.socket.self] := by
      rw [hw', reported_append]
      rfl
    rw [hr, ← List.append_assoc]
    exact (List.perm_append_singleton _ _).trans (hlive.append_right _).symm
  refine ⟨⟨fun a => ?_, ?_, haddresses.2, hdescriptors.2, fun fd hfd => ?_, ?_, ?_, ?_, ?_, ?_, ?_⟩,
    fun x hx hne => ?_, rfl, fun x hx he => ?_, rfl, _, rfl, ?_⟩
  · rw [hw']
    dsimp only
    rw [hdestroy, Poller.mem_erase h.subscribersNodup, h.subscribers, (hobjects.map Prod.fst).mem_iff,
      List.map_cons, List.mem_cons]
    constructor
    · rintro ⟨hne, rfl | ha⟩
      · exact absurd rfl hne
      · exact ha
    · rintro ha
      exact ⟨fun he => haddresses.1 (he ▸ ha), .inr ha⟩
  · rw [hw']
    dsimp only
    rw [hdestroy]
    exact Poller.nodup_erase h.subscribersNodup _
  · have hne : fd ≠ c.socket.connectSocketFd := fun he => hdescriptors.1 (he ▸ hfd)
    refine (List.mem_erase_of_ne hne).mpr (h.fdsOpen fd ?_)
    rw [(hobjects.map Prod.snd).mem_iff]
    exact List.mem_cons_of_mem _ hfd
  · have := (hperm.map ServerConnection.self).nodup_iff.mp h.connections
    rw [List.map_cons, List.nodup_cons] at this
    exact this.2
  · exact fun d hd => h.incoming d (hperm.mem_iff.mpr (List.mem_cons_of_mem _ hd))
  · rw [hw']
    dsimp only
    rw [hdestroy]
    exact h.running
  · exact hnumbers.nodup_iff.mpr h.numbered
  · exact fun n hn => h.bounded n (hnumbers.mem_iff.mp hn)
  · simpa [hw'] using h.defined
  · rw [hobjects.mem_iff, List.mem_cons] at hx
    rcases hx with rfl | hx
    · exact absurd rfl hne
    · exact ⟨hx, rfl⟩
  · exact absurd (List.mem_map.mpr ⟨x, hx, he⟩) haddresses.1
  · simp [MadeFor]

theorem receiver_mem_objects (w : ServerProcess) :
    (w.connectionReceiver.self, w.connectionReceiver.listenSocketFd) ∈ w.objects := List.mem_cons_self

/-- The numbers of the live connections do not change when a new socket is made. -/
theorem serials_newSocket {incoming : Accepted} (hf : w.Fresh incoming) {x : Address × FileDescriptor}
    (hx : x ∈ w.objects) : (w.newSocket incoming).serials x.1 = w.serials x.1 := by
  refine Function.update_of_ne (fun he => hf.2.1 ?_) _ _
  rw [← he]
  exact List.mem_map_of_mem hx

theorem liveSerials_newSocket {incoming : Accepted} (hf : w.Fresh incoming) :
    (w.newSocket incoming).liveSerials = w.liveSerials :=
  List.map_congr_left fun _ hc => serials_newSocket hf (mem_objects_of_mem hc)

/-- A refused connection leaves no trace. -/
theorem Consistent.refused (h : Consistent w) {incoming : Accepted} (hf : w.Fresh incoming) :
    Kept w.connectionReceiver.self w.connectionReceiver.listenSocketFd w ((w.newSocket incoming).destroySocket
      (.incoming incoming.socket incoming.newIncomingSocketFd)) := by
  have hnodup := Poller.nodup_insert h.subscribersNodup incoming.socket
  refine ⟨{ h with
    subscribers := fun a => ?_
    subscribersNodup := Poller.nodup_erase hnodup _
    fdsOpen := ?_
    running := (Poller.isStopped_insert _ _).trans h.running
    numbered := ?_
    bounded := ?_ }, fun x hx _ => ⟨hx, serials_newSocket hf hx⟩,
    serials_newSocket hf (receiver_mem_objects w), (Kept.refl h (receiver_mem_objects w)).descriptor, rfl,
    [], (List.append_nil _).symm, fun _ hc => absurd hc List.not_mem_nil⟩
  · refine (Poller.mem_erase hnodup).trans ?_
    rw [Poller.mem_insert, h.subscribers]
    constructor
    · rintro ⟨hne, rfl | ha⟩
      · exact absurd rfl hne
      · exact ha
    · intro ha
      refine ⟨?_, .inr ha⟩
      rintro rfl
      exact hf.2.1 ha
  · intro fd hfd
    have hopen : ((w.newSocket incoming).destroySocket
        (.incoming incoming.socket incoming.newIncomingSocketFd)).openFds = w.openFds := List.erase_cons_head _ _
    rw [hopen]
    exact h.fdsOpen fd hfd
  · have := liveSerials_newSocket hf
    exact this.symm ▸ h.numbered
  · have := liveSerials_newSocket hf
    exact fun n hn => Nat.lt_succ_of_lt (h.bounded n (this ▸ hn))

/-- An accepted connection is put where nothing was. -/
theorem Consistent.accepted (h : Consistent w) {incoming : Accepted} (hf : w.Fresh incoming)
    {c : ServerConnection} {server : Server} (hself : c.self = incoming.connection)
    (hsocket : c.socket = .incoming incoming.socket incoming.newIncomingSocketFd)
    (hlist : server.incomingConnections = w.server.incomingConnections ++ [c]) :
    Kept w.connectionReceiver.self w.connectionReceiver.listenSocketFd w
      { w.newSocket incoming with server := server } := by
  set w' : ServerProcess := { w.newSocket incoming with server := server } with hw'
  have hobjects : w'.objects = w.objects ++ [(incoming.socket, incoming.newIncomingSocketFd)] := by
    rw [hw', objects, hlist, List.map_append, List.map_singleton, hsocket, objects, List.cons_append]
    rfl
  have hserials : w'.liveSerials = w.liveSerials ++ [w.created] := by
    rw [← liveSerials_newSocket hf, hw', liveSerials, hlist, List.map_append, List.map_singleton, hsocket]
    refine congrArg₂ _ rfl (congrArg₂ _ ?_ rfl)
    exact Function.update_self _ _ _
  have hnumbers : (w'.liveSerials ++ reported w'.calls).Perm (w.created :: (w.liveSerials ++ reported w.calls)) := by
    rw [hserials, List.append_assoc, List.singleton_append]
    exact List.perm_middle
  have hconsistent : Consistent w' := by
    refine ⟨fun a => ?_, Poller.nodup_insert h.subscribersNodup _, ?_, ?_, fun fd hfd => ?_, ?_, fun d hd => ?_,
      (Poller.isStopped_insert _ _).trans h.running, ?_, fun n hn => ?_, h.defined⟩
    · rw [hobjects, List.map_append, List.mem_append, ← h.subscribers]
      exact Poller.mem_insert.trans (by simp [or_comm])
    · rw [hobjects, List.map_append]
      exact List.nodup_append.mpr ⟨h.addresses, by simp, fun a ha b hb he => hf.2.1 (by simp_all)⟩
    · rw [hobjects, List.map_append]
      exact List.nodup_append.mpr ⟨h.descriptors, by simp, fun a ha b hb he => hf.1 (h.fdsOpen _ (by simp_all))⟩
    · rw [hobjects, List.map_append, List.mem_append] at hfd
      rcases hfd with hfd | hfd
      · exact List.mem_cons_of_mem _ (h.fdsOpen fd hfd)
      · rw [List.map_singleton, List.mem_singleton] at hfd
        exact hfd ▸ List.mem_cons_self
    · rw [hw', hlist, List.map_append, List.map_singleton, hself]
      exact List.nodup_append.mpr ⟨h.connections, by simp, fun a ha b hb he => hf.2.2 (by simp_all)⟩
    · rw [hw', hlist, List.mem_append, List.mem_singleton] at hd
      rcases hd with hd | rfl
      · exact h.incoming d hd
      · rw [hsocket]
        rfl
    · rw [hnumbers.nodup_iff, List.nodup_cons]
      exact ⟨fun hm => Nat.lt_irrefl _ (h.bounded _ hm), h.numbered⟩
    · rw [hnumbers.mem_iff, List.mem_cons] at hn
      rcases hn with rfl | hn
      · exact Nat.lt_succ_self _
      · exact Nat.lt_succ_of_lt (h.bounded n hn)
  refine ⟨hconsistent, fun x hx _ => ⟨?_, serials_newSocket hf hx⟩, serials_newSocket hf (receiver_mem_objects w),
    ?_, rfl, [], (List.append_nil _).symm, fun _ hc => absurd hc List.not_mem_nil⟩
  · rw [hobjects]
    exact List.mem_append_left _ hx
  · exact (Kept.refl hconsistent (receiver_mem_objects w')).descriptor

/-- All the connections of one activation. -/
theorem Consistent.accepts (h : Consistent w) {results : List AcceptResult} (hf : w.AcceptsFresh results) :
    Kept w.connectionReceiver.self w.connectionReceiver.listenSocketFd w
      (TcpConnectionReceiver.onInLoop onNewConnection w results) := by
  induction results generalizing w with
  | nil => exact Kept.refl h (receiver_mem_objects w)
  | cons result results ih =>
    cases result with
    | eagain => exact Kept.refl h (receiver_mem_objects w)
    | error => exact Kept.refl h (receiver_mem_objects w)
    | accepted incoming =>
      have hkept : Kept w.connectionReceiver.self w.connectionReceiver.listenSocketFd w (onNewConnection incoming w) := by
        rcases onNewConnection_eq incoming w with he | ⟨c, server, hself, hsocket, hlist, he⟩
        · rw [he]
          exact h.refused hf.1
        · rw [he]
          exact h.accepted hf.1 hself hsocket hlist
      have hrest := ih hkept.consistent hf.2
      rw [hkept.receiver] at hrest
      exact hkept.trans hrest

/-! ### Every handler keeps the others -/

theorem Consistent.getFileDescriptor_eq (h : Consistent w) {x : Address × FileDescriptor} (hx : x ∈ w.objects) :
    w.getFileDescriptor x.1 = some x.2 := by
  rcases mem_objects.mp hx with rfl | ⟨c, hc, rfl⟩
  · rw [getFileDescriptor, objectAt_receiver]
  · rw [getFileDescriptor, h.objectAt_socket hc]

theorem Consistent.isSome_objectAt (h : Consistent w) {x : Address × FileDescriptor} (hx : x ∈ w.objects) :
    (w.objectAt x.1).isSome := by
  rcases mem_objects.mp hx with rfl | ⟨c, hc, rfl⟩
  · rw [objectAt_receiver]
    rfl
  · rw [h.objectAt_socket hc]
    rfl

/-- A handler that keeps the others may be called or not. -/
theorem Kept.notifyIf {t : Address} {fd : FileDescriptor} {w' : ServerProcess} (h : Kept t fd w w')
    {handler : Address → ServerAnswers → ServerProcess → ServerProcess} {answers : ServerAnswers}
    (hh : Consistent w' → (t, fd) ∈ w'.objects → Kept t fd w' (handler t answers w')) (flag : Bool) :
    Kept t fd w (process.notifyIf flag handler (some t) answers w') := by
  rw [process.notifyIf_some]
  split
  · next hf =>
    obtain ⟨x, hx, rfl⟩ := List.mem_map.mp ((h.consistent.subscribers t).mp hf.2)
    obtain rfl := h.descriptor x hx rfl
    exact h.trans (hh h.consistent hx)
  · exact h

theorem perform_record (w : ServerProcess) (call : ServerCall) (r : Server × List Effect) :
    (w.record call).perform r = (w.perform r).record call := by
  suffices ∀ (sockets : List TcpSocket) (v : ServerProcess),
      sockets.foldl destroySocket (v.record call) = (sockets.foldl destroySocket v).record call from
    this (destroyed r.2) { w with server := r.1 }
  intro sockets
  induction sockets with
  | nil => exact fun _ => rfl
  | cons socket sockets ih => exact fun v => ih (v.destroySocket socket)

/-- What is recorded does not matter to what can be accepted. -/
theorem acceptsFresh_record {results : List AcceptResult} {call : ServerCall} (h : w.AcceptsFresh results) :
    (w.record call).AcceptsFresh results := by
  induction results generalizing w with
  | nil => trivial
  | cons result results ih =>
    cases result with
    | eagain => trivial
    | error => trivial
    | accepted incoming =>
      have he : onNewConnection incoming (w.record call) = (onNewConnection incoming w).record call :=
        perform_record (w.newSocket incoming) call _
      refine ⟨h.1, ?_⟩
      rw [he]
      exact ih h.2

theorem objectAt_called_receiver (w : ServerProcess) :
    (w.called w.connectionReceiver.self).objectAt w.connectionReceiver.self = some .connectionReceiver :=
  objectAt_receiver (w.called w.connectionReceiver.self)

section Handlers
variable {t : Address} {fd : FileDescriptor} (h : Consistent w) (ht : (t, fd) ∈ w.objects) (answers : ServerAnswers)
include h ht

theorem kept_called : Kept t fd w (w.called t) := h.called ht (h.isSome_objectAt ht)

theorem kept_onOut : Kept t fd w (onOut t answers w) := by
  have hcalled := kept_called h ht
  rcases mem_objects.mp ht with he | ⟨c, hc, he⟩
  · obtain ⟨rfl, rfl⟩ := Prod.mk.inj he
    simp only [onOut, objectAt_called_receiver]
    exact hcalled
  · obtain ⟨rfl, rfl⟩ := Prod.mk.inj he
    have hout : c.socket.onOut answers.soError (w.called c.socket.self).poller =
        (c.socket, (w.called c.socket.self).poller, none) := by
      rw [h.incoming c hc]
      rfl
    simp only [onOut, hcalled.consistent.objectAt_socket hc, hout]
    exact hcalled

theorem kept_onIn (hf : fd = w.connectionReceiver.listenSocketFd → w.AcceptsFresh answers.accepts) :
    Kept t fd w (onIn t answers w) := by
  have hcalled := kept_called h ht
  rcases mem_objects.mp ht with he | ⟨c, hc, he⟩
  · obtain ⟨rfl, rfl⟩ := Prod.mk.inj he
    simp only [onIn, objectAt_called_receiver]
    exact hcalled.trans (hcalled.consistent.accepts (acceptsFresh_record (hf rfl)))
  · obtain ⟨rfl, rfl⟩ := Prod.mk.inj he
    simp only [onIn, hcalled.consistent.objectAt_socket hc]
    rcases TcpSocket.onIn_cases answers.reads with hr | ⟨data, hr⟩ | hr | hr
    · rw [hr]
      exact hcalled
    · rw [hr]
      exact hcalled.trans (hcalled.consistent.received (mem_objects_of_mem hc) data)
    · rw [hr]
      exact hcalled.trans (hcalled.consistent.closed hc)
    · rw [hr]
      exact hcalled.trans (hcalled.consistent.closed hc)

theorem kept_onClosed : Kept t fd w (onClosed t answers w) := by
  have hcalled := kept_called h ht
  rcases mem_objects.mp ht with he | ⟨c, hc, he⟩
  · obtain ⟨rfl, rfl⟩ := Prod.mk.inj he
    simp only [onClosed, objectAt_called_receiver]
    exact hcalled
  · obtain ⟨rfl, rfl⟩ := Prod.mk.inj he
    simp only [onClosed, hcalled.consistent.objectAt_socket hc]
    exact hcalled.trans (hcalled.consistent.closed hc)

theorem kept_onError : Kept t fd w (onError t answers w) := by
  have hcalled := kept_called h ht
  rcases mem_objects.mp ht with he | ⟨c, hc, he⟩
  · obtain ⟨rfl, rfl⟩ := Prod.mk.inj he
    simp only [onError, objectAt_called_receiver]
    exact hcalled
  · obtain ⟨rfl, rfl⟩ := Prod.mk.inj he
    simp only [onError, hcalled.consistent.objectAt_socket hc]
    exact hcalled.trans (hcalled.consistent.closed hc)

end Handlers

/-! ### Events and batches -/

/-- An event of the object at `t` keeps every other object. -/
theorem kept_event (h : Consistent w) {ev : EpollEvent ServerAnswers} {t : Address} (ht : (t, ev.fd) ∈ w.objects)
    (hf : ev.fd = w.connectionReceiver.listenSocketFd → w.AcceptsFresh ev.answers.accepts) :
    Kept t ev.fd w (process.notifySubscriber ev w) := by
  have hlookup : process.getSubscriberByFileDescriptor w ev.fd = some t := by
    refine process.getSubscriber_eq_some ((h.subscribers t).mpr (List.mem_map_of_mem ht)) (h.getFileDescriptor_eq ht)
      fun b hb hfd => ?_
    obtain ⟨x, hx, rfl⟩ := List.mem_map.mp ((h.subscribers b).mp hb)
    have hx' : x.2 = ev.fd := Option.some.inj ((h.getFileDescriptor_eq hx).symm.trans hfd)
    exact congrArg Prod.fst (List.inj_on_of_nodup_map h.descriptors hx ht hx')
  simp only [Process.notifySubscriber, hlookup]
  have hout := (Kept.refl h ht).notifyIf (fun h ht => kept_onOut h ht ev.answers) ev.epollOut
  -- writing is of no interest to the receiver, so what it can accept is the same
  have hf' : ev.fd = w.connectionReceiver.listenSocketFd →
      (process.notifyIf ev.epollOut onOut (some t) ev.answers w).AcceptsFresh ev.answers.accepts := by
    intro hfd
    have hobject : (w.called t).objectAt t = some .connectionReceiver := by
      have hx := List.inj_on_of_nodup_map h.descriptors ht (receiver_mem_objects w) hfd
      rw [(Prod.mk.inj hx).1]
      exact objectAt_called_receiver w
    rw [process.notifyIf_some]
    split
    · simp only [onOut, hobject]
      exact acceptsFresh_record (hf hfd)
    · exact hf hfd
  have hin := hout.notifyIf (fun h ht => kept_onIn h ht ev.answers (by rw [hout.receiver]; exact hf')) ev.epollIn
  have hhup := hin.notifyIf (fun h ht => kept_onClosed h ht ev.answers) ev.epollHup
  exact hhup.notifyIf (fun h ht => kept_onError h ht ev.answers) ev.epollErr

/-- In the middle of a batch that began at `w₀`: each event to come still finds the
object that had its descriptor then. -/
structure Ready (w₀ w : ServerProcess) (batch : List (EpollEvent ServerAnswers)) : Prop where
  consistent : Consistent w
  owners : ∀ ev ∈ batch, ∃ t, (t, ev.fd) ∈ w₀.objects ∧ (t, ev.fd) ∈ w.objects ∧ w.serials t = w₀.serials t
  distinct : (batch.map EpollEvent.fd).Nodup
  fresh : w.AnswersFresh batch

theorem ready_of_delivers (h : Consistent w) {batch : List (EpollEvent ServerAnswers)} (hd : w.Delivers batch) :
    Ready w w batch := by
  refine ⟨h, fun ev hev => ?_, hd.1, hd.2.2⟩
  obtain ⟨a, ha, hfd⟩ := hd.2.1 ev hev
  obtain ⟨x, hx, rfl⟩ := List.mem_map.mp ((h.subscribers a).mp ha)
  have hx' : x.2 = ev.fd := Option.some.inj ((h.getFileDescriptor_eq hx).symm.trans hfd)
  exact ⟨x.1, hx' ▸ hx, hx' ▸ hx, rfl⟩

variable {w₀ : ServerProcess}

theorem Ready.event {ev : EpollEvent ServerAnswers} {batch : List (EpollEvent ServerAnswers)}
    (h : Ready w₀ w (ev :: batch)) :
    Ready w₀ (process.notifySubscriber ev w) batch ∧
      ∃ t, (t, ev.fd) ∈ w₀.objects ∧ w.serials t = w₀.serials t ∧
        Kept t ev.fd w (process.notifySubscriber ev w) := by
  obtain ⟨t, ht₀, ht, hserial⟩ := h.owners ev List.mem_cons_self
  have hkept := kept_event h.consistent ht h.fresh.1
  have hdistinct := h.distinct
  rw [List.map_cons, List.nodup_cons] at hdistinct
  refine ⟨⟨hkept.consistent, fun ev' hev' => ?_, hdistinct.2, h.fresh.2⟩, t, ht₀, hserial, hkept⟩
  obtain ⟨t', ht₀', ht', hserial'⟩ := h.owners ev' (List.mem_cons_of_mem _ hev')
  have hne : t' ≠ t := by
    rintro rfl
    have hfd := congrArg Prod.snd (List.inj_on_of_nodup_map h.consistent.addresses ht' ht rfl)
    dsimp only at hfd
    exact hdistinct.1 (hfd ▸ List.mem_map_of_mem hev')
  obtain ⟨hstill, hsame⟩ := hkept.others _ ht' hne
  exact ⟨t', ht₀', hstill, hsame.trans hserial'⟩

theorem Ready.batch {before after : List (EpollEvent ServerAnswers)} (h : Ready w₀ w (before ++ after)) :
    Ready w₀ (process.notifyAll before w) after := by
  induction before generalizing w with
  | nil => exact h
  | cons ev before ih => exact ih h.event.1

theorem Consistent.run (h : Consistent w) {batches : List (List (EpollEvent ServerAnswers))}
    {batch : List (EpollEvent ServerAnswers)} (hd : w.DeliversAll (batches ++ [batch])) :
    Ready (process.run batches w) (process.run batches w) batch := by
  induction batches generalizing w with
  | nil => exact ready_of_delivers h hd.1
  | cons first batches ih =>
    have hready : Ready w w (first ++ []) := by
      rw [List.append_nil]
      exact ready_of_delivers h hd.1
    have hnext := hready.batch.consistent
    have hrunning : (process.poller (process.notifyAll first w)).isStopped = false := hnext.running
    rw [Process.run, hrunning]
    exact ih hnext hd.2

theorem consistent_start (limit : UInt64) (receiver : TcpConnectionReceiver) (otherFds : List FileDescriptor) :
    Consistent (start limit receiver otherFds) := by
  refine ⟨fun a => ?_, Poller.nodup_insert List.nodup_nil _, ?_, ?_, ?_, ?_, ?_, Poller.isStopped_insert _ _, ?_, ?_, ?_⟩
  · simp [start, objects, Server.init]
  all_goals simp [start, objects, Server.init, liveSerials, reported]

end ServerProcess

open ServerProcess

/-- In every run in which the kernel delivers registered descriptors, each at most
once in a batch, and what is new is fresh: at the end of any part of a batch,
exactly the receiver and the sockets of the connections are subscribed, with
distinct open descriptors; every handler called for an event was called on the
object that had the descriptor when the batch began, still alive; no connection
has been reported closed twice, and every one that was reported was found. -/
theorem dispatch_hits_live_objects (limit : UInt64) (receiver : TcpConnectionReceiver)
    (otherFds : List FileDescriptor) (batches : List (List (EpollEvent ServerAnswers)))
    (batch : List (EpollEvent ServerAnswers))
    (h : (start limit receiver otherFds).DeliversAll (batches ++ [batch])) :
    let w₀ := process.run batches (start limit receiver otherFds)
    let w := process.notifyAll batch w₀
    (∀ a, a ∈ w.poller.subscribers ↔
      a = w.connectionReceiver.self ∨ ∃ c ∈ w.server.incomingConnections, a = c.socket.self) ∧
    (w.objects.map Prod.fst).Nodup ∧ (w.objects.map Prod.snd).Nodup ∧
    (∀ fd ∈ w.objects.map Prod.snd, fd ∈ w.openFds) ∧
    (∀ before ev after, batch = before ++ ev :: after →
      let w₁ := process.notifyAll before w₀
      ∃ owner, (owner, ev.fd) ∈ w₀.objects ∧
        ∃ new, (process.notifySubscriber ev w₁).calls = w₁.calls ++ new ∧
          ∀ target serial alive, .handler target serial alive ∈ new →
            target = owner ∧ serial = w₀.serials owner ∧ alive = true) ∧
    (reported w.calls).Nodup ∧ .eraseEnd ∉ w.calls := by
  intro w₀ w
  have hready : Ready w₀ w₀ batch := (consistent_start limit receiver otherFds).run h
  have hw : Consistent w := by
    have hall : Ready w₀ w₀ (batch ++ []) := by rwa [List.append_nil]
    exact hall.batch.consistent
  refine ⟨fun a => ?_, hw.addresses, hw.descriptors, hw.fdsOpen, fun before ev after he => ?_,
    (List.nodup_append.mp hw.numbered).2.1, hw.defined⟩
  · rw [hw.subscribers, List.mem_map]
    constructor
    · rintro ⟨x, hx, rfl⟩
      rcases mem_objects.mp hx with rfl | ⟨c, hc, rfl⟩
      · exact .inl rfl
      · exact .inr ⟨c, hc, rfl⟩
    · rintro (rfl | ⟨c, hc, rfl⟩)
      · exact ⟨_, receiver_mem_objects w, rfl⟩
      · exact ⟨_, mem_objects_of_mem hc, rfl⟩
  · rw [he] at hready
    obtain ⟨-, owner, howner, hserial, hkept⟩ := hready.batch.event
    obtain ⟨new, hnew, hmade⟩ := hkept.calls
    refine ⟨owner, howner, new, hnew, fun target serial alive hcall => ?_⟩
    rw [← hserial]
    exact hmade _ hcall

/-- A connection is closed by an event with all flags, and the next one of the same
batch gets its descriptor and its place in memory. -/
theorem dispatch_hits_live_objects_reuse :
    let arrives : EpollEvent ServerAnswers := ⟨3, false, true, false, false, ⟨0, [], [.accepted ⟨5, 20, 30⟩, .eagain]⟩⟩
    let closes : EpollEvent ServerAnswers := ⟨5, true, true, true, true, ⟨0, [.endOfFile], []⟩⟩
    let w := process.notifyAll [closes, arrives] (process.run [[arrives]] (start 1 ⟨10, 3⟩ [0, 1, 2]))
    (reported w.calls).Nodup ∧ .eraseEnd ∉ w.calls :=
  (dispatch_hits_live_objects 1 ⟨10, 3⟩ [0, 1, 2]
    [[⟨3, false, true, false, false, ⟨0, [], [.accepted ⟨5, 20, 30⟩, .eagain]⟩⟩]]
    [⟨5, true, true, true, true, ⟨0, [.endOfFile], []⟩⟩,
      ⟨3, false, true, false, false, ⟨0, [], [.accepted ⟨5, 20, 30⟩, .eagain]⟩⟩] (by decide)).2.2.2.2.2

end EpollChat.Chat
