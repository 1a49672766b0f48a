import EpollChat.Exceptions.Scopes
import EpollChat.Net.SetUp

/-! What is registered. Some objects, each with its descriptor, are exactly the
subscribers of a poller and exactly what its epoll instance watches. Subscribing adds
an object; the destructor of a registered object does not throw, and removes it. A
`Connect` adds the socket and its timer, or adds nothing when it throws. -/

namespace EpollChat.Net

open Utils Exceptions Loops Loops.Computation

/-- A socket, and its timer if it has one, with their descriptors. -/
def TcpSocket.objects (s : TcpSocket) : List (Address × FileDescriptor) :=
  (s.self, s.connectSocketFd) :: s.connectionTimeout.toList.map fun timer => (timer.self, timer.timerFd)

structure Registers (p : Poller) (registered : List FileDescriptor) (objects : List (Address × FileDescriptor)) :
    Prop where
  subscribers : p.subscribers.Perm (objects.map Prod.fst)
  descriptors : registered.Perm (objects.map Prod.snd)

namespace Registers

variable {p : Poller} {registered : List FileDescriptor} {objects more : List (Address × FileDescriptor)}
  {self : Address} {fd : FileDescriptor}

theorem nothing (isStopped : Bool) : Registers ⟨[], isStopped⟩ [] [] := ⟨.nil, .nil⟩

theorem perm (h : Registers p registered objects) (hp : objects.Perm more) : Registers p registered more :=
  ⟨h.subscribers.trans (hp.map _), h.descriptors.trans (hp.map _)⟩

theorem stop (h : Registers p registered objects) : Registers p.stop registered objects := ⟨h.subscribers, h.descriptors⟩

theorem eq_nil (h : Registers p registered []) : p.subscribers = [] ∧ registered = [] :=
  ⟨h.subscribers.eq_nil, h.descriptors.eq_nil⟩

theorem insert (h : Registers p registered objects) (hself : self ∉ objects.map Prod.fst) :
    Registers (p.insert self) (fd :: registered) ((self, fd) :: objects) := by
  refine ⟨?_, h.descriptors.cons fd⟩
  rw [Poller.insert, if_neg fun hm => hself (h.subscribers.mem_iff.mp hm)]
  exact (List.perm_orderedInsert _ self _).trans (h.subscribers.cons self)

theorem erase (h : Registers p registered ((self, fd) :: objects)) :
    Registers (p.erase self) (registered.erase fd) objects := by
  obtain ⟨hsubscribers, hdescriptors⟩ := h
  have hs := hsubscribers.erase self
  have hd := hdescriptors.erase fd
  rw [List.map_cons, List.erase_cons_head] at hs hd
  exact ⟨hs, hd⟩

theorem mem (h : Registers p registered ((self, fd) :: objects)) : fd ∈ registered :=
  h.descriptors.mem_iff.mpr List.mem_cons_self

/-! ### Destructors -/

variable {strerror : Errno → String} {s : SetUp}

theorem unsubscribe (h : Registers s.poller s.registered ((self, fd) :: objects)) :
    SetUp.unsubscribe strerror self (some fd) s =
      .ok () { s with registered := s.registered.erase fd, poller := s.poller.erase self } := by
  rw [SetUp.unsubscribe]
  exact if_pos h.mem

theorem destroyTcpSocket {socket : TcpSocket} (h : Registers p registered (socket.objects ++ objects)) :
    ∃ t, SetUp.destroyTcpSocket strerror socket.self
        ⟨p, registered, some socket.connectSocketFd, socket.connectionTimeout⟩ = .ok () t ∧
      t.poller = socket.destroy p ∧ Registers t.poller t.registered objects := by
  obtain ⟨self, connectSocketFd, connected, timer⟩ := socket
  let s : SetUp := ⟨p, registered, some connectSocketFd, timer⟩
  have hsocket : SetUp.unsubscribe strerror self (some connectSocketFd) s = _ := unsubscribe h
  cases timer with
  | none => exact ⟨_, (bind_of_ok rfl).trans ((bind_of_ok hsocket).trans rfl), rfl, h.erase⟩
  | some timer =>
    have hrest : Registers (p.erase self) (registered.erase connectSocketFd) ((timer.self, timer.timerFd) :: objects) :=
      h.erase
    have htimer : SetUp.unsubscribe strerror timer.self (some timer.timerFd)
        { s with registered := registered.erase connectSocketFd, poller := p.erase self } = _ := unsubscribe hrest
    exact ⟨_, (bind_of_ok rfl).trans ((bind_of_ok hsocket).trans htimer), rfl, hrest.erase⟩

end Registers

/-! ### `Connect` -/

/-- No call fails in `Connect`. -/
structure ConnectAnswers.Succeed (a : ConnectAnswers) : Prop where
  opens : ∃ fd, SetUp.Opens a.toSocketAnswers fd
  peer : a.connect = .ok () ∨ a.connect = .error einprogress
  created : ∃ fd, a.timer.create = .ok fd
  armed : a.timer.setting = .ok ()
  subscribed : a.timer.subscribe.Succeed

namespace SetUp

variable {strerror : Errno → String} {self : Address} {s t : SetUp} {a : ConnectAnswers}

/-- The socket, connecting, with its timer, and what was registered before. -/
structure Connects (a : ConnectAnswers) (address : Address) (s t : SetUp) (fd : FileDescriptor) (timer : Timer) : Prop where
  socket : a.socket = .ok fd
  created : a.timer.create = .ok timer.timerFd
  allocated : timer.self = a.timer.self
  opened : t.fd = some fd
  armed : t.timer = some timer
  poller : t.poller = (TcpSocket.connect address fd timer s.poller).2
  registered : t.registered = timer.timerFd :: fd :: s.registered

/-- A `Connect` that succeeds is the one from which the runs of a client start. -/
theorem connects_of_ok (h : connect strerror self a s = .ok () t) : ∃ fd timer, Connects a self s t fd timer := by
  obtain ⟨_, u, hopen, hconnect⟩ := bind_eq_ok h
  obtain ⟨_, v, hpeer, htimeout⟩ := bind_eq_ok hconnect
  obtain ⟨timer, x, htimer, hmodify⟩ := bind_eq_ok htimeout
  cases hmodify
  obtain ⟨fd, hfd, rfl⟩ := openSocket_ok hopen
  obtain rfl := (inert_connectPeer _).ok hpeer
  obtain ⟨hself, hcreate, rfl⟩ := makeTimer_ok htimer
  exact ⟨fd, timer, hfd, hcreate, hself, rfl, rfl, by rw [TcpSocket.connect, hself]; rfl, rfl⟩

theorem connect_of_succeed (h : a.Succeed) : ∃ t, connect strerror self a s = .ok () t := by
  obtain ⟨⟨fd, hopens⟩, hpeer, ⟨timerFd, hcreate⟩, hset, hsubscribe⟩ := h
  have hconnect : ∀ u : SetUp, connectPeer strerror a.connect u = .ok () u := by
    rcases hpeer with h | h <;> rw [h] <;> exact fun _ => rfl
  have htimer : ∀ u : SetUp, ∃ timer v, makeTimer strerror a.timer u = .ok timer v := by
    intro u
    rw [makeTimer, hcreate, hset]
    exact ⟨_, _, bind_of_ok (subscribe_of_succeed hsubscribe)⟩
  obtain ⟨timer, v, hv⟩ := htimer _
  exact ⟨_, (bind_of_ok (openSocket_of_opens hopens)).trans ((bind_of_ok (hconnect _)).trans (bind_of_ok hv))⟩

/-- What is left of a socket that was not opened cannot be destroyed. -/
theorem connect_terminates (hfd : s.fd = none) (hfresh : ∀ fd, a.socket = .ok fd → fd ∉ s.registered)
    (h : ∀ fd, ¬ Opens a.toSocketAnswers fd) :
    ∃ t, (scope (throwing (destroyTcpSocket strerror self)) (throwing (connect strerror self a))).Results s
      (.error .terminated t) := by
  obtain ⟨e, t, he, ht⟩ : ∃ e t, openSocket strerror self a.toSocketAnswers s = .error e t ∧
      ∀ fd ∈ t.fd, fd ∉ t.registered := openSocket_of_not_opens hfd hfresh h
  obtain ⟨d, hd⟩ : ∃ d, destroyTcpSocket strerror self t = .error d t := destroyTcpSocket_unregistered ht
  exact ⟨t, results_scope_terminated (results_throwing_error (bind_of_error he)) (results_throwing_error hd)⟩

/-- In the scope of the socket. -/
theorem does_connect (hself : self ∉ s.poller.subscribers) (hfd : s.fd = none) (htimer : s.timer = none)
    (hfresh : ∀ fd, a.socket = .ok fd → fd ∉ s.registered) (D : Prop) :
    (scope (throwing (destroyTcpSocket strerror self)) (throwing (connect strerror self a))).Does s
      (fun _ t => ∃ fd timer, Connects a self s t fd timer)
      (fun r t => match r with
        | .thrown _ => ¬ a.Succeed ∧ t.poller = s.poller ∧ t.registered = s.registered
        | .terminated => ∀ fd, ¬ Opens a.toSocketAnswers fd
        | .undefined => False) D := by
  by_cases h : ∃ fd, Opens a.toSocketAnswers fd
  · obtain ⟨fd, hopens⟩ := h
    have hopen : openSocket strerror self a.toSocketAnswers s = .ok () _ := openSocket_of_opens hopens
    cases hr : connect strerror self a s with
    | ok _ t => exact .of_ok ((results_throwing_ok hr).handling_ok _) (connects_of_ok hr)
    | error e t =>
      -- the rest gives the strong guarantee, so only the subscription is left to be undone
      have hrest : t = { s with fd := some fd }.subscribed self fd := by
        refine Strong.error ?_ ((bind_of_ok hopen).symm.trans hr)
        exact Strong.bind_inert (inert_connectPeer _) fun _ =>
          Strong.bind_noThrow (strong_makeTimer _) fun _ => NoThrow.modify _
      have hdestroy : destroyTcpSocket strerror self t = .ok () { s with fd := some fd } := by
        rw [hrest]
        exact destroyTcpSocket_subscribed hself rfl htimer
      refine does_scope (E := fun r t' => ∃ e, r = .thrown e ∧ t' = t)
        (.of_error (results_throwing_error hr) ⟨e, rfl, rfl⟩) ?_ (by rintro _ ⟨e, ⟨⟩, -⟩) (by rintro _ ⟨e, ⟨⟩, -⟩)
      rintro e _ ⟨e, ⟨⟩, rfl⟩
      refine ⟨_, results_throwing_ok hdestroy, fun hsucceed => ?_, rfl, rfl⟩
      obtain ⟨t, ht⟩ : ∃ t, connect strerror self a s = .ok () t := connect_of_succeed hsucceed
      exact nomatch hr.symm.trans ht
  · obtain ⟨t, ht⟩ : ∃ t, (scope (throwing (destroyTcpSocket strerror self))
        (throwing (connect strerror self a))).Results s (.error .terminated t) :=
      connect_terminates hfd hfresh (not_exists.mp h)
    exact .of_error ht (not_exists.mp h)

end SetUp

end EpollChat.Net
