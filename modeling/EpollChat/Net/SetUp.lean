import EpollChat.Exceptions.Unwinding
import EpollChat.Net.TcpSocket
import EpollChat.Utils.Exception

/-! Setting up a socket, by `TcpSocket::Connect` or by `TcpConnectionReceiver::Bind`,
with every system call that can fail, and the destructor that runs when an
exception leaves it. The answers of the system calls are arguments; `strerror` is a
parameter. -/

namespace EpollChat.Net

open Utils Exceptions

/-- `EINPROGRESS`, `EBADF` and `ENOENT`. -/
def einprogress : Errno := 115
def ebadf : Errno := 9
def enoent : Errno := 2

/-- The poller, the descriptors registered with its epoll instance, and the members
of the object that is set up: its descriptor, `none` for -1, and its timer. -/
structure SetUp where
  poller : Poller
  registered : List FileDescriptor
  fd : Option FileDescriptor
  timer : Option Timer

abbrev SetUpM (α : Type) := EStateM Exception SetUp α

/-- The answers in `Poller::Subscribe`: of `fcntl` twice, and of `epoll_ctl`. -/
structure SubscribeAnswers where
  getFlags : SysResult Unit
  setFlags : SysResult Unit
  addition : SysResult Unit

/-- No call fails. -/
def SubscribeAnswers.Succeed (a : SubscribeAnswers) : Prop :=
  a.getFlags = .ok () ∧ a.setFlags = .ok () ∧ a.addition = .ok ()

/-- The answers in the constructor of a `Timer`, and where it is allocated. -/
structure TimerAnswers where
  self : Address
  create : SysResult FileDescriptor
  setting : SysResult Unit
  subscribe : SubscribeAnswers

/-- The answers that `Connect` and `Bind` both get first. -/
structure SocketAnswers where
  socket : SysResult FileDescriptor
  subscribe : SubscribeAnswers

structure ConnectAnswers extends SocketAnswers where
  connect : SysResult Unit
  timer : TimerAnswers

structure BindAnswers extends SocketAnswers where
  setOpt : SysResult Unit
  bind : SysResult Unit
  listen : SysResult Unit

namespace SetUp

variable (strerror : Errno → String)

/-- The exception for a system call that has failed. -/
def orThrow {α : Type} (sourceError : String) : SysResult α → SetUpM α
  | .ok a => pure a
  | .error errno => throw ⟨sourceError, strerror errno⟩

def makeFileDescriptorNonBlocking (a : SubscribeAnswers) : SetUpM Unit := do
  orThrow strerror "fcntl" a.getFlags
  orThrow strerror "fcntl" a.setFlags

def subscribe (subscriber : Address) (subscriberFd : FileDescriptor) (a : SubscribeAnswers) : SetUpM Unit := do
  makeFileDescriptorNonBlocking strerror a
  orThrow strerror "epoll_ctl" a.addition
  modify fun s => { s with
    registered := subscriberFd :: s.registered
    poller := s.poller.insert subscriber }

/-- A registered descriptor is removed; `epoll_ctl` refuses any other. -/
def unsubscribe (subscriber : Address) (fd : Option FileDescriptor) : SetUpM Unit := fun s =>
  match fd with
  | none => .error ⟨"epoll_ctl", strerror ebadf⟩ s
  | some fd =>
    if fd ∈ s.registered then
      .ok () { s with registered := s.registered.erase fd, poller := s.poller.erase subscriber }
    else .error ⟨"epoll_ctl", strerror enoent⟩ s

/-- The constructor of `Timer`. -/
def makeTimer (a : TimerAnswers) : SetUpM Timer := do
  let timerFd ← orThrow strerror "timerfd_create" a.create
  orThrow strerror "timerfd_settime" a.setting
  subscribe strerror a.self timerFd a.subscribe
  return ⟨a.self, timerFd⟩

/-- How both `Connect` and `Bind` begin. -/
def openSocket (self : Address) (a : SocketAnswers) : SetUpM Unit := do
  let fd ← orThrow strerror "socket" a.socket
  modify fun s => { s with fd := some fd }
  subscribe strerror self fd a.subscribe

/-- A non-blocking `connect` may still be in progress. -/
def connectPeer : SysResult Unit → SetUpM Unit
  | .ok () => pure ()
  | .error errno => if errno = einprogress then pure () else throw ⟨"connect", strerror errno⟩

/-- `TcpSocket::Connect`. -/
def connect (self : Address) (a : ConnectAnswers) : SetUpM Unit := do
  openSocket strerror self a.toSocketAnswers
  connectPeer strerror a.connect
  let connectionTimeout ← makeTimer strerror a.timer
  modify fun s => { s with timer := some connectionTimeout }

/-- `TcpConnectionReceiver::Bind`. -/
def bind (self : Address) (a : BindAnswers) : SetUpM Unit := do
  openSocket strerror self a.toSocketAnswers
  orThrow strerror "setsockopt" a.setOpt
  orThrow strerror "bind" a.bind
  orThrow strerror "listen" a.listen

/-- The destructor of `TcpSocket`, and after it that of its timer. -/
def destroyTcpSocket (self : Address) : SetUpM Unit := do
  let s ← get
  unsubscribe strerror self s.fd
  match s.timer with
  | none => pure ()
  | some timer => unsubscribe strerror timer.self (some timer.timerFd)

/-- The destructor of `TcpConnectionReceiver`. -/
def destroyTcpConnectionReceiver (self : Address) : SetUpM Unit := do
  let s ← get
  unsubscribe strerror self s.fd

/-! ### What each step can do -/

variable {strerror} {self : Address} {fd : FileDescriptor} {s : SetUp}

theorem inert_orThrow {α : Type} (sourceError : String) (r : SysResult α) : Inert (orThrow strerror sourceError r) := by
  cases r with
  | ok a => exact Inert.pure a
  | error errno => exact Inert.throw _

theorem inert_connectPeer (r : SysResult Unit) : Inert (connectPeer strerror r) := by
  cases r with
  | ok a => exact Inert.pure ()
  | error errno =>
    rw [connectPeer]
    split
    · exact Inert.pure ()
    · exact Inert.throw _

theorem strong_subscribe (subscriber : Address) (a : SubscribeAnswers) :
    Strong (subscribe strerror subscriber fd a) :=
  Strong.bind_inert ((inert_orThrow _ _).bind fun _ => inert_orThrow _ _) fun _ =>
    Strong.bind_inert (inert_orThrow _ _) fun _ => NoThrow.strong (NoThrow.modify _)

theorem strong_makeTimer (a : TimerAnswers) : Strong (makeTimer strerror a) :=
  Strong.bind_inert (inert_orThrow _ _) fun _ => Strong.bind_inert (inert_orThrow _ _) fun _ =>
    Strong.bind_noThrow (strong_subscribe _ _) fun _ => NoThrow.pure _

/-- The state after a successful `Subscribe`. -/
def subscribed (s : SetUp) (subscriber : Address) (fd : FileDescriptor) : SetUp :=
  { s with registered := fd :: s.registered, poller := s.poller.insert subscriber }

theorem subscribe_of_succeed {a : SubscribeAnswers} (h : a.Succeed) :
    subscribe strerror self fd a s = .ok () (s.subscribed self fd) := by
  obtain ⟨hget, hset, hadd⟩ := h
  unfold subscribe makeFileDescriptorNonBlocking
  rw [hget, hset, hadd]
  rfl

theorem subscribe_of_not_succeed {a : SubscribeAnswers} (h : ¬ a.Succeed) :
    ∃ e, subscribe strerror self fd a s = .error e s := by
  obtain ⟨getFlags, setFlags, addition⟩ := a
  cases getFlags with
  | error errno => exact ⟨_, rfl⟩
  | ok u =>
    cases setFlags with
    | error errno => exact ⟨_, rfl⟩
    | ok u =>
      cases addition with
      | error errno => exact ⟨_, rfl⟩
      | ok u => exact absurd ⟨rfl, rfl, rfl⟩ h

/-- An object that is not registered cannot be unsubscribed. -/
theorem unsubscribe_unregistered (h : ∀ fd ∈ s.fd, fd ∉ s.registered) :
    ∃ e, unsubscribe strerror self s.fd s = .error e s := by
  unfold unsubscribe
  cases hfd : s.fd with
  | none => exact ⟨_, rfl⟩
  | some fd => exact ⟨_, if_neg (h fd hfd)⟩

theorem unsubscribe_subscribed (h : self ∉ s.poller.subscribers) :
    unsubscribe strerror self (some fd) (s.subscribed self fd) = .ok () s := by
  rw [unsubscribe, subscribed]
  dsimp only
  rw [if_pos List.mem_cons_self, List.erase_cons_head, Poller.erase_insert h]

/-! ### How both set-ups begin -/

/-- The socket is created and subscribed. -/
def Opens (a : SocketAnswers) (fd : FileDescriptor) : Prop := a.socket = .ok fd ∧ a.subscribe.Succeed

theorem openSocket_of_opens {a : SocketAnswers} (h : Opens a fd) :
    openSocket strerror self a s = .ok () ({ s with fd := some fd }.subscribed self fd) := by
  rw [openSocket, h.1]
  exact subscribe_of_succeed h.2

/-- Else the object is left without a registered descriptor. -/
theorem openSocket_of_not_opens {a : SocketAnswers} (hnew : s.fd = none)
    (hfresh : ∀ fd, a.socket = .ok fd → fd ∉ s.registered) (h : ∀ fd, ¬ Opens a fd) :
    ∃ e t, openSocket strerror self a s = .error e t ∧ ∀ fd ∈ t.fd, fd ∉ t.registered := by
  unfold openSocket
  cases hsocket : a.socket with
  | error errno => exact ⟨_, s, rfl, by simp [hnew]⟩
  | ok fd =>
    obtain ⟨e, he⟩ : ∃ e, subscribe strerror self fd a.subscribe { s with fd := some fd } = .error e _ :=
      subscribe_of_not_succeed fun hs => h fd ⟨hsocket, hs⟩
    refine ⟨e, _, he, fun n hn => ?_⟩
    rw [← Option.some.inj hn]
    exact hfresh fd hsocket

theorem destroyTcpSocket_unregistered (h : ∀ fd ∈ s.fd, fd ∉ s.registered) :
    ∃ e, destroyTcpSocket strerror self s = .error e s := by
  obtain ⟨e, he⟩ : ∃ e, unsubscribe strerror self s.fd s = .error e s := unsubscribe_unregistered h
  exact ⟨e, (bind_of_ok rfl).trans (bind_of_error he)⟩

theorem destroyTcpSocket_subscribed (hself : self ∉ s.poller.subscribers) (hfd : s.fd = some fd)
    (htimer : s.timer = none) : destroyTcpSocket strerror self (s.subscribed self fd) = .ok () s := by
  have hunsubscribe : unsubscribe strerror self (s.subscribed self fd).fd (s.subscribed self fd) = .ok () s := by
    rw [show (s.subscribed self fd).fd = some fd from hfd]
    exact unsubscribe_subscribed hself
  have hnone : (s.subscribed self fd).timer = none := htimer
  refine (bind_of_ok rfl).trans ((bind_of_ok hunsubscribe).trans ?_)
  rw [hnone]
  rfl

/-! ### Success -/

variable {t : SetUp}

theorem orThrow_ok {α : Type} {sourceError : String} {r : SysResult α} {x : α}
    (h : orThrow strerror sourceError r s = .ok x t) : r = .ok x ∧ t = s := by
  cases r with
  | ok y =>
    cases h
    exact ⟨rfl, rfl⟩
  | error errno => cases h

theorem subscribe_ok {a : SubscribeAnswers} (h : subscribe strerror self fd a s = .ok () t) :
    t = s.subscribed self fd := by
  by_cases hs : a.Succeed
  · rw [subscribe_of_succeed hs] at h
    cases h
    rfl
  · obtain ⟨e, he⟩ : ∃ e, subscribe strerror self fd a s = .error e s := subscribe_of_not_succeed hs
    rw [he] at h
    cases h

theorem openSocket_ok {a : SocketAnswers} (h : openSocket strerror self a s = .ok () t) :
    ∃ fd, a.socket = .ok fd ∧ t = { s with fd := some fd }.subscribed self fd := by
  obtain ⟨fd, u, hsocket, hrest⟩ := bind_eq_ok h
  obtain ⟨hfd, rfl⟩ := orThrow_ok hsocket
  obtain ⟨_, v, hmodify, hsubscribe⟩ := bind_eq_ok hrest
  cases hmodify
  exact ⟨fd, hfd, subscribe_ok hsubscribe⟩

theorem makeTimer_ok {a : TimerAnswers} {timer : Timer} (h : makeTimer strerror a s = .ok timer t) :
    timer.self = a.self ∧ a.create = .ok timer.timerFd ∧ t = s.subscribed a.self timer.timerFd := by
  obtain ⟨timerFd, u, hcreate, hsettime⟩ := bind_eq_ok h
  obtain ⟨_, v, hset, hreturns⟩ := bind_eq_ok hsettime
  obtain ⟨_, x, hsubscribe, hreturn⟩ := bind_eq_ok hreturns
  cases hreturn
  obtain ⟨hfd, rfl⟩ := orThrow_ok hcreate
  obtain ⟨-, rfl⟩ := orThrow_ok hset
  exact ⟨rfl, hfd, subscribe_ok hsubscribe⟩

/-! ### Unwinding -/

/-- After a failure the exception is passed on, and the poller has the subscribers it
had before. -/
def CleanlyUnwound (s : SetUp) : Outcome Exception SetUp → Prop
  | .made _ => True
  | .unwound _ t => t.poller.subscribers = s.poller.subscribers
  | .terminated => False

/-- Whatever follows the opening, if it gives the strong guarantee. -/
theorem cleanlyUnwound_iff {a : SocketAnswers} {rest : SetUpM Unit} {destroy : SetUpM Unit} (hnew : s.fd = none)
    (hfresh : ∀ fd, a.socket = .ok fd → fd ∉ s.registered) (hrest : Strong rest)
    (hunregistered : ∀ t : SetUp, (∀ fd ∈ t.fd, fd ∉ t.registered) → ∃ e, destroy t = .error e t)
    (hsubscribed : ∀ fd, destroy ({ s with fd := some fd }.subscribed self fd) = .ok () { s with fd := some fd }) :
    CleanlyUnwound s (unwind (do openSocket strerror self a; rest) destroy s) ↔ ∃ fd, Opens a fd := by
  by_cases h : ∃ fd, Opens a fd
  · refine iff_of_true ?_ h
    obtain ⟨fd, hopens⟩ := h
    rcases unwind_strong (openSocket_of_opens hopens) (fun _ => hrest) (hsubscribed fd) with ⟨v, hv⟩ | ⟨e, -, he⟩
    · rw [hv]
      trivial
    · rw [he]
      rfl
  · refine iff_of_false ?_ h
    obtain ⟨e, t, he, ht⟩ : ∃ e t, openSocket strerror self a s = .error e t ∧ ∀ fd ∈ t.fd, fd ∉ t.registered :=
      openSocket_of_not_opens hnew hfresh (not_exists.mp h)
    obtain ⟨d, hd⟩ := hunregistered t ht
    rw [unwind_terminated (bind_of_error he) hd]
    exact id

end SetUp

open SetUp

/-- Wherever a set-up fails, the exception reaches the handler and the subscribers of
the poller are those from before, if and only if the object's own socket was created
and subscribed; else the process is terminated. -/
theorem failed_setUp_unwinds_iff (strerror : Errno → String) {p : Poller} {registered : List FileDescriptor}
    {self : Address} (hself : self ∉ p.subscribers) {a : ConnectAnswers} {b : BindAnswers}
    (ha : ∀ fd, a.socket = .ok fd → fd ∉ registered) (hb : ∀ fd, b.socket = .ok fd → fd ∉ registered) :
    let s : SetUp := ⟨p, registered, none, none⟩
    (CleanlyUnwound s (unwind (connect strerror self a) (destroyTcpSocket strerror self) s) ↔
      ∃ fd, Opens a.toSocketAnswers fd) ∧
    (CleanlyUnwound s (unwind (bind strerror self b) (destroyTcpConnectionReceiver strerror self) s) ↔
      ∃ fd, Opens b.toSocketAnswers fd) := by
  intro s
  constructor
  · refine cleanlyUnwound_iff rfl ha ?_ (fun t => destroyTcpSocket_unregistered) fun fd =>
      destroyTcpSocket_subscribed hself rfl rfl
    exact Strong.bind_inert (inert_connectPeer _) fun _ =>
      Strong.bind_noThrow (strong_makeTimer _) fun _ => NoThrow.modify _
  · refine cleanlyUnwound_iff rfl hb ?_ (fun t => unsubscribe_unregistered) fun fd => unsubscribe_subscribed hself
    exact Strong.bind_inert (inert_orThrow _ _) fun _ =>
      Strong.bind_inert (inert_orThrow _ _) fun _ => (inert_orThrow _ _).strong

theorem failed_setUp_unwinds_iff_refused :
    let done : SubscribeAnswers := ⟨.ok (), .ok (), .ok ()⟩
    let a : ConnectAnswers := ⟨⟨.ok 4, done⟩, .error 111, ⟨300, .ok 5, .ok (), done⟩⟩
    let b : BindAnswers := ⟨⟨.ok 4, done⟩, .ok (), .error 98, .ok ()⟩
    let s : SetUp := ⟨⟨[100], false⟩, [3], none, none⟩
    (CleanlyUnwound s (unwind (connect (fun _ => "") 200 a) (destroyTcpSocket (fun _ => "") 200) s) ↔
      ∃ fd, Opens a.toSocketAnswers fd) ∧
    (CleanlyUnwound s (unwind (bind (fun _ => "") 200 b) (destroyTcpConnectionReceiver (fun _ => "") 200) s) ↔
      ∃ fd, Opens b.toSocketAnswers fd) :=
  failed_setUp_unwinds_iff (fun _ => "") (by decide) (fun fd h => by cases h; decide) (fun fd h => by cases h; decide)

/-- No descriptor is left for the socket: `Connect` throws, and so does the destructor. -/
theorem failed_socket_terminates :
    let done : SubscribeAnswers := ⟨.ok (), .ok (), .ok ()⟩
    let a : ConnectAnswers := ⟨⟨.error 24, done⟩, .ok (), ⟨300, .ok 5, .ok (), done⟩⟩
    let s : SetUp := ⟨⟨[], false⟩, [], none, none⟩
    unwind (connect (fun _ => "") 200 a) (destroyTcpSocket (fun _ => "") 200) s = .terminated := rfl

end EpollChat.Net
