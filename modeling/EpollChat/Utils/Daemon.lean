import EpollChat.Processes.Program
import EpollChat.Utils.Poller
import EpollChat.Utils.Exception

/-! `BecomeDaemon` of `utils::Process`. Both forks leave a parent that exits, so one
process comes out of it: it is not the leader of its session, and has nothing of what
it was started with that would keep it to a terminal or a directory. -/

namespace EpollChat.Utils.Daemon

open Processes

/-- The signals that are ignored. -/
inductive Signal where
  | chld
  | hup
  deriving DecidableEq

/-- `signal` is called with `SIG_IGN`. -/
inductive SysCall where
  | fork
  | exit (status : ℕ)
  | setsid
  | signal (signal : Signal)
  | umask (mask : ℕ)
  | chdir (path : String)
  | sysconfOpenMax
  | close (fd : FileDescriptor)
  | openlog (ident : String)

/-- `fork` returns 0 in the child. A value that is not looked at is left out. -/
def SysCall.Answer : SysCall → Type
  | .fork => SysResult ℕ
  | .exit _ => Empty
  | .setsid => SysResult Unit
  | .signal _ => Unit
  | .umask _ => Unit
  | .chdir _ => SysResult Unit
  | .sysconfOpenMax => ℤ
  | .close _ => Unit
  | .openlog _ => Unit

abbrev ProcessM (α : Type) := Program SysCall SysCall.Answer Exception α

/-! ### The code -/

def fork : ProcessM (SysResult ℕ) := Program.request SysCall.fork

def exit (status : ℕ) : ProcessM Unit := .call (SysCall.exit status) fun answer => nomatch answer

def setsid : ProcessM (SysResult Unit) := Program.request SysCall.setsid

def signal (signal : Signal) : ProcessM Unit := Program.request (SysCall.signal signal)

def umask (mask : ℕ) : ProcessM Unit := Program.request (SysCall.umask mask)

def chdir (path : String) : ProcessM (SysResult Unit) := Program.request (SysCall.chdir path)

def sysconfOpenMax : ProcessM ℤ := Program.request SysCall.sysconfOpenMax

def close (fd : FileDescriptor) : ProcessM Unit := Program.request (SysCall.close fd)

def openlog (ident : String) : ProcessM Unit := Program.request (SysCall.openlog ident)

variable (strerror : Errno → String)

/-- A fork, after which the parent terminates. -/
def forkOff : ProcessM Unit := do
  match ← fork with
  | .error errno => Program.throw ⟨"fork", strerror errno⟩
  | .ok pid => if 0 < pid then exit 0 else pure ()

/-- The loop, from `x` on. -/
def closeFrom : ℕ → ProcessM Unit
  | 0 => close 0
  | x + 1 => do
    close (x + 1)
    closeFrom x

def closeAll (openMax : ℤ) : ProcessM Unit := if openMax < 0 then pure () else closeFrom openMax.toNat

def becomeDaemon : ProcessM Unit := do
  forkOff strerror
  match ← setsid with
  | .error errno => Program.throw ⟨"setid", strerror errno⟩
  | .ok () =>
    signal .chld
    signal .hup
    forkOff strerror
    umask 0
    match ← chdir "/" with
    | .error errno => Program.throw ⟨"chdir /", strerror errno⟩
    | .ok () =>
      closeAll (← sysconfOpenMax)
      openlog "chat_server"

/-! ### The protocol -/

/-- What is known of a process: whether it is a parent that has to exit or the leader of
its session, what it ignores, what it has changed, and which of the descriptors that it
was started with are open. -/
structure Record where
  exiting : Bool
  sessionLeader : Bool
  ignored : List Signal
  mask : Option ℕ
  directory : Option String
  openMax : Option ℤ
  inheritedFds : List FileDescriptor

/-- Parents exit, and nobody else does. -/
def protocol : Protocol SysCall SysCall.Answer Record where
  allowed g c := match c with
    | .exit status => g.exiting = true ∧ status = 0
    | _ => g.exiting = false
  after g c answer := match c, answer with
    | .fork, .ok pid => if 0 < pid then { g with exiting := true } else { g with sessionLeader := false }
    | .setsid, .ok () => { g with sessionLeader := true }
    | .signal signal, () => { g with ignored := signal :: g.ignored }
    | .umask mask, () => { g with mask := some mask }
    | .chdir path, .ok () => { g with directory := some path }
    | .sysconfOpenMax, openMax => { g with openMax := some openMax }
    | .close fd, () => { g with inheritedFds := g.inheritedFds.filter (· ≠ fd) }
    | _, _ => g

theorem exiting_of_parent {g : Record} {pid : ℕ} (h : 0 < pid) :
    (protocol.after g .fork (Except.ok pid : SysResult ℕ)).exiting = true := by
  change (if 0 < pid then { g with exiting := true } else { g with sessionLeader := false } : Record).exiting = true
  rw [if_pos h]

theorem exiting_of_after {g : Record} {c : SysCall} {answer : c.Answer} (h : (protocol.after g c answer).exiting = false) :
    g.exiting = false := by
  cases c with
  | fork =>
    cases answer with
    | error errno => exact h
    | ok pid =>
      change (if 0 < pid then { g with exiting := true } else { g with sessionLeader := false } : Record).exiting = false at h
      split at h
      · cases h
      · exact h
  | setsid => cases answer <;> exact h
  | chdir path => cases answer <;> exact h
  | exit status => exact h
  | signal signal => exact h
  | umask mask => exact h
  | sysconfOpenMax => exact h
  | close fd => exact h
  | openlog ident => exact h

/-- What a daemon is. -/
structure Record.IsDaemon (g : Record) : Prop where
  sessionLeader : g.sessionLeader = false
  ignored : ∀ signal, signal ∈ g.ignored
  mask : g.mask = some 0
  directory : g.directory = some "/"
  inheritedFds : ∃ openMax, g.openMax = some openMax ∧ ∀ fd ∈ g.inheritedFds, openMax < fd

/-- Whoever returns is a daemon; an exception leaves no parent behind either. -/
def ReturnsDaemon (g : Record) (result : Except Exception Unit) : Prop :=
  g.exiting = false ∧ (result = .ok () → g.IsDaemon)

variable {strerror}

theorem follows_forkOff {g : Record} (h : g.exiting = false) : Follows protocol
    (fun g' result => g' = g ∧ (∃ e, result = .error e) ∨ g' = { g with sessionLeader := false } ∧ result = .ok ())
    (forkOff strerror) g := by
  refine ⟨h, fun answer => ?_⟩
  match answer with
  | .error errno => exact .inl ⟨rfl, _, rfl⟩
  | .ok 0 => exact .inr ⟨rfl, rfl⟩
  | .ok (pid + 1) => exact ⟨⟨rfl, rfl⟩, nofun⟩

theorem follows_closeFrom (n : ℕ) {g : Record} (h : g.exiting = false) : Follows protocol
    (fun g' result => g' = { g with inheritedFds := g.inheritedFds.filter (n < ·) } ∧ result = .ok ())
    (closeFrom n) g := by
  induction n generalizing g with
  | zero =>
    refine ⟨h, fun _ => ⟨?_, rfl⟩⟩
    show { g with inheritedFds := g.inheritedFds.filter (· ≠ 0) } = _
    simp only [Nat.pos_iff_ne_zero]
  | succ n ih =>
    refine ⟨h, fun _ => ?_⟩
    let closed : Record := { g with inheritedFds := g.inheritedFds.filter (· ≠ n + 1) }
    refine (show Follows protocol _ (closeFrom n) closed from ih h).mono ?_
    rintro g' result ⟨rfl, rfl⟩
    refine ⟨?_, rfl⟩
    have hboth (fd : ℕ) : (n < fd ∧ fd ≠ n + 1) ↔ n + 1 < fd := by omega
    simp only [closed, List.filter_filter, ← Bool.decide_and, hboth]

/-- Nothing up to `openMax` is left open. -/
theorem follows_closeAll (openMax : ℤ) {g : Record} (h : g.exiting = false) : Follows protocol
    (fun g' result => (∃ fds, g' = { g with inheritedFds := fds } ∧ ∀ fd ∈ fds, openMax < fd) ∧ result = .ok ())
    (closeAll openMax) g := by
  unfold closeAll
  split
  · next hneg => exact ⟨⟨g.inheritedFds, rfl, fun fd _ => lt_of_lt_of_le hneg (Int.natCast_nonneg fd)⟩, rfl⟩
  · next hneg =>
    refine (follows_closeFrom openMax.toNat h).mono ?_
    rintro g' result ⟨rfl, rfl⟩
    refine ⟨⟨_, rfl, fun fd hfd => ?_⟩, rfl⟩
    have hlt : openMax.toNat < fd := by simpa using (List.mem_filter.mp hfd).2
    omega

theorem follows_becomeDaemon {g : Record} (h : g.exiting = false) :
    Follows protocol ReturnsDaemon (becomeDaemon strerror) g := by
  unfold becomeDaemon
  rw [follows_bind]
  refine (follows_forkOff h).mono ?_
  rintro g result (⟨rfl, e, rfl⟩ | ⟨rfl, rfl⟩)
  · exact ⟨h, nofun⟩
  refine ⟨h, fun answer => ?_⟩
  match answer with
  | .error errno => exact ⟨h, nofun⟩
  | .ok () =>
    refine ⟨h, fun _ => ⟨h, fun _ => ?_⟩⟩
    let leader : Record := { g with sessionLeader := true, ignored := .hup :: .chld :: g.ignored }
    refine (follows_bind (forkOff strerror) _ leader).mpr ((follows_forkOff (g := leader) h).mono ?_)
    rintro g' result (⟨rfl, e, rfl⟩ | ⟨rfl, rfl⟩)
    · exact ⟨h, nofun⟩
    refine ⟨h, fun _ => ⟨h, fun answer => ?_⟩⟩
    match answer with
    | .error errno => exact ⟨h, nofun⟩
    | .ok () =>
      refine ⟨h, fun openMax => ?_⟩
      let moved : Record := { leader with sessionLeader := false, mask := some 0, directory := some "/", openMax := some openMax }
      refine (follows_bind (closeAll openMax) _ moved).mpr ((follows_closeAll openMax (g := moved) h).mono ?_)
      rintro g' result ⟨⟨fds, rfl, hfds⟩, rfl⟩
      refine ⟨h, fun _ => ⟨h, fun _ => ⟨rfl, ?_, rfl, rfl, openMax, rfl, hfds⟩⟩⟩
      rintro (_ | _)
      · exact List.mem_cons_of_mem _ List.mem_cons_self
      · exact List.mem_cons_self

end EpollChat.Utils.Daemon
