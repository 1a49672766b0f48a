import EpollChat.Processes.Forking
import EpollChat.Net.SocketAddress
import EpollChat.Utils.Daemon
import EpollChat.Utils.OptionsParser
import EpollChat.Utils.SingleInstance

/-! `main` of `chat_server`, from the command line until it serves, run by any number of
processes that fork, signal each other and die at any time. The kernel knows the file
that a process has opened for its lock, whatever the path of it, and who holds a lock
on a file. A lock is not inherited, and goes when a descriptor of its file is closed. -/

namespace EpollChat.Chat.ServerStart

open Cpp Net Processes Utils
open SingleInstance (Pid)

/-- What is called: `serve` is all that `main` does with a `Poller`, and `printError`
writes to `std::cerr`. -/
inductive StartCall where
  | daemon (c : Daemon.SysCall)
  | single (c : SingleInstance.SysCall)
  | serve (options : ServerOptionsParser) (bindAddress : SockAddrIn)
  | syslog (text : String)
  | closelog
  | printError (text : String)

def StartCall.Answer : StartCall → Type
  | .daemon c => c.Answer
  | .single c => c.Answer
  | .serve _ _ => Except Exception Unit
  | .syslog _ => Unit
  | .closelog => Unit
  | .printError _ => Unit

abbrev StartM (α : Type) := Program StartCall StartCall.Answer Exception α

/-! ### The code -/

def ofDaemon (m : Daemon.ProcessM Unit) : StartM Unit := m.relabel StartCall.daemon fun _ answer => answer

def ofSingle (m : SingleInstance.ProcessM Unit) : StartM Unit := m.relabel StartCall.single fun _ answer => answer

/-- By the type of its answer, `serve` throws nothing but an `Exception`, and it writes
nothing to `std::cerr`; a process may also die in it, as anywhere. -/
def serve (options : ServerOptionsParser) (bindAddress : SockAddrIn) : StartM (Except Exception Unit) :=
  Program.request (StartCall.serve options bindAddress)

def syslog (text : String) : StartM Unit := Program.request (StartCall.syslog text)

def closelog : StartM Unit := Program.request StartCall.closelog

def printError (text : String) : StartM Unit := Program.request (StartCall.printError text)

variable (strerror : Errno → String) (inetPton : Bytes → Option UInt32)

/-- The handler of `main`. -/
def report (daemon : Bool) (e : Exception) : StartM ℕ :=
  if daemon then do
    syslog e.what
    closelog
    pure 1
  else do
    printError (e.what ++ "\n")
    pure 1

/-- What `main` does with the options. -/
def startServer (options : ServerOptionsParser) : StartM ℕ :=
  match SocketAddress.make inetPton (bytes "0.0.0.0".toList) options.port with
  | .error e => Program.throw e
  | .ok bindAddress => do
    if options.daemon then ofDaemon (Daemon.becomeDaemon strerror) else pure ()
    ofSingle (SingleInstance.becomeSigleInstance strerror (text options.lockFileDir) options.forceStart)
    match ← serve options bindAddress with
    | .error e => Program.throw e
    | .ok () => pure 0

/-- `main`, on the words after the name of the program. -/
def main (words : List Bytes) : StartM ℕ :=
  match ServerOptionsParser.parse words ServerOptionsParser.init with
  | .error e options => report options.daemon e
  | .ok () options => (startServer strerror inetPton options).catching (report options.daemon)

/-- The options as the handler finds them. -/
def optionsOf (words : List Bytes) : ServerOptionsParser :=
  match ServerOptionsParser.parse words ServerOptionsParser.init with
  | .error _ options => options
  | .ok () options => options

/-! ### The protocol -/

/-- The start that a process comes from, its command line, and what has been done. -/
structure Record where
  family : ℕ
  words : List Bytes
  daemon : Daemon.Record
  single : SingleInstance.Record

/-- It has no lock, and has not looked for one. -/
def Record.IsAlone (g : Record) : Prop := g.single.locked = false ∧ g.single.reports = []

def opens : SingleInstance.SysCall → Prop
  | .openFile _ => True
  | _ => False

/-- A process forks and closes descriptors before it looks for the lock, serves with the
lock and the options of its command line, as a daemon if they say so, and writes to
`std::cerr` as long as it has not closed it. -/
def protocol : Protocol StartCall StartCall.Answer Record where
  allowed g c := match c with
    | .daemon c => Daemon.protocol.allowed g.daemon c ∧ g.IsAlone
    | .single c => g.daemon.exiting = false ∧ SingleInstance.protocol.allowed g.single c ∧ (opens c → g.single.locked = false)
    | .serve options _ => g.daemon.exiting = false ∧ g.single.locked ∧
      ServerOptionsParser.parse g.words ServerOptionsParser.init = .ok () options ∧ (options.daemon → g.daemon.IsDaemon)
    | .printError _ => g.daemon.exiting = false ∧ g.daemon.openMax = none
    | _ => g.daemon.exiting = false
  after g c answer := match c, answer with
    | .daemon c, answer => { g with daemon := Daemon.protocol.after g.daemon c answer }
    | .single c, answer => { g with single := SingleInstance.protocol.after g.single c answer }
    | _, _ => g

/-- No parent returns, and no exception gets out of `main`. -/
def Returns (g : Record) (result : Except Exception ℕ) : Prop := g.daemon.exiting = false ∧ ∃ status, result = .ok status

variable {strerror inetPton}

theorem follows_report {daemon : Bool} {e : Exception} {g : Record} (h : g.daemon.exiting = false)
    (hopen : daemon = false → g.daemon.openMax = none) : Follows protocol Returns (report daemon e) g := by
  cases daemon with
  | true => exact ⟨h, fun _ => ⟨h, fun _ => ⟨h, 1, rfl⟩⟩⟩
  | false => exact ⟨⟨h, hopen rfl⟩, fun _ => ⟨h, 1, rfl⟩⟩

/-! ### The parts -/

theorem follows_ofDaemon {g : Record} (h : g.daemon.exiting = false) (halone : g.IsAlone) : Follows protocol
    (fun g' result => ∃ d, g' = { g with daemon := d } ∧ d.exiting = false ∧ (result = .ok () → d.IsDaemon))
    (ofDaemon (Daemon.becomeDaemon strerror)) g := by
  refine Follows.relabel (g := g.daemon) (fun d => { g with daemon := d }) ?_ ?_ ?_
    (Daemon.follows_becomeDaemon h) (Program.only_of_forall (fun _ => trivial) _)
  · exact fun _ _ hallowed _ => ⟨hallowed, halone⟩
  · exact fun _ _ _ => rfl
  · exact fun d _ hreturns => ⟨d, rfl, hreturns⟩

theorem only_killLockerProcess : (SingleInstance.killLockerProcess strerror).Only fun c => ¬ opens c := by
  refine ⟨id, fun answer => ?_⟩
  match answer with
  | .error errno => trivial
  | .ok none => trivial
  | .ok (some lockPid) =>
    refine ⟨id, fun answer => ?_⟩
    match answer with
    | .ok () => trivial
    | .error errno =>
      show Program.Only _ (if _ then _ else _)
      split <;> trivial

/-- The lock file is opened once. -/
theorem only_attemptLoop (lockFile : String) (forceStart : Bool) (n : ℕ) :
    (SingleInstance.attemptLoop strerror lockFile forceStart n).Only fun c => ¬ opens c := by
  induction n with
  | zero => trivial
  | succ n ih =>
    refine ⟨id, fun locked => ?_⟩
    cases locked with
    | true => trivial
    | false =>
      cases forceStart with
      | false => trivial
      | true => exact only_killLockerProcess.bind fun _ => ⟨id, fun _ => ih⟩

theorem follows_ofSingle {lockFileDir : String} {forceStart : Bool} {g : Record} (h : g.daemon.exiting = false)
    (hstart : g.single = ⟨forceStart, 0, false, [], 0⟩) : Follows protocol
    (fun g' result => ∃ n, g' = { g with single := n } ∧ (result = .ok () → n.locked))
    (ofSingle (SingleInstance.becomeSigleInstance strerror lockFileDir forceStart)) g := by
  have hsingle : Follows SingleInstance.protocol SingleInstance.returnsLocked
      (SingleInstance.becomeSigleInstance strerror lockFileDir forceStart) g.single :=
    hstart ▸ SingleInstance.follows_becomeSigleInstance
  refine ⟨⟨h, hsingle.1, fun _ => hstart ▸ rfl⟩, fun answer => ?_⟩
  have hrest := hsingle.2 answer
  cases answer with
  | error errno => exact ⟨_, rfl, nofun⟩
  | ok u =>
    refine Follows.relabel (fun n => { g with single := n }) ?_ ?_ ?_ hrest (only_attemptLoop _ forceStart _)
    · exact fun n c hallowed hc => ⟨h, hallowed, fun hopens => absurd hopens hc⟩
    · exact fun _ _ _ => rfl
    · rintro n result hlocked
      refine ⟨n, rfl, ?_⟩
      rintro rfl
      exact hlocked

/-- An exception goes to `std::cerr` only where nothing has been closed. -/
theorem follows_startServer {options : ServerOptionsParser} {g : Record} (h : g.daemon.exiting = false)
    (hopen : g.daemon.openMax = none) (hstart : g.single = ⟨options.forceStart, 0, false, [], 0⟩)
    (hparse : ServerOptionsParser.parse g.words ServerOptionsParser.init = .ok () options) :
    Follows protocol (fun g' _ => g'.daemon.exiting = false ∧ (options.daemon = false → g'.daemon.openMax = none))
      (startServer strerror inetPton options) g := by
  -- with the lock, after becoming a daemon or not
  have hsingle {d : Daemon.Record} (bindAddress : SockAddrIn) (hd : d.exiting = false)
      (hdaemon : options.daemon = true → d.IsDaemon) (hd' : options.daemon = false → d.openMax = none) :
      Follows protocol (fun g' _ => g'.daemon.exiting = false ∧ (options.daemon = false → g'.daemon.openMax = none))
        (do
          ofSingle (SingleInstance.becomeSigleInstance strerror (text options.lockFileDir) options.forceStart)
          match ← serve options bindAddress with
          | .error e => Program.throw e
          | .ok () => pure 0) { g with daemon := d } := by
    rw [follows_bind]
    refine (follows_ofSingle (g := { g with daemon := d }) hd hstart).mono ?_
    rintro g' result ⟨n, rfl, hlocked⟩
    cases result with
    | error e => exact ⟨hd, hd'⟩
    | ok u =>
      refine ⟨⟨hd, hlocked rfl, hparse, hdaemon⟩, fun answer => ?_⟩
      match answer with
      | .error e => exact ⟨hd, hd'⟩
      | .ok () => exact ⟨hd, hd'⟩
  unfold startServer
  split
  · exact ⟨h, fun _ => hopen⟩
  · next bindAddress _ =>
    by_cases hoption : options.daemon = true
    · have halone : g.IsAlone := by
        rw [Record.IsAlone, hstart]
        exact ⟨rfl, rfl⟩
      rw [if_pos hoption, follows_bind]
      refine (follows_ofDaemon h halone).mono ?_
      rintro g' result ⟨d, rfl, hd, hdaemon⟩
      have hd' : options.daemon = false → d.openMax = none := fun hfalse => nomatch hoption.symm.trans hfalse
      cases result with
      | error e => exact ⟨hd, hd'⟩
      | ok u => exact hsingle bindAddress hd (fun _ => hdaemon rfl) hd'
    · rw [if_neg hoption]
      exact hsingle bindAddress h (fun htrue => absurd htrue hoption) fun _ => hopen

variable (strerror inetPton) in
theorem follows_main {g : Record} (h : g.daemon.exiting = false) (hopen : g.daemon.openMax = none)
    (hstart : g.single = ⟨(optionsOf g.words).forceStart, 0, false, [], 0⟩) :
    Follows protocol Returns (main strerror inetPton g.words) g := by
  unfold main
  rw [optionsOf] at hstart
  cases hparse : ServerOptionsParser.parse g.words ServerOptionsParser.init with
  | error e options => exact follows_report h fun _ => hopen
  | ok u options =>
    rw [hparse] at hstart
    refine follows_catching.mpr ((follows_startServer h hopen hstart hparse).mono ?_)
    rintro g' result ⟨hexiting, hopen'⟩
    cases result with
    | ok status => exact ⟨hexiting, status, rfl⟩
    | error e => exact follows_report hexiting hopen'

/-! ### The kernel -/

variable {File : Type}

/-- Who holds the lock of a file, and which file a process has opened. -/
structure Locks (File : Type) where
  holder : File → Option Pid
  opened : Pid → Option File

/-- The holder of the lock of the file that the process has opened. -/
def Locks.holderFor (k : Locks File) (p : Pid) : Option Pid := (k.opened p).bind k.holder

section
variable {k k' : Locks File} {p q : Pid} {g : Record}

theorem holderFor_of_opened {file : File} (h : k.opened p = some file) : k.holderFor p = k.holder file := by
  rw [Locks.holderFor, h, Option.bind_some]

theorem exists_opened (h : k.holderFor p = some q) : ∃ file, k.opened p = some file ∧ k.holder file = some q :=
  Option.bind_eq_some_iff.mp h

/-- A process keeps its lock if nobody takes it away. -/
theorem holderFor_of_kept (hopened : k'.opened p = k.opened p)
    (hholder : ∀ file, k.opened p = some file → k.holder file = some p → k'.holder file = some p)
    (h : k.holderFor p = some p) : k'.holderFor p = some p := by
  obtain ⟨file, hfile, hp⟩ := exists_opened h
  rw [holderFor_of_opened (hopened.trans hfile)]
  exact hholder file hfile hp

/-- What the record of a process says of the lock is so in the kernel. -/
def Consistent (k : Locks File) (p : Pid) (g : Record) : Prop := SingleInstance.Consistent (k.holderFor p) p g.single

/-- A process without the lock depends on no holder. -/
theorem consistent_of_not_locked {n : SingleInstance.Record} {holder holder' : Option Pid}
    (h : SingleInstance.Consistent holder p n) (hn : n.locked = false) : SingleInstance.Consistent holder' p n :=
  { h with locked := fun hl => nomatch hn.symm.trans hl }

theorem Consistent.of_kept (h : Consistent k p g) (hopened : k'.opened p = k.opened p)
    (hholder : ∀ file, k.opened p = some file → k.holder file = some p → k'.holder file = some p) :
    Consistent k' p g :=
  { h with locked := fun hl => holderFor_of_kept hopened hholder (h.locked hl) }

end

variable [DecidableEq File]

/-- A call of `Process` on the lock file. The path may name any file. -/
def Locks.AnswersSingle (k : Locks File) (p : Pid) : (c : SingleInstance.SysCall) → c.Answer → Locks File → Prop
  | .openFile _, .ok (), k' => ∃ file, k' = { k with opened := Function.update k.opened p (some file) }
  | .setLock, answer, k' | .getLock, answer, k' => ∃ file, k.opened p = some file ∧ ∃ holder,
      SingleInstance.kernel.answers (k.holder file) p _ answer holder ∧
        k' = { k with holder := Function.update k.holder file holder }
  | _, _, k' => k' = k

/-- A fork that succeeds is no answer to one process. -/
def kernel : Kernel Pid StartCall StartCall.Answer (Locks File) where
  answers k p c answer k' := match c, answer with
    | .daemon .fork, .ok _ => False
    | .daemon (.close _), () =>
      k'.opened = k.opened ∧ ∀ file, k'.holder file = k.holder file ∨ k.holder file = some p ∧ k'.holder file = none
    | .single c, answer => k.AnswersSingle p c answer k'
    | _, _ => k' = k
  exits k p k' := k' = ⟨fun file => if k.holder file = some p then none else k.holder file, Function.update k.opened p none⟩

/-- The child has the descriptors of the parent, and none of its locks. -/
def forking : Fork Pid StartCall StartCall.Answer (Locks File) where
  call := .daemon .fork
  parent child := (Except.ok child : SysResult ℕ)
  child := (Except.ok 0 : SysResult ℕ)
  forks k p child k' := 0 < child ∧ k' = { k with opened := Function.update k.opened child (k.opened p) }

/-! ### The lock -/

section
variable {k k' : Locks File} {p q : Pid} {g : Record}

theorem Consistent.single {c : SingleInstance.SysCall} {answer : c.Answer} (h : Consistent k p g)
    (hc : SingleInstance.protocol.allowed g.single c) (hopens : opens c → g.single.locked = false)
    (hk : k.AnswersSingle p c answer k') :
    SingleInstance.Consistent (k'.holderFor p) p (SingleInstance.protocol.after g.single c answer) := by
  have hlocked (hk : ∃ file, k.opened p = some file ∧ ∃ holder,
      SingleInstance.kernel.answers (k.holder file) p c answer holder ∧
        k' = { k with holder := Function.update k.holder file holder }) :
      SingleInstance.Consistent (k'.holderFor p) p (SingleInstance.protocol.after g.single c answer) := by
    obtain ⟨file, hfile, holder, hanswer, hk'⟩ := hk
    have hfile' : k'.opened p = some file := hk' ▸ hfile
    have hholder : k'.holder file = holder := by
      rw [hk']
      exact Function.update_self ..
    rw [holderFor_of_opened hfile', hholder]
    rw [Consistent, holderFor_of_opened hfile] at h
    exact SingleInstance.Consistent.own h hc hanswer
  cases c with
  | openFile path =>
    have hsame : SingleInstance.Consistent _ p (SingleInstance.protocol.after g.single (.openFile path) answer) :=
      SingleInstance.Consistent.own h hc rfl
    exact consistent_of_not_locked hsame (hopens trivial)
  | setLock => exact hlocked hk
  | getLock => exact hlocked hk
  | kill pid =>
    obtain rfl : k' = k := hk
    exact SingleInstance.Consistent.own h hc rfl
  | sleepFor milliseconds =>
    obtain rfl : k' = k := hk
    exact SingleInstance.Consistent.own h hc rfl

theorem Consistent.own {c : StartCall} {answer : c.Answer} (h : Consistent k p g) (hc : protocol.allowed g c)
    (hk : kernel.answers k p c answer k') : Consistent k' p (protocol.after g c answer) := by
  cases c with
  | daemon c => exact consistent_of_not_locked h hc.2.1
  | single c => exact h.single hc.2.1 hc.2.2 hk
  | serve options bindAddress => exact hk ▸ h
  | syslog text => exact hk ▸ h
  | closelog => exact hk ▸ h
  | printError text => exact hk ▸ h

/-- No call of another process takes the lock away. -/
theorem Consistent.other {c : StartCall} {answer : c.Answer} (h : Consistent k q g) (hne : q ≠ p)
    (hk : kernel.answers k p c answer k') : Consistent k' q g := by
  have hsame (hk : k' = k) : Consistent k' q g := hk ▸ h
  have hlocked {c : SingleInstance.SysCall} {answer : c.Answer} (hk : ∃ file, k.opened p = some file ∧ ∃ holder,
      SingleInstance.kernel.answers (k.holder file) p c answer holder ∧
        k' = { k with holder := Function.update k.holder file holder }) : Consistent k' q g := by
    obtain ⟨file, -, holder, hanswer, rfl⟩ := hk
    refine h.of_kept rfl fun file' _ hq => ?_
    by_cases hfile : file' = file
    · subst hfile
      exact (Function.update_self ..).trans (SingleInstance.holder_of_answers hanswer hne hq)
    · exact (Function.update_of_ne hfile ..).trans hq
  cases c with
  | daemon c =>
    cases c with
    | fork =>
      cases answer with
      | ok pid => exact hk.elim
      | error errno => exact hsame hk
    | close fd =>
      obtain ⟨hopened, hholder⟩ := hk
      refine h.of_kept (congrFun hopened q) fun file _ hq => ?_
      rcases hholder file with heq | ⟨hp, -⟩
      · exact heq.trans hq
      · exact absurd (Option.some.inj (hq.symm.trans hp)) hne
    | exit status => exact hsame hk
    | setsid => exact hsame hk
    | signal signal => exact hsame hk
    | umask mask => exact hsame hk
    | chdir path => exact hsame hk
    | sysconfOpenMax => exact hsame hk
    | openlog ident => exact hsame hk
  | single c =>
    cases c with
    | openFile path =>
      cases answer with
      | error errno => exact hsame hk
      | ok u =>
        obtain ⟨file, rfl⟩ := hk
        exact h.of_kept (Function.update_of_ne hne ..) fun _ _ hq => hq
    | setLock => exact hlocked hk
    | getLock => exact hlocked hk
    | kill pid => exact hsame hk
    | sleepFor milliseconds => exact hsame hk
  | serve options bindAddress => exact hsame hk
  | syslog text => exact hsame hk
  | closelog => exact hsame hk
  | printError text => exact hsame hk

theorem Consistent.exit (h : Consistent k q g) (hne : q ≠ p) (hk : kernel.exits k p k') : Consistent k' q g := by
  obtain rfl := hk
  refine h.of_kept (Function.update_of_ne hne ..) fun file _ hq => ?_
  exact (if_neg fun hp => hne (Option.some.inj (hq.symm.trans hp))).trans hq

end

/-! ### Any number of starts -/

variable (strerror inetPton File) in
/-- A process is started with any words, any descriptors and anything else that it
inherits. No live process comes from the same start. -/
def Starts (s : System Pid StartCall StartCall.Answer Exception ℕ Record (Locks File))
    (r : Running StartCall StartCall.Answer Exception ℕ Record) : Prop :=
  ∃ words family d, d.exiting = false ∧ d.openMax = none ∧
    (∀ q r', s.running q = some r' → r'.record.family ≠ family) ∧
    r = ⟨main strerror inetPton words, ⟨family, words, d, ⟨(optionsOf words).forceStart, 0, false, [], 0⟩⟩⟩

theorem invariant : ForkInvariant kernel protocol forking (Starts strerror inetPton File) Returns Consistent where
  follows := by
    rintro s r ⟨words, family, d, hexiting, hopen, -, rfl⟩
    exact follows_main strerror inetPton (g := ⟨family, words, d, _⟩) hexiting hopen rfl
  start := by
    rintro s r ⟨words, family, d, -, -, -, rfl⟩ k p
    exact ⟨nofun, nofun, Nat.zero_le _, Nat.zero_le _⟩
  own h hc hk := h.own hc hk
  other hne h hk := h.other hne hk
  exit hne h hk := h.exit hne hk
  parent := by
    rintro k p child g k' hne h ⟨-, halone⟩ ⟨-, rfl⟩
    exact consistent_of_not_locked h halone.1
  child := by
    rintro k p child g k' hne h ⟨-, hlocked, hreports⟩ ⟨-, rfl⟩
    have hnone (pid : Pid) (hpid : pid ∈ g.single.reports) : pid ≠ child := by
      rw [hreports] at hpid
      cases hpid
    exact ⟨fun hl => absurd (hlocked.symm.trans hl) Bool.false_ne_true, hnone, h.attempts, h.calls⟩
  bystander := by
    rintro k p child q g k' hqp hqc h ⟨-, rfl⟩
    exact h.of_kept (Function.update_of_ne hqc ..) fun _ _ hq => hq

/-- The start is what a process leaves to its child when it has to exit. -/
def Record.survivor (g : Record) : Option ℕ := if g.daemon.exiting then none else some g.family

theorem survivor_eq_some {g : Record} {family : ℕ} :
    g.survivor = some family ↔ g.daemon.exiting = false ∧ g.family = family := by
  rw [Record.survivor]
  cases g.daemon.exiting <;> simp

theorem unique : Unique kernel protocol forking (Starts strerror inetPton File) Record.survivor where
  start := by
    rintro s r t ⟨words, family, d, hexiting, -, hnew, rfl⟩ ht q ⟨r', hq, hr'⟩
    exact hnew q r' hq ((survivor_eq_some.mp hr').2.trans (survivor_eq_some.mp ht).2.symm)
  after := by
    intro g c answer t ht
    obtain ⟨hexiting, hfamily⟩ := survivor_eq_some.mp ht
    cases c with
    | daemon c => exact survivor_eq_some.mpr ⟨Daemon.exiting_of_after hexiting, hfamily⟩
    | single c => exact ht
    | serve options bindAddress => exact ht
    | syslog text => exact ht
    | closelog => exact ht
    | printError text => exact ht
  fork := by
    rintro k p child g k' ⟨hpos, -⟩
    exact .inl (if_pos (Daemon.exiting_of_parent hpos))

/-! ### Interleavings -/

variable (strerror inetPton File) in
/-- A state of the processes and the locks in some interleaving. -/
def Started (s : System Pid StartCall StartCall.Answer Exception ℕ Record (Locks File)) : Prop :=
  ForkReachable kernel protocol forking (Starts strerror inetPton File) ⟨fun _ => none, fun _ => none⟩ s

/-- The process is about to serve, or serves. -/
def Serves (s : System Pid StartCall StartCall.Answer Exception ℕ Record (Locks File)) (p : Pid)
    (options : ServerOptionsParser) (g : Record) : Prop :=
  ∃ bindAddress next, s.running p = some ⟨.call (.serve options bindAddress) next, g⟩

section
variable {s : System Pid StartCall StartCall.Answer Exception ℕ Record (Locks File)} {p q : Pid}
  {options options' : ServerOptionsParser} {g g' : Record}

/-! ### A daemon -/

theorem Started.start (h : Started strerror inetPton File s) (p : Pid) (words : List Bytes) (family : ℕ)
    (d : Daemon.Record) (hp : s.running p = none) (hexiting : d.exiting = false) (hopen : d.openMax = none)
    (hnew : ∀ q r', s.running q = some r' → r'.record.family ≠ family) :
    Started strerror inetPton File (s.set s.kernel p
      (some ⟨main strerror inetPton words, ⟨family, words, d, ⟨(optionsOf words).forceStart, 0, false, [], 0⟩⟩⟩)) :=
  h.tail (.alone (.start p _ hp ⟨words, family, d, hexiting, hopen, hnew, rfl⟩))

theorem Started.call (h : Started strerror inetPton File s) (p : Pid) {c : StartCall} {next : c.Answer → StartM ℕ}
    {g : Record} (hp : s.running p = some ⟨.call c next, g⟩) (answer : c.Answer) (k : Locks File)
    (hk : kernel.answers s.kernel p c answer k) :
    Started strerror inetPton File (s.set k p (some ⟨next answer, protocol.after g c answer⟩)) :=
  h.tail (.alone (.call p c next g answer k hp hk))

theorem Started.fork (h : Started strerror inetPton File s) (p child : Pid)
    {next : (StartCall.daemon .fork).Answer → StartM ℕ} {g : Record}
    (hp : s.running p = some ⟨.call (.daemon .fork) next, g⟩) (hchild : s.running child = none) (hpos : 0 < child) :
    let k : Locks File := { s.kernel with opened := Function.update s.kernel.opened child (s.kernel.opened p) }
    Started strerror inetPton File
      ((s.set k p (some ⟨next (Except.ok child : SysResult ℕ),
          protocol.after g (.daemon .fork) (Except.ok child : SysResult ℕ)⟩)).set k child
        (some ⟨next (Except.ok 0 : SysResult ℕ), protocol.after g (.daemon .fork) (Except.ok 0 : SysResult ℕ)⟩)) :=
  have hk : forking.forks s.kernel p child
    { s.kernel with opened := Function.update s.kernel.opened child (s.kernel.opened p) } := ⟨hpos, rfl⟩
  h.tail (.fork p child next g _ hp hchild hk)

/-- A daemon that is asked for can come to serve, as the third process of its start. -/
theorem exists_serves {words : List Bytes} {bindAddress : SockAddrIn}
    (hparse : ServerOptionsParser.parse words ServerOptionsParser.init = .ok () options)
    (hmake : SocketAddress.make inetPton (bytes "0.0.0.0".toList) options.port = .ok bindAddress)
    (hdaemon : options.daemon = true) (file : File) :
    ∃ s g, Started strerror inetPton File s ∧ Serves s 3 options g := by
  have hmain : main strerror inetPton words = (do
      ofDaemon (Daemon.becomeDaemon strerror)
      ofSingle (SingleInstance.becomeSigleInstance strerror (text options.lockFileDir) options.forceStart)
      match ← serve options bindAddress with
      | .error e => Program.throw e
      | .ok () => pure 0 : StartM ℕ).catching (report options.daemon) := by
    rw [main, hparse]
    dsimp only
    rw [startServer, hmake]
    dsimp only
    rw [if_pos hdaemon]
  have hempty : Started strerror inetPton File ⟨⟨fun _ => none, fun _ => none⟩, fun _ => none⟩ := Relation.ReflTransGen.refl
  have hstarted := hempty.start 1 words 0 ⟨false, true, [], none, none, none, [0, 1, 2]⟩ rfl rfl rfl nofun
  rw [hmain] at hstarted
  have hforked := hstarted.fork 1 2 rfl rfl (by decide)
  have hled := ((hforked.call 2 rfl (Except.ok ()) _ rfl).call 2 rfl () _ rfl).call 2 rfl () _ rfl
  have hdetached := hled.fork 2 3 rfl rfl (by decide)
  have hmoved := ((hdetached.call 3 rfl () _ rfl).call 3 rfl (Except.ok ()) _ rfl).call 3 rfl (-1 : ℤ) _ rfl
  have hopened := (hmoved.call 3 rfl () _ rfl).call 3 rfl (Except.ok ()) _ ⟨file, rfl⟩
  have hlocked := hopened.call 3 rfl true _ ⟨file, rfl, some 3, ⟨.inl rfl, rfl⟩, rfl⟩
  exact ⟨_, _, hlocked, _, _, rfl⟩

/-- The words `-dp 80`. -/
theorem exists_serves_port80 : ∃ s g, Started (fun _ => "") (fun _ => some 0) Unit s ∧
    Serves s 3 ⟨true, false, bytes "/tmp/".toList, bytes "80".toList⟩ g := by
  have hparse : ServerOptionsParser.parse [bytes "-dp".toList, bytes "80".toList] ServerOptionsParser.init =
      .ok () ⟨true, false, bytes "/tmp/".toList, bytes "80".toList⟩ := by
    refine (ServerOptionsParser.parse_ok_iff_accepts (List.cons_ne_nil _ _)).mpr ⟨?_, by decide⟩
    exact ServerOptionsParser.accepts_of_written ⟨[.separate [.daemon] .port (bytes "80".toList)], false, by decide, rfl⟩
  have hmake : SocketAddress.make (fun _ => some 0) (bytes "0.0.0.0".toList) (bytes "80".toList) =
      .ok ⟨pfInet, htons 80, 0⟩ := by decide +kernel
  exact exists_serves hparse hmake rfl ()

/-! ### What holds of the servers -/

theorem Serves.allowed (h : Started strerror inetPton File s) (hp : Serves s p options g) :
    g.single.locked ∧ ServerOptionsParser.parse g.words ServerOptionsParser.init = .ok () options ∧
      (options.daemon → g.daemon.IsDaemon) := by
  obtain ⟨bindAddress, next, hp⟩ := hp
  exact (h.invariant invariant hp).1.1.2

theorem Serves.holder (h : Started strerror inetPton File s) (hp : Serves s p options g) :
    ∃ file, s.kernel.opened p = some file ∧ s.kernel.holder file = some p := by
  obtain ⟨hlocked, -⟩ := hp.allowed h
  obtain ⟨bindAddress, next, hp⟩ := hp
  exact exists_opened ((h.invariant invariant hp).2.locked hlocked)

/-- In every state of every interleaving of starts, with forks, signals and deaths at
any time: a process that serves holds the lock of the file that it has opened, and no
other process serves with the same file. -/
theorem one_server (h : Started strerror inetPton File s) (hp : Serves s p options g) :
    ∃ file, s.kernel.opened p = some file ∧ s.kernel.holder file = some p ∧
      ∀ q options' g', Serves s q options' g' → s.kernel.opened q = some file → q = p := by
  obtain ⟨file, hopened, hholder⟩ := hp.holder h
  refine ⟨file, hopened, hholder, fun q options' g' hq hfile => ?_⟩
  obtain ⟨file', hopened', hholder'⟩ := hq.holder h
  obtain rfl := Option.some.inj (hfile.symm.trans hopened')
  exact Option.some.inj (hholder'.symm.trans hholder)

theorem one_server_port80 : ∃ s file, Started (fun _ => "") (fun _ => some 0) Unit s ∧
    s.kernel.opened 3 = some file ∧ s.kernel.holder file = some 3 := by
  obtain ⟨s, g, h, hp⟩ := exists_serves_port80
  obtain ⟨file, hopened, hholder, -⟩ := one_server h hp
  exact ⟨s, file, h, hopened, hholder⟩

/-- All that is left to do. -/
def Exits (program : StartM ℕ) : Prop := ∃ next, program = .call (.daemon (.exit 0)) next

/-- A parent can do nothing but exit. -/
theorem exits_of_exiting {m : StartM ℕ} (hf : Follows protocol Returns m g) (h : g.daemon.exiting = true) : Exits m := by
  have hnot : g.daemon.exiting ≠ false := fun hfalse => nomatch h.symm.trans hfalse
  cases m with
  | done result => exact absurd hf.1 hnot
  | call c next =>
    obtain ⟨hallowed, -⟩ := hf
    cases c with
    | daemon c =>
      cases c with
      | exit status =>
        obtain ⟨⟨-, rfl⟩, -⟩ := hallowed
        exact ⟨next, rfl⟩
      | fork => exact absurd hallowed.1 hnot
      | setsid => exact absurd hallowed.1 hnot
      | signal signal => exact absurd hallowed.1 hnot
      | umask mask => exact absurd hallowed.1 hnot
      | chdir path => exact absurd hallowed.1 hnot
      | sysconfOpenMax => exact absurd hallowed.1 hnot
      | close fd => exact absurd hallowed.1 hnot
      | openlog ident => exact absurd hallowed.1 hnot
    | single c => exact absurd hallowed.1 hnot
    | serve options bindAddress => exact absurd hallowed.1 hnot
    | syslog text => exact absurd hallowed hnot
    | closelog => exact absurd hallowed hnot
    | printError text => exact absurd hallowed.1 hnot

/-- In every such state: a process serves only with the options of its command line, and
is a daemon if they ask for one; of two live processes that come from one start, one is
about to exit with 0; no exception gets out of `main`; and nothing is written to
`std::cerr` by a process that has closed its descriptors. -/
theorem start_survivor (h : Started strerror inetPton File s) :
    (∀ p options g, Serves s p options g →
      ServerOptionsParser.parse g.words ServerOptionsParser.init = .ok () options ∧
        (options.daemon → g.daemon.IsDaemon)) ∧
    (∀ p q r r', s.running p = some r → s.running q = some r' → r.record.family = r'.record.family → p ≠ q →
      Exits r.program ∨ Exits r'.program) ∧
    (∀ p e g, s.running p ≠ some ⟨.done (.error e), g⟩) ∧
    (∀ p text next g, s.running p = some ⟨.call (.printError text) next, g⟩ → g.daemon.openMax = none) := by
  refine ⟨fun p options g hp => (hp.allowed h).2, fun p q r r' hp hq hfamily hne => ?_, fun p e g hp => ?_,
    fun p text next g hp => (h.invariant invariant hp).1.1.2⟩
  · by_contra hexits
    obtain ⟨hr, hr'⟩ := not_or.mp hexits
    have hstays {x : Pid} {rx : Running StartCall StartCall.Answer Exception ℕ Record} (hx : s.running x = some rx)
        (hrx : ¬ Exits rx.program) : rx.record.survivor = some rx.record.family := by
      refine survivor_eq_some.mpr ⟨?_, rfl⟩
      exact Bool.eq_false_iff.mpr fun hexiting => hrx (exits_of_exiting (h.invariant invariant hx).1 hexiting)
    exact hne (h.unique unique ⟨r, hp, hstays hp hr⟩ ⟨r', hq, hfamily ▸ hstays hq hr'⟩)
  · obtain ⟨-, status, hstatus⟩ := (h.invariant invariant hp).1
    cases hstatus

theorem start_survivor_port80 : ∃ s options g, Started (fun _ => "") (fun _ => some 0) Unit s ∧
    Serves s 3 options g ∧ g.daemon.IsDaemon := by
  obtain ⟨s, g, h, hp⟩ := exists_serves_port80
  exact ⟨s, _, g, h, hp, ((start_survivor h).1 3 _ g hp).2 rfl⟩

end

end EpollChat.Chat.ServerStart
