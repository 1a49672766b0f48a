import EpollChat.Processes.Interleaving
import EpollChat.Utils.Exception

/-! `BecomeSigleInstance` of `utils::Process`, called by any number of processes with
one lock file. The kernel keeps the holder of the lock: a lock is given only when no
other process holds it, and lasts until its process dies; a query reports a holder
other than the caller. A signal may kill at any later time, so a death is a step of
its own. All locks begin at the first byte of the file, so any two conflict. -/

namespace EpollChat.Utils.SingleInstance

open Processes

abbrev Pid := ℕ

/-- `ESRCH`. -/
def esrch : Errno := 3

/-- `fcntl` is called with `F_SETLK` and with `F_GETLK`, `kill` with `SIGKILL`. -/
inductive SysCall where
  | openFile (path : String)
  | setLock
  | getLock
  | kill (pid : Pid)
  | sleepFor (milliseconds : ℕ)

/-- A lock is set or not; a query finds a holder or `F_UNLCK`. -/
def SysCall.Answer : SysCall → Type
  | .openFile _ => SysResult Unit
  | .setLock => Bool
  | .getLock => SysResult (Option Pid)
  | .kill _ => SysResult Unit
  | .sleepFor _ => Unit

abbrev ProcessM (α : Type) := Program SysCall SysCall.Answer Exception α

/-! ### The code -/

def openFile (path : String) : ProcessM (SysResult Unit) := Program.request (SysCall.openFile path)

/-- `Lock`. -/
def lock : ProcessM Bool := Program.request SysCall.setLock

def getLock : ProcessM (SysResult (Option Pid)) := Program.request SysCall.getLock

def kill (pid : Pid) : ProcessM (SysResult Unit) := Program.request (SysCall.kill pid)

def sleepFor (milliseconds : ℕ) : ProcessM Unit := Program.request (SysCall.sleepFor milliseconds)

variable (strerror : Errno → String)

def killLockerProcess : ProcessM Unit := do
  match ← getLock with
  | .error errno => Program.throw ⟨"lock", strerror errno⟩
  | .ok none => pure ()
  | .ok (some lockPid) =>
    match ← kill lockPid with
    | .ok () => pure ()
    | .error errno => if errno ≠ esrch then Program.throw ⟨"kill", strerror errno⟩ else pure ()

/-- The loop, with the number of attempts left. -/
def attemptLoop (lockFile : String) (forceStart : Bool) : ℕ → ProcessM Unit
  | 0 => Program.throw ⟨"lock", "Can't unlock " ++ lockFile⟩
  | attempts + 1 => do
    if ← lock then pure ()
    else if forceStart then
      killLockerProcess strerror
      sleepFor 100
      attemptLoop lockFile forceStart attempts
    else Program.throw ⟨"lock", "Another instance is running"⟩

def maxAttempts : ℕ := 20

def becomeSigleInstance (lockFileDir : String) (forceStart : Bool) : ProcessM Unit := do
  let lockFile := lockFileDir ++ "/chat_server.pid"
  match ← openFile lockFile with
  | .error errno => Program.throw ⟨"open " ++ lockFile, strerror errno⟩
  | .ok () => attemptLoop strerror lockFile forceStart maxAttempts

/-! ### The kernel -/

/-- The state is the holder of the lock. -/
def kernel : Kernel Pid SysCall SysCall.Answer (Option Pid) where
  answers holder p c answer holder' :=
    match c, answer with
    | .setLock, true => (holder = none ∨ holder = some p) ∧ holder' = some p
    | .getLock, .ok (some pid) => holder = some pid ∧ pid ≠ p ∧ holder' = holder
    | _, _ => holder' = holder
  exits holder p holder' := holder' = if holder = some p then none else holder

/-! ### The protocol -/

/-- What a process has done: how it was started, its attempts to lock, whether it has
the lock, which holders were reported to it, and all its calls. -/
structure Record where
  forceStart : Bool
  attempts : ℕ
  locked : Bool
  reports : List Pid
  calls : ℕ

/-- The file is opened, and an attempt takes four calls. -/
def maxCalls : ℕ := 1 + 4 * maxAttempts

def protocol : Protocol SysCall SysCall.Answer Record where
  allowed g c := g.calls < maxCalls ∧
    match c with
    | .setLock => g.attempts < maxAttempts
    | .kill pid => g.forceStart ∧ pid ∈ g.reports
    | _ => True
  after g c answer :=
    let g := { g with calls := g.calls + 1 }
    match c, answer with
    | .setLock, locked => { g with attempts := g.attempts + 1, locked := g.locked || locked }
    | .getLock, .ok (some pid) => { g with reports := pid :: g.reports }
    | _, _ => g

/-- A normal return comes with the lock. -/
def returnsLocked (g : Record) : Except Exception Unit → Prop
  | .ok () => g.locked
  | .error _ => True

variable {strerror} {lockFileDir lockFile : String} {forceStart : Bool} {α : Type}

/-! ### What each call needs and records -/

theorem follows_openFile {post : Record → Except Exception (SysResult Unit) → Prop} {path : String} {g : Record} :
    Follows protocol post (openFile path) g ↔
      (g.calls < maxCalls ∧ True) ∧ ∀ answer, post { g with calls := g.calls + 1 } (.ok answer) := follows_request g

theorem follows_lock {post : Record → Except Exception Bool → Prop} {g : Record} :
    Follows protocol post lock g ↔ (g.calls < maxCalls ∧ g.attempts < maxAttempts) ∧ ∀ locked, post
      { g with calls := g.calls + 1, attempts := g.attempts + 1, locked := g.locked || locked } (.ok locked) :=
  follows_request g

theorem follows_sleepFor {post : Record → Except Exception Unit → Prop} {milliseconds : ℕ} {g : Record} :
    Follows protocol post (sleepFor milliseconds) g ↔
      (g.calls < maxCalls ∧ True) ∧ ∀ answer, post { g with calls := g.calls + 1 } (.ok answer) := follows_request g

/-- After `killLockerProcess` there are two calls more. -/
def Killed (g : Record) (g' : Record) (result : Except Exception Unit) : Prop :=
  result = .ok () → g'.forceStart = g.forceStart ∧ g'.attempts = g.attempts ∧ g'.calls ≤ g.calls + 2

theorem follows_killLockerProcess {g : Record} (hforce : g.forceStart) (hcalls : g.calls + 2 ≤ maxCalls) :
    Follows protocol (Killed g) (killLockerProcess strerror) g := by
  unfold killLockerProcess
  rw [follows_bind]
  refine ⟨⟨by omega, trivial⟩, fun answer => ?_⟩
  match answer with
  | .error errno => exact nofun
  | .ok none => exact fun _ => ⟨rfl, rfl, Nat.le_succ _⟩
  | .ok (some lockPid) =>
    -- the only signal, to the holder just reported
    show Follows protocol (Killed g) (_ >>= _) { g with calls := g.calls + 1, reports := lockPid :: g.reports }
    rw [follows_bind]
    refine ⟨⟨by dsimp only; omega, hforce, List.mem_cons_self⟩, fun answer => ?_⟩
    match answer with
    | .ok () => exact fun _ => ⟨rfl, rfl, Nat.le_refl _⟩
    | .error errno =>
      show Follows protocol (Killed g) (if _ then _ else _) _
      split
      · exact nofun
      · exact fun _ => ⟨rfl, rfl, Nat.le_refl _⟩

/-- Each attempt takes at most four calls, and only a forced one goes on. -/
theorem follows_attemptLoop (n : ℕ) {g : Record} (hforce : g.forceStart = forceStart)
    (hattempts : g.attempts + n = maxAttempts) (hcalls : g.calls + 4 * n ≤ maxCalls) :
    Follows protocol returnsLocked (attemptLoop strerror lockFile forceStart n) g := by
  induction n generalizing g with
  | zero => trivial
  | succ n ih =>
    rw [attemptLoop, follows_bind, follows_lock]
    refine ⟨⟨by omega, by omega⟩, fun locked => ?_⟩
    cases locked with
    | true => exact Bool.or_true _
    | false =>
      cases forceStart with
      | false => trivial
      | true =>
        show Follows protocol returnsLocked (_ >>= _) _
        rw [follows_bind]
        let tried : Record := { g with calls := g.calls + 1, attempts := g.attempts + 1, locked := g.locked || false }
        have hroom : tried.calls + 2 ≤ maxCalls := show g.calls + 1 + 2 ≤ maxCalls by omega
        refine Follows.mono (show Follows protocol (Killed tried) _ tried from follows_killLockerProcess hforce hroom) fun g' result hkilled => ?_
        cases result with
        | error e => trivial
        | ok u =>
          obtain ⟨hforce', hattempts', hcalls'⟩ := hkilled rfl
          dsimp only [tried] at hforce' hattempts' hcalls'
          show Follows protocol returnsLocked (_ >>= _) _
          rw [follows_bind, follows_sleepFor]
          refine ⟨⟨by omega, trivial⟩, fun answer => ih ?_ ?_ ?_⟩
          · exact hforce'.trans hforce
          · dsimp only
            omega
          · dsimp only
            omega

theorem follows_becomeSigleInstance :
    Follows protocol returnsLocked (becomeSigleInstance strerror lockFileDir forceStart)
      ⟨forceStart, 0, false, [], 0⟩ := by
  unfold becomeSigleInstance
  rw [follows_bind, follows_openFile]
  have hcalls : 0 < maxCalls := by decide
  refine ⟨⟨hcalls, trivial⟩, fun answer => ?_⟩
  cases answer with
  | error errno => trivial
  | ok u => exact follows_attemptLoop maxAttempts rfl (Nat.zero_add _) (Nat.le_refl _)

/-! ### Any number of processes -/

variable (strerror lockFileDir) in
/-- Processes start with a call of `becomeSigleInstance`, forced or not. -/
def Starts (r : Running SysCall SysCall.Answer Exception Unit Record) : Prop :=
  ∃ forceStart, r = ⟨becomeSigleInstance strerror lockFileDir forceStart, ⟨forceStart, 0, false, [], 0⟩⟩

abbrev Instances := System Pid SysCall SysCall.Answer Exception Unit Record (Option Pid)

variable (strerror lockFileDir) in
/-- A state of the processes and the lock in some interleaving. -/
def Interleaved (s : Instances) : Prop := Reachable kernel protocol (Starts strerror lockFileDir) none s

theorem Interleaved.start {s : Instances} (h : Interleaved strerror lockFileDir s) (p : Pid) (forceStart : Bool)
    (hp : s.running p = none) : Interleaved strerror lockFileDir (s.set s.kernel p
      (some ⟨becomeSigleInstance strerror lockFileDir forceStart, ⟨forceStart, 0, false, [], 0⟩⟩)) :=
  h.tail (.start p _ hp ⟨forceStart, rfl⟩)

theorem Interleaved.call {s : Instances} (h : Interleaved strerror lockFileDir s) (p : Pid) {c : SysCall}
    {next : SysCall.Answer c → ProcessM Unit} {g : Record} (hp : s.running p = some ⟨.call c next, g⟩)
    (answer : SysCall.Answer c) (holder : Option Pid) (hk : kernel.answers s.kernel p c answer holder) :
    Interleaved strerror lockFileDir (s.set holder p (some ⟨next answer, protocol.after g c answer⟩)) :=
  h.tail (.call p c next g answer holder hp hk)

/-- The process is alive, and `becomeSigleInstance` has returned normally. -/
def Returned (s : Instances) (p : Pid) : Prop := ∃ g, s.running p = some ⟨.done (.ok ()), g⟩

/-- It has been left by an exception. -/
def Threw (s : Instances) (p : Pid) : Prop := ∃ e g, s.running p = some ⟨.done (.error e), g⟩

/-- What a process's record says of the lock, and its bounds. -/
structure Consistent (holder : Option Pid) (p : Pid) (g : Record) : Prop where
  locked : g.locked → holder = some p
  reports : ∀ pid ∈ g.reports, pid ≠ p
  attempts : g.attempts ≤ maxAttempts
  calls : g.calls ≤ maxCalls

/-- No call of another process takes the lock away. -/
theorem holder_of_answers {holder holder' : Option Pid} {p q : Pid} {c : SysCall} {answer : SysCall.Answer c}
    (hk : kernel.answers holder p c answer holder') (hq : q ≠ p) (hholder : holder = some q) : holder' = some q := by
  subst hholder
  cases c with
  | openFile path => exact hk
  | kill pid => exact hk
  | sleepFor milliseconds => exact hk
  | setLock =>
    cases answer with
    | false => exact hk
    | true =>
      rcases hk.1 with h | h
      · cases h
      · exact absurd (Option.some.inj h) hq
  | getLock =>
    match answer, hk with
    | .error errno, hk => exact hk
    | .ok none, hk => exact hk
    | .ok (some pid), hk => exact hk.2.2

theorem holder_of_exits {holder holder' : Option Pid} {p q : Pid} (hk : kernel.exits holder p holder') (hq : q ≠ p)
    (hholder : holder = some q) : holder' = some q := by
  subst hholder
  exact hk.trans (if_neg fun h => hq (Option.some.inj h))

/-- What a call, with its answer, does to the record of its process. -/
theorem Consistent.own {holder holder' : Option Pid} {p : Pid} {g : Record} {c : SysCall} {answer : SysCall.Answer c}
    (h : Consistent holder p g) (hc : protocol.allowed g c) (hk : kernel.answers holder p c answer holder') :
    Consistent holder' p (protocol.after g c answer) := by
  obtain ⟨hcalls, hc⟩ := hc
  have hsame : Consistent holder p { g with calls := g.calls + 1 } := { h with calls := hcalls }
  cases c with
  | openFile path => exact hk ▸ hsame
  | kill pid => exact hk ▸ hsame
  | sleepFor milliseconds => exact hk ▸ hsame
  | setLock =>
    cases answer with
    | true => exact ⟨fun _ => hk.2, h.reports, hc, hcalls⟩
    | false =>
      obtain rfl : holder' = holder := hk
      exact ⟨fun hl => h.locked ((Bool.or_false _).symm.trans hl), h.reports, hc, hcalls⟩
  | getLock =>
    match answer, hk with
    | .error errno, hk => exact hk ▸ hsame
    | .ok none, hk => exact hk ▸ hsame
    | .ok (some pid), hk =>
      obtain ⟨hpid, hne, rfl⟩ := hk
      exact { hsame with reports := List.forall_mem_cons.mpr ⟨hne, h.reports⟩ }

theorem follows_of_starts {r : Running SysCall SysCall.Answer Exception Unit Record}
    (h : Starts strerror lockFileDir r) : Follows protocol returnsLocked r.program r.record := by
  obtain ⟨forceStart, rfl⟩ := h
  exact follows_becomeSigleInstance

theorem Interleaved.follows {s : Instances} {p : Pid} {r : Running SysCall SysCall.Answer Exception Unit Record}
    (h : Interleaved strerror lockFileDir s) (hp : s.running p = some r) :
    Follows protocol returnsLocked r.program r.record :=
  Reachable.follows (fun _ => follows_of_starts) h hp

theorem Interleaved.consistent {s : Instances} {p : Pid} {r : Running SysCall SysCall.Answer Exception Unit Record}
    (h : Interleaved strerror lockFileDir s) (hp : s.running p = some r) : Consistent s.kernel p r.record := by
  refine Reachable.record_invariant (fun _ => follows_of_starts) Consistent ?_ ?_ ?_ ?_ h hp
  · rintro holder p r ⟨forceStart, rfl⟩
    exact ⟨nofun, nofun, Nat.zero_le _, Nat.zero_le _⟩
  · exact fun holder p g c answer holder' hg hc hk => hg.own hc hk
  · exact fun holder p q g c answer holder' hq hg hk =>
      { hg with locked := fun hl => holder_of_answers hk hq (hg.locked hl) }
  · exact fun holder p q g holder' hq hg hk => { hg with locked := fun hl => holder_of_exits hk hq (hg.locked hl) }

/-- The process that has returned holds the lock. -/
theorem Interleaved.holder_of_returned {s : Instances} {p : Pid} (h : Interleaved strerror lockFileDir s)
    (hp : Returned s p) : s.kernel = some p := by
  obtain ⟨g, hp⟩ := hp
  exact (h.consistent hp).locked (h.follows hp)

theorem calls_after (g : Record) (c : SysCall) (answer : SysCall.Answer c) :
    (protocol.after g c answer).calls = g.calls + 1 := by
  cases c with
  | openFile path => rfl
  | setLock => rfl
  | kill pid => rfl
  | sleepFor milliseconds => rfl
  | getLock =>
    match answer with
    | .error errno => rfl
    | .ok none => rfl
    | .ok (some pid) => rfl

theorem exists_answer (holder : Option Pid) (p : Pid) (c : SysCall) :
    ∃ answer holder', kernel.answers holder p c answer holder' := by
  cases c with
  | openFile path => exact ⟨.ok (), holder, rfl⟩
  | setLock => exact ⟨false, holder, rfl⟩
  | getLock => exact ⟨.ok none, holder, rfl⟩
  | kill pid => exact ⟨.ok (), holder, rfl⟩
  | sleepFor milliseconds => exact ⟨(), holder, rfl⟩

/-- In every state of every interleaving, with starts and deaths at any time: at most
one live process has returned normally, and it holds the lock; a process is about to
signal only if it is forced, and only a process that was reported to it as the holder,
not itself; and every process has made at most twenty attempts and at most 81 calls,
and either has returned, or has been left by an exception, or can make another call. -/
theorem single_instance {s : Instances} (h : Interleaved strerror lockFileDir s) :
    (∀ p, Returned s p → s.kernel = some p) ∧
    (∀ p q, Returned s p → Returned s q → p = q) ∧
    (∀ p g pid next, s.running p = some ⟨.call (.kill pid) next, g⟩ →
      g.forceStart = true ∧ pid ∈ g.reports ∧ pid ≠ p) ∧
    (∀ p r, s.running p = some r → r.record.attempts ≤ 20 ∧ r.record.calls ≤ 81 ∧
      (Returned s p ∨ Threw s p ∨ ∃ c next answer holder, r.program = .call c next ∧
        (protocol.after r.record c answer).calls = r.record.calls + 1 ∧
        Step kernel protocol (Starts strerror lockFileDir) s
          (s.set holder p (some ⟨next answer, protocol.after r.record c answer⟩)))) := by
  refine ⟨fun p => h.holder_of_returned, fun p q hp hq => ?_, fun p g pid next hp => ?_, fun p r hp => ?_⟩
  · exact Option.some.inj ((h.holder_of_returned hp).symm.trans (h.holder_of_returned hq))
  · obtain ⟨⟨-, hforce, hreported⟩, -⟩ := h.follows hp
    exact ⟨hforce, hreported, (h.consistent hp).reports pid hreported⟩
  · have hconsistent := h.consistent hp
    refine ⟨hconsistent.attempts, hconsistent.calls, ?_⟩
    obtain ⟨program, g⟩ := r
    match program with
    | .done (.ok ()) => exact .inl ⟨g, hp⟩
    | .done (.error e) => exact .inr (.inl ⟨e, g, hp⟩)
    | .call c next =>
      obtain ⟨answer, holder, hk⟩ := exists_answer s.kernel p c
      exact .inr (.inr ⟨c, next, answer, holder, rfl, calls_after g c answer, .call p c next g answer holder hp hk⟩)

/-- One process has the lock, and a forced one is about to signal it. -/
theorem single_instance_forced :
    ∃ s : Instances, Interleaved (fun _ => "") "/run" s ∧ Returned s 7 ∧ (∀ q, Returned s q → 7 = q) ∧
      ∃ g next, s.running 9 = some ⟨.call (.kill 7) next, g⟩ ∧ g.forceStart = true ∧ 7 ∈ g.reports ∧ 7 ≠ 9 := by
  have hempty : Interleaved (fun _ => "") "/run" ⟨none, fun _ => none⟩ := Relation.ReflTransGen.refl
  have hopened := (hempty.start 7 false rfl).call 7 rfl (Except.ok ()) none rfl
  have hlocked := hopened.call 7 rfl true (some 7) ⟨.inl rfl, rfl⟩
  have hrefused := ((hlocked.start 9 true rfl).call 9 rfl (Except.ok ()) (some 7) rfl).call 9 rfl false (some 7) rfl
  have hreported := hrefused.call 9 rfl (Except.ok (some 7)) (some 7) ⟨rfl, by decide, rfl⟩
  obtain ⟨-, hunique, hsignals, -⟩ := single_instance hreported
  exact ⟨_, hreported, ⟨_, rfl⟩, fun q => hunique 7 q ⟨_, rfl⟩, _, _, rfl, hsignals 9 _ 7 _ rfl⟩

end EpollChat.Utils.SingleInstance
