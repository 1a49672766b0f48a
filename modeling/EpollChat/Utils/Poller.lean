import Mathlib.Data.List.Sort
import Mathlib.Data.Nat.Notation

/-! `utils::Poller`, the event loop of both programs. It knows its subscribers by
their addresses only, so the objects behind them are left to the process: what
descriptor the object at an address has, and what its handlers do. The process
state is any type; the answers of the system calls that a handler makes come with
the event. -/

namespace EpollChat.Utils

abbrev FileDescriptor := ℕ

/-- A `PollerSubscriber*`. -/
abbrev Address := ℕ

/-- `subscribers_`, a `std::set` in the order of the addresses, and `is_stopped_`. -/
structure Poller where
  subscribers : List Address
  isStopped : Bool

namespace Poller

def insert (p : Poller) (subscriber : Address) : Poller :=
  if subscriber ∈ p.subscribers then p
  else { p with subscribers := p.subscribers.orderedInsert (· ≤ ·) subscriber }

def erase (p : Poller) (subscriber : Address) : Poller :=
  { p with subscribers := p.subscribers.erase subscriber }

def stop (p : Poller) : Poller := { p with isStopped := true }

def subscriberIsExist (p : Poller) : Option Address → Bool
  | none => false
  | some subscriber => subscriber ∈ p.subscribers

@[simp] theorem mem_insert {p : Poller} {a b : Address} :
    b ∈ (p.insert a).subscribers ↔ b = a ∨ b ∈ p.subscribers := by
  unfold insert
  split
  · next h => exact ⟨.inr, fun hb => hb.elim (fun e => e ▸ h) id⟩
  · exact List.mem_orderedInsert _

@[simp] theorem isStopped_insert (p : Poller) (a : Address) : (p.insert a).isStopped = p.isStopped := by
  unfold insert
  split <;> rfl

theorem nodup_insert {p : Poller} (h : p.subscribers.Nodup) (a : Address) : (p.insert a).subscribers.Nodup := by
  unfold insert
  split
  · exact h
  · next ha => exact (List.perm_orderedInsert _ a _).nodup_iff.mpr (List.nodup_cons.mpr ⟨ha, h⟩)

theorem mem_erase {p : Poller} (h : p.subscribers.Nodup) {a b : Address} :
    b ∈ (p.erase a).subscribers ↔ b ≠ a ∧ b ∈ p.subscribers := h.mem_erase_iff

theorem nodup_erase {p : Poller} (h : p.subscribers.Nodup) (a : Address) : (p.erase a).subscribers.Nodup :=
  h.erase a

/-- A subscriber that comes and goes leaves no trace. -/
theorem erase_insert {p : Poller} {a : Address} (h : a ∉ p.subscribers) : (p.insert a).erase a = p := by
  rw [insert, if_neg h, erase]
  dsimp only
  rw [List.erase_orderedInsert_of_notMem h]

end Poller

/-- An `epoll_event`, and the answers to the system calls made in handling it. -/
structure EpollEvent (ε : Type) where
  fd : FileDescriptor
  epollOut : Bool
  epollIn : Bool
  epollHup : Bool
  epollErr : Bool
  answers : ε

/-- The virtual functions of `PollerSubscriber`, as the objects of a process
implement them. -/
structure Process (ω ε : Type) where
  poller : ω → Poller
  getFileDescriptor : ω → Address → Option FileDescriptor
  onOut : Address → ε → ω → ω
  onIn : Address → ε → ω → ω
  onClosed : Address → ε → ω → ω
  onError : Address → ε → ω → ω

namespace Process

variable {ω ε : Type} (p : Process ω ε)

def getSubscriberByFileDescriptor (w : ω) (fd : FileDescriptor) : Option Address :=
  (p.poller w).subscribers.find? fun subscriber => p.getFileDescriptor w subscriber = some fd

/-- One `if` of `NotifySubscriber`: the flag is set and the subscriber still there. -/
def notifyIf (flag : Bool) (handler : Address → ε → ω → ω) (subscriber : Option Address) (answers : ε) (w : ω) : ω :=
  match subscriber with
  | none => w
  | some a => if flag && (p.poller w).subscriberIsExist (some a) then handler a answers w else w

def notifySubscriber (ev : EpollEvent ε) (w : ω) : ω :=
  let subscriber := p.getSubscriberByFileDescriptor w ev.fd
  let w := p.notifyIf ev.epollOut p.onOut subscriber ev.answers w
  let w := p.notifyIf ev.epollIn p.onIn subscriber ev.answers w
  let w := p.notifyIf ev.epollHup p.onClosed subscriber ev.answers w
  p.notifyIf ev.epollErr p.onError subscriber ev.answers w

/-- The events of one `epoll_wait`, in order. -/
def notifyAll (batch : List (EpollEvent ε)) (w : ω) : ω := batch.foldl (fun w ev => p.notifySubscriber ev w) w

/-- `Run`, as far as the batches go: whether to stop is looked at after a whole batch. -/
def run : List (List (EpollEvent ε)) → ω → ω
  | [], w => w
  | batch :: batches, w =>
    let w := p.notifyAll batch w
    if (p.poller w).isStopped then w else run batches w

/-! ### Looking up and notifying -/

/-- The subscriber found has the descriptor. -/
theorem getSubscriber_spec {w : ω} {fd : FileDescriptor} {a : Address}
    (h : p.getSubscriberByFileDescriptor w fd = some a) :
    a ∈ (p.poller w).subscribers ∧ p.getFileDescriptor w a = some fd :=
  ⟨List.mem_of_find?_eq_some h, by simpa using List.find?_some h⟩

/-- The only subscriber with the descriptor is found. -/
theorem getSubscriber_eq_some {w : ω} {fd : FileDescriptor} {a : Address} (ha : a ∈ (p.poller w).subscribers)
    (hfd : p.getFileDescriptor w a = some fd)
    (honly : ∀ b ∈ (p.poller w).subscribers, p.getFileDescriptor w b = some fd → b = a) :
    p.getSubscriberByFileDescriptor w fd = some a := by
  cases h : p.getSubscriberByFileDescriptor w fd with
  | none =>
    rw [getSubscriberByFileDescriptor, List.find?_eq_none] at h
    exact absurd (decide_eq_true hfd) (h a ha)
  | some b =>
    obtain ⟨hb, hbfd⟩ := p.getSubscriber_spec h
    rw [honly b hb hbfd]

theorem getSubscriber_eq_none {w : ω} {fd : FileDescriptor}
    (h : ∀ b ∈ (p.poller w).subscribers, p.getFileDescriptor w b ≠ some fd) :
    p.getSubscriberByFileDescriptor w fd = none := by
  rw [getSubscriberByFileDescriptor, List.find?_eq_none]
  exact fun b hb => by simpa using h b hb

@[simp] theorem notifyIf_none (flag : Bool) (handler : Address → ε → ω → ω) (answers : ε) (w : ω) :
    p.notifyIf flag handler none answers w = w := rfl

theorem notifyIf_some (flag : Bool) (handler : Address → ε → ω → ω) (a : Address) (answers : ε) (w : ω) :
    p.notifyIf flag handler (some a) answers w =
      if flag ∧ a ∈ (p.poller w).subscribers then handler a answers w else w := by
  simp [notifyIf, Poller.subscriberIsExist]

/-- A subscriber that is gone is not notified. -/
theorem notifyIf_gone {w : ω} {a : Address} (h : a ∉ (p.poller w).subscribers) (flag : Bool)
    (handler : Address → ε → ω → ω) (answers : ε) : p.notifyIf flag handler (some a) answers w = w := by
  rw [notifyIf_some, if_neg fun hf => h hf.2]

/-- A handler that does nothing may be called or not. -/
theorem notifyIf_id {w : ω} {a : Address} {handler : Address → ε → ω → ω} {answers : ε}
    (h : handler a answers w = w) (flag : Bool) : p.notifyIf flag handler (some a) answers w = w := by
  rw [notifyIf_some, h, ite_self]

theorem notifySubscriber_of_none {ev : EpollEvent ε} {w : ω}
    (h : p.getSubscriberByFileDescriptor w ev.fd = none) : p.notifySubscriber ev w = w := by
  simp [notifySubscriber, h]

theorem notifyAll_cons (ev : EpollEvent ε) (batch : List (EpollEvent ε)) (w : ω) :
    p.notifyAll (ev :: batch) w = p.notifyAll batch (p.notifySubscriber ev w) := rfl

/-- One batch more, as long as the loop is not stopped. -/
theorem run_concat_of_running {batches : List (List (EpollEvent ε))} {w : ω}
    (h : (p.poller (p.run batches w)).isStopped = false) (batch : List (EpollEvent ε)) :
    p.run (batches ++ [batch]) w = p.notifyAll batch (p.run batches w) := by
  induction batches generalizing w with
  | nil => rw [List.nil_append, run, run, run, ite_self]
  | cons first batches ih =>
    rw [run] at h
    rw [List.cons_append, run, run]
    split at h
    · next hstopped => simp [hstopped] at h
    · next hrunning => rw [if_neg hrunning, if_neg hrunning, ih h]

/-- A loop that has been stopped takes no batch more. -/
theorem run_concat_of_stopped {batches : List (List (EpollEvent ε))} {w : ω} (hw : (p.poller w).isStopped = false)
    (h : (p.poller (p.run batches w)).isStopped = true) (batch : List (EpollEvent ε)) :
    p.run (batches ++ [batch]) w = p.run batches w := by
  induction batches generalizing w with
  | nil => exact absurd (hw.symm.trans h) Bool.false_ne_true
  | cons first batches ih =>
    rw [run] at h
    rw [List.cons_append, run, run]
    split at h
    · next hstopped => rw [if_pos hstopped, if_pos hstopped]
    · next hrunning => rw [if_neg hrunning, if_neg hrunning, ih (by simpa using hrunning) h]

/-! ### Two processes -/

/-- A process `p` whose states are those of `q` with something added: leaving this out
commutes with every handler. -/
structure Projects {ω' : Type} (q : Process ω' ε) (view : ω → ω') : Prop where
  poller : ∀ w, q.poller (view w) = p.poller w
  getFileDescriptor : ∀ w, q.getFileDescriptor (view w) = p.getFileDescriptor w
  onOut : ∀ a answers w, q.onOut a answers (view w) = view (p.onOut a answers w)
  onIn : ∀ a answers w, q.onIn a answers (view w) = view (p.onIn a answers w)
  onClosed : ∀ a answers w, q.onClosed a answers (view w) = view (p.onClosed a answers w)
  onError : ∀ a answers w, q.onError a answers (view w) = view (p.onError a answers w)

namespace Projects

variable {p} {ω' : Type} {q : Process ω' ε} {view : ω → ω'} (h : p.Projects q view)
include h

theorem getSubscriber (w : ω) (fd : FileDescriptor) :
    q.getSubscriberByFileDescriptor (view w) fd = p.getSubscriberByFileDescriptor w fd := by
  rw [getSubscriberByFileDescriptor, getSubscriberByFileDescriptor, h.poller, h.getFileDescriptor]

theorem notifyIf {handler : Address → ε → ω → ω} {handler' : Address → ε → ω' → ω'}
    (hh : ∀ a answers w, handler' a answers (view w) = view (handler a answers w)) (flag : Bool)
    (subscriber : Option Address) (answers : ε) (w : ω) :
    q.notifyIf flag handler' subscriber answers (view w) = view (p.notifyIf flag handler subscriber answers w) := by
  cases subscriber with
  | none => rfl
  | some a =>
    rw [notifyIf_some, notifyIf_some, h.poller, hh]
    split <;> rfl

theorem notifySubscriber (ev : EpollEvent ε) (w : ω) :
    q.notifySubscriber ev (view w) = view (p.notifySubscriber ev w) := by
  simp only [Process.notifySubscriber, h.getSubscriber, h.notifyIf h.onOut, h.notifyIf h.onIn, h.notifyIf h.onClosed,
    h.notifyIf h.onError]

theorem notifyAll (batch : List (EpollEvent ε)) (w : ω) : q.notifyAll batch (view w) = view (p.notifyAll batch w) := by
  induction batch generalizing w with
  | nil => rfl
  | cons ev batch ih => rw [notifyAll_cons, notifyAll_cons, h.notifySubscriber, ih]

theorem run (batches : List (List (EpollEvent ε))) (w : ω) : q.run batches (view w) = view (p.run batches w) := by
  induction batches generalizing w with
  | nil => rfl
  | cons batch batches ih =>
    rw [Process.run, Process.run, h.notifyAll, h.poller, ih]
    split <;> rfl

end Projects

end Process

end EpollChat.Utils
