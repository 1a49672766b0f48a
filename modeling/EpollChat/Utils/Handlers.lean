import EpollChat.Loops.Outcomes
import EpollChat.Utils.Poller
import Mathlib.Data.Stream.Init

/-! The event loop with handlers that may throw, or run on. The poller and the handlers
are those of a `Process`, and `Run` is the whole loop, on what the calls of `epoll_wait`
return one after the other. -/

namespace EpollChat.Utils

open Loops Loops.Computation

/-- The virtual functions of `PollerSubscriber`, as the objects of a process implement
them. An exception of type `κ` may leave a handler. -/
structure Handlers (κ σ ε : Type) where
  poller : σ → Poller
  getFileDescriptor : σ → Address → Option FileDescriptor
  onOut : Address → ε → Computation κ σ Unit
  onIn : Address → ε → Computation κ σ Unit
  onClosed : Address → ε → Computation κ σ Unit
  onError : Address → ε → Computation κ σ Unit

namespace Handlers

variable {κ σ ε : Type} (p : Handlers κ σ ε)

def getSubscriberByFileDescriptor (fd : FileDescriptor) : Computation κ σ (Option Address) :=
  .gets fun w => (p.poller w).subscribers.find? fun subscriber => p.getFileDescriptor w subscriber = some fd

def notifyIf (flag : Bool) (handler : Address → ε → Computation κ σ Unit) (answers : ε) :
    Option Address → Computation κ σ Unit
  | none => pure ()
  | some a => do
    if flag && (← Computation.gets p.poller).subscriberIsExist (some a) then handler a answers else pure ()

def notifySubscriber (ev : EpollEvent ε) : Computation κ σ Unit := do
  let subscriber ← p.getSubscriberByFileDescriptor ev.fd
  p.notifyIf ev.epollOut p.onOut ev.answers subscriber
  p.notifyIf ev.epollIn p.onIn ev.answers subscriber
  p.notifyIf ev.epollHup p.onClosed ev.answers subscriber
  p.notifyIf ev.epollErr p.onError ev.answers subscriber

/-- A round of `Run`. -/
def round (batches : Stream' (List (EpollEvent ε))) : Computation κ σ (Stream' (List (EpollEvent ε)) ⊕ Unit) := do
  batches.head.forM p.notifySubscriber
  return if (← Computation.gets p.poller).isStopped then .inr () else .inl batches.tail

def run (batches : Stream' (List (EpollEvent ε))) : Computation κ σ Unit := Computation.loop p.round batches

/-- What a batch is allowed to do before the loop is stopped, and what is left of it. The
loop runs on if a batch does, or if there is no last one. -/
theorem does_run {batches : Stream' (List (EpollEvent ε))} (inv : ℕ → σ → Prop) {P : σ → Prop} {E : κ → σ → Prop}
    {D : Prop} (hbatch : ∀ n w, inv n w → ((batches.get n).forM p.notifySubscriber).Does w
      (fun _ t => ((p.poller t).isStopped → P t) ∧ ((p.poller t).isStopped = false → inv (n + 1) t)) E D)
    (hforever : (∀ n, ∃ w, inv n w) → D) {w : σ} (h : inv 0 w) : (p.run batches).Does w (fun _ => P) E D := by
  refine Does.loop (fun n rest t => rest = batches.drop n ∧ inv n t) ?_ ?_ ⟨rfl, h⟩
  · rintro n _ t ⟨rfl, hinv⟩
    rw [round, Stream'.head_drop]
    refine (hbatch n t hinv).bind fun _ u hu => Does.gets_bind (.pure ?_)
    cases hstopped : (p.poller u).isStopped with
    | true => exact hu.1 hstopped
    | false => exact ⟨Stream'.tail_drop', hu.2 hstopped⟩
  · intro h
    refine hforever fun n => ?_
    obtain ⟨_, t, -, hinv⟩ := h n
    exact ⟨t, hinv⟩

end Handlers

end EpollChat.Utils
