import Mathlib.Logic.Basic

/-! Exceptions and destructors. A computation on a state may throw, and the state stays
as it was when the exception was thrown. An object under construction is then
destroyed; if its destructor throws as well, the process is terminated. A
computation gives the strong guarantee if nothing has changed when it throws. What
is destroyed is then the same wherever the exception comes from. -/

namespace EpollChat.Exceptions

variable {ε σ α β : Type}

/-! ### Sequencing -/

theorem bind_of_ok {m : EStateM ε σ α} {f : α → EStateM ε σ β} {s t : σ} {a : α} (h : m s = .ok a t) :
    (m >>= f) s = f a t := by
  simp only [bind, EStateM.bind, h]

theorem bind_of_error {m : EStateM ε σ α} {f : α → EStateM ε σ β} {s t : σ} {e : ε} (h : m s = .error e t) :
    (m >>= f) s = .error e t := by
  simp only [bind, EStateM.bind, h]

theorem bind_eq_ok {m : EStateM ε σ α} {f : α → EStateM ε σ β} {s t : σ} {b : β} (h : (m >>= f) s = .ok b t) :
    ∃ a u, m s = .ok a u ∧ f a u = .ok b t := by
  cases hr : m s with
  | ok a u => exact ⟨a, u, rfl, by rwa [bind_of_ok hr] at h⟩
  | error e u =>
    rw [bind_of_error hr] at h
    cases h

/-! ### The strong guarantee -/

/-- Nothing is changed, by a result or by an exception. -/
structure Inert (m : EStateM ε σ α) : Prop where
  ok : ∀ {s a t}, m s = .ok a t → t = s
  error : ∀ {s e t}, m s = .error e t → t = s

/-- If it throws, nothing has changed. -/
structure Strong (m : EStateM ε σ α) : Prop where
  error : ∀ {s e t}, m s = .error e t → t = s

structure NoThrow (m : EStateM ε σ α) : Prop where
  ne_error : ∀ {s e t}, m s ≠ .error e t

theorem Inert.pure (a : α) : Inert (pure a : EStateM ε σ α) := ⟨fun h => by cases h; rfl, fun h => by cases h⟩

theorem Inert.throw (e : ε) : Inert (throw e : EStateM ε σ α) := ⟨fun h => (nomatch h), fun h => by cases h; rfl⟩

theorem Inert.bind {m : EStateM ε σ α} {f : α → EStateM ε σ β} (hm : Inert m) (hf : ∀ a, Inert (f a)) :
    Inert (m >>= f) := by
  constructor
  · intro s b t h
    cases hr : m s with
    | ok a u =>
      rw [bind_of_ok hr] at h
      rw [(hf a).ok h, hm.ok hr]
    | error e u =>
      rw [bind_of_error hr] at h
      cases h
  · intro s e t h
    cases hr : m s with
    | ok a u =>
      rw [bind_of_ok hr] at h
      rw [(hf a).error h, hm.ok hr]
    | error e u =>
      rw [bind_of_error hr] at h
      cases h
      exact hm.error hr

theorem Inert.strong {m : EStateM ε σ α} (h : Inert m) : Strong m := ⟨h.error⟩

theorem NoThrow.strong {m : EStateM ε σ α} (h : NoThrow m) : Strong m := ⟨fun hr => absurd hr h.ne_error⟩

theorem NoThrow.pure (a : α) : NoThrow (pure a : EStateM ε σ α) := ⟨fun h => by cases h⟩

theorem NoThrow.modify (f : σ → σ) : NoThrow (modify f : EStateM ε σ PUnit) := ⟨fun h => by cases h⟩

/-- What comes first may throw as it likes if it changes nothing. -/
theorem Strong.bind_inert {m : EStateM ε σ α} {f : α → EStateM ε σ β} (hm : Inert m) (hf : ∀ a, Strong (f a)) :
    Strong (m >>= f) := by
  refine ⟨fun {s e t} h => ?_⟩
  cases hr : m s with
  | ok a u =>
    rw [bind_of_ok hr] at h
    rw [(hf a).error h, hm.ok hr]
  | error e u =>
    rw [bind_of_error hr] at h
    cases h
    exact hm.error hr

/-- What comes last may change what it likes if it does not throw. -/
theorem Strong.bind_noThrow {m : EStateM ε σ α} {f : α → EStateM ε σ β} (hm : Strong m) (hf : ∀ a, NoThrow (f a)) :
    Strong (m >>= f) := by
  refine ⟨fun {s e t} h => ?_⟩
  cases hr : m s with
  | ok a u =>
    rw [bind_of_ok hr] at h
    exact absurd h (hf a).ne_error
  | error e u =>
    rw [bind_of_error hr] at h
    cases h
    exact hm.error hr

/-! ### Unwinding -/

/-- What becomes of an object: it is made; or the exception is passed on, after its
destruction; or the destructor throws while the exception is passed on. -/
inductive Outcome (ε σ : Type) where
  | made (s : σ)
  | unwound (e : ε) (s : σ)
  | terminated
  deriving DecidableEq

/-- The destructor runs when an exception leaves the computation. -/
def unwind (act destroy : EStateM ε σ Unit) (s : σ) : Outcome ε σ :=
  match act s with
  | .ok _ t => .made t
  | .error e t => match destroy t with
    | .ok _ u => .unwound e u
    | .error _ _ => .terminated

theorem unwind_terminated {act destroy : EStateM ε σ Unit} {s t u : σ} {e d : ε} (h : act s = .error e t)
    (hd : destroy t = .error d u) : unwind act destroy s = .terminated := by
  simp only [unwind, h, hd]

/-- Once something has been set up, the rest gives the strong guarantee: only that has
to be undone. -/
theorem unwind_strong {first : EStateM ε σ α} {rest : α → EStateM ε σ Unit} {destroy : EStateM ε σ Unit} {s t u : σ}
    {a : α} (hfirst : first s = .ok a t) (hrest : ∀ a, Strong (rest a)) (hd : destroy t = .ok () u) :
    (∃ v, unwind (first >>= rest) destroy s = .made v) ∨
      ∃ e, (first >>= rest) s = .error e t ∧ unwind (first >>= rest) destroy s = .unwound e u := by
  rw [unwind, bind_of_ok hfirst]
  cases hr : rest a t with
  | ok b v => exact .inl ⟨v, rfl⟩
  | error e v =>
    obtain rfl := (hrest a).error hr
    exact .inr ⟨e, rfl, by simp only [hd]⟩

end EpollChat.Exceptions
