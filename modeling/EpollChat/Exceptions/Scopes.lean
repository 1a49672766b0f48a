import EpollChat.Exceptions.Unwinding
import EpollChat.Loops.Outcomes

/-! Scopes with destructors. An exception that leaves a scope is passed on after the
destructor of what the scope owns; a destructor does not let an exception through, but
terminates the process. Only exceptions are caught. -/

namespace EpollChat.Exceptions

open Loops Loops.Computation

/-- How a computation is left without a result: by an exception, by the end of the
process, or in undefined behaviour. -/
inductive Raised (ε : Type) where
  | thrown (e : ε)
  | terminated
  | undefined

variable {ε σ α : Type}

def raise (r : Raised ε) : Computation (Raised ε) σ α := .lift (throw r)

/-- What may throw and has no loops. -/
def throwing (m : EStateM ε σ α) : Computation (Raised ε) σ α := (Computation.lift m).within id (fun t _ => t) .thrown

def noexcept (c : Computation (Raised ε) σ α) : Computation (Raised ε) σ α := c.handling fun r => match r with
  | .thrown _ => raise .terminated
  | r => raise r

/-- The computation in the scope of an object. -/
def scope (destroy : Computation (Raised ε) σ Unit) (c : Computation (Raised ε) σ α) : Computation (Raised ε) σ α :=
  c.handling fun r => match r with
    | .thrown e => do
      noexcept destroy
      raise (.thrown e)
    | r => raise r

def catching (c : Computation (Raised ε) σ α) (handler : ε → Computation (Raised ε) σ α) : Computation (Raised ε) σ α :=
  c.handling fun r => match r with
    | .thrown e => handler e
    | r => raise r

/-! ### Results -/

theorem results_throwing_ok {m : EStateM ε σ α} {s t : σ} {a : α} (h : m s = .ok a t) :
    (throwing m).Results s (.ok a t) := results_within.mpr ⟨_, results_lift.mpr h, rfl⟩

theorem results_throwing_error {m : EStateM ε σ α} {s t : σ} {e : ε} (h : m s = .error e t) :
    (throwing m).Results s (.error (.thrown e) t) := results_within.mpr ⟨_, results_lift.mpr h, rfl⟩

theorem results_raise (r : Raised ε) (s : σ) : (raise r : Computation (Raised ε) σ α).Results s (.error r s) := ⟨0, rfl⟩

theorem results_noexcept_ok {c : Computation (Raised ε) σ α} {s t : σ} {a : α} (h : c.Results s (.ok a t)) :
    (noexcept c).Results s (.ok a t) := h.handling_ok _

theorem results_noexcept_thrown {c : Computation (Raised ε) σ α} {s t : σ} {e : ε}
    (h : c.Results s (.error (.thrown e) t)) : (noexcept c).Results s (.error .terminated t) :=
  h.handling_error (results_raise _ t)

theorem results_scope_terminated {destroy : Computation (Raised ε) σ Unit} {c : Computation (Raised ε) σ α} {s t u : σ}
    {e d : ε} (h : c.Results s (.error (.thrown e) t)) (hd : destroy.Results t (.error (.thrown d) u)) :
    (scope destroy c).Results s (.error .terminated u) :=
  h.handling_error (Computation.Results.bind_error _ (results_noexcept_thrown hd))

/-! ### What is allowed -/

variable {c : Computation (Raised ε) σ α} {s : σ} {P : α → σ → Prop} {E E' : Raised ε → σ → Prop} {D : Prop}

/-- The destructor succeeds wherever the computation may throw. -/
theorem does_scope {destroy : Computation (Raised ε) σ Unit} (h : c.Does s P E D)
    (hthrown : ∀ e t, E (.thrown e) t → ∃ u, destroy.Results t (.ok () u) ∧ E' (.thrown e) u)
    (hterminated : ∀ t, E .terminated t → E' .terminated t) (hundefined : ∀ t, E .undefined t → E' .undefined t) :
    (scope destroy c).Does s P E' D := by
  refine h.handling fun r t hr => ?_
  cases r with
  | thrown e =>
    obtain ⟨u, hd, hu⟩ := hthrown e t hr
    exact .of_error ((results_noexcept_ok hd).bind_ok (results_raise _ u)) hu
  | terminated => exact .of_error (results_raise _ t) (hterminated t hr)
  | undefined => exact .of_error (results_raise _ t) (hundefined t hr)

theorem does_catching {handler : ε → Computation (Raised ε) σ α} (h : c.Does s P E D)
    (hthrown : ∀ e t, E (.thrown e) t → (handler e).Does t P E' D)
    (hterminated : ∀ t, E .terminated t → E' .terminated t) (hundefined : ∀ t, E .undefined t → E' .undefined t) :
    (catching c handler).Does s P E' D := by
  refine h.handling fun r t hr => ?_
  cases r with
  | thrown e => exact hthrown e t hr
  | terminated => exact .of_error (results_raise _ t) (hterminated t hr)
  | undefined => exact .of_error (results_raise _ t) (hundefined t hr)

end EpollChat.Exceptions
