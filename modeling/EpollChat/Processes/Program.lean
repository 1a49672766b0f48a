import Mathlib.Logic.Basic

/-! Programs by the calls they make. A program is its result, or a call together with
how it goes on after each answer. A protocol keeps a record of the calls made and
their answers, and says which calls may come next; whether a program follows it can
be read off the program, part by part. -/

namespace EpollChat.Processes

variable {Call Call' : Type} {Answer : Call → Type} {Answer' : Call' → Type} {ε α β γ : Type}

inductive Program (Call : Type) (Answer : Call → Type) (ε α : Type) where
  | done (result : Except ε α)
  | call (c : Call) (next : Answer c → Program Call Answer ε α)

namespace Program

/-- One after the other, unless the first one throws. -/
def andThen : Program Call Answer ε α → (α → Program Call Answer ε β) → Program Call Answer ε β
  | .done (.ok a), f => f a
  | .done (.error e), _ => .done (.error e)
  | .call c next, f => .call c fun answer => (next answer).andThen f

instance : Monad (Program Call Answer ε) where
  pure a := .done (.ok a)
  bind := andThen

def throw (e : ε) : Program Call Answer ε α := .done (.error e)

/-- A single call. -/
def request (c : Call) : Program Call Answer ε (Answer c) := .call c fun answer => .done (.ok answer)

/-- With a handler for what it throws. -/
def catching : Program Call Answer ε α → (ε → Program Call Answer ε α) → Program Call Answer ε α
  | .done (.ok a), _ => .done (.ok a)
  | .done (.error e), handler => handler e
  | .call c next, handler => .call c fun answer => (next answer).catching handler

/-- In a program with more calls. -/
def relabel (name : Call → Call') (back : ∀ c, Answer' (name c) → Answer c) :
    Program Call Answer ε α → Program Call' Answer' ε α
  | .done result => .done result
  | .call c next => .call (name c) fun answer => (next (back c answer)).relabel name back

/-- Whatever the answers are, only such calls are made. -/
def Only (calls : Call → Prop) : Program Call Answer ε α → Prop
  | .done _ => True
  | .call c next => calls c ∧ ∀ answer, (next answer).Only calls

theorem only_of_forall {calls : Call → Prop} (h : ∀ c, calls c) (m : Program Call Answer ε α) : m.Only calls := by
  induction m with
  | done result => trivial
  | call c next ih => exact ⟨h c, ih⟩

theorem Only.bind {calls : Call → Prop} {m : Program Call Answer ε α} {f : α → Program Call Answer ε β}
    (hm : m.Only calls) (hf : ∀ a, (f a).Only calls) : (m >>= f).Only calls := by
  show (m.andThen f).Only calls
  induction m with
  | done result =>
    cases result with
    | ok a => exact hf a
    | error e => trivial
  | call c next ih => exact ⟨hm.1, fun answer => ih answer (hm.2 answer)⟩

end Program

/-- What may be called, by a record of what has been. -/
structure Protocol (Call : Type) (Answer : Call → Type) (γ : Type) where
  allowed : γ → Call → Prop
  after : γ → (c : Call) → Answer c → γ

variable {P : Protocol Call Answer γ} {post : γ → Except ε α → Prop}

/-- Whatever the answers are, every call is allowed, and the result is as it should be. -/
def Follows (P : Protocol Call Answer γ) (post : γ → Except ε α → Prop) : Program Call Answer ε α → γ → Prop
  | .done result, g => post g result
  | .call c next, g => P.allowed g c ∧ ∀ answer, Follows P post (next answer) (P.after g c answer)

theorem follows_request {c : Call} {post : γ → Except ε (Answer c) → Prop} (g : γ) :
    Follows P post (Program.request c : Program Call Answer ε (Answer c)) g ↔
      P.allowed g c ∧ ∀ answer, post (P.after g c answer) (.ok answer) := Iff.rfl

/-- What the first part must end with for the second to follow the protocol. -/
def Before (P : Protocol Call Answer γ) (post : γ → Except ε β → Prop) (f : α → Program Call Answer ε β) (g : γ) :
    Except ε α → Prop
  | .ok a => Follows P post (f a) g
  | .error e => post g (.error e)

theorem follows_bind {post : γ → Except ε β → Prop} (m : Program Call Answer ε α) (f : α → Program Call Answer ε β)
    (g : γ) : Follows P post (m >>= f) g ↔ Follows P (Before P post f) m g := by
  show Follows P post (m.andThen f) g ↔ _
  induction m generalizing g with
  | done result => cases result <;> exact Iff.rfl
  | call c next ih => exact and_congr_right fun _ => forall_congr' fun answer => ih answer _

theorem Follows.mono {post' : γ → Except ε α → Prop} {m : Program Call Answer ε α} {g : γ} (h : Follows P post m g)
    (hpost : ∀ g r, post g r → post' g r) : Follows P post' m g := by
  induction m generalizing g with
  | done result => exact hpost g result h
  | call c next ih => exact ⟨h.1, fun answer => ih answer (h.2 answer)⟩

/-- What it must end with, or be thrown out of with, if there is a handler. -/
def Handled (P : Protocol Call Answer γ) (post : γ → Except ε α → Prop) (handler : ε → Program Call Answer ε α) (g : γ) :
    Except ε α → Prop
  | .ok a => post g (.ok a)
  | .error e => Follows P post (handler e) g

theorem follows_catching {m : Program Call Answer ε α} {handler : ε → Program Call Answer ε α} {g : γ} :
    Follows P post (m.catching handler) g ↔ Follows P (Handled P post handler) m g := by
  induction m generalizing g with
  | done result => cases result <;> exact Iff.rfl
  | call c next ih => exact and_congr_right fun _ => forall_congr' fun answer => ih answer

/-- A part of a program follows the protocol of the whole if its own records are kept
somewhere in those of the whole, and its calls are allowed there. -/
theorem Follows.relabel {γ' : Type} {P' : Protocol Call' Answer' γ'} {name : Call → Call'}
    {back : ∀ c, Answer' (name c) → Answer c} {calls : Call → Prop} (kept : γ → γ')
    (hallowed : ∀ g c, P.allowed g c → calls c → P'.allowed (kept g) (name c))
    (hafter : ∀ g c answer, P'.after (kept g) (name c) answer = kept (P.after g c (back c answer)))
    {m : Program Call Answer ε α} {post' : γ' → Except ε α → Prop} (hpost : ∀ g result, post g result → post' (kept g) result)
    {g : γ} (h : Follows P post m g) (hcalls : m.Only calls) :
    Follows P' post' (m.relabel name back) (kept g) := by
  induction m generalizing g with
  | done result => exact hpost g result h
  | call c next ih =>
    refine ⟨hallowed g c h.1 hcalls.1, fun answer => ?_⟩
    rw [hafter]
    exact ih (back c answer) (h.2 (back c answer)) (hcalls.2 (back c answer))

end EpollChat.Processes
