import EpollChat.Processes.Program
import Mathlib.Logic.Function.Basic
import Mathlib.Logic.Relation

/-! Any number of processes that run programs and share a kernel, interleaved call by
call. A process may be started and may die at any time; its identifier may be used
again. Two rules give what holds in every reachable state: a process goes on
following the protocol its program follows; and a property of the kernel's state and
one process's record holds if its own calls keep it and those of others do not
disturb it. -/

namespace EpollChat.Processes

variable {Pid Call : Type} {Answer : Call → Type} {ε α γ κ : Type}

/-- How the kernel answers calls, and what it does when a process dies. -/
structure Kernel (Pid Call : Type) (Answer : Call → Type) (κ : Type) where
  answers : κ → Pid → (c : Call) → Answer c → κ → Prop
  exits : κ → Pid → κ → Prop

/-- A live process: what is left of its program, and the record of its calls. -/
structure Running (Call : Type) (Answer : Call → Type) (ε α γ : Type) where
  program : Program Call Answer ε α
  record : γ

structure System (Pid Call : Type) (Answer : Call → Type) (ε α γ κ : Type) where
  kernel : κ
  running : Pid → Option (Running Call Answer ε α γ)

variable [DecidableEq Pid]

/-- The kernel and one process in a new state. -/
def System.set (s : System Pid Call Answer ε α γ κ) (k : κ) (p : Pid) (r : Option (Running Call Answer ε α γ)) :
    System Pid Call Answer ε α γ κ :=
  ⟨k, Function.update s.running p r⟩

theorem System.running_set {s : System Pid Call Answer ε α γ κ} {k : κ} {p q : Pid}
    {o : Option (Running Call Answer ε α γ)} {r : Running Call Answer ε α γ} (h : (s.set k p o).running q = some r) :
    (q = p ∧ o = some r) ∨ (q ≠ p ∧ s.running q = some r) := by
  unfold set at h
  dsimp only at h
  by_cases hqp : q = p
  · subst hqp
    exact .inl ⟨rfl, by rwa [Function.update_self] at h⟩
  · exact .inr ⟨hqp, by rwa [Function.update_of_ne hqp] at h⟩

variable (K : Kernel Pid Call Answer κ) (P : Protocol Call Answer γ) (starts : Running Call Answer ε α γ → Prop)

/-- A process is started, or the kernel answers its next call, or it dies. -/
inductive Step (s : System Pid Call Answer ε α γ κ) : System Pid Call Answer ε α γ κ → Prop
  | start (p : Pid) (r : Running Call Answer ε α γ) (hp : s.running p = none) (hr : starts r) :
    Step s (s.set s.kernel p (some r))
  | call (p : Pid) (c : Call) (next : Answer c → Program Call Answer ε α) (g : γ) (answer : Answer c) (k : κ)
      (hp : s.running p = some ⟨.call c next, g⟩) (hk : K.answers s.kernel p c answer k) :
    Step s (s.set k p (some ⟨next answer, P.after g c answer⟩))
  | exit (p : Pid) (r : Running Call Answer ε α γ) (k : κ) (hp : s.running p = some r)
      (hk : K.exits s.kernel p k) : Step s (s.set k p none)

/-- At first nothing runs. -/
def Reachable (initial : κ) (s : System Pid Call Answer ε α γ κ) : Prop :=
  Relation.ReflTransGen (Step K P starts) ⟨initial, fun _ => none⟩ s

variable {K P starts} {initial : κ} {s : System Pid Call Answer ε α γ κ} {p : Pid} {r : Running Call Answer ε α γ}

/-- What holds of a process when it starts, is kept by its calls, and is not disturbed
by those of others or by their deaths, holds as long as it lives. -/
theorem Reachable.invariant (J : κ → Pid → Running Call Answer ε α γ → Prop)
    (start : ∀ k p r, starts r → J k p r)
    (own : ∀ k p c next g answer k', J k p ⟨.call c next, g⟩ → K.answers k p c answer k' →
      J k' p ⟨next answer, P.after g c answer⟩)
    (other : ∀ k p q r c answer k', q ≠ p → J k q r → K.answers k p c answer k' → J k' q r)
    (exit : ∀ k p q r k', q ≠ p → J k q r → K.exits k p k' → J k' q r)
    (h : Reachable K P starts initial s) (hp : s.running p = some r) : J s.kernel p r := by
  induction h generalizing p r with
  | refl => cases hp
  | tail _ hstep ih =>
    cases hstep with
    | start q r' hq hr =>
      rcases System.running_set hp with ⟨rfl, he⟩ | ⟨hne, hp⟩
      · cases he
        exact start _ _ _ hr
      · exact ih hp
    | call q c next g answer k hq hk =>
      rcases System.running_set hp with ⟨rfl, he⟩ | ⟨hne, hp⟩
      · cases he
        exact own _ _ _ _ _ _ _ (ih hq) hk
      · exact other _ _ _ _ _ _ _ hne (ih hp) hk
    | exit q r' k hq hk =>
      rcases System.running_set hp with ⟨rfl, he⟩ | ⟨hne, hp⟩
      · cases he
      · exact exit _ _ _ _ _ hne (ih hp) hk

/-- A process follows the protocol from its record on. -/
theorem Reachable.follows {post : γ → Except ε α → Prop} (hstarts : ∀ r, starts r → Follows P post r.program r.record)
    (h : Reachable K P starts initial s) (hp : s.running p = some r) : Follows P post r.program r.record :=
  h.invariant (fun _ _ r => Follows P post r.program r.record) (fun _ _ r => hstarts r)
    (fun _ _ _ _ _ answer _ hf _ => hf.2 answer) (fun _ _ _ _ _ _ _ _ hf _ => hf) (fun _ _ _ _ _ _ hf _ => hf) hp

/-- A property of the kernel's state and a process's record; its own calls need to keep
it only where the protocol allows them. -/
theorem Reachable.record_invariant {post : γ → Except ε α → Prop}
    (hstarts : ∀ r, starts r → Follows P post r.program r.record) (J : κ → Pid → γ → Prop)
    (start : ∀ k p r, starts r → J k p r.record)
    (own : ∀ k p g c answer k', J k p g → P.allowed g c → K.answers k p c answer k' → J k' p (P.after g c answer))
    (other : ∀ k p q g c answer k', q ≠ p → J k q g → K.answers k p c answer k' → J k' q g)
    (exit : ∀ k p q g k', q ≠ p → J k q g → K.exits k p k' → J k' q g)
    (h : Reachable K P starts initial s) (hp : s.running p = some r) : J s.kernel p r.record := by
  refine (h.invariant (fun k p r => Follows P post r.program r.record ∧ J k p r.record)
    (fun k p r hr => ⟨hstarts r hr, start k p r hr⟩) ?_ ?_ ?_ hp).2
  · rintro k p c next g answer k' ⟨hf, hj⟩ hk
    exact ⟨hf.2 answer, own k p g c answer k' hj hf.1 hk⟩
  · rintro k p q r c answer k' hne ⟨hf, hj⟩ hk
    exact ⟨hf, other k p q r.record c answer k' hne hj hk⟩
  · rintro k p q r k' hne ⟨hf, hj⟩ hk
    exact ⟨hf, exit k p q r.record k' hne hj hk⟩

end EpollChat.Processes
