import EpollChat.Processes.Interleaving

/-! Processes that fork. A fork is a call that is answered twice: the parent and the
child go on from the same place. A process may be started where nothing says that it
may not, so that it can be given what no live process has. -/

namespace EpollChat.Processes

variable {Pid Call : Type} {Answer : Call → Type} {ε α γ κ τ : Type}

/-- The call that forks, its answers on both sides, and what it does to the kernel, with
the parent and the child. -/
structure Fork (Pid Call : Type) (Answer : Call → Type) (κ : Type) where
  call : Call
  parent : Pid → Answer call
  child : Answer call
  forks : κ → Pid → Pid → κ → Prop

variable [DecidableEq Pid] (K : Kernel Pid Call Answer κ) (P : Protocol Call Answer γ) (F : Fork Pid Call Answer κ)
  (starts : System Pid Call Answer ε α γ κ → Running Call Answer ε α γ → Prop)

/-- A step of one process, or a fork. -/
inductive ForkStep (s : System Pid Call Answer ε α γ κ) : System Pid Call Answer ε α γ κ → Prop
  | alone {s' : System Pid Call Answer ε α γ κ} (h : Step K P (starts s) s s') : ForkStep s s'
  | fork (p child : Pid) (next : Answer F.call → Program Call Answer ε α) (g : γ) (k : κ)
      (hp : s.running p = some ⟨.call F.call next, g⟩) (hchild : s.running child = none)
      (hk : F.forks s.kernel p child k) :
    ForkStep s ((s.set k p (some ⟨next (F.parent child), P.after g F.call (F.parent child)⟩)).set k child
      (some ⟨next F.child, P.after g F.call F.child⟩))

/-- At first nothing runs. -/
def ForkReachable (initial : κ) (s : System Pid Call Answer ε α γ κ) : Prop :=
  Relation.ReflTransGen (ForkStep K P F starts) ⟨initial, fun _ => none⟩ s

/-- Every process follows the protocol, and every step keeps a property of the kernel's
state and a process's record. -/
structure ForkInvariant (post : γ → Except ε α → Prop) (J : κ → Pid → γ → Prop) : Prop where
  follows : ∀ {s r}, starts s r → Follows P post r.program r.record
  start : ∀ {s r}, starts s r → ∀ k p, J k p r.record
  own : ∀ {k p g c answer k'}, J k p g → P.allowed g c → K.answers k p c answer k' → J k' p (P.after g c answer)
  other : ∀ {k p q g c answer k'}, q ≠ p → J k q g → K.answers k p c answer k' → J k' q g
  exit : ∀ {k p q g k'}, q ≠ p → J k q g → K.exits k p k' → J k' q g
  parent : ∀ {k p child g k'}, child ≠ p → J k p g → P.allowed g F.call → F.forks k p child k' →
    J k' p (P.after g F.call (F.parent child))
  child : ∀ {k p child g k'}, child ≠ p → J k p g → P.allowed g F.call → F.forks k p child k' →
    J k' child (P.after g F.call F.child)
  bystander : ∀ {k p child q g k'}, q ≠ p → q ≠ child → J k q g → F.forks k p child k' → J k' q g

variable {K P F starts} {initial : κ} {s : System Pid Call Answer ε α γ κ} {p : Pid} {r : Running Call Answer ε α γ}

/-- Who runs after a fork: the child, the parent, or a process that ran before. -/
theorem System.running_fork {k : κ} {child q : Pid} {o o' : Option (Running Call Answer ε α γ)}
    (h : ((s.set k p o).set k child o').running q = some r) :
    (q = child ∧ o' = some r) ∨ (q ≠ child ∧ q = p ∧ o = some r) ∨ (q ≠ child ∧ q ≠ p ∧ s.running q = some r) := by
  rcases running_set h with ⟨rfl, hr⟩ | ⟨hchild, h⟩
  · exact .inl ⟨rfl, hr⟩
  · rcases running_set h with ⟨rfl, hr⟩ | ⟨hp, h⟩
    · exact .inr (.inl ⟨hchild, rfl, hr⟩)
    · exact .inr (.inr ⟨hchild, hp, h⟩)

section
variable {post : γ → Except ε α → Prop} {J : κ → Pid → γ → Prop}

theorem ForkInvariant.step (hJ : ForkInvariant K P F starts post J) {s' : System Pid Call Answer ε α γ κ}
    (hs : ∀ p r, s.running p = some r → Follows P post r.program r.record ∧ J s.kernel p r.record)
    (hstep : ForkStep K P F starts s s') (hp : s'.running p = some r) :
    Follows P post r.program r.record ∧ J s'.kernel p r.record := by
  cases hstep with
  | alone h =>
    cases h with
    | start q r' hq hr =>
      rcases System.running_set hp with ⟨rfl, he⟩ | ⟨hne, hp⟩
      · cases he
        exact ⟨hJ.follows hr, hJ.start hr _ _⟩
      · exact hs p r hp
    | call q c next g answer k hq hk =>
      rcases System.running_set hp with ⟨rfl, he⟩ | ⟨hne, hp⟩
      · cases he
        obtain ⟨hfollows, hj⟩ := hs p _ hq
        exact ⟨hfollows.2 answer, hJ.own hj hfollows.1 hk⟩
      · exact ⟨(hs p r hp).1, hJ.other hne (hs p r hp).2 hk⟩
    | exit q r' k hq hk =>
      rcases System.running_set hp with ⟨rfl, he⟩ | ⟨hne, hp⟩
      · cases he
      · exact ⟨(hs p r hp).1, hJ.exit hne (hs p r hp).2 hk⟩
  | fork q child next g k hq hchild hk =>
    obtain ⟨hfollows, hj⟩ := hs q _ hq
    have hne : child ≠ q := by
      rintro rfl
      rw [hchild] at hq
      cases hq
    rcases System.running_fork hp with ⟨rfl, he⟩ | ⟨-, rfl, he⟩ | ⟨hpc, hpq, hp⟩
    · cases he
      exact ⟨hfollows.2 F.child, hJ.child hne hj hfollows.1 hk⟩
    · cases he
      exact ⟨hfollows.2 (F.parent child), hJ.parent hne hj hfollows.1 hk⟩
    · exact ⟨(hs p r hp).1, hJ.bystander hpq hpc (hs p r hp).2 hk⟩

/-- It holds in every reachable state. -/
theorem ForkReachable.invariant (hJ : ForkInvariant K P F starts post J) (h : ForkReachable K P F starts initial s)
    (hp : s.running p = some r) : Follows P post r.program r.record ∧ J s.kernel p r.record := by
  induction h generalizing p r with
  | refl => cases hp
  | tail _ hstep ih => exact hJ.step (fun p r => ih) hstep hp

end

/-! ### What only one process has -/

variable (token : γ → Option τ)

/-- The process is alive and has it. -/
def Holds (s : System Pid Call Answer ε α γ κ) (p : Pid) (t : τ) : Prop :=
  ∃ r, s.running p = some r ∧ token r.record = some t

variable {token} {s' : System Pid Call Answer ε α γ κ}

/-- What a process is given at its start is new; calls do not get it, and a fork leaves
it on one side at most. -/
structure Unique (K : Kernel Pid Call Answer κ) (P : Protocol Call Answer γ) (F : Fork Pid Call Answer κ)
    (starts : System Pid Call Answer ε α γ κ → Running Call Answer ε α γ → Prop) (token : γ → Option τ) : Prop where
  start : ∀ {s r t}, starts s r → token r.record = some t → ∀ q, ¬ Holds token s q t
  after : ∀ {g c answer t}, token (P.after g c answer) = some t → token g = some t
  fork : ∀ {k p child g k'}, F.forks k p child k' →
    token (P.after g F.call (F.parent child)) = none ∨ token (P.after g F.call F.child) = none

theorem Unique.step (hu : Unique K P F starts token) (hs : ∀ p q t, Holds token s p t → Holds token s q t → p = q)
    (hstep : ForkStep K P F starts s s') (p q : Pid) (t : τ) (hp : Holds token s' p t) (hq : Holds token s' q t) :
    p = q := by
  cases hstep with
  | alone h =>
    cases h with
    | start x rx hx hrx =>
      have hnew {y : Pid} (hy : Holds token (s.set s.kernel x (some rx)) y t) :
          (y = x ∧ token rx.record = some t) ∨ Holds token s y t := by
        obtain ⟨r, hy, hr⟩ := hy
        rcases System.running_set hy with ⟨rfl, he⟩ | ⟨-, hy⟩
        · cases he
          exact .inl ⟨rfl, hr⟩
        · exact .inr ⟨r, hy, hr⟩
      rcases hnew hp with ⟨rfl, hr⟩ | hp'
      · rcases hnew hq with ⟨rfl, -⟩ | hq'
        · rfl
        · exact absurd hq' (hu.start hrx hr q)
      · rcases hnew hq with ⟨rfl, hr⟩ | hq'
        · exact absurd hp' (hu.start hrx hr p)
        · exact hs p q t hp' hq'
    | call x c next g answer k hx hk =>
      have hbefore {y : Pid} (hy : Holds token (s.set k x (some ⟨next answer, P.after g c answer⟩)) y t) :
          Holds token s y t := by
        obtain ⟨r, hy, hr⟩ := hy
        rcases System.running_set hy with ⟨rfl, he⟩ | ⟨-, hy⟩
        · cases he
          exact ⟨_, hx, hu.after hr⟩
        · exact ⟨r, hy, hr⟩
      exact hs p q t (hbefore hp) (hbefore hq)
    | exit x rx k hx hk =>
      have hbefore {y : Pid} (hy : Holds token (s.set k x none) y t) : Holds token s y t := by
        obtain ⟨r, hy, hr⟩ := hy
        rcases System.running_set hy with ⟨-, he⟩ | ⟨-, hy⟩
        · cases he
        · exact ⟨r, hy, hr⟩
      exact hs p q t (hbefore hp) (hbefore hq)
  | fork x child next g k hx hchild hk =>
    -- the child has what the parent had
    have hbefore {y : Pid} (hy : Holds token ((s.set k x (some ⟨next (F.parent child), P.after g F.call (F.parent child)⟩)).set
        k child (some ⟨next F.child, P.after g F.call F.child⟩)) y t) :
        (y = child ∧ token (P.after g F.call F.child) = some t ∧ Holds token s x t) ∨
          (y = x ∧ token (P.after g F.call (F.parent child)) = some t ∧ Holds token s x t) ∨
            (y ≠ x ∧ Holds token s y t) := by
      obtain ⟨r, hy, hr⟩ := hy
      rcases System.running_fork hy with ⟨rfl, he⟩ | ⟨-, rfl, he⟩ | ⟨-, hne, hy⟩
      · cases he
        exact .inl ⟨rfl, hr, _, hx, hu.after hr⟩
      · cases he
        exact .inr (.inl ⟨rfl, hr, _, hx, hu.after hr⟩)
      · exact .inr (.inr ⟨hne, r, hy, hr⟩)
    have hone := hu.fork (g := g) hk
    rcases hbefore hp with ⟨rfl, hr, hheld⟩ | ⟨rfl, hr, hheld⟩ | ⟨hne, hp'⟩
    · rcases hbefore hq with ⟨rfl, -, -⟩ | ⟨-, hr', -⟩ | ⟨hne', hq'⟩
      · rfl
      · rw [hr, hr'] at hone
        exact hone.elim nofun nofun
      · exact absurd (hs q x t hq' hheld) hne'
    · rcases hbefore hq with ⟨-, hr', -⟩ | ⟨rfl, -, -⟩ | ⟨hne', hq'⟩
      · rw [hr, hr'] at hone
        exact hone.elim nofun nofun
      · rfl
      · exact absurd (hs q _ t hq' hheld) hne'
    · rcases hbefore hq with ⟨-, -, hheld⟩ | ⟨-, -, hheld⟩ | ⟨-, hq'⟩
      · exact absurd (hs p x t hp' hheld) hne
      · exact absurd (hs p x t hp' hheld) hne
      · exact hs p q t hp' hq'

/-- No two live processes have it. -/
theorem ForkReachable.unique (hu : Unique K P F starts token) (h : ForkReachable K P F starts initial s) {p q : Pid}
    {t : τ} (hp : Holds token s p t) (hq : Holds token s q t) : p = q := by
  induction h generalizing p q t with
  | refl => exact absurd hp.choose_spec.1 nofun
  | tail _ hstep ih => exact hu.step (fun p q t => ih) hstep p q t hp hq

end EpollChat.Processes
