import Mathlib.Data.Nat.Notation
import Mathlib.Order.Basic

/-! Computations with unbounded loops. A computation works on a state; it returns, or
throws, or runs on. It is given by what it does within a number of rounds of its
loops, and more rounds do not change what it has done. A loop ends if a variant
decreases in every round, and does not if an invariant keeps it going. -/

namespace EpollChat.Loops

variable {ε σ α β γ : Type}

/-- `run n s` is the result from the state `s` if no loop takes more than `n` rounds. -/
@[ext] structure Computation (ε σ α : Type) where
  run : ℕ → σ → Option (EStateM.Result ε σ α)
  stable : ∀ {n m s r}, n ≤ m → run n s = some r → run m s = some r

namespace Computation

/-- The computation has this result. -/
def Results (c : Computation ε σ α) (s : σ) (r : EStateM.Result ε σ α) : Prop := ∃ n, c.run n s = some r

/-- The computation returns or throws. -/
def Ends (c : Computation ε σ α) (s : σ) : Prop := ∃ r, c.Results s r

theorem Results.ends {c : Computation ε σ α} {s : σ} {r : EStateM.Result ε σ α} (h : c.Results s r) : c.Ends s :=
  ⟨r, h⟩

theorem Results.unique {c : Computation ε σ α} {s : σ} {r r' : EStateM.Result ε σ α} (h : c.Results s r)
    (h' : c.Results s r') : r = r' := by
  obtain ⟨n, hn⟩ := h
  obtain ⟨m, hm⟩ := h'
  have hr := c.stable (Nat.le_max_left n m) hn
  rw [c.stable (Nat.le_max_right n m) hm] at hr
  exact (Option.some.inj hr).symm

/-! ### Without loops -/

/-- A computation without loops. -/
def lift (m : EStateM ε σ α) : Computation ε σ α := ⟨fun _ s => some (m s), fun _ h => h⟩

theorem results_lift {m : EStateM ε σ α} {s : σ} {r : EStateM.Result ε σ α} :
    (lift m).Results s r ↔ m s = r :=
  ⟨fun ⟨_, h⟩ => Option.some.inj h, fun h => ⟨0, congrArg some h⟩⟩

/-! ### Sequencing -/

/-- How a result goes on. -/
def next (f : α → Computation ε σ β) (n : ℕ) : EStateM.Result ε σ α → Option (EStateM.Result ε σ β)
  | .ok a t => (f a).run n t
  | .error e t => some (.error e t)

theorem next_stable {f : α → Computation ε σ β} {n m : ℕ} {r : EStateM.Result ε σ α} {r' : EStateM.Result ε σ β}
    (h : n ≤ m) (hr : next f n r = some r') : next f m r = some r' := by
  cases r with
  | ok a t => exact (f a).stable h hr
  | error e t => exact hr

instance : Monad (Computation ε σ) where
  pure a := lift (pure a)
  bind c f :=
    { run n s := (c.run n s).bind (next f n)
      stable := fun {n m s r} h hr => by
        obtain ⟨r', hc, hf⟩ := Option.bind_eq_some_iff.mp hr
        exact Option.bind_eq_some_iff.mpr ⟨r', c.stable h hc, next_stable h hf⟩ }

theorem run_bind (c : Computation ε σ α) (f : α → Computation ε σ β) (n : ℕ) (s : σ) :
    (c >>= f).run n s = (c.run n s).bind (next f n) := rfl

instance : LawfulMonad (Computation ε σ) := LawfulMonad.mk' _
  (fun c => by
    ext1
    funext n s
    show (c.run n s).bind (next _ n) = c.run n s
    cases c.run n s with
    | none => rfl
    | some r => cases r <;> rfl)
  (fun _ _ => rfl)
  (fun c f g => by
    ext1
    funext n s
    simp only [run_bind]
    cases c.run n s with
    | none => rfl
    | some r => cases r <;> rfl)

theorem Results.bind_ok {c : Computation ε σ α} {f : α → Computation ε σ β} {s t : σ} {a : α}
    {r : EStateM.Result ε σ β} (h : c.Results s (.ok a t)) (hf : (f a).Results t r) : (c >>= f).Results s r := by
  obtain ⟨n, hn⟩ := h
  obtain ⟨m, hm⟩ := hf
  refine ⟨max n m, Option.bind_eq_some_iff.mpr ⟨.ok a t, c.stable (Nat.le_max_left n m) hn, ?_⟩⟩
  exact (f a).stable (Nat.le_max_right n m) hm

theorem Results.bind_error {c : Computation ε σ α} (f : α → Computation ε σ β) {s t : σ} {e : ε}
    (h : c.Results s (.error e t)) : (c >>= f).Results s (.error e t) := by
  obtain ⟨n, hn⟩ := h
  exact ⟨n, Option.bind_eq_some_iff.mpr ⟨.error e t, hn, rfl⟩⟩

/-- What goes before ends, and after its result what comes next. -/
theorem ends_bind {c : Computation ε σ α} {f : α → Computation ε σ β} {s : σ} :
    (c >>= f).Ends s ↔ c.Ends s ∧ ∀ a t, c.Results s (.ok a t) → (f a).Ends t := by
  constructor
  · rintro ⟨r, n, hr⟩
    obtain ⟨r', hc, hf⟩ := Option.bind_eq_some_iff.mp hr
    refine ⟨⟨r', n, hc⟩, fun a t h => ?_⟩
    obtain rfl := Results.unique ⟨n, hc⟩ h
    exact ⟨r, n, hf⟩
  · rintro ⟨⟨r, hr⟩, hf⟩
    cases r with
    | ok a t =>
      obtain ⟨r', hr'⟩ := hf a t hr
      exact (hr.bind_ok hr').ends
    | error e t => exact (hr.bind_error f).ends

theorem ends_bind_of_ok {c : Computation ε σ α} {f : α → Computation ε σ β} {s t : σ} {a : α}
    (h : c.Results s (.ok a t)) : (c >>= f).Ends s ↔ (f a).Ends t := by
  refine ends_bind.trans ⟨fun hf => hf.2 a t h, fun hf => ⟨h.ends, fun b u hb => ?_⟩⟩
  cases h.unique hb
  exact hf

/-! ### Loops -/

/-- At most `n` rounds. -/
def loopRun (body : β → Computation ε σ (β ⊕ α)) : ℕ → β → σ → Option (EStateM.Result ε σ α)
  | 0, _, _ => none
  | n + 1, b, s => match (body b).run (n + 1) s with
    | none => none
    | some (.error e t) => some (.error e t)
    | some (.ok (.inr a) t) => some (.ok a t)
    | some (.ok (.inl b) t) => loopRun body n b t

theorem loopRun_stable {body : β → Computation ε σ (β ⊕ α)} {n m : ℕ} {b : β} {s : σ} {r : EStateM.Result ε σ α}
    (h : n ≤ m) (hr : loopRun body n b s = some r) : loopRun body m b s = some r := by
  induction n generalizing m b s with
  | zero => cases hr
  | succ n ih =>
    obtain ⟨m, rfl⟩ : ∃ k, m = k + 1 := ⟨m - 1, by omega⟩
    rw [loopRun] at hr ⊢
    cases hb : (body b).run (n + 1) s with
    | none =>
      rw [hb] at hr
      cases hr
    | some r' =>
      rw [(body b).stable h hb]
      rw [hb] at hr
      match r', hr with
      | .error e t, hr => exact hr
      | .ok (.inr a) t, hr => exact hr
      | .ok (.inl b') t, hr => exact ih (Nat.le_of_succ_le_succ h) hr

/-- The body is repeated, each time with what it gave before, until it gives a result. -/
def loop (body : β → Computation ε σ (β ⊕ α)) (b : β) : Computation ε σ α :=
  ⟨fun n s => loopRun body n b s, loopRun_stable⟩

theorem results_loop_done {body : β → Computation ε σ (β ⊕ α)} {b : β} {s t : σ} {a : α}
    (h : (body b).Results s (.ok (.inr a) t)) : (loop body b).Results s (.ok a t) := by
  obtain ⟨n, hn⟩ := h
  refine ⟨n + 1, ?_⟩
  simp only [loop, loopRun, (body b).stable (Nat.le_succ n) hn]

theorem results_loop_next {body : β → Computation ε σ (β ⊕ α)} {b b' : β} {s t : σ} {r : EStateM.Result ε σ α}
    (h : (body b).Results s (.ok (.inl b') t)) (hr : (loop body b').Results t r) : (loop body b).Results s r := by
  obtain ⟨n, hn⟩ := h
  obtain ⟨m, hm⟩ := hr
  refine ⟨max n m + 1, ?_⟩
  simp only [loop, loopRun, (body b).stable (Nat.le_succ_of_le (Nat.le_max_left n m)) hn]
  exact loopRun_stable (Nat.le_max_right n m) hm

/-- A loop ends if every round, under an invariant, gives a result or lowers a variant. -/
theorem results_loop (body : β → Computation ε σ (β ⊕ α)) (inv : β → σ → Prop) (variant : β → σ → ℕ)
    (post : α → σ → Prop)
    (hbody : ∀ b s, inv b s → (∃ a t, (body b).Results s (.ok (.inr a) t) ∧ post a t) ∨
      ∃ b' t, (body b).Results s (.ok (.inl b') t) ∧ inv b' t ∧ variant b' t < variant b s)
    {b : β} {s : σ} (h : inv b s) : ∃ a t, (loop body b).Results s (.ok a t) ∧ post a t := by
  induction hn : variant b s using Nat.strongRecOn generalizing b s with
  | _ n ih =>
    rcases hbody b s h with ⟨a, t, hround, hpost⟩ | ⟨b', t, hround, hinv, hlt⟩
    · exact ⟨a, t, results_loop_done hround, hpost⟩
    · obtain ⟨a, u, hloop, hpost⟩ := ih _ (hn ▸ hlt) hinv rfl
      exact ⟨a, u, results_loop_next hround hloop, hpost⟩

/-- A loop whose every round, under an invariant, gives the next round does not end. -/
theorem not_ends_loop {body : β → Computation ε σ (β ⊕ α)} (inv : β → σ → Prop)
    (hbody : ∀ b s, inv b s → ∃ b' t, (body b).Results s (.ok (.inl b') t) ∧ inv b' t) {b : β} {s : σ}
    (h : inv b s) : ¬ (loop body b).Ends s := by
  rintro ⟨r, n, hr⟩
  change loopRun body n b s = some r at hr
  induction n generalizing b s with
  | zero => cases hr
  | succ n ih =>
    obtain ⟨b', t, hround, hinv⟩ := hbody b s h
    rw [loopRun] at hr
    cases hb : (body b).run (n + 1) s with
    | none =>
      rw [hb] at hr
      cases hr
    | some r' =>
      rw [hb] at hr
      obtain rfl := Results.unique ⟨n + 1, hb⟩ hround
      exact ih hinv hr

/-- A loop over a list, whose steps under an invariant act as a function on the state. -/
theorem results_forM {ι : Type} {f : ι → Computation ε σ PUnit} {after : ι → σ → σ} (inv : σ → Prop) {items : List ι}
    (hf : ∀ i ∈ items, ∀ s, inv s → (f i).Results s (.ok ⟨⟩ (after i s)) ∧ inv (after i s)) {s : σ} (h : inv s) :
    (items.forM f).Results s (.ok ⟨⟩ (items.foldl (fun s i => after i s) s)) := by
  induction items generalizing s with
  | nil => exact results_lift.mpr rfl
  | cons i items ih =>
    obtain ⟨hi, hinv⟩ := hf i (by simp) s h
    exact hi.bind_ok (ih (fun j hj => hf j (by simp [hj])) hinv)

end Computation

end EpollChat.Loops
