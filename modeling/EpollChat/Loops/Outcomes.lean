import EpollChat.Loops.Computation

/-! What may come of a computation. It may return, throw or run on; what is allowed of
each is said at once, so that one rule for each way of putting computations together
serves partial and total correctness alike: to run on is allowed in the one and not in
the other. Computations are put together in sequence, by handlers, on a part of the
state, and in loops, whose invariants are numbered by the rounds. -/

namespace EpollChat.Loops

namespace Computation

variable {ε ε' σ τ α β : Type}

/-! ### Handlers and parts -/

/-- What the state says. -/
def gets (f : σ → α) : Computation ε σ α := lift fun s => .ok (f s) s

/-- How an exception goes on. -/
def handle (handler : ε → Computation ε' σ α) (n : ℕ) : EStateM.Result ε σ α → Option (EStateM.Result ε' σ α)
  | .ok a t => some (.ok a t)
  | .error e t => (handler e).run n t

/-- After an exception the handler goes on. -/
def handling (c : Computation ε σ α) (handler : ε → Computation ε' σ α) : Computation ε' σ α where
  run n s := (c.run n s).bind (handle handler n)
  stable := fun {n m s r} h hr => by
    obtain ⟨r', hc, hf⟩ := Option.bind_eq_some_iff.mp hr
    refine Option.bind_eq_some_iff.mpr ⟨r', c.stable h hc, ?_⟩
    cases r' with
    | ok a t => exact hf
    | error e t => exact (handler e).stable h hf

/-- What a result is in a larger state. -/
def enclose (put : τ → σ → σ) (raise : ε → ε') (s : σ) : EStateM.Result ε τ α → EStateM.Result ε' σ α
  | .ok a t => .ok a (put t s)
  | .error e t => .error (raise e) (put t s)

/-- On a part of the state. -/
def within (part : σ → τ) (put : τ → σ → σ) (raise : ε → ε') (c : Computation ε τ α) : Computation ε' σ α where
  run n s := (c.run n (part s)).map (enclose put raise s)
  stable := fun {n m s r} h hr => by
    obtain ⟨r', hc, rfl⟩ := Option.map_eq_some_iff.mp hr
    exact Option.map_eq_some_iff.mpr ⟨r', c.stable h hc, rfl⟩

/-! ### Results -/

theorem results_bind {c : Computation ε σ α} {f : α → Computation ε σ β} {s : σ} {r : EStateM.Result ε σ β}
    (h : (c >>= f).Results s r) :
    (∃ a t, c.Results s (.ok a t) ∧ (f a).Results t r) ∨ ∃ e t, c.Results s (.error e t) ∧ r = .error e t := by
  obtain ⟨n, hn⟩ := h
  obtain ⟨r', hc, hf⟩ := Option.bind_eq_some_iff.mp hn
  cases r' with
  | ok a t => exact .inl ⟨a, t, ⟨n, hc⟩, n, hf⟩
  | error e t => exact .inr ⟨e, t, ⟨n, hc⟩, (Option.some.inj hf).symm⟩

theorem results_handling {c : Computation ε σ α} {handler : ε → Computation ε' σ α} {s : σ}
    {r : EStateM.Result ε' σ α} (h : (c.handling handler).Results s r) :
    (∃ a t, c.Results s (.ok a t) ∧ r = .ok a t) ∨ ∃ e t, c.Results s (.error e t) ∧ (handler e).Results t r := by
  obtain ⟨n, hn⟩ := h
  obtain ⟨r', hc, hf⟩ := Option.bind_eq_some_iff.mp hn
  cases r' with
  | ok a t => exact .inl ⟨a, t, ⟨n, hc⟩, (Option.some.inj hf).symm⟩
  | error e t => exact .inr ⟨e, t, ⟨n, hc⟩, n, hf⟩

theorem Results.handling_ok {c : Computation ε σ α} (handler : ε → Computation ε' σ α) {s t : σ} {a : α}
    (h : c.Results s (.ok a t)) : (c.handling handler).Results s (.ok a t) := by
  obtain ⟨n, hn⟩ := h
  exact ⟨n, Option.bind_eq_some_iff.mpr ⟨_, hn, rfl⟩⟩

theorem Results.handling_error {c : Computation ε σ α} {handler : ε → Computation ε' σ α} {s t : σ} {e : ε}
    {r : EStateM.Result ε' σ α} (h : c.Results s (.error e t)) (hr : (handler e).Results t r) :
    (c.handling handler).Results s r := by
  obtain ⟨n, hn⟩ := h
  obtain ⟨m, hm⟩ := hr
  refine ⟨max n m, Option.bind_eq_some_iff.mpr ⟨_, c.stable (Nat.le_max_left n m) hn, ?_⟩⟩
  exact (handler e).stable (Nat.le_max_right n m) hm

theorem results_within {part : σ → τ} {put : τ → σ → σ} {raise : ε → ε'} {c : Computation ε τ α} {s : σ}
    {r : EStateM.Result ε' σ α} :
    (c.within part put raise).Results s r ↔ ∃ r', c.Results (part s) r' ∧ enclose put raise s r' = r := by
  constructor
  · rintro ⟨n, hn⟩
    obtain ⟨r', hc, hr⟩ := Option.map_eq_some_iff.mp hn
    exact ⟨r', ⟨n, hc⟩, hr⟩
  · rintro ⟨r', ⟨n, hn⟩, hr⟩
    exact ⟨n, Option.map_eq_some_iff.mpr ⟨r', hn, hr⟩⟩

theorem ends_within {part : σ → τ} {put : τ → σ → σ} {raise : ε → ε'} {c : Computation ε τ α} {s : σ} :
    (c.within part put raise).Ends s ↔ c.Ends (part s) := by
  constructor
  · rintro ⟨r, hr⟩
    obtain ⟨r', hc, -⟩ := results_within.mp hr
    exact hc.ends
  · rintro ⟨r', hc⟩
    exact ⟨_, results_within.mpr ⟨r', hc, rfl⟩⟩

theorem results_loop_error {body : β → Computation ε σ (β ⊕ α)} {b : β} {s t : σ} {e : ε}
    (h : (body b).Results s (.error e t)) : (loop body b).Results s (.error e t) := by
  obtain ⟨n, hn⟩ := h
  refine ⟨n + 1, ?_⟩
  simp only [loop, loopRun, (body b).stable (Nat.le_succ n) hn]

/-! ### What is allowed -/

/-- From the state `s`, the computation returns only as `returns` allows, throws only as
`throws` does, and runs on only if `runsOn`. -/
structure Does (c : Computation ε σ α) (s : σ) (returns : α → σ → Prop) (throws : ε → σ → Prop) (runsOn : Prop) :
    Prop where
  returned : ∀ {a t}, c.Results s (.ok a t) → returns a t
  thrown : ∀ {e t}, c.Results s (.error e t) → throws e t
  ranOn : ¬ c.Ends s → runsOn

namespace Does

variable {c : Computation ε σ α} {s t : σ} {a : α} {e : ε} {P P' : α → σ → Prop} {Q : β → σ → Prop}
  {E E' : ε → σ → Prop} {D D' : Prop}

theorem of_ok (h : c.Results s (.ok a t)) (ha : P a t) : Does c s P E D := by
  refine ⟨fun h' => ?_, fun h' => (nomatch h.unique h'), fun hends => absurd h.ends hends⟩
  cases h.unique h'
  exact ha

theorem of_error (h : c.Results s (.error e t)) (he : E e t) : Does c s P E D := by
  refine ⟨fun h' => (nomatch h.unique h'), fun h' => ?_, fun hends => absurd h.ends hends⟩
  cases h.unique h'
  exact he

theorem pure (ha : P a s) : Does (pure a) s P E D := of_ok ⟨0, rfl⟩ ha

/-- Anything may be allowed of a computation. -/
theorem anything (c : Computation ε σ α) (s : σ) : Does c s (fun _ _ => True) (fun _ _ => True) True :=
  ⟨fun _ => trivial, fun _ => trivial, fun _ => trivial⟩

theorem mono (h : Does c s P E D) (hP : ∀ a t, P a t → P' a t) (hE : ∀ e t, E e t → E' e t) (hD : D → D') :
    Does c s P' E' D' :=
  ⟨fun hr => hP _ _ (h.returned hr), fun hr => hE _ _ (h.thrown hr), fun hends => hD (h.ranOn hends)⟩

theorem bind {f : α → Computation ε σ β} (h : Does c s P E D) (hf : ∀ a t, P a t → Does (f a) t Q E D) :
    Does (c >>= f) s Q E D := by
  constructor
  · intro b u hr
    rcases results_bind hr with ⟨a, t, hc, hb⟩ | ⟨e, t, -, ⟨⟩⟩
    exact (hf a t (h.returned hc)).returned hb
  · intro e u hr
    rcases results_bind hr with ⟨a, t, hc, hb⟩ | ⟨e, t, hc, ⟨⟩⟩
    · exact (hf a t (h.returned hc)).thrown hb
    · exact h.thrown hc
  · intro hends
    by_cases hc : c.Ends s
    · obtain ⟨r, hr⟩ := hc
      cases r with
      | ok a t => exact (hf a t (h.returned hr)).ranOn fun hf => hends ((ends_bind_of_ok hr).mpr hf)
      | error e t => exact absurd (hr.bind_error f).ends hends
    · exact h.ranOn hc

theorem gets_bind {f : σ → α} {k : α → Computation ε σ β} (h : Does (k (f s)) s Q E D) :
    Does (gets f >>= k) s Q E D := by
  have hgets : Does (gets f) s (fun a t => a = f s ∧ t = s) E D := .of_ok ⟨0, rfl⟩ ⟨rfl, rfl⟩
  refine hgets.bind ?_
  rintro _ _ ⟨rfl, rfl⟩
  exact h

theorem handling {handler : ε → Computation ε' σ α} {E' : ε' → σ → Prop} (h : Does c s P E D)
    (hh : ∀ e t, E e t → Does (handler e) t P E' D) : Does (c.handling handler) s P E' D := by
  constructor
  · intro a u hr
    rcases results_handling hr with ⟨a, t, hc, ⟨⟩⟩ | ⟨e, t, hc, hr⟩
    · exact h.returned hc
    · exact (hh e t (h.thrown hc)).returned hr
  · intro e' u hr
    rcases results_handling hr with ⟨a, t, -, ⟨⟩⟩ | ⟨e, t, hc, hr⟩
    exact (hh e t (h.thrown hc)).thrown hr
  · intro hends
    by_cases hc : c.Ends s
    · obtain ⟨r, hr⟩ := hc
      cases r with
      | ok a t => exact absurd (hr.handling_ok handler).ends hends
      | error e t => exact (hh e t (h.thrown hr)).ranOn fun ⟨r, hr'⟩ => hends (hr.handling_error hr').ends
    · exact h.ranOn hc

theorem within {part : σ → τ} {put : τ → σ → σ} {raise : ε → ε'} {c : Computation ε τ α} {P : α → τ → Prop}
    {E : ε → τ → Prop} {P' : α → σ → Prop} {E' : ε' → σ → Prop} (h : Does c (part s) P E D)
    (hP : ∀ a t, P a t → P' a (put t s)) (hE : ∀ e t, E e t → E' (raise e) (put t s)) :
    Does (c.within part put raise) s P' E' D := by
  refine ⟨fun hr => ?_, fun hr => ?_, fun hends => h.ranOn fun hc => hends (ends_within.mpr hc)⟩
  · obtain ⟨r', hc, hr'⟩ := results_within.mp hr
    cases r' <;> cases hr'
    exact hP _ _ (h.returned hc)
  · obtain ⟨r', hc, hr'⟩ := results_within.mp hr
    cases r' <;> cases hr'
    exact hE _ _ (h.thrown hc)

section Loop

variable {body : β → Computation ε σ (β ⊕ α)} {inv : ℕ → β → σ → Prop} {b : β}

theorem of_loopRun (hbody : ∀ n b s, inv n b s → Does (body b) s (Sum.elim (inv (n + 1)) P) E D) {fuel n : ℕ}
    (hinv : inv n b s) {r : EStateM.Result ε σ α} (hr : loopRun body fuel b s = some r) :
    (∀ a t, r = .ok a t → P a t) ∧ ∀ e t, r = .error e t → E e t := by
  induction fuel generalizing n b s with
  | zero => cases hr
  | succ fuel ih =>
    rw [loopRun] at hr
    have hround := hbody n b s hinv
    cases hb : (body b).run (fuel + 1) s with
    | none =>
      rw [hb] at hr
      cases hr
    | some r' =>
      rw [hb] at hr
      have hresults : (body b).Results s r' := ⟨_, hb⟩
      rcases r' with ⟨b' | a, t⟩ | ⟨e, t⟩
      · exact ih (hround.returned hresults) hr
      · cases hr
        constructor
        · rintro a t ⟨⟩
          exact hround.returned hresults
        · rintro e t ⟨⟩
      · cases hr
        constructor
        · rintro a t ⟨⟩
        · rintro e t ⟨⟩
          exact hround.thrown hresults

/-- Where a loop runs on and no round does, every round is followed by another one, from
which the loop still runs on. -/
theorem exists_round (hbody : ∀ n b s, inv n b s → Does (body b) s (Sum.elim (inv (n + 1)) P) E False) (h : inv 0 b s)
    (hrunsOn : ¬ (Computation.loop body b).Ends s) (n : ℕ) :
    ∃ b s, inv n b s ∧ ¬ (Computation.loop body b).Ends s := by
  induction n with
  | zero => exact ⟨b, s, h, hrunsOn⟩
  | succ n ih =>
    obtain ⟨b, s, hinv, hloop⟩ := ih
    obtain ⟨r, hr⟩ := not_not.mp (hbody n b s hinv).ranOn
    rcases r with ⟨b' | a, t⟩ | ⟨e, t⟩
    · refine ⟨b', t, (hbody n b s hinv).returned hr, ?_⟩
      rintro ⟨r, hr'⟩
      exact hloop (results_loop_next hr hr').ends
    · exact absurd (results_loop_done hr).ends hloop
    · exact absurd (results_loop_error hr).ends hloop

/-- The invariant of a loop knows how many rounds have been made. It runs on if a round
does, or if there is no last round. -/
theorem loop (inv : ℕ → β → σ → Prop) (hbody : ∀ n b s, inv n b s → Does (body b) s (Sum.elim (inv (n + 1)) P) E D)
    (hforever : (∀ n, ∃ b s, inv n b s) → D) (h : inv 0 b s) : Does (loop body b) s P E D := by
  constructor
  · rintro a t ⟨fuel, hr⟩
    exact (of_loopRun hbody h hr).1 a t rfl
  · rintro e t ⟨fuel, hr⟩
    exact (of_loopRun hbody h hr).2 e t rfl
  · intro hrunsOn
    by_contra hD
    have hterminates : ∀ n b s, inv n b s → Does (body b) s (Sum.elim (inv (n + 1)) P) E False := fun n b s hinv =>
      (hbody n b s hinv).mono (fun _ _ => id) (fun _ _ => id) hD
    refine hD (hforever fun n => ?_)
    obtain ⟨b, s, hinv, -⟩ := exists_round hterminates h hrunsOn n
    exact ⟨b, s, hinv⟩

end Loop

end Does

end Computation

end EpollChat.Loops
