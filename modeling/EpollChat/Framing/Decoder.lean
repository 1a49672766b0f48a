import EpollChat.Framing.Scan

/-! Incremental decoding of a stream of frames. A step on the buffered symbols
either cuts off a non-empty frame at the front, delivered as a message or
rejected, or needs more input; what it cuts off does not depend on what comes
after. Draining repeats the step until it needs more input. The main law is that
the buffer may be drained at any point of the stream: the messages and what is
left are those of the whole stream drained at once. -/

namespace EpollChat.Framing

variable {β μ : Type}

inductive Step (β μ : Type) where
  | incomplete
  | frame (out : Option μ) (rest : List β)

structure Decoder (β μ : Type) where
  step : List β → Step β μ
  progress : ∀ {buf out rest}, step buf = .frame out rest → ∃ head, head ≠ [] ∧ buf = head ++ rest
  stable : ∀ {buf out rest}, step buf = .frame out rest →
    ∀ more, step (buf ++ more) = .frame out (rest ++ more)

namespace Decoder

variable (d : Decoder β μ)

theorem length_lt {buf rest : List β} {out : Option μ} (h : d.step buf = .frame out rest) :
    rest.length < buf.length := by
  obtain ⟨head, hne, rfl⟩ := d.progress h
  have := List.length_pos_of_ne_nil hne
  rw [List.length_append]
  omega

theorem step_nil : d.step [] = .incomplete := by
  cases h : d.step [] with
  | incomplete => rfl
  | frame out rest => exact absurd (d.length_lt h) (Nat.not_lt_zero _)

/-! ### Draining -/

/-- At most `fuel` steps. -/
def drainLoop : ℕ → List β → List μ × List β
  | 0, buf => ([], buf)
  | fuel + 1, buf => match d.step buf with
    | .incomplete => ([], buf)
    | .frame out rest => (out.toList ++ (drainLoop fuel rest).1, (drainLoop fuel rest).2)

/-- The messages of a buffer, and what is left of it. Every step removes a
symbol, so there is fuel enough. -/
def drain (buf : List β) : List μ × List β := d.drainLoop buf.length buf

theorem drainLoop_of_incomplete {buf : List β} (h : d.step buf = .incomplete) (fuel : ℕ) :
    d.drainLoop fuel buf = ([], buf) := by
  cases fuel with
  | zero => rfl
  | succ fuel => simp only [drainLoop, h]

theorem drainLoop_eq_drain {fuel : ℕ} {buf : List β} (h : buf.length ≤ fuel) :
    d.drainLoop fuel buf = d.drain buf := by
  suffices ∀ n m : ℕ, ∀ buf : List β, buf.length ≤ n → buf.length ≤ m →
      d.drainLoop n buf = d.drainLoop m buf from this _ _ _ h (Nat.le_refl _)
  intro n
  induction n with
  | zero =>
    intro m buf hn _
    obtain rfl := List.length_eq_zero_iff.mp (Nat.le_zero.mp hn)
    rw [d.drainLoop_of_incomplete d.step_nil, d.drainLoop_of_incomplete d.step_nil]
  | succ n ih =>
    intro m buf hn hm
    cases hs : d.step buf with
    | incomplete => rw [d.drainLoop_of_incomplete hs, d.drainLoop_of_incomplete hs]
    | frame out rest =>
      have hlt := d.length_lt hs
      obtain ⟨m, rfl⟩ : ∃ k, m = k + 1 := ⟨m - 1, by omega⟩
      simp only [drainLoop, hs]
      rw [ih m rest (by omega) (by omega)]

theorem drain_of_incomplete {buf : List β} (h : d.step buf = .incomplete) : d.drain buf = ([], buf) :=
  d.drainLoop_of_incomplete h _

theorem drain_of_frame {buf rest : List β} {out : Option μ} (h : d.step buf = .frame out rest) :
    d.drain buf = (out.toList ++ (d.drain rest).1, (d.drain rest).2) := by
  have hlt := d.length_lt h
  rw [← d.drainLoop_eq_drain (Nat.le_succ buf.length)]
  simp only [drainLoop, h]
  rw [d.drainLoop_eq_drain (Nat.le_of_lt hlt)]

@[simp] theorem drain_nil : d.drain [] = ([], []) := d.drain_of_incomplete d.step_nil

/-- Induction along the frames of a buffer. -/
theorem frameInduction {motive : List β → Prop}
    (incomplete : ∀ buf, d.step buf = .incomplete → motive buf)
    (frame : ∀ buf out rest, d.step buf = .frame out rest → motive rest → motive buf)
    (buf : List β) : motive buf := by
  induction hn : buf.length using Nat.strongRecOn generalizing buf with
  | _ n ih =>
    cases hs : d.step buf with
    | incomplete => exact incomplete buf hs
    | frame out rest => exact frame buf out rest hs (ih _ (hn ▸ d.length_lt hs) rest rfl)

/-- What draining leaves needs more input. -/
theorem step_drain (buf : List β) : d.step (d.drain buf).2 = .incomplete := by
  induction buf using d.frameInduction with
  | incomplete buf h => rwa [d.drain_of_incomplete h]
  | frame buf out rest h ih => rwa [d.drain_of_frame h]

/-- The stream may be drained at any point. -/
theorem drain_append (buf more : List β) :
    d.drain (buf ++ more) =
      ((d.drain buf).1 ++ (d.drain ((d.drain buf).2 ++ more)).1, (d.drain ((d.drain buf).2 ++ more)).2) := by
  induction buf using d.frameInduction with
  | incomplete buf h => rw [d.drain_of_incomplete h]; rfl
  | frame buf out rest h ih =>
    rw [d.drain_of_frame (d.stable h more), d.drain_of_frame h, ih]
    simp only [List.append_assoc]

/-- Consecutive messages are found one after the other. -/
theorem drain_append_of_eq {buf : List β} {out : List μ} (h : d.drain buf = (out, [])) (more : List β) :
    d.drain (buf ++ more) = (out ++ (d.drain more).1, (d.drain more).2) := by
  rw [d.drain_append, h, List.nil_append]

theorem drain_flatMap {ι : Type} (encode : ι → List β) (out : ι → List μ) (items : List ι)
    (h : ∀ i ∈ items, d.drain (encode i) = (out i, [])) :
    d.drain (items.flatMap encode) = (items.flatMap out, []) := by
  induction items with
  | nil => exact d.drain_nil
  | cons i items ih =>
    rw [List.flatMap_cons, List.flatMap_cons, d.drain_append_of_eq (h i (by simp)),
      ih fun j hj => h j (by simp [hj])]

/-! ### The frames of a buffer -/

/-- The buffer is cut into frames, each with what was found in it, and what is kept. -/
inductive Cut : List β → List (List β × Option μ) → List β → Prop
  | kept {buf : List β} (h : d.step buf = .incomplete) : Cut buf [] buf
  | frame {bytes rest kept : List β} {out : Option μ} {frames : List (List β × Option μ)} (hne : bytes ≠ [])
      (h : d.step (bytes ++ rest) = .frame out rest) (hrest : Cut rest frames kept) :
      Cut (bytes ++ rest) ((bytes, out) :: frames) kept

/-- Draining cuts the buffer into frames. -/
theorem exists_cut (buf : List β) :
    ∃ frames, d.Cut buf frames (d.drain buf).2 ∧ (d.drain buf).1 = frames.filterMap Prod.snd := by
  induction buf using d.frameInduction with
  | incomplete buf h =>
    rw [d.drain_of_incomplete h]
    exact ⟨[], .kept h, rfl⟩
  | frame buf out rest h ih =>
    obtain ⟨frames, hcut, hfound⟩ := ih
    obtain ⟨bytes, hne, rfl⟩ := d.progress h
    rw [d.drain_of_frame h, hfound]
    refine ⟨(bytes, out) :: frames, .frame hne h hcut, ?_⟩
    cases out <;> rfl

namespace Cut

variable {d} {buf kept : List β} {frames : List (List β × Option μ)}

theorem flatten_eq (h : d.Cut buf frames kept) : buf = (frames.map Prod.fst).flatten ++ kept := by
  induction h with
  | kept h => rfl
  | frame hne h hrest ih => rw [ih, List.map_cons, List.flatten_cons, List.append_assoc]

/-- Each frame was cut off the front of the bytes from its start on. -/
theorem step_frame (h : d.Cut buf frames kept) {before after : List (List β × Option μ)} {bytes : List β}
    {out : Option μ} (hf : frames = before ++ (bytes, out) :: after) :
    bytes ≠ [] ∧ d.step (bytes ++ ((after.map Prod.fst).flatten ++ kept)) =
      .frame out ((after.map Prod.fst).flatten ++ kept) := by
  induction h generalizing before with
  | kept h => simp at hf
  | frame hne h hrest ih =>
    cases before with
    | nil =>
      rw [List.nil_append] at hf
      cases hf
      rw [← hrest.flatten_eq]
      exact ⟨hne, h⟩
    | cons first before =>
      rw [List.cons_append] at hf
      exact ih (List.cons.inj hf).2

end Cut

/-! ### Feeding in pieces -/

/-- Drain after every piece, keeping what is left for the next one. -/
def feed (held : List β) : List (List β) → List μ × List β
  | [] => ([], held)
  | piece :: pieces =>
    let now := d.drain (held ++ piece)
    let later := feed now.2 pieces
    (now.1 ++ later.1, later.2)

/-- The pieces do not matter, once what is held needs more input. -/
theorem feed_eq_drain {held : List β} (h : d.step held = .incomplete) (pieces : List (List β)) :
    d.feed held pieces = d.drain (held ++ pieces.flatten) := by
  induction pieces generalizing held with
  | nil => rw [List.flatten_nil, List.append_nil, d.drain_of_incomplete h]; rfl
  | cons piece pieces ih =>
    rw [List.flatten_cons, ← List.append_assoc, d.drain_append, feed, ih (d.step_drain _)]

theorem feed_nil_eq_drain (pieces : List (List β)) : d.feed [] pieces = d.drain pieces.flatten :=
  d.feed_eq_drain d.step_nil pieces

end Decoder

/-! ### The decoder of a scanner -/

/-- One frame by a scanner started at the front of the buffer. -/
def scanStep (m : Scan β μ) (buf : List β) : Step β μ :=
  match m ⟨buf, 0⟩ with
  | .ok out s => .frame (some out) s.unread
  | .error .malformed s => .frame none s.unread
  | .error .incomplete _ => .incomplete

/-- A lawful scanner that reads something before it ends is a decoder. -/
def Decoder.ofScan {limit : ℕ} (m : Scan β μ) (hm : Lawful limit m) (hb : Begins m) : Decoder β μ where
  step := scanStep m
  progress {buf out rest} h := by
    obtain ⟨head, hu, hc⟩ := hm.reads ⟨buf, 0⟩
    have hpos := hb buf
    simp only [scanStep] at h
    cases hr : m ⟨buf, 0⟩ with
    | ok a t =>
      simp only [hr, Step.frame.injEq, cursorOf_ok, reduceCtorEq, exists_false, false_or] at h hu hc hpos
      exact ⟨head, by rintro rfl; simp [hc] at hpos, by rw [← h.2, hu]⟩
    | error e t =>
      cases e with
      | incomplete => simp only [hr, reduceCtorEq] at h
      | malformed =>
        simp only [hr, Step.frame.injEq, cursorOf_error, EStateM.Result.error.injEq, reduceCtorEq,
          false_and, exists_false, false_or] at h hu hc hpos
        exact ⟨head, by rintro rfl; simp [hc] at hpos, by rw [← h.2, hu]⟩
  stable {buf out rest} h more := by
    have hext : (⟨buf ++ more, 0⟩ : Cursor β) = Cursor.extend ⟨buf, 0⟩ more := rfl
    simp only [scanStep] at h ⊢
    cases hr : m ⟨buf, 0⟩ with
    | ok a t =>
      simp only [hr, Step.frame.injEq] at h
      rw [hext, hm.ok hr more, ← h.1, ← h.2]
      rfl
    | error e t =>
      cases e with
      | incomplete => simp only [hr, reduceCtorEq] at h
      | malformed =>
        simp only [hr, Step.frame.injEq] at h
        rw [hext, hm.malformed hr more, ← h.1, ← h.2]
        rfl

end EpollChat.Framing
