import Mathlib.Data.List.Basic
import Mathlib.Data.Nat.Notation

/-! Scanners. A scanner reads symbols one at a time from a buffer that need not
hold the whole message yet: it returns a result, finds the input malformed, or
finds it incomplete. A lawful scanner consumes a prefix of what is unread, reads
at most `limit + 1` symbols, and an outcome other than incomplete is the same
whatever is appended to the buffer. Lawful scanners are closed under sequencing,
so a parser built from `next` is lawful by construction. -/

namespace EpollChat.Framing

variable {β α γ : Type}

/-- The unread symbols, and the number of symbols read so far. -/
structure Cursor (β : Type) where
  unread : List β
  count : ℕ

inductive Stop where
  | malformed
  | incomplete
  deriving DecidableEq

abbrev Scan (β α : Type) := EStateM Stop (Cursor β) α

/-- The cursor after more input has arrived. -/
def Cursor.extend (s : Cursor β) (more : List β) : Cursor β := ⟨s.unread ++ more, s.count⟩

/-- The cursor where an outcome leaves the scan. -/
def cursorOf : EStateM.Result Stop (Cursor β) α → Cursor β
  | .ok _ s => s
  | .error _ s => s

@[simp] theorem cursorOf_ok (a : α) (s : Cursor β) : cursorOf (.ok a s : EStateM.Result Stop _ α) = s := rfl

@[simp] theorem cursorOf_error (e : Stop) (s : Cursor β) :
    cursorOf (.error e s : EStateM.Result Stop _ α) = s := rfl

/-- `t` is reached from `s` by reading symbols. -/
def Reads (s t : Cursor β) : Prop := ∃ read, s.unread = read ++ t.unread ∧ t.count = s.count + read.length

theorem Reads.refl (s : Cursor β) : Reads s s := ⟨[], rfl, rfl⟩

theorem Reads.trans {s t u : Cursor β} (h₁ : Reads s t) (h₂ : Reads t u) : Reads s u := by
  obtain ⟨r₁, hu₁, hc₁⟩ := h₁
  obtain ⟨r₂, hu₂, hc₂⟩ := h₂
  exact ⟨r₁ ++ r₂, by rw [hu₁, hu₂, List.append_assoc], by rw [hc₂, hc₁, List.length_append, Nat.add_assoc]⟩

/-! ### Sequencing -/

theorem pure_apply (a : α) (s : Cursor β) : (pure a : Scan β α) s = .ok a s := rfl

theorem throw_apply (e : Stop) (s : Cursor β) : (throw e : Scan β α) s = .error e s := rfl

theorem get_apply (s : Cursor β) : (get : Scan β (Cursor β)) s = .ok s s := rfl

theorem bind_of_ok {m : Scan β α} {f : α → Scan β γ} {s t : Cursor β} {a : α} (h : m s = .ok a t) :
    (m >>= f) s = f a t := by
  simp only [bind, EStateM.bind, h]

theorem bind_of_error {m : Scan β α} {f : α → Scan β γ} {s t : Cursor β} {e : Stop} (h : m s = .error e t) :
    (m >>= f) s = .error e t := by
  simp only [bind, EStateM.bind, h]

theorem bind_eq_ok {m : Scan β α} {f : α → Scan β γ} {s t : Cursor β} {c : γ} (h : (m >>= f) s = .ok c t) :
    ∃ a u, m s = .ok a u ∧ f a u = .ok c t := by
  cases hr : m s with
  | ok a u => exact ⟨a, u, rfl, by rwa [bind_of_ok hr] at h⟩
  | error e u => rw [bind_of_error hr] at h; cases h

/-! ### Lawful scanners -/

structure Lawful (limit : ℕ) (m : Scan β α) : Prop where
  ok : ∀ {s t a}, m s = .ok a t → ∀ more, m (s.extend more) = .ok a (t.extend more)
  malformed : ∀ {s t}, m s = .error .malformed t →
    ∀ more, m (s.extend more) = .error .malformed (t.extend more)
  reads : ∀ s, Reads s (cursorOf (m s))
  bounded : ∀ s, s.count ≤ limit + 1 → (cursorOf (m s)).count ≤ limit + 1

namespace Lawful

variable {limit : ℕ}

protected theorem pure (a : α) : Lawful limit (pure a : Scan β α) where
  ok h _ := by rw [pure_apply] at h ⊢; cases h; rfl
  malformed h _ := by rw [pure_apply] at h; cases h
  reads s := Reads.refl s
  bounded _ hs := hs

protected theorem throw (e : Stop) : Lawful limit (throw e : Scan β α) where
  ok h _ := by rw [throw_apply] at h; cases h
  malformed h _ := by rw [throw_apply] at h ⊢; cases h; rfl
  reads s := Reads.refl s
  bounded _ hs := hs

protected theorem bind {m : Scan β α} {f : α → Scan β γ} (hm : Lawful limit m)
    (hf : ∀ a, Lawful limit (f a)) : Lawful limit (m >>= f) where
  ok {s t c} h more := by
    cases hr : m s with
    | ok a u =>
      rw [bind_of_ok hr] at h
      rw [bind_of_ok (hm.ok hr more)]
      exact (hf a).ok h more
    | error e u => rw [bind_of_error hr] at h; cases h
  malformed {s t} h more := by
    cases hr : m s with
    | ok a u =>
      rw [bind_of_ok hr] at h
      rw [bind_of_ok (hm.ok hr more)]
      exact (hf a).malformed h more
    | error e u =>
      rw [bind_of_error hr] at h
      cases h
      exact bind_of_error (hm.malformed hr more)
  reads s := by
    have hs := hm.reads s
    cases hr : m s with
    | ok a u =>
      rw [hr] at hs
      rw [bind_of_ok hr]
      exact hs.trans ((hf a).reads u)
    | error e u =>
      rw [hr] at hs
      rw [bind_of_error hr]
      exact hs
  bounded s hs := by
    have hb := hm.bounded s hs
    cases hr : m s with
    | ok a u =>
      rw [hr] at hb
      rw [bind_of_ok hr]
      exact (hf a).bounded u hb
    | error e u =>
      rw [hr] at hb
      rw [bind_of_error hr]
      exact hb

protected theorem ite {p : Prop} [Decidable p] {m n : Scan β α} (hm : Lawful limit m) (hn : Lawful limit n) :
    Lawful limit (if p then m else n) := by
  split
  · exact hm
  · exact hn

end Lawful

/-! ### One symbol -/

/-- Read one symbol. More than `limit` symbols read is malformed input, whether
or not another symbol is there; only below the limit is an empty buffer
incomplete. -/
def next (limit : ℕ) : Scan β β := fun s =>
  if s.count > limit then .error .malformed s
  else match s.unread with
    | [] => .error .incomplete s
    | b :: rest => .ok b ⟨rest, s.count + 1⟩

theorem next_cons {limit count : ℕ} (h : count ≤ limit) (b : β) (rest : List β) :
    next limit ⟨b :: rest, count⟩ = .ok b ⟨rest, count + 1⟩ := by
  simp [next, Nat.not_lt.mpr h]

theorem next_overflow {limit count : ℕ} (h : limit < count) (unread : List β) :
    next limit ⟨unread, count⟩ = .error .malformed ⟨unread, count⟩ := by
  simp [next, h]

theorem next_nil {limit count : ℕ} (h : count ≤ limit) :
    next (β := β) limit ⟨[], count⟩ = .error .incomplete ⟨[], count⟩ := by
  simp [next, Nat.not_lt.mpr h]

/-- The three outcomes of `next`. -/
theorem next_cases (limit : ℕ) (s : Cursor β) :
    (limit < s.count ∧ next limit s = .error .malformed s) ∨
    (s.count ≤ limit ∧ s.unread = [] ∧ next limit s = .error .incomplete s) ∨
    (s.count ≤ limit ∧ ∃ b rest, s.unread = b :: rest ∧ next limit s = .ok b ⟨rest, s.count + 1⟩) := by
  obtain ⟨unread, count⟩ := s
  rcases Nat.lt_or_ge limit count with h | h
  · exact .inl ⟨h, next_overflow h unread⟩
  · cases unread with
    | nil => exact .inr (.inl ⟨h, rfl, next_nil h⟩)
    | cons b rest => exact .inr (.inr ⟨h, b, rest, rfl, next_cons h b rest⟩)

theorem lawful_next (limit : ℕ) : Lawful limit (next limit : Scan β β) where
  ok {s t a} h more := by
    rcases next_cases limit s with ⟨-, he⟩ | ⟨-, -, he⟩ | ⟨hs, b, rest, hu, he⟩
    · rw [he] at h; cases h
    · rw [he] at h; cases h
    · rw [he] at h
      cases h
      simp only [Cursor.extend, hu, List.cons_append]
      exact next_cons hs _ _
  malformed {s t} h more := by
    rcases next_cases limit s with ⟨hs, he⟩ | ⟨-, -, he⟩ | ⟨-, b, rest, -, he⟩
    · rw [he] at h
      cases h
      exact next_overflow hs _
    · rw [he] at h; cases h
    · rw [he] at h; cases h
  reads s := by
    rcases next_cases limit s with ⟨-, he⟩ | ⟨-, -, he⟩ | ⟨-, b, rest, hu, he⟩
    · rw [he]; exact Reads.refl s
    · rw [he]; exact Reads.refl s
    · rw [he]; exact ⟨[b], hu, rfl⟩
  bounded s hs := by
    rcases next_cases limit s with ⟨-, he⟩ | ⟨-, -, he⟩ | ⟨hl, b, rest, -, he⟩
    · rw [he]; exact hs
    · rw [he]; exact hs
    · rw [he]; exact Nat.succ_le_succ hl

/-! ### Progress -/

/-- Started afresh, the scan reads something unless it is incomplete. -/
def Begins (m : Scan β α) : Prop :=
  ∀ buf, (∃ t, m ⟨buf, 0⟩ = .error .incomplete t) ∨ 0 < (cursorOf (m ⟨buf, 0⟩)).count

theorem begins_next (limit : ℕ) : Begins (next limit : Scan β β) := by
  intro buf
  rcases next_cases limit ⟨buf, 0⟩ with ⟨h, -⟩ | ⟨-, -, he⟩ | ⟨-, b, rest, -, he⟩
  · exact absurd h (Nat.not_lt_zero _)
  · exact .inl ⟨_, he⟩
  · exact .inr (by rw [he]; exact Nat.one_pos)

theorem Begins.bind {limit : ℕ} {m : Scan β α} {f : α → Scan β γ} (hm : Begins m)
    (hf : ∀ a, Lawful limit (f a)) : Begins (m >>= f) := by
  intro buf
  have hb := hm buf
  cases hr : m ⟨buf, 0⟩ with
  | ok a t =>
    rw [hr] at hb
    rw [bind_of_ok hr]
    obtain ⟨read, -, hc⟩ := (hf a).reads t
    rcases hb with ⟨_, h⟩ | h
    · cases h
    · rw [cursorOf_ok] at h
      exact .inr (by omega)
  | error e t =>
    rw [hr] at hb
    rw [bind_of_error hr]
    rcases hb with ⟨u, h⟩ | h
    · cases h; exact .inl ⟨t, rfl⟩
    · exact .inr h

end EpollChat.Framing
