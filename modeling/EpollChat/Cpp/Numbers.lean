import Mathlib.Data.List.Induction
import Mathlib.Data.List.TakeWhile
import Mathlib.Data.Nat.Notation

/-! Bytes, and the two conversions of the standard library that the wire format
rests on: `std::to_string` of a `size_t` and `std::stoul` in base ten. A
`size_t` and an `unsigned long` are 64 bits wide. -/

namespace EpollChat.Cpp

/-- A `char`. -/
abbrev Byte := UInt8

/-- The value of a `std::string` or of a `std::vector<char>`. -/
abbrev Bytes := List Byte

/-- A literal. -/
def bytes (literal : List Char) : Bytes := literal.map Char.toUInt8

def isspace (b : Byte) : Bool := b = 32 || (9 ≤ b && b ≤ 13)

def isdigit (b : Byte) : Bool := 48 ≤ b && b ≤ 57

/-- `std::to_string`: the decimal digits, most significant first. -/
def toString (n : UInt64) : Bytes := bytes (Nat.toDigits 10 n.toNat)

/-- The number written by a string of digits. -/
def digitsValue (digits : Bytes) : ℕ :=
  Nat.ofDigitChars 10 (digits.map fun b => Char.ofNat b.toNat) 0

/-- The optional sign, and what follows it. -/
def splitSign : Bytes → Bool × Bytes
  | 45 :: rest => (true, rest)
  | 43 :: rest => (false, rest)
  | s => (false, s)

/-- `std::stoul`: leading blanks, an optional sign, digits; what follows the
digits is ignored and a minus negates modulo `2 ^ 64`. `none` is an exception:
no digit at all, or a magnitude of `2 ^ 64` or more. -/
def stoul (s : Bytes) : Option UInt64 :=
  let (negative, rest) := splitSign (s.dropWhile isspace)
  let digits := rest.takeWhile isdigit
  if digits = [] then none
  else if UInt64.size ≤ digitsValue digits then none
  else
    let magnitude := UInt64.ofNat (digitsValue digits)
    some (if negative then -magnitude else magnitude)

example : stoul (bytes [' ', '-', '1', 'x']) = some 18446744073709551615 := by decide

/-! ### The digits of a number -/

theorem toNat_of_isDigit {c : Char} (h : c.isDigit) : 48 ≤ c.toNat ∧ c.toNat ≤ 57 := by
  simpa [Char.isDigit, UInt32.le_iff_toNat_le] using h

theorem toNat_toUInt8_of_isDigit {c : Char} (h : c.isDigit) : c.toUInt8.toNat = c.toNat := by
  have hc := toNat_of_isDigit h
  simp only [Char.toUInt8, UInt32.toNat_toUInt8]
  exact Nat.mod_eq_of_lt (show c.toNat < 2 ^ 8 by omega)

theorem isdigit_of_mem_toString {n : UInt64} {b : Byte} (h : b ∈ toString n) : isdigit b := by
  obtain ⟨c, hc, rfl⟩ := List.mem_map.mp h
  have hd := Nat.isDigit_of_mem_toDigits (by decide) (by decide) hc
  simp [isdigit, UInt8.le_iff_toNat_le, toNat_toUInt8_of_isDigit hd, toNat_of_isDigit hd]

theorem toString_ne_nil (n : UInt64) : toString n ≠ [] := by
  simp [toString, bytes, Nat.toDigits_ne_nil]

/-- No digit is a null byte. -/
theorem zero_not_mem_toString (n : UInt64) : 0 ∉ toString n :=
  fun h => absurd (isdigit_of_mem_toString h) (by decide)

/-- The largest `size_t` has twenty digits. -/
theorem length_toString_le (n : UInt64) : (toString n).length ≤ 20 := by
  rw [toString, bytes, List.length_map, Nat.length_toDigits_le_iff (by decide) (by decide)]
  exact lt_of_lt_of_le n.toNat_lt (by decide)

theorem digitsValue_toString (n : UInt64) : digitsValue (toString n) = n.toNat := by
  rw [digitsValue, toString, bytes, List.map_map]
  have hid : (Nat.toDigits 10 n.toNat).map ((fun b => Char.ofNat b.toNat) ∘ Char.toUInt8) =
      Nat.toDigits 10 n.toNat := by
    refine (List.map_congr_left fun c hc => ?_).trans (List.map_id _)
    have hd := Nat.isDigit_of_mem_toDigits (by decide) (by decide) hc
    simp [Function.comp, toNat_toUInt8_of_isDigit hd]
  rw [hid, Nat.ofDigitChars_ten_toDigits]

theorem toString_injective : Function.Injective toString := by
  intro m n h
  exact UInt64.toNat_inj.mp (by rw [← digitsValue_toString, h, digitsValue_toString])

/-! ### Reading a number back -/

theorem isspace_eq_false_of_isdigit {b : Byte} (h : isdigit b) : isspace b = false := by
  simp only [isdigit, isspace, Bool.and_eq_true, decide_eq_true_eq, UInt8.le_iff_toNat_le,
    Bool.or_eq_false_iff, decide_eq_false_iff_not, ← UInt8.toNat_inj] at h ⊢
  refine ⟨?_, ?_⟩
  · intro he; simp [he] at h
  · simp at h ⊢; omega

theorem splitSign_of_isdigit {b : Byte} (h : isdigit b) (rest : Bytes) :
    splitSign (b :: rest) = (false, b :: rest) := by
  unfold splitSign
  split
  · next heq => cases heq; exact absurd h (by decide)
  · next heq => cases heq; exact absurd h (by decide)
  · rfl

/-- `std::stoul` undoes `std::to_string` over the whole range. -/
theorem stoul_toString (n : UInt64) : stoul (toString n) = some n := by
  obtain ⟨b, rest, hs⟩ := List.exists_cons_of_ne_nil (toString_ne_nil n)
  have hall : ∀ c ∈ toString n, isdigit c := fun c hc => isdigit_of_mem_toString hc
  have hb : isdigit b := hall b (by simp [hs])
  have hblank : (toString n).dropWhile isspace = toString n := by
    rw [hs, List.dropWhile_cons_of_neg (by simp [isspace_eq_false_of_isdigit hb])]
  have hsign : splitSign (toString n) = (false, toString n) := by rw [hs, splitSign_of_isdigit hb]
  have hdigits : (toString n).takeWhile isdigit = toString n := List.takeWhile_eq_self_iff.mpr hall
  simp only [stoul, hblank, hsign, hdigits, toString_ne_nil, digitsValue_toString,
    if_neg (Nat.not_le.mpr n.toNat_lt)]
  simp

/-! ### Plain decimals -/

/-- Digits only, without a zero before another digit. -/
def PlainDecimal (s : Bytes) : Prop := s ≠ [] ∧ (∀ b ∈ s, isdigit b) ∧ (s.head? = some 48 → s = [48])

instance (s : Bytes) : Decidable (PlainDecimal s) := inferInstanceAs (Decidable (_ ∧ _))

theorem exists_digit {b : Byte} (h : isdigit b) : ∃ k < 10, b = UInt8.ofNat (48 + k) := by
  simp only [isdigit, Bool.and_eq_true, decide_eq_true_eq, UInt8.le_iff_toNat_le] at h
  simp at h
  refine ⟨b.toNat - 48, by omega, ?_⟩
  rw [Nat.add_sub_of_le h.1, UInt8.ofNat_toNat]

theorem toUInt8_digitChar : ∀ k < 10, (Nat.digitChar k).toUInt8 = UInt8.ofNat (48 + k) := by decide

theorem toNat_ofNat_digit : ∀ k < 10, (Char.ofNat (UInt8.ofNat (48 + k)).toNat).toNat = 48 + k := by decide

theorem digitsValue_concat (s : Bytes) {k : ℕ} (hk : k < 10) :
    digitsValue (s ++ [UInt8.ofNat (48 + k)]) = 10 * digitsValue s + k := by
  have hzero : '0'.toNat = 48 := rfl
  rw [digitsValue, List.map_append, List.map_singleton, Nat.ofDigitChars_append, Nat.ofDigitChars_cons,
    Nat.ofDigitChars_nil, toNat_ofNat_digit k hk, hzero, Nat.add_sub_cancel_left]
  rfl

theorem bytes_toDigits_of_lt {k : ℕ} (hk : k < 10) : bytes (Nat.toDigits 10 k) = [UInt8.ofNat (48 + k)] := by
  rw [Nat.toDigits_of_lt_base hk, bytes, List.map_singleton, toUInt8_digitChar k hk]

/-- A number is written as its digits, if the first of them is not zero. -/
theorem bytes_toDigits_digitsValue {s : Bytes} (hd : ∀ b ∈ s, isdigit b) (hne : s ≠ []) (h0 : s.head? ≠ some 48) :
    bytes (Nat.toDigits 10 (digitsValue s)) = s ∧ 0 < digitsValue s := by
  induction s using List.reverseRecOn with
  | nil => exact absurd rfl hne
  | append_singleton s b ih =>
    rw [List.forall_mem_append, List.forall_mem_singleton] at hd
    obtain ⟨k, hk, rfl⟩ := exists_digit hd.2
    rw [digitsValue_concat s hk]
    by_cases hs : s = []
    · subst hs
      have hzero : digitsValue [] = 0 := rfl
      have hpos : 0 < k := by
        apply Nat.pos_of_ne_zero
        rintro rfl
        exact h0 rfl
      rw [hzero, Nat.mul_zero, Nat.zero_add, bytes_toDigits_of_lt hk]
      exact ⟨rfl, hpos⟩
    · obtain ⟨a, rest, rfl⟩ := List.exists_cons_of_ne_nil hs
      obtain ⟨hdigits, hpos⟩ := ih hd.1 hs h0
      rw [← Nat.toDigits_append_toDigits (by decide) hpos hk, bytes, List.map_append, ← bytes, ← bytes, hdigits,
        bytes_toDigits_of_lt hk]
      exact ⟨rfl, by omega⟩

theorem head?_bytes_toDigits {n : ℕ} (hn : 0 < n) : (bytes (Nat.toDigits 10 n)).head? ≠ some 48 := by
  induction n using Nat.strongRecOn with
  | ind n ih =>
    rcases Nat.lt_or_ge n 10 with h | h
    · rw [bytes_toDigits_of_lt h]
      have hdigit : ∀ k < 10, 0 < k → [UInt8.ofNat (48 + k)].head? ≠ some 48 := by decide
      exact hdigit n h hn
    · obtain ⟨b, rest, hb⟩ := List.exists_cons_of_ne_nil (Nat.toDigits_ne_nil : Nat.toDigits 10 (n / 10) ≠ [])
      have hrec := ih (n / 10) (by omega) (by omega)
      rw [Nat.toDigits_of_base_le (by decide) h, hb]
      rwa [hb] at hrec

theorem plainDecimal_toString (n : UInt64) : PlainDecimal (toString n) := by
  refine ⟨toString_ne_nil n, fun b => isdigit_of_mem_toString, fun h => ?_⟩
  rcases Nat.eq_zero_or_pos n.toNat with hn | hn
  · rw [toString, hn]
    rfl
  · exact absurd h (head?_bytes_toDigits hn)

/-- The digits that `std::stoul` reads. -/
def stoulDigits (s : Bytes) : Bytes := (splitSign (s.dropWhile isspace)).2.takeWhile isdigit

/-- The number it makes of them, if neither is out of range. -/
def stoulValue (s : Bytes) : ℕ :=
  if (splitSign (s.dropWhile isspace)).1 then UInt64.size - digitsValue (stoulDigits s)
  else digitsValue (stoulDigits s)

theorem splitSign_of_digits {s : Bytes} (hne : s ≠ []) (hd : ∀ b ∈ s, isdigit b) :
    splitSign (s.dropWhile isspace) = (false, s) := by
  obtain ⟨b, rest, rfl⟩ := List.exists_cons_of_ne_nil hne
  have hb : isdigit b := hd b List.mem_cons_self
  rw [List.dropWhile_cons_of_neg (by simp [isspace_eq_false_of_isdigit hb]), splitSign_of_isdigit hb]

theorem stoulDigits_of_digits {s : Bytes} (hd : ∀ b ∈ s, isdigit b) : stoulDigits s = s := by
  by_cases hne : s = []
  · subst hne
    rfl
  · rw [stoulDigits, splitSign_of_digits hne hd]
    exact List.takeWhile_eq_self_iff.mpr hd

theorem stoulValue_of_digits {s : Bytes} (hne : s ≠ []) (hd : ∀ b ∈ s, isdigit b) : stoulValue s = digitsValue s := by
  rw [stoulValue, splitSign_of_digits hne hd, stoulDigits_of_digits hd, if_neg Bool.false_ne_true]

theorem isdigit_of_mem_stoulDigits {s : Bytes} {b : Byte} (h : b ∈ stoulDigits s) : isdigit b :=
  List.mem_takeWhile_imp h

/-- Read as a whole: no blank, no sign, nothing after the digits. -/
theorem stoul_of_digits {s : Bytes} (hne : s ≠ []) (hd : ∀ b ∈ s, isdigit b) :
    stoul s = if UInt64.size ≤ digitsValue s then none else some (UInt64.ofNat (digitsValue s)) := by
  have hdigits : s.takeWhile isdigit = s := List.takeWhile_eq_self_iff.mpr hd
  simp only [stoul, splitSign_of_digits hne hd, hdigits, hne, if_false, Bool.false_eq_true]

/-- A number other than zero is read from digits with that value, or from a minus
and digits that it completes to `2 ^ 64`. -/
theorem stoul_eq_some_iff {s : Bytes} {n : UInt64} (hn : 0 < n.toNat) :
    stoul s = some n ↔ stoulDigits s ≠ [] ∧ stoulValue s = n.toNat := by
  have hlt := n.toNat_lt_size
  unfold stoul stoulValue stoulDigits
  generalize splitSign (s.dropWhile isspace) = signed
  obtain ⟨negative, rest⟩ := signed
  dsimp only
  by_cases hne : rest.takeWhile isdigit = []
  · simp [hne]
  · rw [if_neg hne, and_iff_right hne]
    generalize digitsValue (rest.takeWhile isdigit) = value
    by_cases hv : UInt64.size ≤ value
    · rw [if_pos hv]
      refine iff_of_false (by simp) ?_
      cases negative <;> simp <;> omega
    · rw [if_neg hv, Option.some.injEq, ← UInt64.toNat_inj]
      have hof : (UInt64.ofNat value).toNat = value := UInt64.toNat_ofNat_of_lt' (Nat.not_le.mp hv)
      cases negative with
      | false => simp [hof]
      | true =>
        simp only [if_true, UInt64.toNat_neg, hof]
        rcases Nat.eq_zero_or_pos value with rfl | hpos
        · -- minus zero is zero
          rw [Nat.sub_zero, Nat.mod_self]
          omega
        · rw [Nat.mod_eq_of_lt (by omega)]

/-- The texts that are written for a number are the plain decimals. -/
theorem eq_toString_iff {s : Bytes} {n : UInt64} (h : stoul s = some n) : s = toString n ↔ PlainDecimal s := by
  constructor
  · rintro rfl
    exact plainDecimal_toString n
  · rintro ⟨hne, hd, h0⟩
    rw [stoul_of_digits hne hd] at h
    split at h
    · cases h
    · next hlt =>
      cases h
      rw [toString, UInt64.toNat_ofNat_of_lt' (Nat.not_le.mp hlt)]
      by_cases hzero : s.head? = some 48
      · rw [h0 hzero]
        rfl
      · exact (bytes_toDigits_digitsValue hd hne hzero).1.symm

end EpollChat.Cpp
