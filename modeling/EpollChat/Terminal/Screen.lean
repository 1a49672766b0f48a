import Mathlib.Data.List.Induction
import Mathlib.Logic.Function.Basic
import Mathlib.Data.Nat.Notation

/-! The screen of a terminal and what moves over it. Lines drawn one above the other
come to stand above the cursor in their order, up to the first row; there each
further line replaces the one before it. -/

namespace EpollChat.Terminal

variable {α : Type} {width : ℕ}

/-- Rows are numbered downwards from 0. The column is the width once the last
character of the row has been written. -/
@[ext] structure Screen (α : Type) (width : ℕ) where
  cells : ℕ → Fin width → α
  row : ℕ
  column : ℕ
  saved : ℕ × ℕ

namespace Screen

/-- To the first column of the row above, if there is one. -/
def previousLine (s : Screen α width) : Screen α width := { s with row := s.row - 1, column := 0 }

def eraseLine (blank : α) (s : Screen α width) : Screen α width :=
  { s with cells := Function.update s.cells s.row fun _ => blank }

/-- A character is written on the row of the cursor. -/
def put (s : Screen α width) (a : α) : Screen α width :=
  { s with
    cells := Function.update s.cells s.row fun j => if j.val = s.column then a else s.cells s.row j
    column := s.column + 1 }

def puts (s : Screen α width) (text : List α) : Screen α width := text.foldl put s

def saveCursor (s : Screen α width) : Screen α width := { s with saved := (s.row, s.column) }

def restoreCursor (s : Screen α width) : Screen α width := { s with row := s.saved.1, column := s.saved.2 }

/-- How a text reads at the beginning of a row. -/
def textRow (blank : α) (width : ℕ) (text : List α) : Fin width → α := fun j => text.getD j blank

/-! ### A line -/

theorem puts_eq (s : Screen α width) (text : List α) :
    s.puts text = { s with
      cells := Function.update s.cells s.row fun j =>
        if s.column ≤ j then text.getD (j - s.column) (s.cells s.row j) else s.cells s.row j
      column := s.column + text.length } := by
  induction text generalizing s with
  | nil => simp [puts]
  | cons a text ih =>
    show (s.put a).puts text = _
    rw [ih]
    simp only [put, Function.update_self, Function.update_idem, List.length_cons, Screen.mk.injEq, and_true, true_and]
    refine ⟨?_, by omega⟩
    congr 1
    funext j
    rcases Nat.lt_trichotomy j.val s.column with h | h | h
    · rw [if_neg (by omega), if_neg (by omega), if_neg (by omega)]
    · rw [if_neg (by omega), if_pos h, if_pos (by omega), h, Nat.sub_self, List.getD_cons_zero]
    · obtain ⟨k, hk⟩ : ∃ k, j.val = s.column + k + 1 := ⟨j - s.column - 1, by omega⟩
      rw [if_pos (by omega), if_neg (by omega), if_pos (by omega), hk, show s.column + k + 1 - (s.column + 1) = k by omega,
        show s.column + k + 1 - s.column = k + 1 by omega, List.getD_cons_succ]

/-- A line on the row above. -/
def drawLine (blank : α) (s : Screen α width) (line : List α) : Screen α width :=
  (s.previousLine.eraseLine blank).puts line

theorem drawLine_eq (blank : α) (s : Screen α width) (line : List α) :
    s.drawLine blank line = { s with
      cells := Function.update s.cells (s.row - 1) (textRow blank width line)
      row := s.row - 1
      column := line.length } := by
  rw [drawLine, puts_eq]
  simp only [eraseLine, previousLine, Function.update_self, Function.update_idem, Nat.zero_le, if_true, Nat.sub_zero,
    Nat.zero_add]
  rfl

/-! ### Lines one above the other -/

def drawLines (blank : α) (s : Screen α width) (lines : List (List α)) : Screen α width :=
  lines.foldl (drawLine blank) s

variable {blank : α}

theorem drawLines_concat (s : Screen α width) (lines : List (List α)) (line : List α) :
    s.drawLines blank (lines ++ [line]) = (s.drawLines blank lines).drawLine blank line := by
  rw [drawLines, List.foldl_append]
  rfl

theorem row_drawLines (s : Screen α width) (lines : List (List α)) :
    (s.drawLines blank lines).row = s.row - lines.length := by
  induction lines using List.reverseRecOn with
  | nil => rfl
  | append_singleton lines line ih =>
    rw [drawLines_concat, drawLine_eq, List.length_append]
    show (s.drawLines blank lines).row - 1 = _
    rw [ih, List.length_singleton, Nat.sub_sub]

theorem saved_drawLines (s : Screen α width) (lines : List (List α)) : (s.drawLines blank lines).saved = s.saved := by
  induction lines using List.reverseRecOn with
  | nil => rfl
  | append_singleton lines line ih => rw [drawLines_concat, drawLine_eq, ← ih]

theorem cells_drawLines_concat (s : Screen α width) (lines : List (List α)) (line : List α) :
    (s.drawLines blank (lines ++ [line])).cells =
      Function.update (s.drawLines blank lines).cells (s.row - (lines.length + 1)) (textRow blank width line) := by
  rw [drawLines_concat, drawLine_eq, row_drawLines, Nat.sub_sub]

/-- The rows from the cursor's on, below the first one, are left alone. -/
theorem cells_drawLines_below (s : Screen α width) (lines : List (List α)) {i : ℕ} (hi : s.row ≤ i) (h0 : 0 < i) :
    (s.drawLines blank lines).cells i = s.cells i := by
  induction lines using List.reverseRecOn with
  | nil => rfl
  | append_singleton lines line ih => rw [cells_drawLines_concat, Function.update_of_ne (by omega), ih]

/-- A row above the cursor's, below the first one, shows the line that belongs there. -/
theorem cells_drawLines_above (s : Screen α width) (lines : List (List α)) {i r : ℕ} (hi : i + (r + 1) = s.row)
    (h0 : 0 < i) : (s.drawLines blank lines).cells i = (lines[r]?).elim (s.cells i) (textRow blank width) := by
  induction lines using List.reverseRecOn with
  | nil => rfl
  | append_singleton lines line ih =>
    rw [cells_drawLines_concat]
    by_cases hr : r = lines.length
    · rw [show s.row - (lines.length + 1) = i by omega, Function.update_self, hr, List.getElem?_concat_length]
      rfl
    · rw [Function.update_of_ne (by omega), ih]
      by_cases hlt : r < lines.length
      · rw [List.getElem?_append_left hlt]
      · rw [List.getElem?_eq_none (by omega), List.getElem?_eq_none (by rw [List.length_append, List.length_singleton]; omega)]

/-- The first row shows the last line, once the lines reach it. -/
theorem cells_drawLines_top (s : Screen α width) (lines : List (List α)) :
    (s.drawLines blank lines).cells 0 =
      if s.row ≤ lines.length then (lines.getLast?).elim (s.cells 0) (textRow blank width) else s.cells 0 := by
  induction lines using List.reverseRecOn with
  | nil => simp [drawLines]
  | append_singleton lines line ih =>
    rw [cells_drawLines_concat, List.length_append, List.length_singleton]
    by_cases h : s.row ≤ lines.length + 1
    · rw [if_pos h, show s.row - (lines.length + 1) = 0 by omega, Function.update_self, List.getLast?_concat]
      rfl
    · rw [if_neg h, Function.update_of_ne (by omega), ih, if_neg (by omega)]

/-- The lines stand above the cursor in their order, as far as there are rows and
lines, and all else is as before. -/
structure ShowsAbove (blank : α) (before after : Screen α width) (lines : List (List α)) : Prop where
  above : ∀ r i, i + (r + 1) = before.row → after.cells i = (lines[r]?).elim (before.cells i) (textRow blank width)
  below : ∀ i, before.row ≤ i → after.cells i = before.cells i

/-- What belongs on the first row. -/
def firstRow (blank : α) (s : Screen α width) (lines : List (List α)) : Fin width → α :=
  match s.row with
  | 0 => s.cells 0
  | r + 1 => (lines[r]?).elim (s.cells 0) (textRow blank width)

theorem firstRow_zero {s : Screen α width} (h : s.row = 0) (lines : List (List α)) :
    s.firstRow blank lines = s.cells 0 := by
  rw [firstRow, h]

theorem firstRow_succ {s : Screen α width} {r : ℕ} (h : s.row = r + 1) (lines : List (List α)) :
    s.firstRow blank lines = (lines[r]?).elim (s.cells 0) (textRow blank width) := by
  rw [firstRow, h]

theorem showsAbove_iff_firstRow (s : Screen α width) (lines : List (List α)) :
    ShowsAbove blank s (s.drawLines blank lines) lines ↔
      (s.drawLines blank lines).cells 0 = s.firstRow blank lines := by
  constructor
  · intro h
    cases hrow : s.row with
    | zero => rw [h.below 0 (by omega), firstRow_zero hrow]
    | succ r => rw [h.above r 0 (by omega), firstRow_succ hrow]
  · intro h
    refine ⟨fun r i hi => ?_, fun i hi => ?_⟩
    · rcases Nat.eq_zero_or_pos i with rfl | h0
      · rw [h, firstRow_succ (hi.symm.trans (Nat.zero_add _))]
      · exact cells_drawLines_above s lines hi h0
    · rcases Nat.eq_zero_or_pos i with rfl | h0
      · rw [h, firstRow_zero (by omega)]
      · exact cells_drawLines_below s lines hi h0

/-- All is in its place if and only if there are no more lines than rows above the
cursor, or the last line reads like what belongs on the first row. -/
theorem showsAbove_drawLines_iff (s : Screen α width) (lines : List (List α)) :
    ShowsAbove blank s (s.drawLines blank lines) lines ↔
      lines.length ≤ s.row ∨ ∃ last, lines.getLast? = some last ∧ textRow blank width last = s.firstRow blank lines := by
  rw [showsAbove_iff_firstRow, cells_drawLines_top]
  rcases Nat.lt_trichotomy lines.length s.row with h | h | h
  · -- the first row is not reached
    refine iff_of_true ?_ (.inl (Nat.le_of_lt h))
    have hrow : s.row = s.row - 1 + 1 := by omega
    rw [if_neg (Nat.not_le.mpr h), firstRow_succ hrow, List.getElem?_eq_none (by omega)]
    rfl
  · -- the last line is the one that belongs on the first row
    refine iff_of_true ?_ (.inl (Nat.le_of_eq h))
    rw [if_pos (Nat.le_of_eq h.symm), List.getLast?_eq_getElem?]
    cases hrow : s.row with
    | zero =>
      rw [firstRow_zero hrow, List.getElem?_eq_none (by omega)]
      rfl
    | succ r => rw [firstRow_succ hrow, show lines.length - 1 = r by omega]
  · rw [if_pos (Nat.le_of_lt h), or_iff_right (Nat.not_le.mpr h)]
    cases hlast : lines.getLast? with
    | none =>
      rw [List.getLast?_eq_none_iff.mp hlast] at h
      exact absurd h (Nat.not_lt_zero _)
    | some last => simp

end Screen

end EpollChat.Terminal
