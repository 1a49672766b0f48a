import Mathlib.Algebra.Order.Floor.Div

/-! How a text is cut into the lines of a terminal: as many characters as a line has room
for, then the next. -/

namespace EpollChat.Terminal

variable {α : Type} {width : ℕ}

/-- The lines of a text, from the top one down. -/
def cut (width : ℕ) (text : List α) : List (List α) :=
  (List.range (text.length ⌈/⌉ width)).map fun i => (text.drop (i * width)).take width

@[simp] theorem cut_nil : cut width ([] : List α) = [] := by
  rw [cut, List.length_nil, zero_ceilDiv]
  rfl

theorem length_cut (text : List α) : (cut width text).length = text.length ⌈/⌉ width := by
  rw [cut, List.length_map, List.length_range]

theorem length_le_of_mem_cut {text line : List α} (h : line ∈ cut width text) : line.length ≤ width := by
  obtain ⟨i, -, rfl⟩ := List.mem_map.mp h
  exact List.length_take_le _ _

theorem mem_of_mem_cut {text line : List α} {a : α} (h : line ∈ cut width text) (ha : a ∈ line) : a ∈ text := by
  obtain ⟨i, -, rfl⟩ := List.mem_map.mp h
  exact List.mem_of_mem_drop (List.mem_of_mem_take ha)

theorem ceilDiv_succ {n : ℕ} (hwidth : 0 < width) (hn : 0 < n) : n ⌈/⌉ width = (n - width) ⌈/⌉ width + 1 := by
  rw [Nat.ceilDiv_eq_add_pred_div, Nat.ceilDiv_eq_add_pred_div]
  rcases Nat.le_total n width with h | h
  · rw [Nat.sub_eq_zero_of_le h, Nat.zero_add, Nat.div_eq_of_lt (show width - 1 < width by omega)]
    exact Nat.div_eq_of_lt_le (by omega) (by omega)
  · rw [← Nat.add_div_right _ hwidth]
    congr 1
    omega

/-- The first line, and those of the rest. -/
theorem cut_of_ne_nil {text : List α} (hwidth : 0 < width) (h : text ≠ []) :
    cut width text = text.take width :: cut width (text.drop width) := by
  rw [cut, ceilDiv_succ hwidth (List.length_pos_of_ne_nil h), List.range_succ_eq_map, List.map_cons, Nat.zero_mul,
    List.drop_zero, List.map_map, cut, List.length_drop]
  congr 2
  funext i
  rw [Function.comp_apply, List.drop_drop, Nat.succ_mul, Nat.add_comm]

theorem flatten_cut (hwidth : 0 < width) (text : List α) : (cut width text).flatten = text := by
  induction hn : text.length using Nat.strongRecOn generalizing text with
  | _ n ih =>
    rcases eq_or_ne text [] with rfl | h
    · rw [cut_nil, List.flatten_nil]
    · have hpos := List.length_pos_of_ne_nil h
      rw [cut_of_ne_nil hwidth h, List.flatten_cons,
        ih _ (by rw [List.length_drop]; omega) (text.drop width) rfl, List.take_append_drop]

end EpollChat.Terminal
