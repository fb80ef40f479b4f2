import Mathlib.Data.List.Basic

/-! A list in pages of one size, counted from 1: each page is read with one row more than it shows, which
tells whether there is a next one. -/

namespace Crashomon.Pages

variable {Row : Type} {rows : List Row} {size number : Nat}

/-- LIMIT and OFFSET. -/
def window (rows : List Row) (limit offset : Nat) : List Row := (rows.drop offset).take limit

def page (rows : List Row) (size number : Nat) : List Row := (window rows (size + 1) ((number - 1) * size)).take size

def hasNext (rows : List Row) (size number : Nat) : Bool := size < (window rows (size + 1) ((number - 1) * size)).length

theorem page_eq (rows : List Row) (size number : Nat) : page rows size number = (rows.drop ((number - 1) * size)).take size := by
  rw [page, window, List.take_take, Nat.min_eq_left (Nat.le_succ size)]

theorem hasNext_congr {Other : Type} {others : List Other} (same : rows.length = others.length) (size number : Nat) :
    hasNext rows size number = hasNext others size number := by
  simp only [hasNext, window, List.length_take, List.length_drop, same]

theorem page_map {Other : Type} (view : Row → Other) (rows : List Row) (size number : Nat) :
    page (rows.map view) size number = (page rows size number).map view := by
  rw [page_eq, page_eq, List.map_take, List.map_drop]

theorem hasNext_iff (positive : 1 ≤ number) : hasNext rows size number = true ↔ number * size < rows.length := by
  obtain ⟨earlier, rfl⟩ := Nat.exists_eq_add_of_le' positive
  rw [hasNext, decide_eq_true_iff, window, List.length_take, List.length_drop, Nat.add_sub_cancel, Nat.add_one_mul]
  omega

/-- The first pages, one after the other. -/
theorem flatMap_page (rows : List Row) (size count : Nat) :
    ((List.range count).flatMap fun earlier => page rows size (earlier + 1)) = rows.take (count * size) := by
  induction count with
  | zero => simp
  | succ count ih =>
    rw [List.range_succ, List.flatMap_append, ih, List.flatMap_singleton, page_eq, Nat.add_sub_cancel, Nat.add_one_mul, List.take_add]

/-- The number of the page that shows all that is left. -/
def last (rows : List Row) (size : Nat) : Nat := (rows.length - 1) / size + 1

theorem last_congr {Other : Type} {others : List Other} (same : rows.length = others.length) : last rows size = last others size := by
  rw [last, last, same]

theorem hasNext_iff_lt_last (full : 1 ≤ size) (positive : 1 ≤ number) : hasNext rows size number = true ↔ number < last rows size := by
  rw [hasNext_iff positive, last, Nat.lt_succ_iff, Nat.le_div_iff_mul_le full]
  have some : 1 ≤ number * size := Nat.mul_pos positive full
  omega

theorem flatMap_page_last (rows : List Row) (full : 1 ≤ size) :
    ((List.range (last rows size)).flatMap fun earlier => page rows size (earlier + 1)) = rows := by
  rw [flatMap_page, List.take_of_length_le]
  have above : (rows.length - 1) / size < (rows.length - 1) / size + 1 := Nat.lt_succ_self _
  rw [Nat.div_lt_iff_lt_mul full] at above
  unfold last
  omega

end Crashomon.Pages
