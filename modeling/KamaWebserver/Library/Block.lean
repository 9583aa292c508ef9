import Mathlib.Tactic.Common

set_option autoImplicit false

/- A contiguous block of cells with bounds-checked copies in and out, seen through
half-open windows of it. -/
namespace Block

variable {α : Type*}

/-- The cells at positions `lo` to `hi - 1`. -/
def window (cells : List α) (lo hi : Nat) : List α := (cells.take hi).drop lo

/-- Copy `count` cells out, unless the source range leaves the block. -/
def read (cells : List α) (start count : Nat) : Option (List α) :=
  if start + count ≤ cells.length then some (window cells start (start + count)) else none

/-- Copy `data` over the cells at `start`, unless the target range leaves the block. -/
def write (cells : List α) (start : Nat) (data : List α) : Option (List α) :=
  if start + data.length ≤ cells.length then
    some (cells.take start ++ data ++ cells.drop (start + data.length))
  else none

/-- Truncate, or pad with `fill`, to exactly `size` cells. -/
def resize (fill : α) (cells : List α) (size : Nat) : List α :=
  cells.take size ++ List.replicate (size - cells.length) fill

@[simp] theorem window_empty (cells : List α) (position : Nat) :
    window cells position position = [] := by
  simp [window]

theorem window_length (cells : List α) (lo hi : Nat) (inside : hi ≤ cells.length) :
    (window cells lo hi).length = hi - lo := by
  simp only [window, List.length_drop, List.length_take, Nat.min_eq_left inside]

theorem window_drop (cells : List α) (lo hi count : Nat) :
    (window cells lo hi).drop count = window cells (lo + count) hi := by
  simp only [window, List.drop_drop]

theorem window_take (cells : List α) (lo hi count : Nat) (fits : lo + count ≤ hi) :
    (window cells lo hi).take count = window cells lo (lo + count) := by
  simp only [window, List.take_drop, List.take_take, Nat.min_eq_left fits]

theorem window_append (cells : List α) (lo mid hi : Nat) (first : lo ≤ mid) (second : mid ≤ hi) :
    window cells lo mid ++ window cells mid hi = window cells lo hi := by
  have split := List.take_append_drop (mid - lo) (window cells lo hi)
  rw [window_drop, window_take cells lo hi (mid - lo) (by omega),
    show lo + (mid - lo) = mid by omega] at split
  exact split

theorem read_eq_some_iff (cells data : List α) (start count : Nat) :
    read cells start count = some data ↔
      start + count ≤ cells.length ∧ window cells start (start + count) = data := by
  unfold read
  by_cases fits : start + count ≤ cells.length
  · simp [fits]
  · simp [fits]

theorem write_eq_some_iff (cells data after : List α) (start : Nat) :
    write cells start data = some after ↔
      start + data.length ≤ cells.length ∧
        cells.take start ++ data ++ cells.drop (start + data.length) = after := by
  unfold write
  by_cases fits : start + data.length ≤ cells.length
  · simp [fits]
  · simp [fits]

theorem write_of_fits (cells data : List α) (start : Nat)
    (fits : start + data.length ≤ cells.length) : ∃ after, write cells start data = some after :=
  ⟨_, if_pos fits⟩

section Write

variable {cells data after : List α} {start : Nat}

theorem write_length (stored : write cells start data = some after) :
    after.length = cells.length := by
  obtain ⟨fits, rfl⟩ := (write_eq_some_iff cells data after start).mp stored
  simp only [List.length_append, List.length_take, List.length_drop]
  omega

theorem write_window_before (stored : write cells start data = some after) (lo hi : Nat)
    (before : hi ≤ start) : window after lo hi = window cells lo hi := by
  obtain ⟨fits, rfl⟩ := (write_eq_some_iff cells data after start).mp stored
  have covered : hi ≤ (cells.take start).length := by
    rw [List.length_take]
    omega
  rw [window, window, List.append_assoc, List.take_append_of_le_length covered,
    List.take_take, Nat.min_eq_left before]

theorem write_window_self (stored : write cells start data = some after) :
    window after start (start + data.length) = data := by
  obtain ⟨fits, rfl⟩ := (write_eq_some_iff cells data after start).mp stored
  have front : (cells.take start).length = start := List.length_take_of_le (by omega)
  have covered : start + data.length = (cells.take start ++ data).length := by
    rw [List.length_append, front]
  rw [window, covered, List.take_left, List.drop_left' front]

/-- Copying right behind a window extends the window by the copied cells. -/
theorem write_window_extend (stored : write cells start data = some after) (lo : Nat)
    (ordered : lo ≤ start) :
    window after lo (start + data.length) = window cells lo start ++ data := by
  rw [← window_append after lo start (start + data.length) ordered (by omega),
    write_window_before stored lo start (Nat.le_refl _), write_window_self stored]

/-- Two copies side by side are one. -/
theorem write_append {more next : List α} (first : write cells start data = some after)
    (second : write after (start + data.length) more = some next) :
    write cells start (data ++ more) = some next := by
  obtain ⟨fits, rfl⟩ := (write_eq_some_iff cells data after start).mp first
  obtain ⟨inside, rfl⟩ := (write_eq_some_iff _ more next _).mp second
  have front : (cells.take start ++ data).length = start + data.length := by
    rw [List.length_append, List.length_take_of_le (by omega)]
  have covered := write_length first
  rw [covered] at inside
  have rest : (cells.take start ++ data ++ cells.drop (start + data.length)).drop
      (start + data.length + more.length) = cells.drop (start + data.length + more.length) := by
    rw [← List.drop_drop, List.drop_left' front, List.drop_drop]
  refine (write_eq_some_iff cells _ _ start).mpr ⟨by rw [List.length_append]; omega, ?_⟩
  rw [List.take_left' front, rest]
  simp only [List.append_assoc, List.length_append, Nat.add_assoc]

/-- A copy over another leaves the rest of the earlier one. -/
theorem write_over {cover next : List α} (first : write cells start data = some after)
    (second : write after start cover = some next) (short : cover.length ≤ data.length) :
    write cells start (cover ++ data.drop cover.length) = some next := by
  obtain ⟨fits, rfl⟩ := (write_eq_some_iff cells data after start).mp first
  obtain ⟨inside, rfl⟩ := (write_eq_some_iff _ cover next _).mp second
  have front : (cells.take start).length = start := List.length_take_of_le (by omega)
  have total : (cover ++ data.drop cover.length).length = data.length := by
    rw [List.length_append, List.length_drop]
    omega
  have rest : (cells.take start ++ data ++ cells.drop (start + data.length)).drop
      (start + cover.length) = data.drop cover.length ++ cells.drop (start + data.length) := by
    rw [List.append_assoc, ← List.drop_drop, List.drop_left' front,
      List.drop_append_of_le_length short]
  refine (write_eq_some_iff cells _ _ start).mpr ⟨by rw [total]; exact fits, ?_⟩
  rw [total, rest, List.append_assoc (cells.take start) data, List.take_left' front]
  simp only [List.append_assoc]

theorem write_getElem?_outside (stored : write cells start data = some after) (position : Nat)
    (outside : position < start ∨ start + data.length ≤ position) :
    after[position]? = cells[position]? := by
  obtain ⟨fits, rfl⟩ := (write_eq_some_iff cells data after start).mp stored
  have front : (cells.take start).length = start := List.length_take_of_le (by omega)
  rw [List.append_assoc]
  rcases outside with before | behind
  · rw [List.getElem?_append_left (by omega), List.getElem?_take_of_lt before]
  · rw [List.getElem?_append_right (by omega), List.getElem?_append_right (by omega),
      List.getElem?_drop, front]
    congr 1
    omega

end Write

theorem resize_length (fill : α) (cells : List α) (size : Nat) :
    (resize fill cells size).length = size := by
  simp only [resize, List.length_append, List.length_take, List.length_replicate]
  omega

theorem resize_window (fill : α) (cells : List α) (size lo hi : Nat)
    (kept : hi ≤ size) (inside : hi ≤ cells.length) :
    window (resize fill cells size) lo hi = window cells lo hi := by
  have covered : hi ≤ (cells.take size).length := by
    rw [List.length_take]
    omega
  rw [window, window, resize, List.take_append_of_le_length covered, List.take_take,
    Nat.min_eq_left kept]

end Block
