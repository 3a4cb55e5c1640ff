/-
This file gives the arrays behind a slice that is appended to and cut, in Go's sense: the slice
begins at the first cell of its newest array, and `append` writes in place as long as the capacity
allows it, also over cells that another slice of the array still shows. Only when the capacity is
exhausted does it move to a new array, and how much room that one has is up to the runtime.
-/

import Mathlib.Data.List.Basic

namespace Slices

variable {α : Type*}

/-- The arrays that have been behind a slice. -/
structure Arrays (α : Type*) where
  /-- The arrays that the slice has left, oldest first; nothing writes to them any more. -/
  older : List (List α)
  /-- The cells of the newest array that have been written, also those behind the end of the
  slice. -/
  cells : List α
  capacity : ℕ
  fits : cells.length ≤ capacity

namespace Arrays

/-- An array with these values and some room. -/
def fresh (values : List α) (room : ℕ) : Arrays α :=
  ⟨[], values, values.length + room, Nat.le_add_right ..⟩

/-- The slice moves to a new array with these values and some room. -/
def allocate (arrays : Arrays α) (values : List α) (room : ℕ) : Arrays α :=
  ⟨arrays.older ++ [arrays.cells], values, values.length + room, Nat.le_add_right ..⟩

/-- The number of the newest array, counted from the oldest one. -/
def newest (arrays : Arrays α) : ℕ :=
  arrays.older.length

/-- What a cell holds, if it has been written. -/
def read (arrays : Arrays α) (array position : ℕ) : Option α :=
  (arrays.older ++ [arrays.cells])[array]?.bind (·[position]?)

/-- The newest array with the values written from the position on. -/
def overwrite (cells : List α) (position : ℕ) (values : List α) : List α :=
  cells.take position ++ values ++ cells.drop (position + values.length)

theorem overwrite_length_le {cells values : List α} {position capacity : ℕ}
    (fits : cells.length ≤ capacity) (room : position + values.length ≤ capacity) :
    (overwrite cells position values).length ≤ capacity := by
  simp only [overwrite, List.length_append, List.length_take, List.length_drop]
  omega

/-- `append(s[:position], values...)`. -/
def append (arrays : Arrays α) (position : ℕ) (values : List α) (room : ℕ) : Arrays α :=
  if inPlace : position + values.length ≤ arrays.capacity then
    { arrays with
      cells := overwrite arrays.cells position values
      fits := overwrite_length_le arrays.fits inPlace }
  else arrays.allocate (arrays.cells.take position ++ values) room

/-- The slice that `append` returns is what its array begins with. -/
theorem append_prefix (arrays : Arrays α) (position : ℕ) (values : List α) (room : ℕ) :
    arrays.cells.take position ++ values <+: (arrays.append position values room).cells := by
  unfold append
  split_ifs
  · exact List.prefix_append _ _
  · exact List.prefix_refl _

end Arrays

end Slices
