/-
This file gives circular lists as they are seen from one of their elements, and the queue that
drops its oldest item when it is full. A ring is its slots in the order of `Next` from some fixed
element, and an element is a position below the number of the slots; `view` lists the slots from a
position on. Writing the slot at a position and going on to the next one moves the head of the view
to its end, which is the only fact about positions that a proof about a ring needs.
-/

import Mathlib.Data.List.Rotate

namespace Ring

variable {Item : Type*}

/-! ### Positions -/

/-- `Next`. -/
def next (size position : Nat) : Nat :=
  (position + 1) % size

/-- `Move`; a negative count moves backward. -/
def move (size position : Nat) (count : Int) : Nat :=
  ((position + count) % size).toNat

/-- The slots from the position on. -/
def view (slots : List Item) (position : Nat) : List Item :=
  slots.rotate position

theorem next_lt {size : Nat} (position : Nat) (nonempty : 0 < size) : next size position < size :=
  Nat.mod_lt _ nonempty

theorem move_lt {size : Nat} (position : Nat) (count : Int) (nonempty : 0 < size) :
    move size position count < size := by
  have lower := Int.emod_nonneg (position + count) (b := size) (by omega)
  have upper := Int.emod_lt_of_pos (position + count) (b := size) (by omega)
  unfold move
  omega

theorem view_replicate (size position : Nat) (item : Item) :
    view (List.replicate size item) position = List.replicate size item :=
  List.rotate_replicate item size position

theorem view_length (slots : List Item) (position : Nat) :
    (view slots position).length = slots.length :=
  List.length_rotate _ _

theorem getElem?_view {slots : List Item} {position : Nat} (bound : position < slots.length) :
    slots[position]? = (view slots position).head? := by
  rw [view, List.rotate_eq_drop_append_take bound.le, List.head?_append]
  simp [List.head?_drop, bound]

theorem view_set {slots : List Item} {position : Nat} (bound : position < slots.length)
    (item : Item) : view (slots.set position item) position = (view slots position).set 0 item := by
  have lengths : position ≤ (slots.set position item).length := by
    rw [List.length_set]
    exact bound.le
  have occupied : slots.drop position ≠ [] := by simp [bound]
  rw [view, view, List.rotate_eq_drop_append_take lengths,
    List.rotate_eq_drop_append_take bound.le,
    List.set_append_left _ _ (List.length_pos_iff.mpr occupied), List.take_set_of_le le_rfl]
  simp [List.drop_set]

theorem view_next (slots : List Item) (position : Nat) :
    view slots (next slots.length position) = (view slots position).rotate 1 := by
  rw [view, next, List.rotate_mod, view, List.rotate_rotate]

/-- Writing a slot and going on moves the head of the view to its end. -/
theorem view_set_next {slots rest : List Item} {position : Nat} {head : Item}
    (bound : position < slots.length) (seen : view slots position = head :: rest) (item : Item) :
    view (slots.set position item) (next slots.length position) = rest ++ [item] := by
  have written := view_set bound item
  rw [seen] at written
  have after := view_next (slots.set position item) position
  rw [List.length_set, written] at after
  simpa using after

theorem move_natCast {size : Nat} (position count : Nat) :
    move size position count = (position + count) % size := by
  rw [move, ← Int.natCast_add, ← Int.natCast_emod, Int.toNat_natCast]

theorem next_eq_move (size position : Nat) : next size position = move size position 1 :=
  (move_natCast position 1).symm

theorem move_move {size : Nat} (position : Nat) (first second : Int) (nonempty : 0 < size) :
    move size (move size position first) second = move size position (first + second) := by
  have held : ((move size position first : Nat) : Int) = (position + first) % size :=
    Int.toNat_of_nonneg (Int.emod_nonneg _ (by omega))
  rw [move, held, Int.emod_add_emod, Int.add_assoc, move]

theorem move_zero {size position : Nat} (bound : position < size) :
    move size position 0 = position := by
  rw [← Int.natCast_zero, move_natCast, Nat.add_zero, Nat.mod_eq_of_lt bound]

/-- Moving over the first slots of a view brings them to its end. -/
theorem view_move {slots first second : List Item} {position : Nat}
    (seen : view slots position = first ++ second) :
    view slots (move slots.length position first.length) = second ++ first := by
  rw [move_natCast, view, List.rotate_mod, ← List.rotate_rotate,
    show slots.rotate position = first ++ second from seen, List.rotate_append_length_eq]

/-- What lies before a position is seen first after moving back. -/
theorem view_move_back {slots first second : List Item} {position : Nat}
    (seen : view slots position = first ++ second) :
    view slots (move slots.length position (-second.length)) = second ++ first := by
  have lengths : (slots.length : Int) = first.length + second.length := by
    rw [← view_length slots position, seen, List.length_append, Int.natCast_add]
  have around : move slots.length position (-second.length) =
      move slots.length position first.length := by
    have once_round : (position + first.length : Int) =
        position + -(second.length : Int) + slots.length := by omega
    rw [move, move, once_round, Int.add_emod_right]
  rw [around]
  exact view_move seen

end Ring

/-! ### The bounded queue -/

/-- A queue of at most so many items, the oldest first. -/
structure BoundedQueue (Item : Type*) (capacity : Nat) where
  items : List Item
  bounded : items.length ≤ capacity

namespace BoundedQueue

variable {Item : Type*} {capacity : Nat}

def empty : BoundedQueue Item capacity where
  items := []
  bounded := Nat.zero_le capacity

/-- Appends the item and discards the oldest ones that are too many. -/
def push (queue : BoundedQueue Item capacity) (item : Item) : BoundedQueue Item capacity where
  items := (queue.items ++ [item]).drop (queue.items.length + 1 - capacity)
  bounded := by
    have := queue.bounded
    simp only [List.length_drop, List.length_append, List.length_singleton]
    omega

/-- Removes the oldest items, so many of them. -/
def pop (queue : BoundedQueue Item capacity) (count : Nat) : BoundedQueue Item capacity where
  items := queue.items.drop count
  bounded := by
    have := queue.bounded
    simp only [List.length_drop]
    omega

theorem pop_zero (queue : BoundedQueue Item capacity) : queue.pop 0 = queue := rfl

theorem push_items (queue : BoundedQueue Item capacity) (item : Item) :
    (queue.push item).items =
      (queue.items ++ [item]).drop (queue.items.length + 1 - capacity) := rfl

theorem push_items_of_lt {queue : BoundedQueue Item capacity} (item : Item)
    (room : queue.items.length < capacity) : (queue.push item).items = queue.items ++ [item] := by
  rw [push_items, Nat.sub_eq_zero_of_le room, List.drop_zero]

theorem push_items_of_full {queue : BoundedQueue Item capacity} {oldest : Item}
    {rest : List Item} (item : Item) (found : queue.items = oldest :: rest)
    (full : queue.items.length = capacity) : (queue.push item).items = rest ++ [item] := by
  rw [push_items, full, Nat.add_sub_cancel_left, found]
  rfl

end BoundedQueue
