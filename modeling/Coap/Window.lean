namespace Coap

/-!
# Sliding windows

A window addresses a fixed number of slots by absolute index: slot `i` has the
index `offset + i`. Only indices from the offset to the tail can be written. The
window moves up by one slot whenever its first slot is filled and taken.
-/

/-- Slots from `offset` upwards. -/
structure Window (α : Type) where
  slots : List (Option α)
  offset : Int
deriving DecidableEq, Repr

namespace Window

variable {α : Type}

/-- A window of empty slots. -/
def empty
    (size : Nat)
    (offset : Int) :
    Window α :=
  { slots := List.replicate size none
    offset := offset }

/-- A window whose slots all hold one value. -/
def filled
    (size : Nat)
    (offset : Int)
    (value : α) :
    Window α :=
  { slots := List.replicate size (some value)
    offset := offset }

/-- The number of slots. -/
def size (window : Window α) : Nat :=
  window.slots.length

/-- The absolute index of the last slot. -/
def tail (window : Window α) : Int :=
  window.offset + window.size - 1

/-- Store a value at an absolute index; outside the window this changes nothing. -/
def set
    (window : Window α)
    (index : Int)
    (value : α) :
    Window α :=
  if index < window.offset then window
  else { window with
    slots := window.slots.set (index - window.offset).toNat (some value) }

/-- The value in a slot counted from the offset. -/
def slot?
    (window : Window α)
    (position : Nat) :
    Option α :=
  (window.slots[position]?).join

/-- Take the first slot if it is filled and move up by one. -/
def advance (window : Window α) : Option α × Window α :=
  match window.slots with
  | some value :: rest =>
      (some value,
        { slots := rest ++ [none]
          offset := window.offset + 1 })
  | _ => (none, window)

/-- How many slots are filled before the first empty one. -/
def leadingFilled (window : Window α) : Nat :=
  (window.slots.takeWhile Option.isSome).length

/-- Change the number of slots, keeping the first ones. -/
def resize
    (window : Window α)
    (size : Nat) :
    Window α :=
  { window with
    slots :=
      window.slots.take size ++ List.replicate (size - window.slots.length) none }

end Window

end Coap
