import ScriptMachine.Action
import ScriptMachine.Value

/-!
Growable stacks with an explicit capacity.

The capacity doubles when a push finds the stack full and is at least 64 once
it has grown. It is part of the value: storing past the end is allowed up to
the capacity, and the memory that an object is charged for is measured by it.
The operand stack, the constants of a function and the registries of the
machine are stacks, and so are the stacks and vectors of a script.
-/

namespace ScriptMachine

/-- Types whose values take a fixed number of bytes in a buffer. -/
class Footprint (α : Type) where
  width : Nat

instance : Footprint Scalar := ⟨16⟩

instance : Footprint Value := ⟨16⟩

instance : Footprint Int64 := ⟨8⟩

/-- The least capacity of a container that has grown. -/
def leastCapacity : Nat := 64

/-- The capacity after growing once. -/
def growCapacity (capacity : Nat) : Nat :=
  if capacity < leastCapacity then leastCapacity else capacity * 2

/-- Growing makes the capacity larger. -/
theorem lt_growCapacity (capacity : Nat) : capacity < growCapacity capacity := by
  unfold growCapacity leastCapacity
  split <;> omega

/-- The capacity after growing until it is at least `target`. -/
def growUpTo (target capacity : Nat) : Nat :=
  if capacity < target then growUpTo target (growCapacity capacity) else capacity
termination_by target - capacity
decreasing_by
  have := lt_growCapacity capacity
  omega

/-- A stack of values with a capacity. -/
structure Stack (α : Type) where
  items : Array α
  capacity : Nat
  deriving DecidableEq

namespace Stack

variable {α : Type}

/-- The empty stack without capacity. -/
def empty : Stack α := ⟨#[], 0⟩

instance : Inhabited (Stack α) := ⟨empty⟩

/-- The empty stack with room for `capacity` values, if the address space has
that room. -/
def withCapacity [Footprint α] (capacity : Nat) : Result (Stack α) :=
  if capacity * Footprint.width α < bufferLimit then .ok ⟨#[], capacity⟩
  else Result.abort .bufferOverflow

/-- The number of values. -/
def length (s : Stack α) : Nat := s.items.size

/-- Whether there are no values. -/
def isEmpty (s : Stack α) : Bool := s.items.isEmpty

/-- The values from the bottom to the top. -/
def toList (s : Stack α) : List α := s.items.toList

/-- Puts a value on top. -/
def push (s : Stack α) (value : α) : Stack α :=
  if s.items.size = s.capacity then ⟨s.items.push value, growCapacity s.capacity⟩
  else ⟨s.items.push value, s.capacity⟩

/-- Takes the top value off. -/
def pop (s : Stack α) : Option α × Stack α :=
  match s with
  | ⟨items, capacity⟩ => (items.back?, ⟨items.pop, capacity⟩)

/-- The value at an index from the bottom. -/
def get? (s : Stack α) (index : Nat) : Option α := s.items[index]?

/-- The value `distance` places below the top. -/
def peek? (s : Stack α) (distance : Nat) : Option α :=
  if distance < s.items.size then s.items[s.items.size - (distance + 1)]? else none

/-- Stores a value at an index. Past the end but below the capacity the stack
is extended, with the default value in the gap; past the capacity nothing
happens. -/
def set [Inhabited α] (s : Stack α) (index : Nat) (value : α) : Bool × Stack α :=
  match s with
  | ⟨items, capacity⟩ =>
    if index < items.size then (true, ⟨items.setIfInBounds index value, capacity⟩)
    else if index < capacity then
      let gap := Array.replicate (index - items.size) default
      (true, ⟨(items ++ gap).push value, capacity⟩)
    else (false, ⟨items, capacity⟩)

/-- Removes all values and keeps the capacity. -/
def reset (s : Stack α) : Stack α := ⟨#[], s.capacity⟩

/-- Keeps the lowest `count` values. -/
def truncate (s : Stack α) (count : Nat) : Stack α :=
  match s with
  | ⟨items, capacity⟩ => ⟨items.shrink count, capacity⟩

/-- Grows the capacity to at least `target`, if the address space has that
room. -/
def ensureCapacity [Footprint α] (s : Stack α) (target : Nat) : Result (Stack α) :=
  let capacity := growUpTo target s.capacity
  if capacity * Footprint.width α < bufferLimit then .ok { s with capacity := capacity }
  else Result.abort .bufferOverflow

/-- The stack with the given values pushed one by one. -/
def ofList (values : List α) : Stack α := values.foldl push empty

/-- The bytes that a stack is charged for. -/
def footprint [Footprint α] (s : Stack α) : Nat := s.capacity * Footprint.width α

end Stack

end ScriptMachine
