import ScriptMachine.Heap.Basic

/-!
Arrays: scalars of one kind, packed at the start of a block.

The elements of an array are `Heap.arrayElements`. An array has a capacity, up
to which elements can be stored past its end; a push onto a full array doubles
the capacity and moves the array to a larger block if need be.
-/

namespace ScriptMachine.Heap

/-- Adds an empty array with room for `capacity` elements. -/
def newArray (kind : ArrayKind) (capacity : Nat) : Action Heap (Ref .array) :=
  alloc .array ⟨kind, 0, capacity⟩

/-- The bytes of the element at an index, which is below the capacity. -/
def elementBytes (h : Heap) (ref : Ref .array) (kind : ArrayKind) (index : Nat) : List UInt8 :=
  match h.block? ref.id with
  | some block => h.memory.read block.page (block.offset + index * kind.width) kind.width
  | none => []

/-- The element at an index. -/
def arrayGet? (h : Heap) (ref : Ref .array) (index : Nat) : Result (Option Scalar) := do
  let array ← h.read ref
  if index < array.length then
    return some (array.kind.decode (h.elementBytes ref array.kind index))
  else return none

/-- The elements of an array. -/
def arrayElements (h : Heap) (ref : Ref .array) : Result (List Scalar) := do
  let array ← h.read ref
  return Object.elements array.kind array.length (h.bytes ref.id (array.length * array.kind.width))

/-- Stores a scalar, which is of the kind of the array, in the memory of an
element. -/
def writeElement (ref : Ref .array) (kind : ArrayKind) (index : Nat) (scalar : Scalar) :
    Action Heap Unit := do
  let bytes ← kind.encode scalar
  modify (·.writeBytes ref.id (index * kind.width) bytes)

/-- Stores zeros in the memory of `count` elements from `index` on. -/
def writeZeros (ref : Ref .array) (kind : ArrayKind) : (count index : Nat) → Action Heap Unit
  | 0, _ => pure ()
  | count + 1, index => do
      writeElement ref kind index kind.zero
      writeZeros ref kind count (index + 1)

/-- Stores a scalar, which is of the kind of the array, at an index below the
capacity; elements that are skipped are zero. Returns false, and does nothing,
at or past the capacity. -/
def arraySet (ref : Ref .array) (index : Nat) (scalar : Scalar) : Action Heap Bool := do
  let array ← (← get).read ref
  if array.capacity ≤ index then return false
  writeZeros ref array.kind (index - array.length) array.length
  writeElement ref array.kind index scalar
  modify (·.put ref { array with length := max array.length (index + 1) })
  return true

/-- Appends a scalar, which is of the kind of the array. If there is no memory
for a larger array, the array stays as it was. -/
def arrayPush (ref : Ref .array) (scalar : Scalar) : Action Heap Unit := do
  let array ← (← get).read ref
  if array.length = array.capacity then
    modify (·.put ref { array with capacity := growCapacity array.capacity })
    (resize ref.id).repairing (·.put ref array)
  let _ ← arraySet ref array.length scalar

/-- Removes the last element and returns it. -/
def arrayPop (ref : Ref .array) : Action Heap (Option Scalar) := do
  let array ← (← get).read ref
  if array.length = 0 then return none
  let last ← (← get).arrayGet? ref (array.length - 1)
  modify (·.put ref { array with length := array.length - 1 })
  return last

/-- Adds an array of the same kind and capacity with the same elements. -/
def copyArray (ref : Ref .array) : Action Heap (Ref .array) := do
  let array ← (← get).read ref
  let copy ← alloc .array array
  let bytes := (← get).bytes ref.id (array.length * array.kind.width)
  modify (·.writeBytes copy.id 0 bytes)
  return copy

end ScriptMachine.Heap
