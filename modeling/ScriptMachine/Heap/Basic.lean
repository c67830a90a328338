import ScriptMachine.Memory.Allocator
import ScriptMachine.Object

/-!
The heap: the owner of all objects.

Every object occupies a slot and a block of memory as long as the object is
large; the bytes of these blocks are what a collection is triggered by, and
strings and arrays keep their contents there. Freed slots are used again, last
freed first, under a new generation.

`Heap.insert` adds an object, `Heap.get?` and `Heap.read` look one up by a
reference, `Heap.put` replaces its content, and `Heap.resize` reserves more
memory for one that has grown.
-/

namespace ScriptMachine

open Memory

/-- An object with its block. Pinned objects are never swept. -/
structure Entry where
  block : Block
  marked : Bool
  pinned : Bool
  object : Object

/-- A place for an object, and how often it was freed. -/
structure Slot where
  frees : Nat
  entry : Option Entry

/-- The generation of a slot: how often it was freed, in 32 bits. -/
def Slot.generation (slot : Slot) : UInt32 := UInt32.ofNat slot.frees

/-- The state of the heap. -/
structure Heap where
  memory : Allocator
  slots : Array Slot
  /-- Slots without an object, last freed first. -/
  vacant : List UInt32
  /-- Marked objects whose children are still to be marked. -/
  gray : List ObjectId

namespace Heap

/-- One past the largest number of a slot. Slots are numbered by 32-bit words,
and the largest of these is left to the id that names no object. A number past
the limit would wrap round and name the object of another slot: the heap stops
before that, with `Fault.slotOverflow`. -/
def slotLimit : Nat := 0xFFFFFFFF

/-- The page size of a heap that is not told another one. -/
def defaultPageSize : Nat := 16384

/-- A heap without objects. -/
def create (pageSize : Nat) (grants : Nat → Bool) : Result Heap := do
  let memory ← Allocator.create pageSize grants
  return ⟨memory, #[], [], []⟩

/-- Runs an action of the allocator. -/
@[always_inline, inline]
def onMemory {α : Type} (action : Action Allocator α) : Action Heap α :=
  Action.on (fun ⟨memory, slots, vacant, gray⟩ =>
    (memory, fun memory => ⟨memory, slots, vacant, gray⟩)) action

/-! ### Looking objects up -/

/-- The entry that an id names. -/
def find? (h : Heap) (id : ObjectId) : Option Entry :=
  match h.slots[id.index.toNat]? with
  | some slot => if slot.generation = id.generation then slot.entry else none
  | none => none

/-- Whether an id names an object. -/
def contains (h : Heap) (id : ObjectId) : Bool := (h.find? id).isSome

/-- The object that an id names. -/
def object? (h : Heap) (id : ObjectId) : Option Object := (h.find? id).map Entry.object

/-- The block of the object that an id names. -/
def block? (h : Heap) (id : ObjectId) : Option Block := (h.find? id).map Entry.block

/-- The content of the object that a reference names, if there is one of the
kind that the reference is for. -/
def get? {k : Kind} (h : Heap) (ref : Ref k) : Option k.Content :=
  (h.object? ref.id).bind (·.content? k)

/-- The content of an object that has to be there. -/
def read {k : Kind} (h : Heap) (ref : Ref k) : Result k.Content :=
  match h.get? ref with
  | some content => .ok content
  | none => Result.abort .staleReference

/-- Bytes of the memory of an object, from its start on. -/
def bytes (h : Heap) (id : ObjectId) (count : Nat) : List UInt8 :=
  match h.block? id with
  | some block => h.memory.read block.page block.offset count
  | none => []

/-- The byte of the memory of an object at an offset. -/
def byte? (h : Heap) (id : ObjectId) (offset : Nat) : Option UInt8 :=
  (h.block? id).bind fun block => h.memory.byte? block.page (block.offset + offset)

/-- Payload bytes of all objects. -/
def bytesAllocated (h : Heap) : Nat := h.memory.allocated

/-- The number of objects. -/
def liveObjects (h : Heap) : Nat := h.slots.size - h.vacant.length

/-! ### Changing objects -/

/-- Changes the entry that an id names. -/
def updateEntry (h : Heap) (id : ObjectId) (f : Entry → Entry) : Heap :=
  { h with slots := h.slots.modify id.index.toNat fun slot =>
      if slot.generation = id.generation then { slot with entry := slot.entry.map f } else slot }

/-- Replaces the content of an object. -/
def put {k : Kind} (h : Heap) (ref : Ref k) (content : k.Content) : Heap :=
  h.updateEntry ref.id fun entry => { entry with object := .ofContent k content }

/-- Stores bytes into the memory of an object, from `offset` on. -/
def writeBytes (h : Heap) (id : ObjectId) (offset : Nat) (bytes : List UInt8) : Heap :=
  match h.block? id with
  | some block => { h with memory := h.memory.write block.page (block.offset + offset) bytes }
  | none => h

/-- Puts an entry into a slot: the one freed last, or a new one. -/
def occupy (h : Heap) (entry : Entry) : ObjectId × Heap :=
  match h.vacant with
  | index :: vacant =>
      let frees := ((h.slots[index.toNat]?).map Slot.frees).getD 0
      (⟨index, UInt32.ofNat frees⟩,
        { h with
          vacant := vacant
          slots := h.slots.setIfInBounds index.toNat ⟨frees, some entry⟩ })
  | [] =>
      (⟨UInt32.ofNat h.slots.size, 0⟩, { h with slots := h.slots.push ⟨0, some entry⟩ })

/-- Whether there is a number for one more object. -/
def hasRoom (h : Heap) : Bool := !h.vacant.isEmpty || h.slots.size < slotLimit

/-- Adds an object. -/
def insert (object : Object) (pinned : Bool) : Action Heap ObjectId := do
  if wordLimit ≤ object.size then Action.abort .wordOverflow
  let block ← onMemory (Allocator.allocate object.size)
  Action.note (.objectAllocated object.typeName block.size)
  if !(← get).hasRoom then Action.abort .slotOverflow
  modifyGet (·.occupy ⟨block, false, pinned, object⟩)

/-- Adds an object of kind `k` that can be swept. -/
def alloc (k : Kind) (content : k.Content) : Action Heap (Ref k) := do
  return ⟨← insert (.ofContent k content) false⟩

/-- Reserves the memory that an object needs since it has grown. The contents
of its block move along. -/
def resize (id : ObjectId) : Action Heap Unit := do
  match (← get).find? id with
  | none => pure ()
  | some entry =>
      let size := entry.object.size
      if wordLimit ≤ size then Action.abort .wordOverflow
      if entry.block.size < size then
        let block ← onMemory (Allocator.grow entry.block size)
        modify (·.updateEntry id fun entry => { entry with block := block })

/-- Takes the content of an object out, to be changed and put back. Until then
a placeholder stands in the heap, so that nothing else holds on to the content
and it can be changed in place. -/
@[noinline]
def take? {k : Kind} (h : Heap) (ref : Ref k) : Option (k.Content × Heap) :=
  match h.get? ref with
  | some content =>
      some (content, h.updateEntry ref.id fun entry => { entry with object := .placeholder })
  | none => none

/-- Runs an action on the content of an object, which has to be there. -/
def onContent {k : Kind} {α : Type} (ref : Ref k) (action : Action k.Content α) :
    Action Heap α := fun h journal =>
  match h.take? ref with
  | none => .aborted .staleReference
  | some (content, h) =>
    match action content journal with
    | .done value content journal => .done value (h.put ref content) journal
    | .raised error content journal => .raised error (h.put ref content) journal
    | .aborted fault => .aborted fault

end Heap

end ScriptMachine
