import ScriptMachine.Heap.Basic

/-!
The collector: mark and sweep.

A collection marks what the roots name (`Heap.markAll`), then everything that
can be reached from there (`Heap.trace`), and at last frees all objects that
are neither marked nor pinned and takes the marks of the others away
(`Heap.sweep`).

Marked objects that may refer to others wait on the gray list until their
children are marked. An object is put there only when it gets its mark, so a
trace takes at most as many steps as there are gray objects and slots.
-/

namespace ScriptMachine

/-- What a sweep freed. -/
structure Sweep where
  objects : Nat
  bytes : Nat
  deriving DecidableEq

namespace Heap

open Memory

/-- Marks an object. Ids that name nothing, and marked objects, are left
alone. -/
def mark (h : Heap) (id : ObjectId) : Heap :=
  match h.find? id with
  | none => h
  | some entry =>
      if entry.marked then h
      else
        let leaf := entry.object.isLeaf
        let h := h.updateEntry id fun entry => { entry with marked := true }
        if leaf then h else { h with gray := id :: h.gray }

/-- Marks objects one by one. -/
def markAll (h : Heap) (ids : List ObjectId) : Heap := ids.foldl mark h

/-- How many bytes of its block an object has to see to know its children. -/
def scannedBytes : Object → Nat
  | .array a => a.length * a.kind.width
  | _ => 0

/-- The objects that an object refers to. -/
def children (h : Heap) (id : ObjectId) : List ObjectId :=
  match h.find? id with
  | none => []
  | some entry =>
      entry.object.children
        (h.memory.read entry.block.page entry.block.offset (scannedBytes entry.object))

/-- Marks the children of gray objects until none is gray, or for `fuel`
objects. -/
def traceFor : (fuel : Nat) → Heap → Heap
  | 0, h => h
  | fuel + 1, h =>
      match h.gray with
      | [] => h
      | id :: gray =>
          let h := { h with gray := gray }
          let ids := h.children id
          traceFor fuel (h.markAll ids)

/-- Marks everything that can be reached from gray objects. -/
def trace (h : Heap) : Heap := traceFor (h.gray.length + h.slots.size) h

/-- Takes the mark off the object in a slot. -/
def unmark (h : Heap) (index : Nat) : Heap :=
  { h with slots := h.slots.modify index fun slot =>
      { slot with entry := slot.entry.map fun entry => { entry with marked := false } } }

/-- Takes an object out of its slot. -/
def vacate (h : Heap) (index : Nat) : Heap :=
  { h with
    slots := h.slots.modify index fun slot => ⟨slot.frees + 1, none⟩
    vacant := UInt32.ofNat index :: h.vacant }

/-- Frees the object in a slot, unless it is marked or pinned; then it only
loses its mark. -/
def sweepSlot (index : Nat) (sweep : Sweep) : Action Heap Sweep := do
  match (← get).slots[index]? with
  | some ⟨_, some entry⟩ =>
      if entry.marked || entry.pinned then
        modify (·.unmark index)
        return sweep
      else
        Action.note (.objectFreed entry.object.typeName entry.block.size)
        onMemory (Allocator.free entry.block)
        modify (·.vacate index)
        return ⟨sweep.objects + 1, sweep.bytes + entry.block.size⟩
  | _ => return sweep

/-- Sweeps `count` slots from `index` on. -/
def sweepFrom : (count index : Nat) → Sweep → Action Heap Sweep
  | 0, _, sweep => pure sweep
  | count + 1, index, sweep => do sweepFrom count (index + 1) (← sweepSlot index sweep)

/-- Frees all objects that are neither marked nor pinned. -/
def sweep : Action Heap Sweep := do
  let h ← get
  if !h.gray.isEmpty then Action.abort .unfinishedTrace
  sweepFrom h.slots.size 0 ⟨0, 0⟩

/-- Frees all objects that are neither pinned nor reachable from the roots. -/
def collect (roots : List ObjectId) : Action Heap Sweep := do
  modify fun h => (h.markAll roots).trace
  sweep

end Heap

end ScriptMachine
