import ScriptMachine.Machine.Basic

/-!
Collections of the machine.

The roots are everything that the machine itself refers to: the operand stack,
the frames, the registries, the global variables and the captured variables on
the stack. A machine collects before it allocates, when the heap has grown past
the threshold; the collection sets a new threshold.
-/

namespace ScriptMachine.Machine

/-- The objects that a machine refers to. -/
def roots (m : Machine) : List ObjectId :=
  m.stack.toList.filterMap Value.id?
    ++ m.frame.closure.id :: m.frames.reverse.map (·.closure.id)
    ++ m.classes.toList.filterMap Value.id?
    ++ m.natives.toList.filterMap Value.id?
    ++ m.globals.children
    ++ m.openUpvalues.map Ref.id

/-- Collects and sets the threshold for the next time. -/
def collectGarbage : Action Machine Sweep := do
  Action.note (.collectionBegan (← get).heap.bytesAllocated)
  let roots := (← get).roots
  let sweep ← onHeap (Heap.collect roots)
  let m ← get
  let bytes := m.heap.bytesAllocated
  if wordLimit ≤ bytes * m.config.growFactor then Action.abort .thresholdOverflow
  let threshold := max (bytes * m.config.growFactor) m.config.initialThreshold
  modify fun m => { m with threshold := threshold }
  Action.note (.collectionEnded sweep.objects sweep.bytes bytes threshold)
  return sweep

/-- Whether the machine collects before the next allocation. -/
def wantsCollection (m : Machine) : Bool :=
  match m.config.mode with
  | .normal => m.threshold < m.heap.bytesAllocated + recordSize
  | .stress => true
  | .off => false

/-- Collects if it is time to. -/
def collectIfNeeded : Action Machine Unit := do
  if (← get).wantsCollection then
    let _ ← collectGarbage

/-- Adds an object to the heap, after a collection if it is time to. -/
def alloc (k : Kind) (content : k.Content) : Action Machine (Ref k) := do
  collectIfNeeded
  onHeap (Heap.alloc k content)

end ScriptMachine.Machine
