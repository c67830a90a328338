import ScriptMachine.Machine.Collect

/-!
Captured variables.

Two closures that capture one stack slot share one upvalue, which lists the
slot until the variable leaves the stack; then the upvalue takes over the value
of the slot. `Machine.openUpvalues` holds those that still name a slot, ordered
by slot.
-/

namespace ScriptMachine.Machine

/-- The slot that an upvalue names. One that names none counts as past all
slots. -/
def openSlot (h : Heap) (ref : Ref .upvalue) : Result Nat := do
  match ← h.read ref with
  | .opened slot => return slot
  | .closed _ => return wordLimit - 1

/-- Cuts a list of upvalues, ordered by slot, before the first one that names
`slot` or a later one. -/
def splitAtSlot (h : Heap) (slot : Nat) :
    List (Ref .upvalue) → Result (List (Ref .upvalue) × List (Ref .upvalue))
  | [] => .ok ([], [])
  | ref :: refs => do
      if (← openSlot h ref) < slot then
        match ← splitAtSlot h slot refs with
        | (below, above) => return (ref :: below, above)
      else return ([], ref :: refs)

/-- The upvalue for a stack slot: the one that names it, or a new one. -/
def capture (slot : Nat) : Action Machine (Ref .upvalue) := do
  let m ← get
  let (below, above) ← splitAtSlot m.heap slot m.openUpvalues
  let found ← match above with
    | ref :: _ => do
        let named ← openSlot m.heap ref
        pure (if named = slot then some ref else none)
    | [] => pure none
  match found with
  | some ref => return ref
  | none =>
      let ref ← alloc .upvalue (.opened slot)
      modify fun m => { m with openUpvalues := below ++ ref :: above }
      return ref

/-- Makes an upvalue take over the value of its slot. -/
def closeOne (stack : Stack Value) (ref : Ref .upvalue) : Action Heap Unit := do
  match ← (← get).read ref with
  | .opened slot => modify (·.put ref (.closed ((stack.get? slot).getD .null)))
  | .closed _ => pure ()

/-- Makes upvalues take over the values of their slots. -/
def closeAll (stack : Stack Value) : List (Ref .upvalue) → Action Heap Unit
  | [] => pure ()
  | ref :: refs => do
      closeOne stack ref
      closeAll stack refs

/-- Closes all upvalues that name `slot` or a later one. -/
def closeUpvalues (slot : Nat) : Action Machine Unit := do
  let m ← get
  let (below, above) ← splitAtSlot m.heap slot m.openUpvalues
  let stack := m.stack
  modify fun m => { m with openUpvalues := below }
  onHeap (closeAll stack above)

/-- Forgets everything that belongs to a run. -/
def reset : Action Machine Unit := do
  closeUpvalues 0
  modify fun m => { m with stack := m.stack.reset, frames := [], frame := .dangling }

end ScriptMachine.Machine
