import ScriptMachine.Machine.Call

/-!
Instructions on variables, properties and classes.
-/

namespace ScriptMachine.Machine

/-! ### Local and captured variables -/

/-- Pushes a local variable. -/
def getLocal : Action Machine Unit := do
  let slot := (← fetchNat) + (← get).frame.base
  push (((← get).stack.get? slot).getD .null)

/-- Stores the top value into a local variable. -/
def setLocal : Action Machine Unit := do
  let slot := (← fetchNat) + (← get).frame.base
  let value ← peek 0
  onStack fun stack => ((), (stack.set slot value).2)

/-- The captured variable with a number, of the running closure. -/
def upvalue (index : Nat) : Action Machine (Ref .upvalue) := do
  let m ← get
  match (← m.heap.read m.frame.closure).upvalues[index]? with
  | some ref => return ref
  | none => Action.abort .outOfRange

/-- Pushes a captured variable. -/
def getUpvalue : Action Machine Unit := do
  let ref ← upvalue (← fetchNat)
  let m ← get
  match ← m.heap.read ref with
  | .opened slot => push ((m.stack.get? slot).getD .null)
  | .closed value => push value

/-- Stores the top value into a captured variable. -/
def setUpvalue : Action Machine Unit := do
  let ref ← upvalue (← fetchNat)
  let value ← peek 0
  match ← (← get).heap.read ref with
  | .opened slot => onStack fun stack => ((), (stack.set slot value).2)
  | .closed _ => onHeap (modify (·.put ref (.closed value)))

/-! ### Global variables -/

/-- The error of a name without a value. -/
def notDefined {α : Type} (name : Ref .string) : Action Machine α := do
  let text ← (← get).heap.text name
  Action.raise (.notDefined text)

/-- Pushes a global variable. -/
def getGlobal : Action Machine Unit := do
  let (name, key) ← fetchName
  match ← (← get).globals.get? key.hash with
  | some value => push value
  | none => notDefined name

/-- Pops a value into a global variable. -/
def defineGlobal : Action Machine Unit := do
  let (_, key) ← fetchName
  let value ← pop
  let _ ← onGlobals (Table.insert key value)

/-- Stores the top value into a global variable that exists. -/
def setGlobal : Action Machine Unit := do
  let (name, key) ← fetchName
  match ← (← get).globals.get? key.hash with
  | some _ =>
      let value ← peek 0
      let _ ← onGlobals (Table.insert key value)
  | none => notDefined name

/-- Removes a global variable that exists. -/
def deleteGlobal : Action Machine Unit := do
  let (name, key) ← fetchName
  match ← onGlobals (Table.remove key.hash) with
  | some _ => pure ()
  | none => notDefined name

/-! ### Properties -/

/-- A value that has to be an instance, since its property is asked for. -/
def asInstance (value : Value) (name : Ref .string) : Action Machine (Ref .inst) := do
  match value with
  | .inst ref => return ref
  | _ =>
      let h := (← get).heap
      let type ← h.typeName value
      Action.raise (.notAnInstance type (← h.text name))

/-- The field of an instance, or else the method of its class. -/
def property (h : Heap) (ref : Ref .inst) (name : Ref .string) (key : Key) : Result Value := do
  let inst ← h.read ref
  match ← inst.fields.get? key.hash with
  | some value => return value
  | none =>
      let cls ← h.read inst.cls
      match ← cls.methods.get? key.hash with
      | some value => return value
      | none => Result.raise (.noSuchAttribute (← h.text cls.name) (← h.text name))

/-- Replaces an instance by one of its properties. -/
def getProperty : Action Machine Unit := do
  let (name, key) ← fetchName
  let ref ← asInstance (← peek 0) name
  let value ← property (← get).heap ref name key
  setPeek 0 value

/-- Stores into a field and returns what was there. -/
def storeField (ref : Ref .inst) (key : Key) (value : Value) : Action Heap (Option Value) :=
  Heap.onContent ref (Action.on
    (fun (⟨cls, fields⟩ : Instance) => (fields, fun fields => ⟨cls, fields⟩))
    (Table.insert key value))

/-- Stores a method and returns what was there. -/
def storeMethod (ref : Ref .cls) (key : Key) (value : Value) : Action Heap (Option Value) :=
  Heap.onContent ref (Action.on
    (fun (⟨name, init, methods⟩ : Class) => (methods, fun methods => ⟨name, init, methods⟩))
    (Table.insert key value))

/-- Stores the top value into a field of the instance below it. -/
def setProperty : Action Machine Unit := do
  let (name, key) ← fetchName
  let value ← peek 0
  let ref ← asInstance (← peek 1) name
  let _ ← onHeap (storeField ref key value)
  onHeap (Heap.resize ref.id)
  let _ ← pop
  setPeek 0 value

/-- Calls a property of an instance that stands below its arguments. A field
takes the place of the instance, a method is called on it. -/
def invoke (host : Host) : Action Machine Unit := do
  let (name, key) ← fetchName
  let count ← fetchNat
  let ref ← asInstance (← peek count) name
  let h := (← get).heap
  match ← (← h.read ref).fields.get? key.hash with
  | some field =>
      setPeek count field
      callValue host field count
  | none => callValue host (← property h ref name key) count

/-! ### Classes and closures -/

/-- Pushes a new class. -/
def defineClass : Action Machine Unit := do
  let (name, _) ← fetchName
  let cls := Value.cls (← alloc .cls (.create name))
  modify fun m => { m with classes := m.classes.push cls }
  push cls

/-- Makes the closure on top a method of the class below it. A method named
`init` initialises new instances. -/
def defineMethod : Action Machine Unit := do
  let (name, key) ← fetchName
  match ← peek 1, ← peek 0 with
  | .cls ref, .closure method =>
      let _ ← onHeap (storeMethod ref key (.closure method))
      if (← (← get).heap.text name) == "init" then
        let cls ← (← get).heap.read ref
        onHeap (modify (·.put ref { cls with init := some method }))
      onHeap (Heap.resize ref.id)
      let _ ← pop
  | _, _ => Action.abort .badInstruction

/-- Reads the places of `count` captured variables and captures them. -/
def captureMany : (count : Nat) → Array (Ref .upvalue) → Action Machine (Array (Ref .upvalue))
  | 0, refs => pure refs
  | count + 1, refs => do
      let isLocal ← fetch
      let index ← fetchNat
      let ref ← if isLocal ≠ 0 then capture ((← get).frame.base + index) else upvalue index
      captureMany count (refs.push ref)

/-- Pushes a closure of a function. -/
def makeClosure : Action Machine Unit := do
  match ← fetchConstant with
  | .function ref =>
      let count := (← (← get).heap.read ref).upvalueCount
      let upvalues ← captureMany count #[]
      push (.closure (← alloc .closure ⟨ref, upvalues⟩))
  | _ => Action.abort .badInstruction

end ScriptMachine.Machine
