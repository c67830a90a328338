import ScriptMachine.Native

/-!
The state of the machine and its elementary actions.

The machine runs one frame at a time; the frames that called it are suspended,
innermost first. Operands and local variables share one stack. Captured
variables that are still on that stack are listed by their slot, lowest first.
Global variables, classes and native functions outlive a run.
-/

namespace ScriptMachine

/-- When a machine collects. -/
inductive CollectMode where
  /-- When the heap has grown past a threshold. -/
  | normal
  /-- Before every allocation. -/
  | stress
  /-- Never. -/
  | off
  deriving DecidableEq

/-- The settings of a machine. -/
structure Config where
  pageSize : Nat
  /-- The threshold before the first collection, and the least one after. -/
  initialThreshold : Nat
  /-- The threshold after a collection is what is left, times this. -/
  growFactor : Nat
  globalsCapacity : Nat
  mode : CollectMode
  deriving DecidableEq

/-- The settings of a machine that is not told others. -/
def Config.standard : Config :=
  ⟨Heap.defaultPageSize, Heap.defaultPageSize * 16, 2, 128, .normal⟩

/-- A call in progress. -/
structure Frame where
  closure : Ref .closure
  function : Ref .function
  /-- The position of the next code word. -/
  ip : Nat
  /-- The stack slot of the callee; local variables follow. -/
  base : Nat
  deriving DecidableEq

/-- The frame of a machine that does not run. -/
def Frame.dangling : Frame := ⟨.dangling, .dangling, 0, 0⟩

/-- Where a run prints to. A broken console fails every time. -/
structure Console where
  broken : Bool
  printed : String
  deriving DecidableEq

/-- The state of a machine. -/
structure Machine where
  heap : Heap
  globals : Table
  config : Config
  /-- The number of bytes past which the machine collects. -/
  threshold : Nat
  /-- The suspended callers, innermost first. -/
  frames : List Frame
  frame : Frame
  stack : Stack Value
  /-- The captured variables that are on the stack, by slot. -/
  openUpvalues : List (Ref .upvalue)
  classes : Stack Value
  natives : Stack Value
  /-- The numbers of native functions by name, last defined first. -/
  nativeNames : List (String × UInt16)
  console : Console

namespace Machine

/-- The most callers that can be suspended. -/
def mostFrames : Nat := 500

/-! ### Parts of the state -/

/-- Runs an action of the heap. -/
@[always_inline, inline]
def onHeap {α : Type} (action : Action Heap α) : Action Machine α :=
  Action.on
    (fun ⟨heap, globals, config, threshold, frames, frame, stack, openUpvalues, classes, natives,
        nativeNames, console⟩ =>
      (heap, fun heap =>
        ⟨heap, globals, config, threshold, frames, frame, stack, openUpvalues, classes, natives,
          nativeNames, console⟩))
    action

/-- Runs an action on the global variables. -/
@[always_inline, inline]
def onGlobals {α : Type} (action : Action Table α) : Action Machine α :=
  Action.on
    (fun ⟨heap, globals, config, threshold, frames, frame, stack, openUpvalues, classes, natives,
        nativeNames, console⟩ =>
      (globals, fun globals =>
        ⟨heap, globals, config, threshold, frames, frame, stack, openUpvalues, classes, natives,
          nativeNames, console⟩))
    action

/-- Changes the operand stack. -/
@[always_inline, inline]
def onStack {α : Type} (f : Stack Value → α × Stack Value) : Action Machine α :=
  Action.on
    (fun ⟨heap, globals, config, threshold, frames, frame, stack, openUpvalues, classes, natives,
        nativeNames, console⟩ =>
      (stack, fun stack =>
        ⟨heap, globals, config, threshold, frames, frame, stack, openUpvalues, classes, natives,
          nativeNames, console⟩))
    (modifyGet f)

/-! ### The operand stack -/

/-- Pushes a value. -/
def push (value : Value) : Action Machine Unit := onStack fun stack => ((), stack.push value)

/-- Pops a value; null if there is none. -/
def pop : Action Machine Value := onStack fun stack =>
  match stack.pop with
  | (value, stack) => (value.getD .null, stack)

/-- The value `distance` places below the top; null if there is none. -/
def peek (distance : Nat) : Action Machine Value := do
  return ((← get).stack.peek? distance).getD .null

/-- Replaces the value `distance` places below the top, which has to be
there. -/
def setPeek (distance : Nat) (value : Value) : Action Machine Unit := do
  let length := (← get).stack.length
  if length < distance + 1 then Action.abort .wordOverflow
  onStack fun stack => ((), (stack.set (length - distance - 1) value).2)

/-- Keeps the lowest `count` values. -/
def truncate (count : Nat) : Action Machine Unit := onStack fun stack => ((), stack.truncate count)

/-! ### Code -/

/-- Sets the position of the next code word. -/
def jumpTo (ip : Nat) : Action Machine Unit :=
  modify fun m => { m with frame := { m.frame with ip := ip } }

/-- Moves the position of the next code word forward. -/
def skip (offset : Nat) : Action Machine Unit := do jumpTo ((← get).frame.ip + offset)

/-- The function that is running. -/
def running : Action Machine Function := do
  let m ← get
  m.heap.read m.frame.function

/-- The next code word. -/
def fetch : Action Machine UInt16 := do
  let function ← running
  let ip := (← get).frame.ip
  match function.chunk.code[ip]? with
  | some word =>
      jumpTo (ip + 1)
      return word
  | none => Action.abort .outOfRange

/-- The next code word as a number. -/
def fetchNat : Action Machine Nat := return (← fetch).toNat

/-- The constant that the next code word numbers; null if there is none. -/
def fetchConstant : Action Machine Value := do
  let index ← fetchNat
  return ((← running).chunk.constants.get? index).getD .null

/-- The name that the next code word numbers, and its key. -/
def fetchName : Action Machine (Ref .string × Key) := do
  match ← fetchConstant with
  | .scalar (.str name) =>
      let record ← (← get).heap.read name
      return (name, ⟨record.hash, .str name⟩)
  | _ => Action.abort .badInstruction

/-! ### Native functions -/

/-- Registers a native function, by number and as a global variable. -/
def defineNative (native : Native) : Action Machine UInt16 := do
  let ref ← onHeap (Heap.alloc .native native)
  let name ← onHeap (Heap.insertText native.name true)
  let number := UInt16.ofNat (← get).natives.length
  modify fun m =>
    { m with
      natives := m.natives.push (.native ref)
      nativeNames := (native.name, number) :: m.nativeNames }
  let record ← (← get).heap.read name
  let _ ← onGlobals (Table.insert ⟨record.hash, .str name⟩ (.native ref))
  return number

/-- The number of the native function that was defined last under a name. -/
def nativeIndex? (m : Machine) (name : String) : Option UInt16 :=
  (m.nativeNames.find? (·.1 == name)).map Prod.snd

/-- The value of a global variable. -/
def global? (m : Machine) (name : String) : Result (Option Value) :=
  m.globals.get? (Hash.ofText name)

/-- Registers native functions one by one. -/
def defineNatives : List Native → Action Machine Unit
  | [] => pure ()
  | native :: natives => do
      let _ ← defineNative native
      defineNatives natives

/-- A machine without native functions. -/
def bare (config : Config) (grants : Nat → Bool) : Result Machine := do
  let heap ← Heap.create config.pageSize grants
  let globals ← Table.withCapacity config.globalsCapacity
  return {
    heap := heap
    globals := globals
    config := config
    threshold := config.initialThreshold
    frames := []
    frame := .dangling
    stack := .empty
    openUpvalues := []
    classes := .empty
    natives := .empty
    nativeNames := []
    console := ⟨false, ""⟩ }

/-- A machine that knows the built-in functions. -/
def create (config : Config) (grants : Nat → Bool) (journal : Journal) :
    Result (Machine × Journal) := do
  let m ← bare config grants
  match defineNatives Native.builtins m journal with
  | .done _ m journal => return (m, journal)
  | .raised error _ _ => Result.raise error
  | .aborted fault => Result.abort fault

end Machine

end ScriptMachine
