import ScriptMachine.Machine.Upvalues

/-!
Calls.

The callee stands on the stack below its arguments. Calling a closure suspends
the running frame; calling a native function replaces callee and arguments by
the result at once; calling a class puts a new instance in the place of the
callee and calls the initialiser, if the class has one.
-/

namespace ScriptMachine.Machine

/-- Compares the number of arguments with what a function takes. -/
def checkArity (name : String) (arity count : Nat) : Result Unit :=
  if count = arity then .ok () else Result.raise (.arityMismatch name arity count)

/-- Calls a closure on `count` arguments. -/
def callClosure (ref : Ref .closure) (count : Nat) : Action Machine Unit := do
  let m ← get
  let function := (← m.heap.read ref).function
  let code ← m.heap.read function
  checkArity code.name code.arity count
  if m.frames.length = mostFrames then Action.raise .stackOverflow
  if m.stack.length < count + 1 then Action.abort .wordOverflow
  let frame : Frame := ⟨ref, function, 0, m.stack.length - count - 1⟩
  modify fun m => { m with frames := m.frame :: m.frames, frame := frame }

/-- Calls a native function on `count` arguments. -/
def callNative (host : Host) (ref : Ref .native) (count : Nat) : Action Machine Unit := do
  let m ← get
  let native ← m.heap.read ref
  checkArity native.name native.arity count
  if m.stack.length < count then Action.abort .wordOverflow
  let start := m.stack.length - count
  let result ← onHeap (Native.call host native.routine (m.stack.toList.drop start))
  truncate start
  setPeek 0 result

/-- Calls a class on `count` arguments. -/
def callClass (ref : Ref .cls) (count : Nat) : Action Machine Unit := do
  let inst ← alloc .inst (.create ref)
  setPeek count (.inst inst)
  match (← (← get).heap.read ref).init with
  | some init => callClosure init count
  | none => checkArity "init" 0 count

/-- Calls a value on `count` arguments. -/
def callValue (host : Host) (callee : Value) (count : Nat) : Action Machine Unit := do
  match callee with
  | .closure ref => callClosure ref count
  | .native ref => callNative host ref count
  | .cls ref => callClass ref count
  | _ =>
      let type ← (← get).heap.typeName callee
      Action.raise (.notCallable type)

end ScriptMachine.Machine
