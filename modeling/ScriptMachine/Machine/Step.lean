import ScriptMachine.Machine.Variables

/-!
One instruction of the machine.

`Machine.step` fetches a code word and carries out the instruction that it
numbers, operands included. Everything an instruction can do wrong shows in
its outcome; only the last return of a script ends the run.
-/

namespace ScriptMachine.Machine

/-- Whether a run goes on. -/
inductive Status where
  | running
  | finished
  deriving DecidableEq

/-! ### Operators -/

/-- Replaces the two top values by the result of an operation on them. -/
def binary (op : Heap → Value → Value → Result Value) : Action Machine Unit := do
  let b ← pop
  let a ← peek 0
  let value ← op (← get).heap a b
  setPeek 0 value

/-- Replaces the top value by the result of an operation on it. -/
def unary (op : Heap → Value → Result Value) : Action Machine Unit := do
  let a ← peek 0
  let value ← op (← get).heap a
  setPeek 0 value

/-- An arithmetic operation, with a value as its result. -/
def scalarOp (op : Heap → Value → Value → Result Scalar) (h : Heap) (a b : Value) :
    Result Value := return .scalar (← op h a b)

/-- An equality, or with `expected` false an inequality. -/
def equality (op : Heap → Value → Value → Result Bool) (expected : Bool) :
    Action Machine Unit :=
  binary fun h a b => return .ofBool ((← op h a b) == expected)

/-- An order; it does not hold where there is none. -/
def ordering (op : String) (accept : Ordering → Bool) : Action Machine Unit :=
  binary fun h a b => return .ofBool (((← Arithmetic.compare? h op a b).map accept).getD false)

/-- Replaces the two top values by their sum, or by the two joined. -/
def add : Action Machine Unit := do
  let b ← peek 0
  let a ← peek 1
  match ← Arithmetic.add (← get).heap a b with
  | .scalar scalar =>
      let _ ← pop
      setPeek 0 (.scalar scalar)
  | .text text =>
      collectIfNeeded
      let ref ← onHeap (Heap.newText text)
      let _ ← pop
      setPeek 0 (.scalar (.str ref))

/-- Replaces the two top values by a truth value made from theirs. -/
def logical (op : Bool → Bool → Bool) : Action Machine Unit := do
  let b ← pop
  let a ← pop
  push (.ofBool (op a.isTrue b.isTrue))

/-! ### Jumps -/

/-- Jumps forward if the top value passes a test. -/
def jumpIf (test : Value → Bool) : Action Machine Unit := do
  let offset ← fetchNat
  if test (← peek 0) then skip offset

/-- Jumps forward by the second operand if the top value is true, else by the
first. -/
def jumpCase : Action Machine Unit := do
  let otherwise ← fetchNat
  let offset ← fetchNat
  skip (if (← peek 0).isTrue then offset else otherwise)

/-- Jumps to the target of a case. -/
def jumpList : Action Machine Unit := do
  let index ← fetchNat
  match (← running).chunk.cases[index]? with
  | some target => jumpTo target.toNat
  | none => Action.abort .outOfRange

/-- Jumps backward. -/
def loop : Action Machine Unit := do
  let offset ← fetchNat
  let ip := (← get).frame.ip
  if ip < offset then Action.abort .wordOverflow
  jumpTo (ip - offset)

/-! ### Calls and printing -/

/-- Calls the value below the arguments. -/
def call (host : Host) : Action Machine Unit := do
  let count ← fetchNat
  callValue host (← peek count) count

/-- Closes the captured variable in the top slot and pops it. -/
def closeTop : Action Machine Unit := do
  let length := (← get).stack.length
  if length = 0 then Action.abort .wordOverflow
  closeUpvalues (length - 1)
  let _ ← pop

/-- Returns the top value to the caller; without a caller the run ends. -/
def ret : Action Machine Status := do
  let result ← pop
  let base := (← get).frame.base
  closeUpvalues base
  truncate base
  match (← get).frames with
  | frame :: frames =>
      modify fun m => { m with frame := frame, frames := frames }
      push result
      return .running
  | [] => return .finished

/-- Prints the top value on a line of its own. -/
def print : Action Machine Unit := do
  let value ← pop
  let text ← (← get).heap.display value
  if (← get).console.broken then Action.raise (.writeFailed "stdout")
  modify fun m => { m with console := ⟨false, m.console.printed ++ text ++ "\n"⟩ }

/-! ### Containers -/

/-- The capacity that the top value stands for. -/
def fetchCapacity : Action Machine Nat := do
  let value ← peek 0
  match value.integral with
  | some (.ofNat capacity) => return capacity
  | _ =>
      let type ← (← get).heap.typeName value
      Action.raise (.invalidCapacity type)

/-- Replaces a capacity by a new table. -/
def newTable : Action Machine Unit := do
  let table ← Table.withCapacity (← fetchCapacity)
  setPeek 0 (.table (← alloc .table table))

/-- Replaces a capacity by a new stack. -/
def newStack : Action Machine Unit := do
  let stack ← (Stack.withCapacity (← fetchCapacity) : Result (Stack Value))
  setPeek 0 (.stack (← alloc .stack stack))

/-- Replaces a capacity by a new vector. -/
def newVector : Action Machine Unit := do
  let vector ← (Stack.withCapacity (← fetchCapacity) : Result (Stack Scalar))
  setPeek 0 (.vector (← alloc .vector vector))

/-- Stores values into an array, from `index` on. -/
def fillArray (ref : Ref .array) (kind : ArrayKind) : List Value → (index : Nat) → Action Heap Unit
  | [], _ => pure ()
  | value :: values, index => do
      match value.scalar?.bind kind.coerce with
      | some scalar =>
          let _ ← Heap.arraySet ref index scalar
          fillArray ref kind values (index + 1)
      | none =>
          let type ← (← get).typeName value
          Action.raise (.elementMismatch kind.name type)

/-- Replaces the top values by an array of them. -/
def newArray : Action Machine Unit := do
  match ArrayKind.ofWord? (← fetch) with
  | none => Action.abort .badInstruction
  | some kind =>
      let count ← fetchNat
      let length := (← get).stack.length
      if length < count then Action.abort .wordOverflow
      let start := length - count
      collectIfNeeded
      let ref ← onHeap (Heap.newArray kind count)
      let values := (← get).stack.toList.drop start
      onHeap (fillArray ref kind values 0)
      truncate start
      push (.scalar (.array ref))

/-- Replaces a container and an index by the element there. -/
def getIndex : Action Machine Unit := do
  let index ← peek 0
  let container ← peek 1
  let value ← Container.getIndex (← get).heap container index
  let _ ← pop
  setPeek 0 value

/-- Stores the top value at the index below it, into the container below
that, and leaves the value. -/
def setIndex : Action Machine Unit := do
  let value ← peek 0
  let index ← peek 1
  let container ← peek 2
  onHeap (Container.setIndex container index value)
  let length := (← get).stack.length
  if length < 3 then Action.abort .wordOverflow
  truncate (length - 3)
  push value

/-- Replaces a container by its length. -/
def length : Action Machine Unit :=
  unary fun h container => return .scalar (.ofNat (← Container.length h container))

/-- Pops a value and appends it to the container below. -/
def pushValue : Action Machine Unit := do
  let value ← pop
  let container ← peek 0
  onHeap (Container.push container value)

/-- Replaces a container by its last element, which it loses. -/
def popValue : Action Machine Unit := do
  let container ← peek 0
  let value ← onHeap (Container.pop container)
  setPeek 0 value

/-- Replaces a container by a copy of it. -/
def copy : Action Machine Unit := do
  collectIfNeeded
  let value ← peek 0
  let copy ← onHeap (Container.copy value)
  setPeek 0 copy

/-- Replaces a table and a key by the value there, which the table loses. -/
def remove : Action Machine Unit := do
  let index ← pop
  let container ← peek 0
  let value ← onHeap (Container.remove container index)
  setPeek 0 value

/-- The position that a cursor stands for; a negative one is past the end of
every container. -/
def cursorPosition (cursor : Int32) : Nat := cursor.toInt64.toUInt64.toNat

/-- Moves the cursor on top by one and pushes the element of the container
below that it stood at. -/
def each : Action Machine Unit := do
  match ← peek 0 with
  | .scalar (.int cursor) =>
      let container ← peek 1
      let element ← Container.each (← get).heap container (cursorPosition cursor)
      if !fitsInt (cursor.toInt + 1) then Action.abort .wordOverflow
      setPeek 0 (.scalar (.int (cursor + 1)))
      push element
  | _ => Action.abort .badInstruction

/-! ### All instructions -/

/-- Carries out an instruction other than a return. -/
def execute (host : Host) : Opcode → Action Machine Unit
  | .constant => do push (← fetchConstant)
  | .pushNull => push .null
  | .pushTrue => push (.ofBool true)
  | .pushFalse => push (.ofBool false)
  | .pop => do let _ ← pop
  | .popMany => do
      let count ← fetchNat
      truncate ((← get).stack.length - count)
  | .dup => do push (← peek 0)
  | .getLocal => getLocal
  | .setLocal => setLocal
  | .getGlobal => getGlobal
  | .defineGlobal => defineGlobal
  | .setGlobal => setGlobal
  | .deleteGlobal => deleteGlobal
  | .getUpvalue => getUpvalue
  | .setUpvalue => setUpvalue
  | .getProperty => getProperty
  | .setProperty => setProperty
  | .getNative => do
      let index ← fetchNat
      push (((← get).natives.get? index).getD .null)
  | .getClass => do
      let index ← fetchNat
      push (((← get).classes.get? index).getD .null)
  | .add => add
  | .sub => binary (scalarOp Arithmetic.sub)
  | .mul => binary (scalarOp Arithmetic.mul)
  | .div => binary (scalarOp Arithmetic.div)
  | .mod => binary (scalarOp Arithmetic.rem)
  | .eq => equality Arithmetic.equal true
  | .ne => equality Arithmetic.equal false
  | .strictEq => equality Arithmetic.strictEqual true
  | .strictNe => equality Arithmetic.strictEqual false
  | .lt => ordering "<" Ordering.isLT
  | .le => ordering "<=" Ordering.isLE
  | .gt => ordering ">" Ordering.isGT
  | .ge => ordering ">=" Ordering.isGE
  | .and => logical (· && ·)
  | .or => logical (· || ·)
  | .neg => unary fun h a => return .scalar (← Arithmetic.negate h a)
  | .not => unary fun _ a => .ok (.ofBool !a.isTrue)
  | .inc => unary fun h a => return .scalar (← Arithmetic.step h a true)
  | .dec => unary fun h a => return .scalar (← Arithmetic.step h a false)
  | .jump => do skip (← fetchNat)
  | .jumpIfFalse => jumpIf (!·.isTrue)
  | .jumpIfTrue => jumpIf (·.isTrue)
  | .jumpIfNull => jumpIf (·.isNull)
  | .jumpIfNotNull => jumpIf (!·.isNull)
  | .jumpCase => jumpCase
  | .jumpList => jumpList
  | .loop => loop
  | .call => call host
  | .invoke => invoke host
  | .closure => makeClosure
  | .closeUpvalue => closeTop
  | .ret => pure ()
  | .defineClass => defineClass
  | .defineMethod => defineMethod
  | .print => print
  | .newTable => newTable
  | .newStack => newStack
  | .newVector => newVector
  | .newArray => newArray
  | .getIndex => getIndex
  | .setIndex => setIndex
  | .length => length
  | .pushValue => pushValue
  | .popValue => popValue
  | .copy => copy
  | .remove => remove
  | .each => each

/-- Carries out the next instruction. -/
def step (host : Host) : Action Machine Status := do
  let word ← fetch
  let m ← get
  Action.note (.instructionFetched (m.frame.ip - 1) (Opcode.nameOfWord word) m.stack.length)
  match Opcode.ofWord? word with
  | none => Action.abort .badInstruction
  | some .ret => ret
  | some op =>
      execute host op
      return .running

end ScriptMachine.Machine
