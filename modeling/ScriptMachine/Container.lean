import ScriptMachine.Arithmetic
import ScriptMachine.Heap.Collect

/-!
Indexing and the operations on containers: strings, arrays, vectors, stacks
and tables.

Strings are indexed by byte, and only ASCII bytes can be read or written as
characters, so a store never breaks the encoding of a text. Sequences accept
stores up to their capacity, which extends them; tables take any key that has
a hash. An error leaves open what a failed request for memory has changed, and
any other error changes nothing.
-/

namespace ScriptMachine.Container

/-- The error of an operation that a value does not offer. -/
def unsupported {α : Type} (h : Heap) (op : String) (value : Value) : Result α := do
  Result.raise (.unsupported op (← h.typeName value))

/-- The error of a value that a container cannot hold. -/
def elementMismatch {α : Type} (h : Heap) (container value : Value) : Result α := do
  Result.raise (.elementMismatch (← h.typeName container) (← h.typeName value))

/-- The error of a value that has no elements. -/
def notIndexable {α : Type} (h : Heap) (container : Value) : Result α := do
  Result.raise (.notIndexable (← h.typeName container))

/-- A byte that has to be an ASCII character. -/
def ascii (index : Nat) (byte : UInt8) : Result UInt8 :=
  if Heap.isAscii byte then .ok byte else Result.raise (.notAscii index byte)

/-- The table key for a value. -/
def key (h : Heap) (value : Value) : Result Key :=
  match value with
  | .scalar scalar => do
      match ← h.hash? scalar with
      | some hash => return ⟨hash, scalar⟩
      | none => Result.raise (.unhashable (← h.typeName value))
  | _ => do Result.raise (.unhashable (← h.typeName value))

/-- The number of elements of a container, if the value is one. -/
def length? (h : Heap) : Value → Result (Option Nat)
  | .scalar (.str ref) => do return some (← h.read ref).length
  | .scalar (.array ref) => do return some (← h.read ref).length
  | .vector ref => do return some (← h.read ref).length
  | .stack ref => do return some (← h.read ref).length
  | .table ref => do return some (← h.read ref).count
  | _ => .ok none

/-- The number of elements of a container. -/
def length (h : Heap) (container : Value) : Result Nat := do
  match ← length? h container with
  | some length => return length
  | none => unsupported h "len" container

/-- The number of elements that a container has room for; of a table, the
number of its slots. -/
def capacity (h : Heap) : Value → Result Nat
  | .scalar (.str ref) => do return (← h.read ref).capacity
  | .scalar (.array ref) => do return (← h.read ref).capacity
  | .vector ref => do return (← h.read ref).capacity
  | .stack ref => do return (← h.read ref).capacity
  | .table ref => do return (← h.read ref).capacity
  | value => unsupported h "capacity" value

/-- The position below `limit` that an index value stands for. -/
def position (h : Heap) (container index : Value) (limit : Nat) : Result Nat :=
  match index.integral with
  | none => do Result.raise (.invalidIndexType (← h.typeName index))
  | some n =>
      if 0 ≤ n ∧ n < limit then .ok n.toNat
      else do
        let type ← h.typeName container
        Result.raise (.outOfBounds type n ((← length? h container).getD limit))

/-! ### Reading -/

/-- The element of a container at an index; of a table, the value under a key
or null. -/
def getIndex (h : Heap) (container index : Value) : Result Value :=
  match container with
  | .scalar (.str ref) => do
      let i ← position h container index (← h.textRecord ref).length
      return .scalar (.char (← ascii i ((← h.textByte? ref i).getD 0)))
  | .scalar (.array ref) => do
      let i ← position h container index (← h.read ref).length
      return .scalar ((← h.arrayGet? ref i).getD .null)
  | .vector ref => do
      let items ← h.read ref
      let i ← position h container index items.length
      return .scalar ((items.get? i).getD .null)
  | .stack ref => do
      let items ← h.read ref
      let i ← position h container index items.length
      return (items.get? i).getD .null
  | .table ref => do
      let key ← key h index
      return (← (← h.read ref).get? key.hash).getD .null
  | _ => notIndexable h container

/-- The element at a cursor that walks over a container, or null past the
end. -/
def each (h : Heap) (container : Value) (cursor : Nat) : Result Value :=
  match container with
  | .scalar (.str ref) => do
      match ← h.textByte? ref cursor with
      | some byte => return .scalar (.char (← ascii cursor byte))
      | none => return .null
  | .scalar (.array ref) => do
      return ((← h.arrayGet? ref cursor).map Value.scalar).getD .null
  | .vector ref => do return (((← h.read ref).get? cursor).map Value.scalar).getD .null
  | .stack ref => do return ((← h.read ref).get? cursor).getD .null
  | _ => unsupported h "iteration" container

/-! ### Writing -/

/-- Reserves the memory that a container needs since it has grown. -/
def reserve (container : Value) : Action Heap Unit :=
  match container.id? with
  | some id => Heap.resize id
  | none => pure ()

/-- The element that a value becomes in an array. -/
def element (h : Heap) (kind : ArrayKind) (container value : Value) : Result Scalar :=
  match value.scalar?.bind kind.coerce with
  | some scalar => .ok scalar
  | none => elementMismatch h container value

/-- The scalar that a value has to be. -/
def scalarOf (h : Heap) (container value : Value) : Result Scalar :=
  match value with
  | .scalar scalar => .ok scalar
  | _ => elementMismatch h container value

/-- Stores a character into a string. -/
def setText (container index value : Value) (ref : Ref .string) : Action Heap Unit := do
  let h ← get
  match value with
  | .scalar (.char byte) =>
      let i ← position h container index (← h.read ref).capacity
      match ← h.textByte? ref i with
      | some old => let _ ← ascii i old
      | none => pure ()
      let byte ← ascii i byte
      let _ ← Heap.setChar ref i byte
  | _ => (elementMismatch h container value : Result Unit)

/-- Stores a value at an index of a container. -/
def setIndex (container index value : Value) : Action Heap Unit := do
  let h ← get
  match container with
  | .scalar (.array ref) =>
      let array ← h.read ref
      let scalar ← element h array.kind container value
      let i ← position h container index array.capacity
      let _ ← Heap.arraySet ref i scalar
  | .vector ref =>
      let scalar ← scalarOf h container value
      let i ← position h container index (← h.read ref).capacity
      let _ ← Heap.onContent ref (modifyGet (·.set i scalar))
  | .stack ref =>
      let i ← position h container index (← h.read ref).capacity
      let _ ← Heap.onContent ref (modifyGet (·.set i value))
  | .table ref =>
      let key ← key h index
      let _ ← Heap.onContent ref (Table.insert key value)
  | .scalar (.str ref) => setText container index value ref
  | _ => (notIndexable h container : Result Unit)
  reserve container

/-- Appends a value to a container. -/
def push (container value : Value) : Action Heap Unit := do
  let h ← get
  match container with
  | .scalar (.array ref) =>
      let scalar ← element h (← h.read ref).kind container value
      Heap.arrayPush ref scalar
  | .vector ref =>
      let scalar ← scalarOf h container value
      Heap.onContent ref (modify (·.push scalar))
  | .stack ref => Heap.onContent ref (modify (·.push value))
  | _ => (unsupported h "push" container : Result Unit)
  reserve container

/-- Removes the last element of a container, if the value is one, and returns
it. -/
def popFrom (container : Value) : Action Heap (Option Value) := do
  let h ← get
  match container with
  | .scalar (.array ref) => return (← Heap.arrayPop ref).map Value.scalar
  | .vector ref => return (← Heap.onContent ref (modifyGet Stack.pop)).map Value.scalar
  | .stack ref => Heap.onContent ref (modifyGet Stack.pop)
  | _ => (unsupported h "pop" container : Result _)

/-- Removes the last element of a container and returns it. -/
def pop (container : Value) : Action Heap Value := do
  match ← popFrom container with
  | some value => return value
  | none => do
      let type ← (← get).typeName container
      Action.raise (.popFromEmpty type)

/-- Removes a key from a table and returns its value, or null. -/
def remove (container index : Value) : Action Heap Value := do
  let h ← get
  match container with
  | .table ref =>
      let key ← key h index
      return (← Heap.onContent ref (Table.remove key.hash)).getD .null
  | _ => (unsupported h "remove" container : Result _)

/-- A new container with the same elements. -/
def copy (value : Value) : Action Heap Value := do
  let h ← get
  match value with
  | .scalar (.str ref) => return .scalar (.str (← Heap.newText (← h.text ref)))
  | .scalar (.array ref) => return .scalar (.array (← Heap.copyArray ref))
  | .vector ref => return .vector (← Heap.alloc .vector (← h.read ref))
  | .stack ref => return .stack (← Heap.alloc .stack (← h.read ref))
  | .table ref => return .table (← Heap.alloc .table (← h.read ref))
  | _ => (unsupported h "copy" value : Result _)

end ScriptMachine.Container
