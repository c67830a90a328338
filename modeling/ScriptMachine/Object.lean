import ScriptMachine.ArrayKind
import ScriptMachine.Code.Chunk
import ScriptMachine.Table

/-!
The objects of the heap.

Strings and arrays keep their contents in memory, in the block of the object,
and only their lengths here; all other objects are complete as they are.
`Object.size` measures the block that an object needs, `Object.children` lists
the objects that it refers to.
-/

namespace ScriptMachine

open Code

/-- A string of `length` bytes with room for `capacity`, and its hash. -/
structure StringRecord where
  length : Nat
  capacity : Nat
  hash : UInt64
  /-- Whether the bytes are the encoding of a text. -/
  isText : Bool
  deriving DecidableEq

/-- An array of `length` elements with room for `capacity`. -/
structure ArrayRecord where
  kind : ArrayKind
  length : Nat
  capacity : Nat
  deriving DecidableEq

/-- A compiled function. The function of a whole script has no name. -/
structure Function where
  name : String
  arity : Nat
  upvalueCount : Nat
  chunk : Chunk
  deriving DecidableEq

/-- A function together with the variables it captured. -/
structure Closure where
  function : Ref .function
  upvalues : Array (Ref .upvalue)
  deriving DecidableEq

/-- A captured variable: still in a slot of the operand stack, or moved out
of it. -/
inductive Upvalue where
  | opened (slot : Nat)
  | closed (value : Value)
  deriving DecidableEq

/-- A class with its methods; `init` is called on new instances. -/
structure Class where
  name : Ref .string
  init : Option (Ref .closure)
  methods : Table
  deriving DecidableEq

/-- An instance of a class. -/
structure Instance where
  cls : Ref .cls
  fields : Table
  deriving DecidableEq

/-- The functions that every machine offers. -/
inductive Builtin where
  | clock
  | prime
  | squareRoot
  | find
  deriving DecidableEq

/-- What a native function does: one of the built-in functions, or one that
the host of the machine supplies under a number. -/
inductive Routine where
  | builtin (function : Builtin)
  | host (number : Nat)
  deriving DecidableEq

/-- A function that is not written in code words. -/
structure Native where
  name : String
  arity : Nat
  routine : Routine
  deriving DecidableEq

/-- What an object of each kind consists of. -/
abbrev Kind.Content : Kind → Type
  | .array => ArrayRecord
  | .cls => Class
  | .closure => Closure
  | .function => Function
  | .inst => Instance
  | .native => Native
  | .stack => Stack Value
  | .string => StringRecord
  | .table => Table
  | .upvalue => Upvalue
  | .vector => Stack Scalar

/-- An object of the heap. -/
inductive Object where
  | array (content : ArrayRecord)
  | cls (content : Class)
  | closure (content : Closure)
  | function (content : Function)
  | inst (content : Instance)
  | native (content : Native)
  | stack (content : Stack Value)
  | string (content : StringRecord)
  | table (content : Table)
  | upvalue (content : Upvalue)
  | vector (content : Stack Scalar)
  deriving DecidableEq

/-- What stands in the place of an object whose content is being changed. -/
def Object.placeholder : Object := .upvalue (.opened 0)

/-- Bytes charged for the record of any object. -/
def recordSize : Nat := 136

/-- Bytes charged for an upvalue of a closure. -/
def referenceWidth : Nat := 8

/-- A length rounded up to what a block can hold. -/
def roundUp (length : Nat) : Nat := (length + 7) / 8 * 8

/-- The record of a string, `bytes` being the encoding of its text. -/
def StringRecord.ofBytes (bytes : List UInt8) : StringRecord :=
  ⟨bytes.length, roundUp bytes.length, Hash.ofBytes bytes, true⟩

/-- A function without code. -/
def Function.create (name : String) (arity : Nat) : Function := ⟨name, arity, 0, .empty⟩

/-- A function as it is printed. -/
def Function.text (function : Function) : String :=
  if function.name.isEmpty then "<script>" else "<function " ++ function.name ++ ">"

/-- A class without methods. -/
def Class.create (name : Ref .string) : Class := ⟨name, none, .empty⟩

/-- An instance without fields. -/
def Instance.create (cls : Ref .cls) : Instance := ⟨cls, .empty⟩

/-- The objects that a table refers to. -/
def Table.children (table : Table) : List ObjectId :=
  table.entries.flatMap fun (key, value) => key.scalar.id?.toList ++ value.id?.toList

namespace Object

/-- An object from its kind and content. -/
def ofContent : (k : Kind) → k.Content → Object
  | .array, c => array c
  | .cls, c => cls c
  | .closure, c => closure c
  | .function, c => function c
  | .inst, c => inst c
  | .native, c => native c
  | .stack, c => stack c
  | .string, c => string c
  | .table, c => table c
  | .upvalue, c => upvalue c
  | .vector, c => vector c

/-- The content of an object, if it is of the given kind. -/
def content? (object : Object) (k : Kind) : Option k.Content :=
  match k, object with
  | .array, array c => some c
  | .cls, cls c => some c
  | .closure, closure c => some c
  | .function, function c => some c
  | .inst, inst c => some c
  | .native, native c => some c
  | .stack, stack c => some c
  | .string, string c => some c
  | .table, table c => some c
  | .upvalue, upvalue c => some c
  | .vector, vector c => some c
  | _, _ => none

/-- The name of the type of an object. -/
def typeName : Object → String
  | array a => a.kind.name
  | cls _ => "class"
  | closure _ => "function"
  | function _ => "function_impl"
  | inst _ => "instance"
  | native _ => "native"
  | stack _ => "stack"
  | string _ => "str"
  | table _ => "table"
  | upvalue _ => "upvalue"
  | vector _ => "vector"

/-- The bytes that an object is charged for. -/
def size : Object → Nat
  | array a => recordSize + a.capacity * a.kind.width
  | cls c => recordSize + c.methods.footprint
  | closure c => recordSize + c.upvalues.size * referenceWidth
  | function f => recordSize + f.chunk.footprint
  | inst i => recordSize + i.fields.footprint
  | native _ | upvalue _ => recordSize
  | stack s => recordSize + s.footprint
  | string s => recordSize + s.capacity
  | table t => recordSize + t.footprint
  | vector v => recordSize + v.footprint

/-- Whether an object of this shape never refers to another one. -/
def isLeaf : Object → Bool
  | array a => a.kind ≠ .strings
  | native _ | string _ => true
  | _ => false

/-- The elements of an array in the given memory, which is cut into pieces of
the width of an element. -/
def elements (kind : ArrayKind) : (count : Nat) → (bytes : List UInt8) → List Scalar
  | 0, _ => []
  | count + 1, bytes =>
      kind.decode (bytes.take kind.width) :: elements kind count (bytes.drop kind.width)

/-- The objects that an object refers to, in order; `bytes` are the contents
of its block. -/
def children (object : Object) (bytes : List UInt8) : List ObjectId :=
  match object with
  | array a => (elements a.kind a.length bytes).filterMap Scalar.id?
  | cls c => c.name.id :: (c.init.map Ref.id).toList ++ c.methods.children
  | closure c => c.function.id :: c.upvalues.toList.map Ref.id
  | function f => f.chunk.constants.toList.filterMap Value.id?
  | inst i => i.cls.id :: i.fields.children
  | native _ | string _ => []
  | stack s => s.toList.filterMap Value.id?
  | table t => t.children
  | upvalue (.closed value) => value.id?.toList
  | upvalue (.opened _) => []
  | vector v => v.toList.filterMap Scalar.id?

/-- The content that an object was made from comes back. -/
@[simp] theorem content?_ofContent (k : Kind) (c : k.Content) :
    (ofContent k c).content? k = some c := by
  cases k <;> rfl

end Object

end ScriptMachine
