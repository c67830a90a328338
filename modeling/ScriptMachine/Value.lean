import ScriptMachine.Number.Double
import ScriptMachine.Reference

/-!
The values that a script computes with.

A `Scalar` is a primitive value; strings and arrays are scalars, although
their contents live in the heap. A `Value` is a scalar or a reference to
another heap object, and is what a stack slot, a global variable, a field or a
container holds.

`Scalar.integral` is the exact value of the five kinds of integers, and
`Scalar.ofInt?` goes back, to the narrowest of the kinds `int` and `long`.
-/

namespace ScriptMachine

/-- A primitive value. -/
inductive Scalar where
  | null
  | bool (value : Bool)
  | byte (value : UInt8)
  /-- One ASCII character. -/
  | char (value : UInt8)
  | int (value : Int32)
  | long (value : Int64)
  | size (value : UInt64)
  | double (value : Double)
  | str (ref : Ref .string)
  | array (ref : Ref .array)
  deriving DecidableEq

/-- Any value. -/
inductive Value where
  | scalar (value : Scalar)
  | cls (ref : Ref .cls)
  | closure (ref : Ref .closure)
  | function (ref : Ref .function)
  | inst (ref : Ref .inst)
  | native (ref : Ref .native)
  | stack (ref : Ref .stack)
  | table (ref : Ref .table)
  | vector (ref : Ref .vector)
  deriving DecidableEq

/-- Whether an integer fits into 32 bits. -/
def fitsInt (n : Int) : Bool := -0x80000000 ≤ n && n < 0x80000000

/-- Whether an integer fits into 64 bits. -/
def fitsLong (n : Int) : Bool := -0x8000000000000000 ≤ n && n < 0x8000000000000000

namespace Scalar

instance : Inhabited Scalar := ⟨null⟩

/-- The scalar for an integer: an `int` if it fits, else a `long` if it fits. -/
def ofInt? (n : Int) : Option Scalar :=
  if fitsInt n then some (int (Int32.ofInt n))
  else if fitsLong n then some (long (Int64.ofInt n))
  else none

/-- The scalar for a count, which is far below the largest `long`. -/
def ofNat (n : Nat) : Scalar := (ofInt? n).getD (long (Int64.ofInt n))

/-- The exact value of an integer scalar. A `size` past the largest `long` is
no integer in this sense. -/
def integral : Scalar → Option Int
  | byte b | char b => some b.toNat
  | int i => some i.toInt
  | long l => some l.toInt
  | size s => if s.toNat < 0x8000000000000000 then some s.toNat else none
  | _ => none

/-- The object a scalar refers to. -/
def id? : Scalar → Option ObjectId
  | str ref => some ref.id
  | array ref => some ref.id
  | _ => none

/-- Whether two scalars are of one kind and equal: doubles as numbers, strings
and arrays as objects. -/
def same : Scalar → Scalar → Bool
  | double a, double b => a.equal b
  | a, b => a = b

/-- Whether two scalars are of one kind. -/
def sameKind : Scalar → Scalar → Bool
  | null, null | bool _, bool _ | byte _, byte _ | char _, char _ | int _, int _
  | long _, long _ | size _, size _ | double _, double _ | str _, str _
  | array _, array _ => true
  | _, _ => false

end Scalar

namespace Value

/-- The null value. -/
def null : Value := scalar .null

/-- A truth value. -/
def ofBool (b : Bool) : Value := scalar (.bool b)

instance : Inhabited Value := ⟨null⟩

/-- Only null and false count as false. -/
def isTrue : Value → Bool
  | scalar .null => false
  | scalar (.bool b) => b
  | _ => true

/-- Whether a value is null. -/
def isNull (value : Value) : Bool := value = null

/-- The scalar that a value is. -/
def scalar? : Value → Option Scalar
  | scalar s => some s
  | _ => none

/-- The exact value of an integer. -/
def integral (value : Value) : Option Int := value.scalar?.bind Scalar.integral

/-- The object a value refers to. -/
def id? : Value → Option ObjectId
  | scalar s => s.id?
  | cls ref => some ref.id
  | closure ref => some ref.id
  | function ref => some ref.id
  | inst ref => some ref.id
  | native ref => some ref.id
  | stack ref => some ref.id
  | table ref => some ref.id
  | vector ref => some ref.id

/-- Whether two values are of one kind and equal: doubles as numbers, heap
objects as objects. -/
def same : Value → Value → Bool
  | scalar a, scalar b => a.same b
  | a, b => a = b

/-- Whether two values are of one kind. -/
def sameKind : Value → Value → Bool
  | scalar a, scalar b => a.sameKind b
  | cls _, cls _ | closure _, closure _ | function _, function _ | inst _, inst _
  | native _, native _ | stack _, stack _ | table _, table _ | vector _, vector _ => true
  | _, _ => false

end Value

end ScriptMachine
