import ScriptMachine.Action
import ScriptMachine.Memory.LittleEndian
import ScriptMachine.Value

/-!
The element kinds of arrays.

An array holds scalars of one kind, packed into memory with a fixed number of
bytes each. `ArrayKind.coerce` says which scalars an array accepts and what it
keeps of them; `ArrayKind.encode` and `ArrayKind.decode` go to memory and back.
-/

namespace ScriptMachine

open Memory

/-- The kinds of arrays. -/
inductive ArrayKind where
  | bools
  | bytes
  | doubles
  | ints
  | longs
  | strings
  deriving DecidableEq

namespace ArrayKind

/-- The kind that a code word stands for. -/
def ofWord? (word : UInt16) : Option ArrayKind :=
  match word.toNat with
  | 0 => some ints
  | 1 => some longs
  | 2 => some doubles
  | 3 => some bools
  | 4 => some strings
  | 5 => some bytes
  | _ => none

/-- Bytes of one element. -/
def width : ArrayKind → Nat
  | bools | bytes => 1
  | ints => 4
  | doubles | longs | strings => 8

/-- The name of the type of such arrays. -/
def name : ArrayKind → String
  | bools => "bools"
  | bytes => "bytes"
  | doubles => "doubles"
  | ints => "ints"
  | longs => "longs"
  | strings => "strings"

/-- The element in a place that was skipped over. -/
def zero : ArrayKind → Scalar
  | bools => .bool false
  | bytes => .byte 0
  | doubles => .double .zero
  | ints => .int 0
  | longs => .long 0
  | strings => .null

/-- The element that a scalar becomes: itself if it has the kind, and an `int`
also where no precision is lost. -/
def coerce : ArrayKind → Scalar → Option Scalar
  | bools, .bool b => some (.bool b)
  | bytes, .byte b => some (.byte b)
  | bytes, .int i =>
      if 0 ≤ i.toInt ∧ i.toInt < 256 then some (.byte (UInt8.ofNat i.toInt.toNat)) else none
  | doubles, .double d => some (.double d)
  | doubles, .int i => some (.double (.ofInt i.toInt))
  | ints, .int i => some (.int i)
  | longs, .long l => some (.long l)
  | longs, .int i => some (.long (Int64.ofInt i.toInt))
  | strings, .str s => some (.str s)
  | strings, .null => some .null
  | _, _ => none

/-- The word that stands for a missing string. -/
def nullBits : UInt64 := 0xFFFFFFFFFFFFFFFF

/-- The bytes of a number, which have to fill an element. -/
def encodeWord (kind : ArrayKind) (width n : Nat) : Result (List UInt8) :=
  if kind.width = width then .ok (littleEndian width n) else Result.abort .badElement

/-- The bytes that store a scalar at the start of an element. -/
def encode (kind : ArrayKind) : Scalar → Result (List UInt8)
  | .bool b => .ok [b.toUInt8]
  | .byte b => .ok [b]
  | .int i => kind.encodeWord 4 i.toUInt32.toNat
  | .long l => kind.encodeWord 8 l.toUInt64.toNat
  | .double d => kind.encodeWord 8 d.bits.toNat
  | .str s => kind.encodeWord 8 s.id.toBits.toNat
  | .null => kind.encodeWord 8 nullBits.toNat
  | _ => Result.abort .badElement

/-- The scalar in the bytes of an element. -/
def decode (kind : ArrayKind) (bytes : List UInt8) : Scalar :=
  let n := ofLittleEndian bytes
  match kind with
  | bools => .bool (n != 0)
  | .bytes => .byte (UInt8.ofNat n)
  | ints => .int (UInt32.ofNat n).toInt32
  | longs => .long (UInt64.ofNat n).toInt64
  | doubles => .double ⟨UInt64.ofNat n⟩
  | strings =>
      let bits := UInt64.ofNat n
      if bits = nullBits then .null else .str ⟨.ofBits bits⟩

end ArrayKind

end ScriptMachine
