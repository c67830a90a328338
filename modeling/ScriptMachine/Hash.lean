import ScriptMachine.Value

/-!
Hashes, which table keys are compared by.

The hash of a text mixes its bytes one by one into a 64-bit word, each byte
taken as signed. The hash of a number mixes it in at once and multiplies with
a factor of its kind; all arithmetic wraps around. The factors of the integer
kinds are odd, so that equal hashes within such a kind mean equal numbers.
-/

namespace ScriptMachine.Hash

/-- The word that mixing starts from. -/
def start : UInt64 := 2166136261

/-- The factor of the hash of a text. -/
def factor : UInt64 := 16777619

/-- Mixes one byte into a hash. -/
def mix (hash : UInt64) (byte : UInt8) : UInt64 :=
  (hash ^^^ byte.toInt8.toInt64.toUInt64) * factor

/-- The hash of a sequence of bytes. -/
def ofBytes (bytes : List UInt8) : UInt64 := bytes.foldl mix start

/-- The hash of a text. -/
def ofText (text : String) : UInt64 := ofBytes text.toUTF8.toList

/-- The hash of an integer under the factor of its kind. -/
def ofInt (n : Int) (factor : UInt64) : UInt64 :=
  (start ^^^ (Int64.ofInt n).toUInt64) * factor

/-- The hash of a scalar that has no part in the heap. Arrays and strings have
none: an array is no key, and a string keeps its hash with its contents. -/
def ofScalar? : Scalar → Option UInt64
  | .null => some 0
  | .bool b => some (ofInt b.toNat 16777669)
  | .int i => some (ofInt i.toInt 16777669)
  | .double d => some (ofInt d.truncate 16777420)
  | .long l => some (ofInt l.toInt 16776969)
  | .size s => some (ofInt s.toNat 16776969)
  | .byte b | .char b => some (ofInt b.toNat 16742069)
  | .str _ | .array _ => none

end ScriptMachine.Hash
