/-!
References to heap objects.

An `ObjectId` names a slot of the heap together with the generation of the
slot, which changes whenever the object in it is freed; so the id of a freed
object never names its successor. A `Ref k` is an id that is meant to name an
object of kind `k`.
-/

namespace ScriptMachine

/-- The kinds of objects that live in the heap. -/
inductive Kind where
  | array
  | cls
  | closure
  | function
  | inst
  | native
  | stack
  | string
  | table
  | upvalue
  | vector
  deriving DecidableEq

/-- The name of an object: a slot and the generation of that slot. -/
structure ObjectId where
  index : UInt32
  generation : UInt32
  deriving DecidableEq

namespace ObjectId

/-- The id as one word, for storage in memory. -/
def toBits (id : ObjectId) : UInt64 := id.index.toUInt64 <<< 32 ||| id.generation.toUInt64

/-- The id in a word. -/
def ofBits (bits : UInt64) : ObjectId := ⟨(bits >>> 32).toUInt32, bits.toUInt32⟩

/-- An id that names no object. -/
def dangling : ObjectId := ⟨0xFFFFFFFF, 0xFFFFFFFF⟩

/-- The id as text. -/
def text (id : ObjectId) : String := s!"{id.index}v{id.generation}"

end ObjectId

/-- A reference to an object of kind `k`. -/
structure Ref (k : Kind) where
  id : ObjectId
  deriving DecidableEq

/-- A reference to no object. -/
def Ref.dangling {k : Kind} : Ref k := ⟨.dangling⟩

end ScriptMachine
