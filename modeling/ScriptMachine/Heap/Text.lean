import ScriptMachine.Heap.Basic

/-!
Strings: texts whose bytes stand at the start of a block.

A string has room for its length rounded up to eight bytes. ASCII characters
may be stored into it up to that capacity. One that is stored over an ASCII
character leaves the encoding of a text; over a part of another character it
does not, and the record of the string remembers that there is no text.
-/

namespace ScriptMachine.Heap

/-- Whether a byte is an ASCII character. -/
def isAscii (byte : UInt8) : Bool := byte < 128

/-- Adds a string. -/
def insertText (text : String) (pinned : Bool) : Action Heap (Ref .string) := do
  let bytes := text.toUTF8.toList
  let id ← insert (.string (.ofBytes bytes)) pinned
  modify (·.writeBytes id 0 bytes)
  return ⟨id⟩

/-- Adds a string that can be swept. -/
def newText (text : String) : Action Heap (Ref .string) := insertText text false

/-- The bytes of a string. -/
def textBytes (h : Heap) (ref : Ref .string) : Result (List UInt8) := do
  let record ← h.read ref
  return h.bytes ref.id record.length

/-- The text that bytes are the encoding of. -/
def decode? (bytes : List UInt8) : Option String := String.fromUTF8? ⟨bytes.toArray⟩

/-- The text of a string. -/
def text (h : Heap) (ref : Ref .string) : Result String := do
  match decode? (← h.textBytes ref) with
  | some text => return text
  | none => Result.abort .invalidText

/-- The record of a string whose bytes have to be a text. -/
def textRecord (h : Heap) (ref : Ref .string) : Result StringRecord := do
  let record ← h.read ref
  if record.isText then return record else Result.abort .invalidText

/-- The byte at an index of a string, whose bytes have to be a text, or none
past the end. -/
def textByte? (h : Heap) (ref : Ref .string) (index : Nat) : Result (Option UInt8) := do
  let record ← h.textRecord ref
  return if index < record.length then h.byte? ref.id index else none

/-- Stores a character, which has to be ASCII, at an index below the capacity.
Past the end the string is extended with zero bytes in the gap. Returns false,
and does nothing, at or past the capacity. -/
def setChar (ref : Ref .string) (index : Nat) (byte : UInt8) : Action Heap Bool := do
  if !isAscii byte then Action.abort .wideCharacter
  let record ← (← get).read ref
  if record.capacity ≤ index then return false
  let length := max record.length (index + 1)
  modify (·.writeBytes ref.id index [byte])
  let bytes := (← get).bytes ref.id length
  modify (·.put ref ⟨length, record.capacity, Hash.ofBytes bytes, (decode? bytes).isSome⟩)
  return true

end ScriptMachine.Heap
