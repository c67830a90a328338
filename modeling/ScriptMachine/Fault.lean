/-!
Faults and the width of a machine word.

A fault is a violated assumption: a reference to an object that is gone, a
code word that is no instruction, a count that leaves the machine word. It
ends the run for good. This sets it apart from an `Error`, which a script
causes, which has a text, and after which the machine goes on.
-/

namespace ScriptMachine

/-- One past the largest size, offset or count: sizes are 64-bit words. -/
def wordLimit : Nat := 0x10000000000000000

/-- One past the largest number of bytes that one growable buffer may
reserve, half of the address space. -/
def bufferLimit : Nat := 0x8000000000000000

/-- An assumption whose violation ends the run. -/
inductive Fault where
  /-- A reference whose object is gone or is of another kind. -/
  | staleReference
  /-- A block was returned to the free list that is not live. -/
  | deadBlock
  /-- A page size that is no power of two or has no room for a block. -/
  | badPageSize
  /-- A count left the range of a machine word. -/
  | wordOverflow
  /-- A machine word was divided by zero. -/
  | divisionByZero
  /-- A buffer was asked for more bytes than the address space has. -/
  | bufferOverflow
  /-- An index past the end of what it indexes. -/
  | outOfRange
  /-- A chain of a table leads to a place that holds no entry. -/
  | brokenChain
  /-- The bytes of a string are not the encoding of a text. -/
  | invalidText
  /-- A byte outside ASCII was stored into a string. -/
  | wideCharacter
  /-- A scalar was stored into an array that cannot represent it. -/
  | badElement
  /-- A code word that is no instruction, or an operand of the wrong kind. -/
  | badInstruction
  /-- A sweep was started while gray objects were left. -/
  | unfinishedTrace
  /-- All numbers for slots of the heap are taken. -/
  | slotOverflow
  /-- The threshold for the next collection left the range of a machine word. -/
  | thresholdOverflow
  deriving DecidableEq

end ScriptMachine
