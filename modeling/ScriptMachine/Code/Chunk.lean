import ScriptMachine.Code.Lines
import ScriptMachine.Code.Opcode
import ScriptMachine.Stack

/-!
The code of one function: words, their source lines, the targets of its case
lists and its constants.

A chunk is built word by word. Forward jumps are written with a placeholder
and patched once their target is known; offsets count from the word behind the
operand. Jumps and case lists reach 65535 words, and a function has at most
65536 constants.
-/

namespace ScriptMachine.Code

/-- The largest operand. -/
def largestWord : Nat := 65535

/-- Bytes of a code word. -/
def wordWidth : Nat := 2

/-- The capacity of a buffer that was filled one by one: it starts with room
for four and doubles when full. -/
def bufferCapacity (count : Nat) : Nat :=
  if count = 0 then 0
  else if 1 <<< count.log2 = count then max 4 count
  else max 4 (1 <<< (count.log2 + 1))

/-- The code of a function. -/
structure Chunk where
  code : Array UInt16
  lines : Lines
  /-- Positions in the code that case lists jump to. -/
  cases : Array UInt16
  constants : Stack Value
  deriving DecidableEq

namespace Chunk

/-- No code. -/
def empty : Chunk := ⟨#[], .empty, #[], .empty⟩

instance : Inhabited Chunk := ⟨empty⟩

/-- The bytes that a chunk is charged for. Lines are free. -/
def footprint (chunk : Chunk) : Nat :=
  bufferCapacity chunk.code.size * wordWidth + bufferCapacity chunk.cases.size * wordWidth
    + chunk.constants.footprint

/-- The source line of a word. -/
def line? (chunk : Chunk) (position : Nat) : Option Nat := chunk.lines.get? position

/-- The chunk with one more word. -/
def append (chunk : Chunk) (word : UInt16) (line : Nat) : Chunk :=
  { chunk with code := chunk.code.push word, lines := chunk.lines.push line }

/-- Writes a word. -/
def write (word : UInt16) (line : Nat) : Action Chunk Unit :=
  modify (·.append word line)

/-- Adds a constant, unless an equal one is there already, and returns its
index. -/
def writeConstant (value : Value) : Action Chunk UInt16 := do
  let index ← modifyGet fun chunk =>
    match chunk.constants.items.findIdx? (·.same value) with
    | some index => (index, chunk)
    | none =>
        (chunk.constants.length, { chunk with constants := chunk.constants.push value })
  if index ≤ largestWord then return UInt16.ofNat index
  else Action.raise .tooManyConstants

/-- Writes an instruction that pushes a constant. -/
def emitConstant (value : Value) (line : Nat) : Action Chunk Unit := do
  let index ← writeConstant value
  write Opcode.constant.toWord line
  write index line

/-- Makes the end of the code the target of a new case and returns the index
of the case. -/
def addCase : Action Chunk UInt16 := do
  let target := (← get).code.size
  if largestWord < target then Action.raise .jumpTooLarge
  modify fun chunk => { chunk with cases := chunk.cases.push (UInt16.ofNat target) }
  let index := (← get).cases.size - 1
  if largestWord < index then Action.raise .jumpTooLarge
  return UInt16.ofNat index

/-- Writes a forward jump without its offset and returns where the offset
belongs. -/
def emitJump (op : UInt16) (line : Nat) : Action Chunk Nat := do
  write op line
  write (UInt16.ofNat largestWord) line
  return (← get).code.size - 1

/-- Makes the jump with its offset at `position` jump to the end of the
code. -/
def patchJump (position : Nat) : Action Chunk Unit := do
  let length := (← get).code.size
  if length < position + 1 then Action.abort .wordOverflow
  let offset := length - position - 1
  if largestWord < offset then Action.raise .jumpTooLarge
  modify fun chunk =>
    { chunk with code := chunk.code.setIfInBounds position (UInt16.ofNat offset) }

/-- Writes a jump back to `start`. -/
def emitLoop (start line : Nat) : Action Chunk Unit := do
  write Opcode.loop.toWord line
  let length := (← get).code.size
  if length + 1 < start then Action.abort .wordOverflow
  let offset := length + 1 - start
  if largestWord < offset then Action.raise .jumpTooLarge
  write (UInt16.ofNat offset) line

end Chunk

end ScriptMachine.Code
