import ScriptMachine.Heap.Text

/-!
Assembling functions from lists of instructions with labels.

An assembly list names what a chunk numbers: constants, jump targets, other
functions. Strings and function objects are put into the heap on the way, and
nothing is collected meanwhile. A forward jump is patched by the next label of
its name; a loop jumps back to the last one.
-/

namespace ScriptMachine

open Code

namespace Assembly

/-- A constant as it is written down. -/
inductive Literal where
  | scalar (value : Scalar)
  | text (value : String)
  /-- A function by its position among those assembled so far. -/
  | function (index : Nat)

/-- A line of an assembly list. -/
inductive Item where
  /-- The source line of the words that follow. -/
  | line (number : Nat)
  /-- Pushes a constant. -/
  | push (literal : Literal)
  /-- Words as they are. -/
  | words (words : List UInt16)
  /-- The target of a new case. -/
  | case
  | label (name : String)
  /-- A forward jump to a label. -/
  | jump (op : Opcode) (label : String)
  /-- A jump back to a label. -/
  | loop (label : String)
  /-- A closure of a function, with the places of what it captures. -/
  | closure (index : Nat) (captures : List UInt16)
  /-- An instruction with a name as its first operand. -/
  | named (op : Opcode) (name : String) (operands : List UInt16)

/-- A function as it is written down. -/
structure Source where
  name : String
  arity : Nat
  items : List Item

/-- The work on one function: the heap, the functions assembled before, the
chunk so far, the current source line, where labels stand, and the jumps that
wait for a label. -/
structure Work where
  heap : Heap
  functions : Array (Ref .function)
  chunk : Chunk
  line : Nat
  labels : List (String × Nat)
  waiting : List (String × Nat)

/-- Runs an action of the heap. -/
def onHeap {α : Type} (action : Action Heap α) : Action Work α :=
  Action.on (fun ⟨heap, functions, chunk, line, labels, waiting⟩ =>
    (heap, fun heap => ⟨heap, functions, chunk, line, labels, waiting⟩)) action

/-- Runs an action on the chunk. -/
def onChunk {α : Type} (action : Action Chunk α) : Action Work α :=
  Action.on (fun ⟨heap, functions, chunk, line, labels, waiting⟩ =>
    (chunk, fun chunk => ⟨heap, functions, chunk, line, labels, waiting⟩)) action

/-- The function at a position, which has to be assembled. -/
def functionAt (index : Nat) : Action Work (Ref .function) := do
  match (← get).functions[index]? with
  | some ref => return ref
  | none => Action.abort .outOfRange

/-- The value of a literal. -/
def value : Literal → Action Work Value
  | .scalar scalar => pure (.scalar scalar)
  | .text text => return .scalar (.str (← onHeap (Heap.newText text)))
  | .function index => return .function (← functionAt index)

/-- Writes words. -/
def writeWords : List UInt16 → Action Work Unit
  | [] => pure ()
  | word :: words => do
      onChunk (Chunk.write word (← get).line)
      writeWords words

/-- Patches jumps. -/
def patchAll : List (String × Nat) → Action Work Unit
  | [] => pure ()
  | (_, position) :: rest => do
      onChunk (Chunk.patchJump position)
      patchAll rest

/-- Assembles one line. -/
def item : Item → Action Work Unit
  | .line number => modify fun w => { w with line := number }
  | .push literal => do
      let value ← value literal
      onChunk (Chunk.emitConstant value (← get).line)
  | .words words => writeWords words
  | .case => do let _ ← onChunk Chunk.addCase
  | .label name => do
      let w ← get
      let waiting := w.waiting.filter (·.1 == name)
      set { w with
        labels := (name, w.chunk.code.size) :: w.labels
        waiting := w.waiting.filter (·.1 != name) }
      patchAll waiting
  | .jump op label => do
      let position ← onChunk (Chunk.emitJump op.toWord (← get).line)
      modify fun w => { w with waiting := w.waiting ++ [(label, position)] }
  | .loop label => do
      let w ← get
      match w.labels.find? (·.1 == label) with
      | some (_, start) => onChunk (Chunk.emitLoop start w.line)
      | none => Action.abort .outOfRange
  | .closure index captures => do
      let ref ← functionAt index
      let function ← (← get).heap.read ref
      onHeap (modify (·.put ref { function with upvalueCount := captures.length / 2 }))
      let constant ← onChunk (Chunk.writeConstant (.function ref))
      writeWords (Opcode.closure.toWord :: constant :: captures)
  | .named op name operands => do
      let ref ← onHeap (Heap.newText name)
      let constant ← onChunk (Chunk.writeConstant (.scalar (.str ref)))
      writeWords (op.toWord :: constant :: operands)

/-- Assembles lines one by one. -/
def items : List Item → Action Work Unit
  | [] => pure ()
  | first :: rest => do
      item first
      items rest

/-- Assembles a function and puts it into the heap. -/
def function (functions : Array (Ref .function)) (source : Source) :
    Action Heap (Ref .function) := fun h journal =>
  match items source.items ⟨h, functions, .empty, 1, [], []⟩ journal with
  | .done _ w journal =>
      Heap.alloc .function { Function.create source.name source.arity with chunk := w.chunk }
        w.heap journal
  | .raised error w journal => .raised error w.heap journal
  | .aborted fault => .aborted fault

/-- Assembles functions one by one, each of which may use those before. -/
def functions : Array (Ref .function) → List Source → Action Heap (Array (Ref .function))
  | refs, [] => pure refs
  | refs, source :: sources => do
      let ref ← function refs source
      functions (refs.push ref) sources

/-- Assembles a program; the last function is the script. -/
def program (sources : List Source) : Action Heap (Ref .function) := do
  match (← functions #[] sources).back? with
  | some script => return script
  | none => Action.abort .outOfRange

end Assembly

end ScriptMachine
