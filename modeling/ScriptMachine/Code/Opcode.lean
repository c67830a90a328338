/-!
The instructions of the machine.

An instruction is one code word, followed by its operands, one word each. The
number of an instruction is its position in the list below.

`Opcode.ofWord?_toWord`: every instruction is decoded from its own word.
-/

namespace ScriptMachine

/-- The instructions, in the order of their numbers. -/
inductive Opcode where
  | constant | pushNull | pushTrue | pushFalse | pop | popMany | dup | getLocal | setLocal
  | getGlobal | defineGlobal | setGlobal | deleteGlobal | getUpvalue | setUpvalue
  | getProperty | setProperty | getNative | getClass | add | sub | mul | div | mod | eq
  | ne | strictEq | strictNe | lt | le | gt | ge | and | or | neg | not | inc | dec | jump
  | jumpIfFalse | jumpIfTrue | jumpIfNull | jumpIfNotNull | jumpCase | jumpList | loop
  | call | invoke | closure | closeUpvalue | ret | defineClass | defineMethod | print
  | newTable | newStack | newVector | newArray | getIndex | setIndex | length | pushValue
  | popValue | copy | remove | each
  deriving DecidableEq

namespace Opcode

/-- All instructions, in the order of their numbers. -/
def all : Array Opcode := #[
  constant, pushNull, pushTrue, pushFalse, pop, popMany, dup, getLocal, setLocal,
  getGlobal, defineGlobal, setGlobal, deleteGlobal, getUpvalue, setUpvalue, getProperty,
  setProperty, getNative, getClass, add, sub, mul, div, mod, eq, ne, strictEq, strictNe,
  lt, le, gt, ge, and, or, neg, not, inc, dec, jump, jumpIfFalse, jumpIfTrue, jumpIfNull,
  jumpIfNotNull, jumpCase, jumpList, loop, call, invoke, closure, closeUpvalue, ret,
  defineClass, defineMethod, print, newTable, newStack, newVector, newArray, getIndex,
  setIndex, length, pushValue, popValue, copy, remove, each]

/-- The instruction with a number. -/
def ofWord? (word : UInt16) : Option Opcode := all[word.toNat]?

/-- The number of an instruction. -/
def toWord (op : Opcode) : UInt16 := UInt16.ofNat op.ctorIdx

/-- Whether the first operand of an instruction is the number of a name among
the constants. -/
def takesName : Opcode → Bool
  | getGlobal | defineGlobal | setGlobal | deleteGlobal | getProperty | setProperty | invoke
  | defineClass | defineMethod => true
  | _ => false

/-- The mnemonic of an instruction. -/
def name : Opcode → String
  | constant => "CONSTANT"
  | pushNull => "NULL"
  | pushTrue => "TRUE"
  | pushFalse => "FALSE"
  | pop => "POP"
  | popMany => "POPN"
  | dup => "DUP"
  | getLocal => "GET_LOCAL"
  | setLocal => "SET_LOCAL"
  | getGlobal => "GET_GLOBAL"
  | defineGlobal => "DEFINE_GLOBAL"
  | setGlobal => "SET_GLOBAL"
  | deleteGlobal => "DELETE_GLOBAL"
  | getUpvalue => "GET_UPVALUE"
  | setUpvalue => "SET_UPVALUE"
  | getProperty => "GET_PROPERTY"
  | setProperty => "SET_PROPERTY"
  | getNative => "GET_NATIVE"
  | getClass => "GET_CLASS"
  | add => "ADD"
  | sub => "SUB"
  | mul => "MUL"
  | div => "DIV"
  | mod => "MOD"
  | eq => "EQ"
  | ne => "NE"
  | strictEq => "SEQ"
  | strictNe => "SNE"
  | lt => "LT"
  | le => "LE"
  | gt => "GT"
  | ge => "GE"
  | and => "AND"
  | or => "OR"
  | neg => "NEG"
  | not => "NOT"
  | inc => "INC"
  | dec => "DEC"
  | jump => "JUMP"
  | jumpIfFalse => "JUMP_IF_FALSE"
  | jumpIfTrue => "JUMP_IF_TRUE"
  | jumpIfNull => "JUMP_IF_NULL"
  | jumpIfNotNull => "JUMP_IF_NOT_NULL"
  | jumpCase => "JUMP_CASE"
  | jumpList => "JUMP_LIST"
  | loop => "LOOP"
  | call => "CALL"
  | invoke => "INVOKE"
  | closure => "CLOSURE"
  | closeUpvalue => "CLOSE_UPVALUE"
  | ret => "RETURN"
  | defineClass => "CLASS"
  | defineMethod => "METHOD"
  | print => "PRINT"
  | newTable => "TABLE"
  | newStack => "STACK"
  | newVector => "VECTOR"
  | newArray => "ARRAY"
  | getIndex => "GET_INDEX"
  | setIndex => "SET_INDEX"
  | length => "LEN"
  | pushValue => "PUSH_VALUE"
  | popValue => "POP_VALUE"
  | copy => "COPY"
  | remove => "REMOVE"
  | each => "EACH"

/-- The mnemonic of a code word. -/
def nameOfWord (word : UInt16) : String :=
  match ofWord? word with
  | some op => op.name
  | none => "UNKNOWN"

/-- The instruction with a mnemonic. -/
def ofName? (name : String) : Option Opcode := all.find? (·.name == name)

/-- Every instruction is decoded from its own word. -/
theorem ofWord?_toWord (op : Opcode) : ofWord? op.toWord = some op := by
  cases op <;> rfl

end Opcode

end ScriptMachine
