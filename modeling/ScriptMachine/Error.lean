import ScriptMachine.Text.Quoted

/-!
Errors: what a script, its source text or a request for memory can do wrong.

An error is a cause with the facts its message needs. `Error.kind` sorts the
causes into classes, `Error.message` words them, and `Error.display` puts the
name of the class in front.
-/

namespace ScriptMachine

/-- The classes of errors. -/
inductive ErrorKind where
  | property
  | index
  | output
  | memory
  | name
  | overflow
  | grammar
  | type
  | zeroDivision
  deriving DecidableEq

/-- The name of an error class, as printed in front of a message. -/
def ErrorKind.code : ErrorKind → String
  | property => "AttributeError"
  | index => "IndexError"
  | output => "IOError"
  | memory => "MemoryError"
  | name => "NameError"
  | overflow => "OverflowError"
  | grammar => "SyntaxError"
  | type => "TypeError"
  | zeroDivision => "ZeroDivisionError"

/-- The cause of an error. Types are given by name. -/
inductive Error where
  | noSuchAttribute (type name : String)
  | notAnInstance (type name : String)
  | invalidIndexType (type : String)
  | outOfBounds (type : String) (index : Int) (length : Nat)
  | popFromEmpty (type : String)
  | writeFailed (file : String)
  | outOfMemory (requested : Nat)
  | notDefined (name : String)
  | jumpTooLarge
  | numericRange (op : String)
  | stackOverflow
  | tooManyConstants
  | invalidToken
  | unexpectedEnd (expected : List String)
  | unexpectedToken (token : String) (expected : List String)
  | unterminatedString
  | arityMismatch (name : String) (expected given : Nat)
  | elementMismatch (container type : String)
  | invalidCapacity (type : String)
  | notCallable (type : String)
  | notAscii (index : Nat) (byte : UInt8)
  | notIndexable (type : String)
  | unhashable (type : String)
  | unsupported (op type : String)
  | unsupportedInfix (op left right : String)
  | unsupportedPrefix (op right : String)
  | divideByZero (op : String)
  deriving DecidableEq

namespace Error

/-- The class of an error. -/
def kind : Error → ErrorKind
  | noSuchAttribute .. | notAnInstance .. => .property
  | invalidIndexType .. | outOfBounds .. | popFromEmpty .. => .index
  | writeFailed .. => .output
  | outOfMemory .. => .memory
  | notDefined .. => .name
  | jumpTooLarge | numericRange .. | stackOverflow | tooManyConstants => .overflow
  | invalidToken | unexpectedEnd .. | unexpectedToken .. | unterminatedString => .grammar
  | divideByZero .. => .zeroDivision
  | _ => .type

/-- A byte as two hexadecimal digits after `0x`. -/
def byteText (byte : UInt8) : String :=
  let digits := Text.hexDigits byte.toNat
  "0x" ++ String.ofList (List.replicate (2 - digits.length) '0' ++ digits)

/-- The message of an error, without its class. -/
def message : Error → String
  | noSuchAttribute type name =>
      Text.quote type ++ " object has no attribute " ++ Text.quote name
  | notAnInstance type name =>
      "only instances have properties, cannot access " ++ Text.quote name ++ " on "
        ++ Text.quote type
  | invalidIndexType type => "indices must be integers, not " ++ Text.quote type
  | outOfBounds type index length =>
      s!"index {index} out of range for " ++ Text.quote type ++ s!" of length {length}"
  | popFromEmpty type => "pop from empty " ++ Text.quote type
  | writeFailed file => "unable to write to file: " ++ Text.quote file
  | outOfMemory requested => s!"unable to map {requested} bytes"
  | notDefined name => "name " ++ Text.quote name ++ " is not defined"
  | jumpTooLarge => "jump body is too large"
  | numericRange op => "result of " ++ op ++ " does not fit in a long"
  | stackOverflow => "stack overflow"
  | tooManyConstants => "cannot use more than 65536 constants in one function"
  | invalidToken => "invalid input"
  | unexpectedEnd _ => "unexpected end of file"
  | unexpectedToken token _ => "unexpected " ++ Text.quote token
  | unterminatedString => "unterminated string"
  | arityMismatch name expected given =>
      name ++ s!"() takes {expected} arguments but {given} were given"
  | elementMismatch container type =>
      Text.quote container ++ " cannot hold a value of type " ++ Text.quote type
  | invalidCapacity type =>
      "capacity must be a non-negative integer, not " ++ Text.quote type
  | notCallable type => Text.quote type ++ " object is not callable"
  | notAscii index byte =>
      "byte " ++ byteText byte ++ s!" at index {index} is not an ASCII character"
  | notIndexable type => Text.quote type ++ " object is not subscriptable"
  | unhashable type => "unhashable type: " ++ Text.quote type
  | unsupported op type => Text.quote type ++ " object does not support " ++ op
  | unsupportedInfix op left right =>
      "unsupported operand type(s) for " ++ op ++ ": " ++ Text.quote left ++ " and "
        ++ Text.quote right
  | unsupportedPrefix op right =>
      "unsupported operand type for " ++ op ++ ": " ++ Text.quote right
  | divideByZero op => op ++ " by zero"

/-- The message of an error after the name of its class. -/
def display (error : Error) : String :=
  error.kind.code ++ ": " ++ error.message

/-- A list of alternatives in words. -/
def oneOf : List String → String
  | [] => "nothing"
  | [token] => token
  | tokens =>
      String.join ((tokens.take (tokens.length - 1)).map (· ++ ", ")) ++ "or "
        ++ (tokens.getLast?.getD "")

/-- The remarks printed below an error: what the grammar would have
accepted. -/
def notes : Error → List String
  | unexpectedEnd expected | unexpectedToken _ expected => ["expected: " ++ oneOf expected]
  | _ => []

end Error

end ScriptMachine
