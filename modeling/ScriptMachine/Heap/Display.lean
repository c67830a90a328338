import ScriptMachine.Heap.Array
import ScriptMachine.Heap.Text
import ScriptMachine.Number.Shortest

/-!
The type names of values and the text that printing shows.

Containers print their elements in brackets, tables their entries in braces.
Containers nested more than eight deep print as an ellipsis, which also keeps a
container that holds itself from printing forever.
-/

namespace ScriptMachine.Heap

/-- The name of the type of a scalar. -/
def scalarType (h : Heap) : Scalar → Result String
  | .null => .ok "null"
  | .bool _ => .ok "bool"
  | .byte _ => .ok "byte"
  | .char _ => .ok "char"
  | .int _ => .ok "int"
  | .long _ => .ok "long"
  | .size _ => .ok "size"
  | .double _ => .ok "double"
  | .str _ => .ok "str"
  | .array ref => do return (← h.read ref).kind.name

/-- The name of the type of a value. -/
def typeName (h : Heap) : Value → Result String
  | .scalar s => h.scalarType s
  | .cls _ => .ok "class"
  | .closure _ => .ok "function"
  | .function _ => .ok "function_impl"
  | .inst _ => .ok "instance"
  | .native _ => .ok "native"
  | .stack _ => .ok "stack"
  | .table _ => .ok "table"
  | .vector _ => .ok "vector"

/-- The character that a byte stands for; one outside ASCII has none of its
own and shows as the replacement character. -/
def charOf (byte : UInt8) : Char :=
  if isAscii byte then Char.ofNat byte.toNat else '�'

/-- Texts with commas between them. -/
def commaSeparated (texts : List String) : String := ", ".intercalate texts

/-- How deep containers are printed. -/
def displayDepth : Nat := 8

/-- The text of a scalar that is no array. -/
def scalarText (h : Heap) : Scalar → Result String
  | .null => .ok "null"
  | .bool b => .ok (if b then "true" else "false")
  | .byte b => .ok (toString b.toNat)
  | .char c => .ok (String.singleton (charOf c))
  | .int i => .ok (toString i.toInt)
  | .long l => .ok (toString l.toInt)
  | .size s => .ok (toString s.toNat)
  | .double d => .ok d.text
  | .str ref => h.text ref
  | .array _ => .ok ""

/-- The values of a container in brackets. `inner` prints one of them; without
it the container is too deep to be printed. -/
def listText (inner : Option (Value → Result String)) (values : List Value) : Result String :=
  match inner with
  | none => .ok "[...]"
  | some inner => do return "[" ++ commaSeparated (← values.mapM inner) ++ "]"

/-- The entries of a table in braces, likewise. -/
def tableText (inner : Value → Result String) (table : Table) : Result String := do
  let texts ← table.entries.mapM fun (key, value) => do
    return (← inner (.scalar key.scalar)) ++ ": " ++ (← inner value)
  return "\x7b" ++ commaSeparated texts ++ "\x7d"

/-- The text of a value, `inner` printing what it contains. -/
def displayWith (h : Heap) (inner : Option (Value → Result String)) : Value → Result String
  | .scalar (.array ref) => do listText inner ((← h.arrayElements ref).map .scalar)
  | .scalar s => h.scalarText s
  | .cls ref => do
      let name ← h.text (← h.read ref).name
      return "<class " ++ name ++ ">"
  | .closure ref => do return (← h.read (← h.read ref).function).text
  | .function ref => do return (← h.read ref).text
  | .inst ref => do
      let name ← h.text (← h.read (← h.read ref).cls).name
      return "<" ++ name ++ " instance>"
  | .native ref => do return "<native " ++ (← h.read ref).name ++ ">"
  | .stack ref => do listText inner (← h.read ref).toList
  | .vector ref => do listText inner ((← h.read ref).toList.map .scalar)
  | .table ref =>
      match inner with
      | none => .ok "\x7b...\x7d"
      | some inner => do tableText inner (← h.read ref)

/-- The text of a value, with containers printed up to `depth` deep. -/
def displayTo (h : Heap) : (depth : Nat) → Value → Result String
  | 0 => h.displayWith none
  | depth + 1 => h.displayWith (some (displayTo h depth))

/-- The text of a value, as printing shows it. -/
def display (h : Heap) (value : Value) : Result String := h.displayTo displayDepth value

/-- The hash of a scalar as a table key. Arrays have none. -/
def hash? (h : Heap) : Scalar → Result (Option UInt64)
  | .str ref => do return some (← h.read ref).hash
  | scalar => .ok (Hash.ofScalar? scalar)

end ScriptMachine.Heap
