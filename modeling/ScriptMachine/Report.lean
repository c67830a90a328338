import ScriptMachine.Error
import ScriptMachine.Text.Columns

/-!
Reports of errors.

A report has a headline with the class and the message of the error. For an
error in a source text the line follows, with carets below the place; for an
error of a run the calls in progress follow as notes. What the grammar would
have accepted stands in the first note.
-/

namespace ScriptMachine

/-- An error at the bytes of a source text from `start` up to `stop`. -/
structure Located where
  error : Error
  start : Nat
  stop : Nat
  deriving DecidableEq

namespace Report

/-- The name under which a source text is reported. -/
def sourceName : String := "<script>"

/-- Tabs reach to the next multiple of this column. -/
def tabWidth : Nat := 4

/-- A text repeated. -/
def times (n : Nat) (text : String) : String := String.join (List.replicate n text)

/-- The first line of a report. -/
def headline (error : Error) : String :=
  "error[" ++ error.kind.code ++ "]: " ++ error.message ++ "\n"

/-! ### Lines of a text -/

/-- A line of a source text: its number, its first byte and its characters,
without the line break. -/
structure Line where
  number : Nat
  start : Nat
  chars : List Char

/-- The line in which a byte stands. `number` and `start` are those of the
line that begins here, `seen` its characters so far in reverse, and `offset`
the byte that is read next. -/
def lineFrom (byte : Nat) (number start : Nat) (seen : List Char) (offset : Nat) :
    List Char → Line
  | [] => ⟨number, start, seen.reverse⟩
  | '\n' :: rest =>
      if offset + 1 ≤ byte then lineFrom byte (number + 1) (offset + 1) [] (offset + 1) rest
      else ⟨number, start, seen.reverse⟩
  | c :: rest => lineFrom byte number start (c :: seen) (offset + c.utf8Size) rest

/-- The line of a source text in which a byte stands. -/
def lineAt (source : String) (byte : Nat) : Line := lineFrom byte 1 0 [] 0 source.toList

/-- The line as it is shown: without carriage returns and zeros at its end. -/
def Line.shown (line : Line) : List Char :=
  (line.chars.reverse.dropWhile fun c => c = '\r' || c = '\x00').reverse

/-- How many of the characters end at or before a byte of the line. -/
def charsBefore (byte : Nat) : (offset : Nat) → List Char → Nat
  | _, [] => 0
  | offset, c :: rest =>
      if offset + c.utf8Size ≤ byte then 1 + charsBefore byte (offset + c.utf8Size) rest else 0

/-- The number of columns that a character takes at a column. -/
def width (c : Char) (column : Nat) : Nat :=
  if c = '\t' then tabWidth - column % tabWidth else Text.columns c

/-- The characters of a line with tabs written as blanks. -/
def expandTabs : (column : Nat) → List Char → String
  | _, [] => ""
  | column, c :: rest =>
      let w := width c column
      (if c = '\t' then times w " " else String.singleton c) ++ expandTabs (column + w) rest

/-- What stands below a character of `size` bytes at `offset`, `w` columns
wide: carets if it meets the bytes from `start` up to `stop`, blanks if it
comes before their end. -/
def mark (start stop offset size w : Nat) : String :=
  if max start offset < min stop (offset + size) then times w "^"
  else if offset < stop then times w " "
  else ""

/-- The carets below a line, one place past its end included. -/
def carets (start stop : Nat) : (offset column : Nat) → List Char → String
  | offset, _, [] => mark start stop offset 1 1
  | offset, column, c :: rest =>
      let w := width c column
      mark start stop offset c.utf8Size w ++ carets start stop (offset + c.utf8Size) (column + w) rest

/-! ### Notes -/

/-- A line without the carriage return at its end. -/
def stripReturn (line : String) : String :=
  match line.toList.reverse with
  | '\r' :: rest => String.ofList rest.reverse
  | _ => line

/-- The lines of a text that is cut at its line breaks. A carriage return
before a break belongs to the break, and nothing follows a break at the end. -/
def linesOfPieces : List String → List String
  | [] => []
  | [last] => if last = "" then [] else [last]
  | piece :: rest => stripReturn piece :: linesOfPieces rest

/-- The lines of a text. -/
def linesOf (text : String) : List String := linesOfPieces (text.splitOn "\n")

/-- A note: an equals sign before its first line, blanks before the others. -/
def note (margin : String) (text : String) : String :=
  match linesOf text with
  | [] => ""
  | first :: others =>
      margin ++ " = " ++ first ++ "\n"
        ++ String.join (others.map fun line => margin ++ "   " ++ line ++ "\n")

/-- Notes one below the other. -/
def notes (margin : String) (texts : List String) : String :=
  String.join (texts.map (note margin))

/-! ### Reports -/

/-- The report of an error in a source text. The place is moved into the text
if it lies outside, and has one caret if it is empty. -/
def ofSource (source : String) (located : Located) : String :=
  let stop := min located.stop source.utf8ByteSize
  let start := min located.start stop
  let line := lineAt source start
  let number := toString line.number
  let margin := times number.length " "
  let column := charsBefore (start - line.start) 0 line.chars + 1
  let first := start - line.start
  let last := max (stop - line.start) (first + 1)
  headline located.error
    ++ margin ++ " ┌─ " ++ sourceName ++ s!":{number}:{column}\n"
    ++ margin ++ " │\n"
    ++ number ++ " │ " ++ expandTabs 0 line.shown ++ "\n"
    ++ margin ++ " │ " ++ carets first last 0 0 line.shown ++ "\n"
    ++ (if located.error.notes.isEmpty then "" else margin ++ " │\n")
    ++ notes margin located.error.notes
    ++ "\n"

/-- The report of errors in a source text, one after the other. -/
def ofSources (source : String) (errors : List Located) : String :=
  String.join (errors.map (ofSource source))

/-- The report of an error of a run. -/
def ofTrace (error : Error) (trace : List String) : String :=
  headline error ++ notes "" (error.notes ++ trace) ++ "\n"

end Report

end ScriptMachine
