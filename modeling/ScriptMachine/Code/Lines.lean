/-!
The source line of every code word, run by run.

Neighbouring words mostly come from one line, so the lines are kept as runs of
at most 255 words. `Lines.push` appends the line of the next word and
`Lines.get?` finds the line of a word again.
-/

namespace ScriptMachine.Code

/-- Some consecutive words of one line. -/
structure Run where
  line : Nat
  count : Nat
  deriving DecidableEq

/-- The most words of one run. -/
def longestRun : Nat := 255

/-- The lines of a sequence of words. -/
structure Lines where
  runs : Array Run
  deriving DecidableEq

namespace Lines

/-- No words. -/
def empty : Lines := ⟨#[]⟩

/-- One more word, from the given line. -/
def push (lines : Lines) (line : Nat) : Lines :=
  match lines.runs.back? with
  | some run =>
      if run.line = line ∧ run.count < longestRun then
        ⟨lines.runs.pop.push ⟨line, run.count + 1⟩⟩
      else ⟨lines.runs.push ⟨line, 1⟩⟩
  | none => ⟨lines.runs.push ⟨line, 1⟩⟩

/-- The line of the word at a position of the runs. -/
def find? : List Run → (position : Nat) → Option Nat
  | [], _ => none
  | run :: runs, position =>
      if position < run.count then some run.line else find? runs (position - run.count)

/-- The line of a word. -/
def get? (lines : Lines) (position : Nat) : Option Nat := find? lines.runs.toList position

end Lines

end ScriptMachine.Code
