import ScriptMachine.Assembly
import ScriptMachine.Machine.Run
import ScriptMachine.Report

/-!
Scripts: compiled, run, and reported on if something goes wrong.
-/

namespace ScriptMachine

/-- What can go wrong with a script. -/
inductive ScriptError where
  /-- It was not compiled. -/
  | rejected (errors : List Located)
  /-- It failed while it ran. -/
  | failed (error : Error) (trace : List String)
  deriving DecidableEq

namespace ScriptError

/-- The status with which a process should end. -/
def exitCode : ScriptError → Nat
  | rejected _ => 65
  | failed .. => 70

/-- The summary of an error. -/
def message : ScriptError → String
  | rejected errors => s!"compilation failed with {errors.length} error(s)"
  | failed error _ => error.message

/-- The report of an error, against the source text of the script. -/
def report (source : String) : ScriptError → String
  | rejected errors => Report.ofSources source errors
  | failed error trace => Report.ofTrace error trace

end ScriptError

/-- How interpreting a script ends. -/
inductive Verdict where
  | succeeded
  | broke (error : ScriptError)
  | outOfFuel
  deriving DecidableEq

/-- What compiling a script gives: its function, or errors in its source. -/
abbrev Compiler := Action Heap (Except (List Located) (Ref .function))

/-- A compiler that assembles. What goes wrong then belongs to no place of a
source text. -/
def Compiler.assembling (sources : List Assembly.Source) : Compiler := fun h journal =>
  match Assembly.program sources h journal with
  | .done ref h journal => .done (.ok ref) h journal
  | .raised error h journal => .done (.error [⟨error, 0, 0⟩]) h journal
  | .aborted fault => .aborted fault

/-- A compiler that finds only errors. -/
def Compiler.rejecting (errors : List Located) : Compiler := pure (.error errors)

/-- Compiles a script and runs it on a console, for at most `fuel` steps. -/
def Machine.interpret (host : Host) (fuel : Nat) (compiler : Compiler) (console : Console) :
    Action Machine Verdict := do
  modify fun m => { m with console := console }
  match ← onHeap compiler with
  | .error errors => return .broke (.rejected errors)
  | .ok function =>
      match ← runFunction host fuel function with
      | .finished => return .succeeded
      | .failed error trace => return .broke (.failed error trace)
      | .outOfFuel => return .outOfFuel

end ScriptMachine
