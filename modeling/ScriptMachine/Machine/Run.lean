import ScriptMachine.Machine.Step

/-!
Runs: a script from its start to its end.

`Machine.runFor` takes a bounded number of steps, `Machine.runFunction` runs a
function as a script and cleans up behind it. A run ends with success, or with
an error and one line per active frame, or not within the given number of
steps.
-/

namespace ScriptMachine.Machine

/-- Takes steps until the run ends, at most `fuel` of them. -/
def runFor (host : Host) : (fuel : Nat) → Machine → Journal → Outcome Machine Status
  | 0, m, journal => .done .running m journal
  | fuel + 1, m, journal =>
      match step host m journal with
      | .done .running m journal => runFor host fuel m journal
      | outcome => outcome

/-- Makes a function the running one, as a closure without captured
variables. -/
def start (function : Ref .function) : Action Machine Unit := do
  push (.function function)
  let closure ← alloc .closure ⟨function, #[]⟩
  onStack fun stack => ((), stack.reset)
  push (.closure closure)
  modify fun m => { m with frame := ⟨closure, function, 0, 0⟩ }

/-- The line of a trace for a frame: the function and the source line of the
word that was fetched last. -/
def traceLine? (h : Heap) (frame : Frame) : Option String :=
  (h.get? frame.function).map fun (function : Function) =>
    let line := (function.chunk.line? (frame.ip - 1)).getD 0
    let place := if function.name.isEmpty then "script" else function.name ++ "()"
    s!"[line {line}] in " ++ place

/-- One line per active frame, innermost first. -/
def trace (m : Machine) : List String := (m.frame :: m.frames).filterMap (traceLine? m.heap)

/-- How a run ends. -/
inductive Ending where
  | finished
  | failed (error : Error) (trace : List String)
  | outOfFuel
  deriving DecidableEq

/-- Runs a function as a script, for at most `fuel` steps. -/
def runFunction (host : Host) (fuel : Nat) (function : Ref .function) : Action Machine Ending := do
  reset
  fun m journal =>
    let outcome := (do start function; runFor host fuel : Action Machine Status) m journal
    match outcome with
    | .done .finished m journal => (do reset; return .finished : Action Machine Ending) m journal
    | .done .running m journal => .done .outOfFuel m journal
    | .raised error m journal =>
        let trace := m.trace
        (do Action.note (.runFailed error.display)
            reset
            return .failed error trace : Action Machine Ending) m journal
    | .aborted fault => .aborted fault

end ScriptMachine.Machine
