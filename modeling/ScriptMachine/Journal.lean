import ScriptMachine.Fault

/-!
The journal: what the allocator, the heap, the tables and the machine report
about their own work while an action runs.

Events are data; `Event.text` gives the wording. A journal keeps the events
at or above its threshold and drops the others, so that a run which nobody
watches costs nothing.
-/

namespace ScriptMachine

/-- How detailed an event is. -/
inductive Level where
  | debug
  | trace
  deriving DecidableEq

/-- Something that happened inside an action. -/
inductive Event where
  | pageMapped (index length : Nat)
  | blockAllocated (size page offset : Nat)
  | blockFreed (size page offset : Nat)
  | objectAllocated (typeName : String) (size : Nat)
  | objectFreed (typeName : String) (size : Nat)
  | tableGrew (before after : Nat)
  | collectionBegan (bytes : Nat)
  | collectionEnded (objects freed bytes next : Nat)
  | runFailed (reason : String)
  | instructionFetched (ip : Nat) (name : String) (depth : Nat)

namespace Event

/-- Events of single blocks, objects, tables and instructions are traces;
those of pages, collections and failed runs are for debugging. -/
def level : Event → Level
  | pageMapped .. | collectionBegan .. | collectionEnded .. | runFailed .. => .debug
  | _ => .trace

/-- The text padded on the left with `fill` to at least `width` characters. -/
def padLeft (width : Nat) (fill : Char) (text : String) : String :=
  String.ofList (List.replicate (width - text.length) fill) ++ text

/-- The text padded on the right with blanks to at least `width` characters. -/
def padRight (width : Nat) (text : String) : String :=
  text ++ String.ofList (List.replicate (width - text.length) ' ')

/-- The wording of an event. -/
def text : Event → String
  | pageMapped index length => s!"mapped page {index} of {length} bytes"
  | blockAllocated size page offset =>
      s!"allocate {size} bytes at page {page} offset {offset}"
  | blockFreed size page offset => s!"free {size} bytes at page {page} offset {offset}"
  | objectAllocated typeName size => s!"alloc {typeName} ({size} bytes)"
  | objectFreed typeName size => s!"free {typeName} ({size} bytes)"
  | tableGrew before after => s!"table grows from {before} to {after} slots"
  | collectionBegan bytes => s!"gc begin: {bytes} bytes allocated"
  | collectionEnded objects freed bytes next =>
      s!"gc end: freed {objects} objects ({freed} bytes), {bytes} bytes allocated, next at {next}"
  | runFailed reason => s!"runtime error: {reason}"
  | instructionFetched ip name depth =>
      padLeft 4 '0' (toString ip) ++ " " ++ padRight 16 name ++ s!" depth={depth}"

end Event

/-- The events kept so far, newest first, and the most detailed level that
is kept; with no threshold nothing is. -/
structure Journal where
  threshold : Option Level
  kept : List Event

namespace Journal

/-- A journal that keeps nothing. -/
def silent : Journal := ⟨none, []⟩

/-- An empty journal that keeps events up to the given level. -/
def upTo (level : Level) : Journal := ⟨some level, []⟩

/-- Whether events of this level are kept. -/
def keeps (journal : Journal) (level : Level) : Bool :=
  match journal.threshold, level with
  | none, _ => false
  | some .trace, _ => true
  | some .debug, level => level = .debug

/-- The journal after an event. -/
def note (journal : Journal) (event : Event) : Journal :=
  if journal.keeps event.level then { journal with kept := event :: journal.kept } else journal

/-- The texts kept so far, oldest first. -/
def texts (journal : Journal) : List String :=
  journal.kept.reverse.map Event.text

/-- The journal with its events forgotten. -/
def cleared (journal : Journal) : Journal := { journal with kept := [] }

end Journal

end ScriptMachine
