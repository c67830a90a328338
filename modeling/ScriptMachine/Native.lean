import ScriptMachine.Container

/-!
Native functions: the built-in ones and those of the host.

Every machine knows the time, tests for primes, takes square roots and searches
for a text in another. The host of a machine tells the time and may supply
further functions, which may use the heap but never collect.
-/

namespace ScriptMachine

/-- What surrounds a machine: the time, and further functions by number. -/
structure Host where
  /-- Seconds since the beginning of 1970. -/
  now : Double
  call : Nat → List Value → Action Heap Value

namespace Native

/-- The error of an argument of the wrong type. -/
def badArgument {α : Type} (h : Heap) (name : String) (value : Value) : Result α := do
  Result.raise (.unsupportedPrefix (name ++ "()") (← h.typeName value))

/-- An argument, which has to be there. -/
def argument (arguments : List Value) (index : Nat) : Result Value :=
  match arguments[index]? with
  | some value => .ok value
  | none => Result.abort .outOfRange

/-- The quotient of two 64-bit integers, rounded toward zero. -/
def quotient (n d : Int) : Result Int :=
  if d = 0 then Result.abort .divisionByZero
  else if fitsLong (n.tdiv d) then .ok (n.tdiv d)
  else Result.abort .wordOverflow

/-- The remainder of two 64-bit integers, which takes their quotient. -/
def remainder (n d : Int) : Result Int := do
  let _ ← quotient n d
  return n.tmod d

/-- Whether the 64-bit integer `n` has no divisor from `d` up to its square root. -/
def noDivisorFrom (n d : Int) : Result Bool := do
  if d ≤ (← quotient n d) then
    if (← remainder n d) = 0 then return false
    else if h : fitsLong (d + 1) then noDivisorFrom n (d + 1)
    else Result.abort .wordOverflow
  else return true
termination_by (0x8000000000000000 - d).toNat
decreasing_by
  simp only [fitsLong, Bool.and_eq_true, decide_eq_true_eq] at h
  omega

/-- Whether a 64-bit integer is prime, by trial division. -/
def isPrime (n : Int) : Result Bool := if n < 2 then .ok false else noDivisorFrom n 2

/-- Whether an integer argument is prime. -/
def prime (h : Heap) (arguments : List Value) : Result Value := do
  let value ← argument arguments 0
  match value.integral with
  | some n => return .ofBool (← isPrime n)
  | none => badArgument h "prime" value

/-- The square root of a number. -/
def squareRoot (h : Heap) (arguments : List Value) : Result Value := do
  let value ← argument arguments 0
  match Number.of? value with
  | some n => return .scalar (.double n.toDouble.sqrt)
  | none => badArgument h "square" value

/-- The position of the first occurrence of `needle` in `haystack`, counted
from `position`. -/
def findFrom (needle : List UInt8) : (position : Nat) → (haystack : List UInt8) → Option Nat
  | position, [] => if needle.isEmpty then some position else none
  | position, byte :: rest =>
      if needle.isPrefixOf (byte :: rest) then some position
      else findFrom needle (position + 1) rest

/-- The byte position of the second string in the first, or minus one. -/
def find (h : Heap) (arguments : List Value) : Result Value := do
  let first ← argument arguments 0
  let second ← argument arguments 1
  match first, second with
  | .scalar (.str haystack), .scalar (.str needle) =>
      let haystack ← h.text haystack
      let needle ← h.text needle
      match findFrom needle.toUTF8.toList 0 haystack.toUTF8.toList with
      | some position => return .scalar (.ofNat position)
      | none => return .scalar (.int (-1))
  | .scalar (.str _), culprit => badArgument h "strstr" culprit
  | culprit, _ => badArgument h "strstr" culprit

/-- Runs a native function on its arguments. -/
def call (host : Host) (routine : Routine) (arguments : List Value) : Action Heap Value := do
  match routine with
  | .builtin .clock => return .scalar (.double host.now)
  | .builtin .prime => prime (← get) arguments
  | .builtin .squareRoot => squareRoot (← get) arguments
  | .builtin .find => find (← get) arguments
  | .host number => host.call number arguments

/-- The built-in functions in the order of their registration. -/
def builtins : List Native :=
  [⟨"clock", 0, .builtin .clock⟩, ⟨"prime", 1, .builtin .prime⟩,
    ⟨"square", 1, .builtin .squareRoot⟩, ⟨"strstr", 2, .builtin .find⟩]

end Native

end ScriptMachine
