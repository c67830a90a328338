import ScriptMachine.Heap.Display

/-!
Arithmetic and comparison of values.

The integer kinds combine as exact integers; the result is an `int` if it fits
into one, else a `long`, and an error if it fits into neither. A double on
either side makes the result a double, and division always does. Addition also
concatenates, if one side is a string and the other has a textual form.

Loose equality compares numbers by value across kinds, strings by content, a
string and an integer by the decimal form of the integer, and all other objects
by identity; strict equality asks for one kind in addition.
-/

namespace ScriptMachine

/-- A value as a number. -/
inductive Number where
  | integral (n : Int)
  | double (d : Double)

namespace Number

/-- The number that a value is. -/
def of? : Value → Option Number
  | .scalar (.double d) => some (double d)
  | value => value.integral.map integral

/-- The double nearest to a number. -/
def toDouble : Number → Double
  | integral n => .ofInt n
  | double d => d

/-- Whether a number is zero, of either sign. -/
def isZero : Number → Bool
  | integral n => n = 0
  | double d => d.equal .zero

end Number

/-- The result of an addition: a scalar, or a text that is not yet in the
heap. -/
inductive Sum where
  | scalar (value : Scalar)
  | text (value : String)

namespace Arithmetic

/-- The error for operands without such an operation. -/
def unsupported {α : Type} (h : Heap) (op : String) (a b : Value) : Result α := do
  Result.raise (.unsupportedInfix op (← h.typeName a) (← h.typeName b))

/-- The error for an operand without such an operation. -/
def unsupportedPrefix {α : Type} (h : Heap) (op : String) (a : Value) : Result α := do
  Result.raise (.unsupportedPrefix op (← h.typeName a))

/-- The scalar for an exact result. -/
def narrow (op : String) (n : Int) : Result Scalar :=
  match Scalar.ofInt? n with
  | some scalar => .ok scalar
  | none => Result.raise (.numericRange op)

/-- An operation that is exact on integers and rounds on doubles. -/
def binary (h : Heap) (op : String) (exact : Int → Int → Int)
    (rounded : Double → Double → Double) (a b : Value) : Result Scalar :=
  match Number.of? a, Number.of? b with
  | some (.integral x), some (.integral y) => narrow op (exact x y)
  | some x, some y => .ok (.double (rounded x.toDouble y.toDouble))
  | _, _ => unsupported h op a b

/-- The form of a scalar in a concatenation, if it has one. -/
def textForm? (h : Heap) : Scalar → Result (Option String)
  | .str ref => do return some (← h.text ref)
  | .char c => .ok (some (String.singleton (Heap.charOf c)))
  | .double d => .ok (some d.text)
  | scalar => .ok (scalar.integral.map toString)

/-- Whether a value is a string. -/
def isString : Value → Bool
  | .scalar (.str _) => true
  | _ => false

/-- The two operands joined, one of which is a string. -/
def concat (h : Heap) (a b : Value) (x y : Scalar) : Result Sum := do
  match ← textForm? h x, ← textForm? h y with
  | some left, some right => return .text (left ++ right)
  | _, _ => unsupported h "+" a b

/-- The sum of two numbers, or two operands joined if one is a string. -/
def add (h : Heap) (a b : Value) : Result Sum :=
  match a, b with
  | .scalar x, .scalar y =>
      if isString a || isString b then concat h a b x y
      else do return .scalar (← binary h "+" (· + ·) Double.add a b)
  | _, _ => do return .scalar (← binary h "+" (· + ·) Double.add a b)

/-- The difference of two numbers. -/
def sub (h : Heap) (a b : Value) : Result Scalar := binary h "-" (· - ·) Double.sub a b

/-- The product of two numbers. -/
def mul (h : Heap) (a b : Value) : Result Scalar := binary h "*" (· * ·) Double.mul a b

/-- The quotient of two numbers, a double. -/
def div (h : Heap) (a b : Value) : Result Scalar :=
  match Number.of? a, Number.of? b with
  | some x, some y =>
      if y.isZero then Result.raise (.divideByZero "division")
      else .ok (.double (x.toDouble.div y.toDouble))
  | _, _ => unsupported h "/" a b

/-- The remainder of two integers, with the sign of the first. It is refused
where the quotient leaves the range of a `long`. -/
def rem (h : Heap) (a b : Value) : Result Scalar :=
  match Number.of? a, Number.of? b with
  | some (.integral x), some (.integral y) =>
      if y = 0 then Result.raise (.divideByZero "modulo")
      else if fitsLong (x.tdiv y) then narrow "%" (x.tmod y)
      else Result.raise (.numericRange "%")
  | _, _ => unsupported h "%" a b

/-- A number moved by one, up or down. -/
def step (h : Heap) (a : Value) (up : Bool) : Result Scalar :=
  let op := if up then "++" else "--"
  let delta : Int := if up then 1 else -1
  match Number.of? a with
  | some (.integral x) => narrow op (x + delta)
  | some (.double x) => .ok (.double (x.add (.ofInt delta)))
  | none => unsupportedPrefix h op a

/-- The negative of a number. A truth value is inverted, and null gives
true. -/
def negate (h : Heap) (a : Value) : Result Scalar :=
  match a with
  | .scalar (.bool b) => .ok (.bool !b)
  | .scalar .null => .ok (.bool true)
  | _ =>
    match Number.of? a with
    | some (.double x) => .ok (.double x.neg)
    | some (.integral x) => narrow "-" (-x)
    | none => unsupportedPrefix h "-" a

/-! ### Comparison -/

/-- Whether a string is the decimal form of an integer. -/
def isNumeral (h : Heap) (ref : Ref .string) (n : Scalar) : Result Bool :=
  match n.integral with
  | some n => do return (← h.text ref) == toString n
  | none => .ok false

/-- Whether two numbers have one value; false if one of them is no number. -/
def equalNumbers (a b : Value) : Bool :=
  match Number.of? a, Number.of? b with
  | some (.integral m), some (.integral n) => m = n
  | some m, some n => m.toDouble.equal n.toDouble
  | _, _ => false

/-- Loose equality of scalars. -/
def equalScalars (h : Heap) : Scalar → Scalar → Result Bool
  | .str s, .str t => do return (← h.text s) == (← h.text t)
  | .str s, .int n => isNumeral h s (.int n)
  | .str s, .long n => isNumeral h s (.long n)
  | .str s, .size n => isNumeral h s (.size n)
  | .str s, .byte n => isNumeral h s (.byte n)
  | .int n, .str s => isNumeral h s (.int n)
  | .long n, .str s => isNumeral h s (.long n)
  | .size n, .str s => isNumeral h s (.size n)
  | .byte n, .str s => isNumeral h s (.byte n)
  | .null, .null => .ok true
  | .bool p, .bool q => .ok (p = q)
  | .array p, .array q => .ok (p = q)
  | x, y => .ok (equalNumbers (.scalar x) (.scalar y))

/-- Loose equality. -/
def equal (h : Heap) : Value → Value → Result Bool
  | .scalar x, .scalar y => equalScalars h x y
  | a, b => .ok (a = b)

/-- Equality of values of one kind. -/
def strictEqual (h : Heap) (a b : Value) : Result Bool :=
  if a.sameKind b then equal h a b else .ok false

/-- The lexicographic order of two byte sequences. -/
def compareBytes : List UInt8 → List UInt8 → Ordering
  | [], [] => .eq
  | [], _ :: _ => .lt
  | _ :: _, [] => .gt
  | a :: as, b :: bs => (compare a.toNat b.toNat).then (compareBytes as bs)

/-- The order of two numbers or of two strings. There is none if a double is
not a number. -/
def compare? (h : Heap) (op : String) (a b : Value) : Result (Option Ordering) :=
  match a, b with
  | .scalar (.str s), .scalar (.str t) => do
      return some (compareBytes (← h.text s).toUTF8.toList (← h.text t).toUTF8.toList)
  | _, _ =>
    match Number.of? a, Number.of? b with
    | some (.integral m), some (.integral n) => .ok (some (compare m n))
    | some m, some n => .ok (m.toDouble.compare? n.toDouble)
    | _, _ => unsupported h op a b

end Arithmetic

end ScriptMachine
