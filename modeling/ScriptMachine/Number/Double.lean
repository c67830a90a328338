/-!
Doubles: binary floating-point numbers of 64 bits.

A double is its bit pattern, so that two zeros of different sign, or two of
the many patterns that are not a number, stay apart. Comparison, truncation
and conversion from an integer are exact integer computations on the pattern;
the four operations and the square root round to nearest, as `Float` does.

* `Double.equal` and `Double.compare?`: the order of the real numbers, in
  which the two zeros are equal and a pattern that is not a number is related
  to nothing;
* `Double.truncate`: towards zero, limited to the range of a 64-bit integer;
* `Double.ofInt`: to nearest, a tie to the even significand.
-/

namespace ScriptMachine

/-- A binary floating-point number, given by its 64 bits. -/
structure Double where
  bits : UInt64
  deriving DecidableEq, Inhabited

namespace Double

/-- Where the bit of the sign stands. -/
def signBit : Nat := 0x8000000000000000

/-- The least bit of the exponent; the bits below are the fraction. -/
def exponentUnit : Nat := 0x10000000000000

/-- The pattern of infinity: the exponent all ones and no fraction. -/
def infinityBits : Nat := 0x7FF0000000000000

/-- Whether the sign is set. -/
def isNegative (d : Double) : Bool := signBit ≤ d.bits.toNat

/-- The pattern without the sign. -/
def magnitude (d : Double) : Nat := d.bits.toNat % signBit

/-- Whether the pattern stands for no number. -/
def isNaN (d : Double) : Bool := infinityBits < d.magnitude

/-- Whether the pattern is one of the two infinities. -/
def isInfinite (d : Double) : Bool := d.magnitude = infinityBits

/-- The positive zero. -/
def zero : Double := ⟨0⟩

/-- The significand `m` and the exponent `q` of a finite double, whose
absolute value is `m * 2 ^ q`. -/
def decompose (d : Double) : Nat × Int :=
  let exponent := d.magnitude / exponentUnit
  let fraction := d.magnitude % exponentUnit
  if exponent = 0 then (fraction, -1074)
  else (fraction + exponentUnit, (exponent : Int) - 1075)

/-! ### Comparison -/

/-- A number that orders the patterns like the reals they stand for. -/
def rank (d : Double) : Int :=
  if d.isNegative then -(d.magnitude : Int) else d.magnitude

/-- The order of two doubles, none if one of them is not a number. -/
def compare? (a b : Double) : Option Ordering :=
  if a.isNaN || b.isNaN then none else some (compare a.rank b.rank)

/-- Whether two doubles are the same real number or infinity. -/
def equal (a b : Double) : Bool :=
  !a.isNaN && !b.isNaN && a.rank == b.rank

/-! ### Conversion -/

/-- An integer limited to the range of 64-bit integers. -/
def saturate (n : Int) : Int := max (-0x8000000000000000) (min n 0x7FFFFFFFFFFFFFFF)

/-- The integer part, towards zero, limited to the range of 64-bit integers;
zero if the double is not a number. -/
def truncate (d : Double) : Int :=
  if d.isNaN then 0
  else
    let size : Int :=
      if d.isInfinite then 0x10000000000000000
      else
        match d.decompose with
        | (m, .ofNat q) => (m <<< q : Nat)
        | (m, .negSucc q) => (m >>> (q + 1) : Nat)
    saturate (if d.isNegative then -size else size)

/-- The pattern of the double nearest to a natural number below `2 ^ 1023`; a
tie goes to the even significand. Rounding up into the next power of two
carries from the fraction into the exponent. -/
def bitsOfNat (n : Nat) : Nat :=
  if n = 0 then 0
  else
    let top := n.log2
    let significand :=
      if top ≤ 52 then n <<< (52 - top)
      else
        let unit := 1 <<< (top - 52)
        let quotient := n / unit
        let rest := n % unit
        if unit < 2 * rest ∨ (unit = 2 * rest ∧ quotient % 2 = 1) then quotient + 1
        else quotient
    (1022 + top) * exponentUnit + significand

/-- The double nearest to an integer. -/
def ofInt (n : Int) : Double :=
  let size := bitsOfNat n.natAbs
  ⟨UInt64.ofNat (if n < 0 then signBit + size else size)⟩

/-! ### Arithmetic -/

/-- The double as a number that can be computed with. -/
def toFloat (d : Double) : Float := Float.ofBits d.bits

/-- A pattern that is not a number, made quiet: the top bit of its fraction
is set. -/
def quiet (d : Double) : Double := ⟨d.bits ||| 0x0008000000000000⟩

/-- The pattern of an operation that has no result. -/
def invalid : Double := ⟨0xFFF8000000000000⟩

/-- The result of an operation on `operands`. If it is not a number, it is
the first operand that is none, made quiet, or else `invalid`. -/
def settle (operands : List Double) (result : Float) : Double :=
  if result.isNaN then ((operands.find? isNaN).map quiet).getD invalid
  else ⟨result.toBits⟩

/-- The sum, rounded to nearest. -/
def add (a b : Double) : Double := settle [a, b] (a.toFloat + b.toFloat)

/-- The difference, rounded to nearest. -/
def sub (a b : Double) : Double := settle [a, b] (a.toFloat - b.toFloat)

/-- The product, rounded to nearest. -/
def mul (a b : Double) : Double := settle [a, b] (a.toFloat * b.toFloat)

/-- The quotient, rounded to nearest. -/
def div (a b : Double) : Double := settle [a, b] (a.toFloat / b.toFloat)

/-- The square root, rounded to nearest. -/
def sqrt (a : Double) : Double := settle [a] a.toFloat.sqrt

/-- The double with its sign turned. -/
def neg (d : Double) : Double := ⟨d.bits ^^^ 0x8000000000000000⟩

end Double

end ScriptMachine
