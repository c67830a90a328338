import ScriptMachine.Number.Double

/-!
The decimal text of a double: the fewest digits that read back as the same
double, and of those the ones nearest to it, written without an exponent.

The reals that round to a double form an interval, whose ends belong to it
exactly if the significand is even. For one digit, two digits and so on, the
two decimals next to the double are tested against the interval; seventeen
digits always suffice.
-/

namespace ScriptMachine.Double

/-- A positive real `value / scale` with the ends `low / scale` and
`high / scale` of the interval of reals that round to it. -/
structure Interval where
  value : Nat
  low : Nat
  high : Nat
  scale : Nat
  /-- Whether the ends round to the value, too. -/
  closed : Bool

namespace Interval

/-- The interval of `m * 2 ^ q`. Below a power of two the doubles are twice as
dense, except at the bottom of the range. -/
def ofDouble (m : Nat) (q : Int) : Interval :=
  let step := if m = exponentUnit ∧ -1074 < q then 1 else 2
  let closed := m % 2 = 0
  match q with
  | .ofNat q => ⟨(4 * m) <<< q, (4 * m - step) <<< q, (4 * m + 2) <<< q, 4, closed⟩
  | .negSucc q => ⟨4 * m, 4 * m - step, 4 * m + 2, 4 <<< (q + 1), closed⟩

/-- The interval with all of it multiplied by `10 ^ -e`. -/
def shift (i : Interval) : (e : Int) → Interval
  | .ofNat e => { i with scale := i.scale * Nat.pow 10 e }
  | .negSucc e =>
      let f := Nat.pow 10 (e + 1)
      { i with value := i.value * f, low := i.low * f, high := i.high * f }

/-- Whether a natural number lies in the interval. -/
def contains (i : Interval) (n : Nat) : Bool :=
  if i.closed then i.low ≤ n * i.scale && n * i.scale ≤ i.high
  else i.low < n * i.scale && n * i.scale < i.high

/-- The natural number in the interval nearest to its value, among the two
next to the value; of two equally near ones the larger. -/
def nearest? (i : Interval) : Option Nat :=
  let n := i.value / i.scale
  let below := i.value % i.scale
  match i.contains n, i.contains (n + 1) with
  | true, true => some (if 2 * below < i.scale then n else n + 1)
  | true, false => some n
  | false, true => some (n + 1)
  | false, false => none

/-- How many digits the integer part of the value has; for a value below one,
minus the number of zeros behind the point. `10 ^ (d - 1) ≤ value < 10 ^ d`. -/
def integerDigits (i : Interval) : Int :=
  if i.scale ≤ i.value then (Nat.toDigits 10 (i.value / i.scale)).length
  else
    -- the first power of ten that lifts the value to one or above
    let zeros := ((List.range 400).find? fun k => i.scale ≤ i.value * Nat.pow 10 (k + 1)).getD 0
    Int.neg zeros

end Interval

/-- The first decimal `digits * 10 ^ e` with `count` or more digits that lies
in the interval, searched for up to the given number of further digits. -/
def shortest (i : Interval) (places : Int) : (more count : Nat) → Nat × Int
  | 0, count => ((i.shift (places - count)).value / (i.shift (places - count)).scale, places - count)
  | more + 1, count =>
      match (i.shift (places - count)).nearest? with
      | some digits => (digits, places - count)
      | none => shortest i places more (count + 1)

/-- The number `digits * 10 ^ e` written out, without trailing zeros behind
the point. -/
def positional (digits : Nat) : (e : Int) → String
  | .ofNat e => toString (digits * Nat.pow 10 e)
  | .negSucc e =>
      let places := e + 1
      let whole := digits / Nat.pow 10 places
      let rest := digits % Nat.pow 10 places
      if rest = 0 then toString whole
      else
        let text := Nat.toDigits 10 rest
        let padded := List.replicate (places - text.length) '0' ++ text
        let trimmed := (padded.reverse.dropWhile (· = '0')).reverse
        toString whole ++ "." ++ String.ofList trimmed

/-- The decimal text of a double. -/
def text (d : Double) : String :=
  if d.isNaN then "NaN"
  else
    let size :=
      if d.isInfinite then "inf"
      else if d.magnitude = 0 then "0"
      else
        match d.decompose with
        | (m, q) =>
          let i := Interval.ofDouble m q
          match shortest i i.integerDigits 17 1 with
          | (digits, e) => positional digits e
    if d.isNegative then "-" ++ size else size

end ScriptMachine.Double
