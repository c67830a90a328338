/-!
Classes of characters given by their bounds.

A class is an increasing list of code points: the class begins at the first,
ends before the second, begins again at the third, and so on. Membership asks
how many bounds a character has passed.
-/

namespace ScriptMachine.Text

/-- How many of the bounds are at or below `code`. The bounds increase, so
the search halves the part in which the answer lies, `fuel` times at most. -/
def passedBounds (bounds : Array Nat) (code : Nat) : (fuel low high : Nat) → Nat
  | 0, low, _ => low
  | fuel + 1, low, high =>
      if low < high then
        let middle := (low + high) / 2
        if bounds.getD middle 0 ≤ code then passedBounds bounds code fuel (middle + 1) high
        else passedBounds bounds code fuel low middle
      else low

/-- Whether a character lies in the class with these bounds: it has passed
an odd number of them. -/
def inClass (bounds : Array Nat) (c : Char) : Bool :=
  passedBounds bounds c.toNat (bounds.size + 1) 0 bounds.size % 2 = 1

end ScriptMachine.Text
