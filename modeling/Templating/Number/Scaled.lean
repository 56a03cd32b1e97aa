import Templating.Number.Numeral

/-!
# Numbers in data text

Data text is stricter than a condition about how a number is written, and it
reads doubles by scaling: the digits as one integer of at most sixty-four bits are
rounded to a double, and that double is multiplied or divided by a power of ten
that is itself a double. Two roundings can miss the closest double by one unit, so
this reader is a rule of its own beside `Decimal.nearest?`.
-/

namespace Templating

namespace Scaled

/-- The first integer that sixty-four bits do not hold. -/
def significandBound : Nat :=
  Nat.pow 2 64

/-- The number that `value` followed by the digits spells, and the digits from the
first one on that would take it out of bounds. -/
def absorb (value : Nat) : List Char → Nat × List Char
  | [] => (value, [])
  | c :: digits =>
    let next := value * 10 + (c.toNat - '0'.toNat)
    if next < significandBound then absorb next digits else (value, c :: digits)

/-- The magnitude of a power of ten. -/
def powerMagnitude (n : Nat) : Nat :=
  nearestMagnitude (Nat.pow 10 n) 1

/-- The rounded product of a magnitude and a power of ten. -/
def timesPower (magnitude n : Nat) : Nat :=
  nearestMagnitude (unitsOfMagnitude magnitude * unitsOfMagnitude (powerMagnitude n))
    (Nat.pow 2 unitScale * Nat.pow 2 unitScale)

/-- The rounded quotient of a magnitude by a power of ten. -/
def overPower (magnitude n : Nat) : Nat :=
  nearestMagnitude (unitsOfMagnitude magnitude) (unitsOfMagnitude (powerMagnitude n))

/-- The largest power of ten that is a finite double. -/
def largestPower : Nat :=
  308

/-- The magnitude of a significand scaled by a power of ten. A negative power
beyond the largest one takes two divisions, and after two whole ones nothing is
left of a significand of sixty-four bits. -/
def magnitude? (significand : Nat) (power : Int) : Option Nat :=
  let start := nearestMagnitude significand 1
  let steps := power.natAbs
  if 0 ≤ power then
    if start = 0 then some 0
    else if steps ≤ largestPower then
      let scaled := timesPower start steps
      if scaled < infiniteMagnitude then some scaled else none
    else none
  else if steps ≤ largestPower then some (overPower start steps)
  else if steps ≤ 2 * largestPower then
    some (overPower (overPower start largestPower) (steps - largestPower))
  else some 0

end Scaled

namespace Numeral

/-- Whether data text may write the numeral: no plus sign, at least one digit on
each side of a point, and no zero before other digits. -/
def isData (numeral : Numeral) : Bool :=
  numeral.sign != some '+' && numeral.fraction != some [] &&
    (match numeral.whole with
      | [] => false
      | '0' :: rest => rest.isEmpty
      | _ => true)

/-- The double that data text writes: digits that sixty-four bits cannot take in
are left out, those before the point still counting as places. -/
def scaled? (numeral : Numeral) : Option Double :=
  let fraction := numeral.fraction.getD []
  let (leading, wholeLeft) := Scaled.absorb 0 numeral.whole
  let (significand, fractionLeft) := Scaled.absorb leading fraction
  let places : Int := wholeLeft.length - (fraction.length - fractionLeft.length : Int)
  (Scaled.magnitude? significand (numeral.power.getD 0 + places)).bind
    (Double.ofMagnitude? numeral.isNegative)

/-- The number that a numeral stands for in data. Integers from `-2 ^ 63` up to
and not including `2 ^ 64` are kept as such; a negative zero is a double, for no
integer has its sign. -/
def data? (numeral : Numeral) : Option Number :=
  if !numeral.isData then none
  else if numeral.isInteger && -(Nat.pow 2 63 : Int) ≤ numeral.integer &&
      numeral.integer < (Nat.pow 2 64 : Int) && !(numeral.isNegative && numeral.integer == 0) then
    some (.int numeral.integer)
  else numeral.scaled?.map .float

end Numeral

end Templating
