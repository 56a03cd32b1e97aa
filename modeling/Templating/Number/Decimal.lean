import Templating.Number.Double

/-!
# Decimal numbers

A decimal is a natural number of units that are powers of ten. `Decimal.nearest?`
reads one as the closest double, and `Double.shortest` writes a double as the
decimal with the fewest digits that is read back as the same double. The writer
asks the reader: each candidate is kept only if `Decimal.magnitude` gives the
magnitude it came from.
-/

namespace Templating

/-- The decimal digit of a number below ten. -/
def digitChar (n : Nat) : Char :=
  Char.ofNat ('0'.toNat + n)

/-- The decimal digits of a natural number, without leading zeros. -/
def decimalDigits (n : Nat) : List Char :=
  if n < 10 then [digitChar n] else decimalDigits (n / 10) ++ [digitChar (n % 10)]

/-- One of the ten ASCII digits. -/
def isDigit (c : Char) : Bool :=
  '0' ≤ c && c ≤ '9'

/-- The natural number that a run of digits spells; the empty run spells zero. -/
def ofDigits (digits : List Char) : Nat :=
  digits.foldl (fun value c => value * 10 + (c.toNat - '0'.toNat)) 0

/-- The decimal spelling of an integer, with a minus sign below zero. -/
def integerText (n : Int) : List Char :=
  if n < 0 then '-' :: decimalDigits n.natAbs else decimalDigits n.natAbs

/-- The number `digits * 10 ^ exponent`. -/
structure Decimal where
  digits : Nat
  exponent : Int
deriving DecidableEq

namespace Decimal

/-- The closest magnitude, where infinity is not special. -/
def magnitude (d : Decimal) : Nat :=
  if 0 ≤ d.exponent then nearestMagnitude (d.digits * Nat.pow 10 d.exponent.toNat) 1
  else nearestMagnitude d.digits (Nat.pow 10 (-d.exponent).toNat)

/-- Decimals from `10 ^ 400` up are beyond every double, and those below
`10 ^ -400` are closest to zero, so the power of ten is not computed for them. -/
def exponentBound : Int :=
  400

/-- The closest double with the given sign, if it is finite. -/
def nearest? (negative : Bool) (d : Decimal) : Option Double :=
  let place := (decimalDigits d.digits).length + d.exponent
  if d.digits = 0 ∨ place < -exponentBound then some (.zero negative)
  else if exponentBound < place then none
  else Double.ofMagnitude? negative d.magnitude

/-- The same number with the zeros at the end of its digits moved into the
exponent. -/
def reduced (d : Decimal) : Decimal :=
  if _trailing : d.digits ≠ 0 ∧ d.digits % 10 = 0 then
    reduced ⟨d.digits / 10, d.exponent + 1⟩
  else d
termination_by d.digits
decreasing_by omega

end Decimal

namespace Double

/-- The absolute value as an exact decimal. -/
def exactDecimal (d : Double) : Decimal :=
  ⟨d.units * Nat.pow 5 unitScale, -unitScale⟩

/-- Every positive double is at least `10 ^ -324`. -/
def lowestPlace : Nat :=
  324

/-- Where the decimal point of a positive double stands: the absolute value is at
least `10 ^ (place - 1)` and below `10 ^ place`. -/
def decimalPlace (d : Double) : Int :=
  (decimalDigits (d.units * Nat.pow 10 lowestPlace / Nat.pow 2 unitScale)).length - lowestPlace

/-- The two decimals next to the absolute value whose last digit stands at
`exponent`, the closer one first, and the even one if both are equally close. -/
def neighbours (d : Double) (exponent : Int) : List Decimal :=
  let numerator := if 0 ≤ exponent then d.units else d.units * Nat.pow 10 (-exponent).toNat
  let denominator :=
    if 0 ≤ exponent then Nat.pow 2 unitScale * Nat.pow 10 exponent.toNat
    else Nat.pow 2 unitScale
  let lower := numerator / denominator
  let closer := roundRatio numerator denominator
  let farther := if closer = lower then lower + 1 else lower
  [⟨closer, exponent⟩, ⟨farther, exponent⟩]

/-- A neighbour whose last digit stands at `exponent` and that is read back as the
same absolute value. -/
def readBack? (d : Double) (exponent : Int) : Option Decimal :=
  (d.neighbours exponent).find? fun neighbour => neighbour.magnitude = d.magnitude

/-- The most digits that a double needs. -/
def enoughDigits : Nat :=
  17

/-- The fewest digits that are read back as the same absolute value, the closest
such digits to it. -/
def shortest (d : Double) : Decimal :=
  if d.magnitude = 0 then ⟨0, 0⟩
  else
    let place := d.decimalPlace
    let counts := List.range' 1 enoughDigits
    let found := counts.findSome? fun count : Nat => d.readBack? (place - count)
    (found.getD d.exactDecimal).reduced

end Double

end Templating
