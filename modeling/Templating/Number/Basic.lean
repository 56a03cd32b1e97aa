import Templating.Number.Decimal

/-!
# Numbers of the data

A number is an integer, kept exactly, or a double. The two kinds are never equal
as data, but conditions compare them by value: `Number.key` orders all numbers by
the double each of them rounds to.
-/

namespace Templating

/-- A number as data holds it. -/
inductive Number
  | int (value : Int)
  | float (value : Double)
deriving DecidableEq

namespace Double

/-- The digits written without an exponent: `place` digits stand before the
point, and at least one on each side of it. -/
def positional (digits : List Char) (place : Int) : List Char :=
  if place ≤ 0 then '0' :: '.' :: List.replicate (-place).toNat '0' ++ digits
  else
    let whole := place.toNat
    if digits.length ≤ whole then
      digits ++ List.replicate (whole - digits.length) '0' ++ ['.', '0']
    else digits.take whole ++ '.' :: digits.drop whole

/-- The digits written with one of them before the point and an exponent whose
sign is always there. -/
def scientific (digits : List Char) (place : Int) : List Char :=
  let power := place - 1
  let sign := if power < 0 then '-' else '+'
  let fraction := if digits.length ≤ 1 then [] else '.' :: digits.drop 1
  digits.take 1 ++ fraction ++ 'e' :: sign :: decimalDigits power.natAbs

/-- The text of a double: its shortest digits, without an exponent from
`10 ^ -5` up to and not including `10 ^ 16`. -/
def text (d : Double) : List Char :=
  let digits := decimalDigits d.shortest.digits
  let place := digits.length + d.shortest.exponent
  let unsigned :=
    if -4 ≤ place ∧ place ≤ 16 then positional digits place else scientific digits place
  if d.negative then '-' :: unsigned else unsigned

end Double

namespace Number

/-- The text of a number. An integer has neither a point nor an exponent, and a
double has one of them. -/
def text : Number → List Char
  | .int value => integerText value
  | .float value => value.text

/-- The integer by which numbers are ordered. -/
def key : Number → Int
  | .int value => nearestKey value
  | .float value => value.key

/-- Equality of data: the kinds agree, and doubles are equal by value, so that the
two zeros are. -/
def same : Number → Number → Bool
  | .int left, .int right => left == right
  | .float left, .float right => left.key == right.key
  | _, _ => false

end Number

end Templating
