/-!
# Binary64 numbers

A finite binary64 number is a sign and a magnitude. The magnitude is kept as the
natural number that the format's exponent and fraction fields spell, because that
number grows with the value: comparing doubles is comparing integers, see
`Double.key`. `nearestMagnitude` rounds any non-negative ratio to the closest
magnitude, to the even one when two are equally close.
-/

namespace Templating

/-- The magnitude that stands for infinity: every finite one is below it. -/
def infiniteMagnitude : Nat :=
  2047 * Nat.pow 2 52

/-- A finite binary64 number. The two zeros differ in their sign only. -/
structure Double where
  negative : Bool
  magnitude : Nat
  magnitude_lt : magnitude < infiniteMagnitude
deriving DecidableEq

/-- The closest natural number to a ratio, the even one of two equally close. -/
def roundRatio (numerator denominator : Nat) : Nat :=
  let quotient := numerator / denominator
  let twice := 2 * (numerator % denominator)
  if twice < denominator ∨ (twice = denominator ∧ quotient % 2 = 0) then quotient
  else quotient + 1

/-- Magnitudes count in units of `2 ^ -1074`, the smallest positive double. -/
def unitScale : Nat :=
  1074

/-- The magnitude closest to a ratio, where infinity is not special: the ratio in
units is cut to fifty-three significant bits, or to whole units below `2 ^ 53`. A
significand that rounds up to `2 ^ 53` is the first one of the next exponent, and
the sum says so without a case. -/
def nearestMagnitude (numerator denominator : Nat) : Nat :=
  let units := numerator * Nat.pow 2 unitScale
  let exponent := Nat.log2 (units / denominator) - 52
  exponent * Nat.pow 2 52 + roundRatio units (denominator * Nat.pow 2 exponent)

/-- The number of units that a magnitude stands for. -/
def unitsOfMagnitude (magnitude : Nat) : Nat :=
  let field := magnitude / Nat.pow 2 52
  if field = 0 then magnitude
  else (Nat.pow 2 52 + magnitude % Nat.pow 2 52) * Nat.pow 2 (field - 1)

namespace Double

/-- A number from its sign and magnitude, unless the magnitude is too large. -/
def ofMagnitude? (negative : Bool) (magnitude : Nat) : Option Double :=
  if finite : magnitude < infiniteMagnitude then some ⟨negative, magnitude, finite⟩ else none

/-- The zero of the given sign. -/
def zero (negative : Bool) : Double :=
  ⟨negative, 0, by decide⟩

/-- The absolute value in units. -/
def units (d : Double) : Nat :=
  unitsOfMagnitude d.magnitude

/-- The integer by which doubles are ordered; both zeros have the key `0`. -/
def key (d : Double) : Int :=
  if d.negative then -(d.magnitude : Int) else d.magnitude

end Double

/-- The key of the double nearest to an integer. -/
def nearestKey (n : Int) : Int :=
  if n < 0 then -(nearestMagnitude n.natAbs 1 : Int) else nearestMagnitude n.natAbs 1

end Templating
