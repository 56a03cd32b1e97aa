import Templating.Number.Basic

/-!
# Written numbers

`Numeral.scan` takes a number off the front of a text: a sign, digits, a point
with digits, and a power of ten, each of which may be missing. What a numeral has
to look like differs between a condition, which reads `+.5` and `007`, and data,
which does not; what it stands for is said here once for conditions, by
`Numeral.literal?`.
-/

namespace Templating

/-- The parts of a number as written. `fraction` is what follows the point. -/
structure Numeral where
  sign : Option Char
  whole : List Char
  fraction : Option (List Char)
  power : Option Int
deriving DecidableEq

namespace Numeral

/-- A sign at the front of a text, and the rest. -/
def scanSign : List Char → Option Char × List Char
  | '+' :: rest => (some '+', rest)
  | '-' :: rest => (some '-', rest)
  | rest => (none, rest)

/-- The digits at the front of a text, and the rest. -/
def scanDigits (text : List Char) : List Char × List Char :=
  (text.takeWhile isDigit, text.dropWhile isDigit)

/-- A point and the digits after it at the front of a text, and the rest. -/
def scanFraction : List Char → Option (List Char) × List Char
  | '.' :: rest => (some (scanDigits rest).1, (scanDigits rest).2)
  | rest => (none, rest)

/-- A power of ten at the front of a text, and the rest. A letter that no digits
follow is not a power. -/
def scanPower : List Char → Option Int × List Char
  | [] => (none, [])
  | e :: rest =>
    let (sign, tail) := scanSign rest
    let (digits, rest') := scanDigits tail
    if (e = 'e' ∨ e = 'E') ∧ digits ≠ [] then
      (some (if sign = some '-' then -(ofDigits digits : Int) else ofDigits digits), rest')
    else (none, e :: rest)

/-- The number at the front of a text, and the rest. -/
def scan (text : List Char) : Numeral × List Char :=
  let (sign, afterSign) := scanSign text
  let (whole, afterWhole) := scanDigits afterSign
  let (fraction, afterFraction) := scanFraction afterWhole
  let (power, rest) := scanPower afterFraction
  (⟨sign, whole, fraction, power⟩, rest)

/-- The text as one numeral with at least one digit. -/
def ofText? (text : List Char) : Option Numeral :=
  let (numeral, rest) := scan text
  let digits := numeral.whole ++ numeral.fraction.getD []
  if rest = [] ∧ digits ≠ [] then some numeral else none

/-- Whether the numeral has a minus sign. -/
def isNegative (numeral : Numeral) : Bool :=
  numeral.sign == some '-'

/-- Whether the numeral has neither a point nor a power. -/
def isInteger (numeral : Numeral) : Bool :=
  numeral.fraction.isNone && numeral.power.isNone

/-- The integer that the digits before the point spell. -/
def integer (numeral : Numeral) : Int :=
  if numeral.isNegative then -(ofDigits numeral.whole : Int) else ofDigits numeral.whole

/-- The absolute value. -/
def decimal (numeral : Numeral) : Decimal :=
  let fraction := numeral.fraction.getD []
  ⟨ofDigits (numeral.whole ++ fraction), numeral.power.getD 0 - fraction.length⟩

/-- The number that a numeral stands for in a condition: an integer if it is
written as one and fits sixty-four bits with a sign, and otherwise the closest
double, if that is finite. -/
def literal? (numeral : Numeral) : Option Number :=
  if numeral.isInteger && -(Nat.pow 2 63 : Int) ≤ numeral.integer &&
      numeral.integer < (Nat.pow 2 63 : Int) then
    some (.int numeral.integer)
  else (numeral.decimal.nearest? numeral.isNegative).map .float

end Numeral

end Templating
