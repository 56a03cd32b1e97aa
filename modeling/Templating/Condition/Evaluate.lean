import Templating.Condition.Basic

/-!
# Evaluating conditions

Numbers compare by value whether they are integers or doubles, and texts compare
by code points. Data of other kinds, or of two kinds, are equal or not but have no
order. A condition with an absent side does not hold, whatever the comparison.
-/

namespace Templating

namespace Value

/-- Equality for conditions: numbers by value, everything else as data. -/
def looselyEqual : Value → Value → Bool
  | .number left, .number right => left.key == right.key
  | left, right => left.same right

/-- The order of two numbers or of two texts. -/
def compare? : Value → Value → Option Ordering
  | .number left, .number right => some (compare left.key right.key)
  | .text left, .text right => some (compare left right)
  | _, _ => none

end Value

namespace Operator

/-- Whether the comparison holds between two data that are there. -/
def holds (operator : Operator) (left right : Value) : Bool :=
  match operator with
  | .equal => left.looselyEqual right
  | .different => !left.looselyEqual right
  | .greater => left.compare? right == some .gt
  | .less => left.compare? right == some .lt
  | .atLeast => left.compare? right == some .gt || left.compare? right == some .eq
  | .atMost => left.compare? right == some .lt || left.compare? right == some .eq

end Operator

namespace Operand

/-- What the operand stands for in a context. -/
def resolve? (operand : Operand) (context : Value) : Option Value :=
  match operand with
  | .literal value => some value
  | .path target => target.resolve? context

end Operand

namespace Condition

/-- Whether the condition holds in a context. -/
def holds (condition : Condition) (context : Value) : Bool :=
  match condition.left.resolve? context, condition.right.resolve? context with
  | some left, some right => condition.operator.holds left right
  | _, _ => false

end Condition

end Templating
