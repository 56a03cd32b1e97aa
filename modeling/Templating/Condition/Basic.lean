import Templating.Path
import Templating.Value.Compact

/-!
# Conditions

A condition compares what a path leads to with a literal or with what another path
leads to. This module has the parts of a condition, their spelling, and what can be
wrong with the expression of one; `Condition.compile` reads expressions.
-/

namespace Templating

/-- The six comparisons. -/
inductive Operator
  | equal
  | different
  | greater
  | less
  | atLeast
  | atMost
deriving DecidableEq

namespace Operator

/-- The word for a comparison in an expression. -/
def word : Operator → String
  | .equal => "eq"
  | .different => "neq"
  | .greater => "gt"
  | .less => "lt"
  | .atLeast => "gte"
  | .atMost => "lte"

/-- All comparisons. -/
def all : List Operator :=
  [.equal, .different, .greater, .less, .atLeast, .atMost]

/-- The comparison that a word names. -/
def ofWord? (text : String) : Option Operator :=
  all.find? fun operator => operator.word = text

/-- Each comparison is named by its own word. -/
theorem ofWord?_word (operator : Operator) : ofWord? operator.word = some operator := by
  cases operator <;> rfl

end Operator

/-- The right side of a comparison. -/
inductive Operand
  | literal (value : Value)
  | path (path : Path)
deriving DecidableEq

/-- A comparison of what a path leads to with an operand. -/
structure Condition where
  left : Path
  operator : Operator
  right : Operand
deriving DecidableEq

namespace Operand

/-- How an operand is written. -/
def text : Operand → String
  | .literal (.text content) => "'" ++ content ++ "'"
  | .literal value => String.ofList value.compact
  | .path target => target.raw

end Operand

namespace Condition

/-- How a condition is written. -/
def text (condition : Condition) : String :=
  condition.left.raw ++ " " ++ condition.operator.word ++ " " ++ condition.right.text

end Condition

/-- What can be wrong with the expression of a condition. -/
inductive ConditionFault
  | unknownOperator (operator expression : String)
  | malformed (expression : String) (tokens : Nat)
  | unterminatedText (expression : String)
deriving DecidableEq

namespace ConditionFault

/-- The explanation of a fault. -/
def message : ConditionFault → String
  | .unknownOperator operator expression =>
    s!"Unknown operator '{operator}' in condition '{expression}'"
  | .malformed expression tokens =>
    s!"Condition '{expression}' must have the form '<left> <op> <right>', found {tokens} token(s)"
  | .unterminatedText expression =>
    s!"Unterminated string literal in condition '{expression}'"

/-- The explanations of a fault and of what caused it, outermost first. -/
def explanations (fault : ConditionFault) : List String :=
  [fault.message]

end ConditionFault

end Templating
