import Templating.Condition.Basic
import Templating.Number.Numeral
import Templating.Text.Blank

/-!
# Reading conditions

An expression is a path, the word of a comparison, and an operand. The operand is
a text in single quotes, a number, or a path, in this order of preference. Only a
quoted text may hold blanks, and nothing may follow it.
-/

namespace Templating

namespace Operand

/-- Reads an operand that has no blanks at its ends. -/
def compile (expression : String) (text : List Char) : Except ConditionFault Operand :=
  match text with
  | '\'' :: quoted =>
    match Text.cutAt? ['\''] quoted with
    | none => .error (.unterminatedText expression)
    | some (content, trailing) =>
      if Text.allBlank trailing then .ok (.literal (.text (String.ofList content)))
      else .error (.malformed expression (3 + (Text.words trailing).length))
  | text =>
    if text.any Text.isBlank then
      .error (.malformed expression (2 + (Text.words text).length))
    else
      match (Numeral.ofText? text).bind Numeral.literal? with
      | some number => .ok (.literal (.number number))
      | none => .ok (.path (.ofText (String.ofList text)))

end Operand

namespace Condition

/-- Reads the expression of a condition. A missing part is reported before an
unknown comparison, and that before anything wrong with the operand. -/
def compile (expression : String) : Except ConditionFault Condition :=
  let (left, afterLeft) := Text.firstWord expression.toList
  let (word, afterWord) := Text.firstWord afterLeft
  let right := Text.trim afterWord
  if left = [] then .error (.malformed expression 0)
  else if word = [] then .error (.malformed expression 1)
  else if right = [] then .error (.malformed expression 2)
  else
    match Operator.ofWord? (String.ofList word) with
    | none => .error (.unknownOperator (String.ofList word) expression)
    | some operator =>
      (Operand.compile expression right).map fun operand =>
        ⟨.ofText (String.ofList left), operator, operand⟩

end Condition

end Templating
