import Templating.Condition.Basic
import Templating.Directive.Config
import Templating.Form.Basic

/-!
# Forms of expressions and configurations

The forms of paths, interpolated texts and conditions, and those of the
configuration, every field of which has a default.
-/

namespace Templating

open Form

instance : Form Path where
  write path := .object [("raw", write path.raw), ("segments", write path.segments)]
  read? form := do
    let [raw, segments] ← fields? ["raw", "segments"] form | none
    return ⟨← required? raw, ← required? segments⟩

instance : Form Token where
  write
    | .literal content => writeVariant "Literal" (write content)
    | .path path => writeVariant "Path" (write path)
  read? form :=
    match variant? form with
    | some ("Literal", some content) => (read? content).map .literal
    | some ("Path", some content) => (read? content).map .path
    | _ => none

instance : Form Interpolation where
  write interpolation := .object [("tokens", write interpolation.tokens)]
  read? form := do
    let [tokens] ← fields? ["tokens"] form | none
    return ⟨← required? tokens⟩

namespace Operator

/-- The name of a comparison in forms. -/
def formName : Operator → String
  | .equal => "Eq"
  | .different => "Neq"
  | .greater => "Gt"
  | .less => "Lt"
  | .atLeast => "Gte"
  | .atMost => "Lte"

end Operator

instance : Form Operator where
  write operator := .text operator.formName
  read? := unit? (Operator.all.map fun operator => (operator.formName, operator))

instance : Form Operand where
  write
    | .literal value => writeVariant "Literal" value
    | .path path => writeVariant "Path" (write path)
  read? form :=
    match variant? form with
    | some ("Literal", some content) => some (.literal content)
    | some ("Path", some content) => (read? content).map .path
    | _ => none

instance : Form Condition where
  write condition :=
    .object [("left", write condition.left), ("operator", write condition.operator),
      ("right", write condition.right)]
  read? form := do
    let [left, operator, right] ← fields? ["left", "operator", "right"] form | none
    return ⟨← required? left, ← required? operator, ← required? right⟩

instance : Form Missing where
  write
    | .empty => .text "Empty"
    | .raw => .text "Raw"
  read? := unit? [("Empty", .empty), ("Raw", .raw)]

instance : Form Directives where
  write directives :=
    .object [("condition", write directives.condition),
      ("interpolate_suffix", write directives.suffix), ("prefix", write directives.lead),
      ("repeat", write directives.loop), ("text", write directives.text)]
  read? form := do
    let [lead, loop, text, condition, suffix] ←
      partialFields? ["prefix", "repeat", "text", "condition", "interpolate_suffix"] form | none
    let usual := Directives.standard
    return {
      lead := ← defaulted? usual.lead lead
      loop := ← defaulted? usual.loop loop
      text := ← defaulted? usual.text text
      condition := ← defaulted? usual.condition condition
      suffix := ← defaulted? usual.suffix suffix }

instance : Form Config where
  write config :=
    .object [("directives", write config.directives), ("missing", write config.missing)]
  read? form := do
    let [directives, missing] ← partialFields? ["directives", "missing"] form | none
    let usual := Config.standard
    return ⟨← defaulted? usual.directives directives, ← defaulted? usual.missing missing⟩

end Templating
