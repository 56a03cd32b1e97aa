import Templating.Form.Expression
import Templating.Proofs.Form.Basic

/-!
# Reading expressions and configurations back

The forms of expressions and of the configuration are lawful. Those of the configuration
may also lose fields, each of which then has its default: `Form.Keeps` says which fields
are left of a form, and `Directives.keeping` and `Config.keeping` what is read from it.
-/

namespace Templating

open Form

instance : LawfulForm Path where
  read?_write path := by
    unfold instFormPath
    simp [fields?, List.lookup_cons]

instance : LawfulForm Token where
  read?_write token := by
    unfold instFormToken
    cases token with
    | literal content => simp [variant?, writeVariant]
    | path path => simp [variant?, writeVariant]

instance : LawfulForm Interpolation where
  read?_write interpolation := by
    unfold instFormInterpolation
    simp [fields?, List.lookup_cons]

instance : LawfulForm Operator where
  read?_write operator := by cases operator <;> rfl

instance : LawfulForm Operand where
  read?_write operand := by
    unfold instFormOperand
    cases operand with
    | literal value => simp [variant?, writeVariant]
    | path path => simp [variant?, writeVariant]

instance : LawfulForm Condition where
  read?_write condition := by
    unfold instFormCondition
    simp [fields?, List.lookup_cons]

instance : LawfulForm Missing where
  read?_write missing := by cases missing <;> rfl

namespace Form

/-- An object has, of these fields, those that are kept, with the contents that they have
in the whole form. Nothing is said about its other members. -/
def Keeps (names : List String) (kept : String → Prop) [DecidablePred kept]
    (whole part : Value) : Prop :=
  (∃ members, part = .object members) ∧
    ∀ name ∈ names, part.child? name = if kept name then whole.child? name else none

variable {names : List String} {kept : String → Prop} [DecidablePred kept] {whole part : Value}

/-- The fields of a form that has lost some. -/
theorem Keeps.partialFields?_eq (keeps : Keeps names kept whole part) :
    partialFields? names part =
      some (names.map fun name => if kept name then whole.child? name else none) := by
  obtain ⟨⟨members, rfl⟩, contents⟩ := keeps
  exact congrArg some (List.map_congr_left contents)

/-- A form keeps all of its own fields. -/
theorem keeps_self {members : List (String × Value)} :
    Keeps names (fun _ => True) (.object members) (.object members) :=
  ⟨⟨members, rfl⟩, fun _ _ => (if_pos trivial).symm⟩

end Form

section Keeping

variable (kept keptInside : String → Prop) [DecidablePred kept] [DecidablePred keptInside]

namespace Directives

/-- The names of the fields in forms. -/
def fieldNames : List String :=
  ["prefix", "repeat", "text", "condition", "interpolate_suffix"]

/-- The spelling with the usual one in place of the fields that are not kept. -/
def keeping (directives : Directives) : Directives where
  lead := if kept "prefix" then directives.lead else standard.lead
  loop := if kept "repeat" then directives.loop else standard.loop
  text := if kept "text" then directives.text else standard.text
  condition := if kept "condition" then directives.condition else standard.condition
  suffix := if kept "interpolate_suffix" then directives.suffix else standard.suffix

/-- What is read from a spelling whose form has lost some fields. -/
theorem read?_of_keeps {directives : Directives} {form : Value}
    (keeps : Keeps fieldNames kept (write directives) form) :
    read? form = some (directives.keeping kept) := by
  have fields : partialFields? fieldNames form = some
      [if kept "prefix" then some (write directives.lead) else none,
        if kept "repeat" then some (write directives.loop) else none,
        if kept "text" then some (write directives.text) else none,
        if kept "condition" then some (write directives.condition) else none,
        if kept "interpolate_suffix" then some (write directives.suffix) else none] :=
    keeps.partialFields?_eq
  unfold fieldNames at fields
  unfold instFormDirectives
  simp [fields, defaulted?_ite (LawfulForm.read?_write _), keeping]

end Directives

namespace Config

/-- The names of the fields in forms. -/
def fieldNames : List String :=
  ["directives", "missing"]

/-- The form of a configuration, given that of its spelling of directives. -/
def formAround (config : Config) (spelling : Value) : Value :=
  .object [("directives", spelling), ("missing", write config.missing)]

/-- The configuration with the usual content in place of the fields that are not kept,
and of those that its spelling of directives does not keep. -/
def keeping (config : Config) : Config where
  directives := if kept "directives" then config.directives.keeping keptInside
    else standard.directives
  missing := if kept "missing" then config.missing else standard.missing

/-- What is read from a configuration whose form has lost some fields, also inside. -/
theorem read?_of_keeps {config : Config} {form spelling : Value}
    (inside : Keeps Directives.fieldNames keptInside (write config.directives) spelling)
    (keeps : Keeps fieldNames kept (config.formAround spelling) form) :
    read? form = some (config.keeping kept keptInside) := by
  have fields : partialFields? fieldNames form = some
      [if kept "directives" then some spelling else none,
        if kept "missing" then some (write config.missing) else none] :=
    keeps.partialFields?_eq
  have spellingReads : read? spelling = some (config.directives.keeping keptInside) :=
    Directives.read?_of_keeps keptInside inside
  have missingReads : read? (write config.missing) = some config.missing :=
    LawfulForm.read?_write _
  unfold fieldNames at fields
  unfold instFormConfig
  simp [fields, defaulted?_ite spellingReads, defaulted?_ite missingReads, keeping]

end Config

end Keeping

instance : LawfulForm Directives where
  read?_write _ := Directives.read?_of_keeps (fun _ => True) keeps_self

instance : LawfulForm Config where
  read?_write _ := Config.read?_of_keeps (fun _ => True) (fun _ => True) keeps_self keeps_self

end Templating
