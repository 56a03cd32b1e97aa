import Templating.Form.Expression
import Templating.Form.Markup
import Templating.Registry

/-!
# Forms of templates

The forms of renderers, templates and whole registries, of the uses of paths, and
of the errors of templates. Reading a registry's form gives back the registry, so
that it can be kept and reloaded.
-/

namespace Templating

open Form

instance : Form Binding where
  write binding := .object [("target", write binding.target), ("value", write binding.value)]
  read? form := do
    let [target, value] ← fields? ["target", "value"] form | none
    return ⟨← required? target, ← required? value⟩

namespace Renderer

mutual

/-- The form of a renderer. -/
def toForm : Renderer → Value
  | .text content => writeVariant "Text" (write content)
  | .element plan children =>
    writeVariant "Element"
      (.object [("bindings", write plan.bindings), ("children", .array (toForms children)),
        ("condition", writeOptional plan.condition), ("repeat", writeOptional plan.loop),
        ("shell", write plan.shell), ("text", writeOptional plan.text)])

/-- The forms of some renderers. -/
def toForms : List Renderer → List Value
  | [] => []
  | renderer :: renderers => toForm renderer :: toForms renderers

end

/-- The plan among the members of a renderer's form. -/
def planOfMembers? (members : List (String × Value)) : Option Plan := do
  return {
    shell := ← required? (members.lookup "shell")
    loop := ← optional? (members.lookup "repeat")
    text := ← optional? (members.lookup "text")
    condition := ← optional? (members.lookup "condition")
    bindings := ← required? (members.lookup "bindings") }

mutual

/-- The renderer of a form. -/
def ofForm? : Value → Option Renderer
  | .object [(variant, content)] =>
    if variant = "Text" then (read? content).map .text
    else if variant = "Element" then elementOfForm? content
    else none
  | _ => none

/-- The renderer of the form of an element. -/
def elementOfForm? : Value → Option Renderer
  | .object members => do
    let plan ← planOfMembers? members
    let children ← childrenOfForm? members
    return .element plan children
  | .array [shell, loop, content, condition, bindings, children] => do
    let plan : Plan := {
      shell := ← read? shell
      loop := ← optional? (some loop)
      text := ← optional? (some content)
      condition := ← optional? (some condition)
      bindings := ← read? bindings }
    let children ← renderersOfForm? children
    return .element plan children
  | _ => none

/-- The child renderers among the members of an element's form. -/
def childrenOfForm? : List (String × Value) → Option (List Renderer)
  | [] => none
  | (name, content) :: members =>
    if name = "children" then renderersOfForm? content else childrenOfForm? members

/-- The renderers of an array of forms. -/
def renderersOfForm? : Value → Option (List Renderer)
  | .array items => renderersOfItems? items
  | _ => none

/-- The renderers of some forms, all of which have to be right. -/
def renderersOfItems? : List Value → Option (List Renderer)
  | [] => some []
  | item :: items => do
    let renderer ← ofForm? item
    let renderers ← renderersOfItems? items
    return renderer :: renderers

end

end Renderer

instance : Form Renderer where
  write := Renderer.toForm
  read? := Renderer.ofForm?

instance : Form Template where
  write template :=
    .object [("missing", write template.missing), ("renderers", write template.renderers)]
  read? form := do
    let [renderers, missing] ← fields? ["renderers", "missing"] form | none
    return ⟨← required? renderers, ← required? missing⟩

instance : Form Registry where
  write registry :=
    .object [("config", write registry.config), ("templates", write registry.templates)]
  read? form := do
    let [templates, config] ← fields? ["templates", "config"] form | none
    return ⟨← required? templates, ← required? config⟩

namespace Usage

/-- The name of a use in forms. -/
def formName : Usage → String
  | .loop => "Repeat"
  | .text => "Text"
  | .binding => "Attribute"
  | .condition => "Condition"

/-- All uses. -/
def all : List Usage :=
  [.loop, .text, .binding, .condition]

end Usage

instance : Form Usage where
  write usage := .text usage.formName
  read? := unit? (Usage.all.map fun usage => (usage.formName, usage))

instance : Form ConditionFault where
  write
    | .unknownOperator operator expression =>
      writeVariant "UnknownOperator"
        (.object [("expression", write expression), ("operator", write operator)])
    | .malformed expression tokens =>
      writeVariant "Malformed"
        (.object [("expression", write expression), ("tokens", write tokens)])
    | .unterminatedText expression =>
      writeVariant "UnterminatedString" (.object [("expression", write expression)])
  read? form := do
    let (variant, some content) ← variant? form | none
    match variant with
    | "UnknownOperator" =>
      let [operator, expression] ← variantFields? ["operator", "expression"] content | none
      return .unknownOperator (← required? operator) (← required? expression)
    | "Malformed" =>
      let [expression, tokens] ← variantFields? ["expression", "tokens"] content | none
      return .malformed (← required? expression) (← required? tokens)
    | "UnterminatedString" =>
      let [expression] ← variantFields? ["expression"] content | none
      return .unterminatedText (← required? expression)
    | _ => none

instance : Form TemplateError where
  write
    | .nameTaken name => writeVariant "TemplateExists" (.object [("template_name", write name)])
    | .unknownName name => writeVariant "MissingTemplate" (.object [("template_name", write name)])
    | .condition tag fault =>
      writeVariant "Condition" (.object [("source", write fault), ("tag", write tag)])
    | .markup error => writeVariant "Parse" (write error)
  read? form := do
    let (variant, some content) ← variant? form | none
    match variant with
    | "TemplateExists" =>
      let [name] ← variantFields? ["template_name"] content | none
      return .nameTaken (← required? name)
    | "MissingTemplate" =>
      let [name] ← variantFields? ["template_name"] content | none
      return .unknownName (← required? name)
    | "Condition" =>
      let [tag, fault] ← variantFields? ["tag", "source"] content | none
      return .condition (← required? tag) (← required? fault)
    | "Parse" => return .markup (← read? content)
    | _ => none

end Templating
