import Templating.Condition.Compile
import Templating.Renderer.Basic
import Templating.Template.Error

/-!
# Compiling renderers

Compilation turns each element into a renderer with the same children in the same
order, less the texts that hold blanks only. An element's attributes are taken
apart by kind: the plain ones stay in the shell, bindings are kept in order, and of
each other kind the last one counts. All conditions of an element are read, so that
one which a later one overrides is still refused.
-/

namespace Templating

namespace Interpolation

/-- The text that a directive's value describes. -/
def ofDirective (interpolated : Bool) (value : String) : Interpolation :=
  if interpolated then compile value else ofExpression value

end Interpolation

namespace Path

/-- The path that a loop's value names; a blank one is the datum itself. -/
def ofLoop (value : String) : Path :=
  let trimmed := Text.trim value.toList
  if trimmed = [] then .ofText itself else .ofText (String.ofList trimmed)

end Path

namespace Directives

variable (directives : Directives)

/-- The attributes that are not directives. -/
def plainAttributes (attributes : List Attribute) : List Attribute :=
  attributes.filter fun entry => (directives.classify? entry.name).isNone

/-- The paths of the loop directives. -/
def loops (attributes : List Attribute) : List Path :=
  attributes.filterMap fun entry =>
    match directives.classify? entry.name with
    | some .loop => some (.ofLoop entry.value)
    | _ => none

/-- The texts of the text directives. -/
def texts (attributes : List Attribute) : List Interpolation :=
  attributes.filterMap fun entry =>
    match directives.classify? entry.name with
    | some (.text interpolated) => some (.ofDirective interpolated entry.value)
    | _ => none

/-- The expressions of the condition directives. -/
def conditions (attributes : List Attribute) : List String :=
  attributes.filterMap fun entry =>
    match directives.classify? entry.name with
    | some .condition => some entry.value
    | _ => none

/-- The bindings of the remaining directives. -/
def bindings (attributes : List Attribute) : List Binding :=
  attributes.filterMap fun entry =>
    match directives.classify? entry.name with
    | some (.binding target interpolated) =>
      some ⟨target, .ofDirective interpolated entry.value⟩
    | _ => none

end Directives

namespace Condition

/-- Reads expressions in order, up to the first that is wrong. -/
def compileAll : List String → Except ConditionFault (List Condition)
  | [] => .ok []
  | expression :: expressions => do
    let condition ← compile expression
    let conditions ← compileAll expressions
    return condition :: conditions

end Condition

namespace Plan

/-- The plan of an element. -/
def compile (directives : Directives) (tag : String) (attributes : List Attribute) :
    Except ConditionFault Plan := do
  let conditions ← Condition.compileAll (directives.conditions attributes)
  return {
    shell := ⟨tag, directives.plainAttributes attributes, []⟩
    loop := (directives.loops attributes).getLast?
    text := (directives.texts attributes).getLast?
    condition := conditions.getLast?
    bindings := directives.bindings attributes }

end Plan

namespace Renderer

/-- Whether a node is a text of blanks only, which no renderer is made for. -/
def isBlankText : Node → Bool
  | .text content => Text.allBlank content.toList
  | .element _ _ _ => false

mutual

/-- The renderer of a node, unless it is a text of blanks only. -/
def compile (directives : Directives) : Node → Except TemplateError (Option Renderer)
  | .text content =>
    .ok (if Text.allBlank content.toList then none else some (.text content))
  | .element tag attributes children => do
    let plan ← (Plan.compile directives tag attributes).mapError (.condition tag)
    let renderers ← compileAll directives children
    return some (.element plan renderers)

/-- The renderers of some nodes, up to the first wrong condition. -/
def compileAll (directives : Directives) : List Node → Except TemplateError (List Renderer)
  | [] => .ok []
  | node :: nodes => do
    let renderer ← compile directives node
    let renderers ← compileAll directives nodes
    return renderer.toList ++ renderers

end

/-- The tag of the element that stands for its children at the root of a template. -/
def templateTag : String :=
  "template"

/-- The children of a template element. -/
def templateContent? : Node → Option (List Node)
  | .element tag _ children => if tag = templateTag then some children else none
  | .text _ => none

/-- The renderers of a template's root: those of the children of a template element,
and otherwise that of the root itself. -/
def compileRoot (directives : Directives) (root : Node) :
    Except TemplateError (List Renderer) :=
  match templateContent? root with
  | some children => compileAll directives children
  | none => (compile directives root).map Option.toList

end Renderer

end Templating
