import Templating.Condition.Evaluate
import Templating.Renderer.Basic

/-!
# Rendering

A renderer puts out the nodes of one evaluation. A condition is checked before a
loop and in the context around it; within a loop each item is the context. A text
that is there and not empty replaces the children, and bindings whose data is
absent leave the attributes of the shell as they are.
-/

namespace Templating

namespace Plan

/-- Whether the element is there in a context. -/
def isPresent (plan : Plan) (context : Value) : Bool :=
  plan.condition.all fun condition => condition.holds context

/-- The contexts in which the element is rendered: the items that its loop leads
to, none if that is not an array, or the given context without a loop. -/
def contexts (plan : Plan) (context : Value) : List Value :=
  match plan.loop with
  | none => [context]
  | some path =>
    match path.resolve? context with
    | some (.array items) => items
    | _ => []

/-- The attribute values that are there, in order. -/
def writes (plan : Plan) (missing : Missing) (context : Value) : List Attribute :=
  plan.bindings.filterMap fun binding =>
    (binding.value.evaluate context missing).text?.map fun value => ⟨binding.target, value⟩

/-- The shell with the bound attributes set. -/
def dressed (plan : Plan) (missing : Missing) (context : Value) : Element :=
  (plan.writes missing context).foldl
    (fun element entry => element.setAttribute entry.name entry.value) plan.shell

/-- The text that replaces the children, if there is one. -/
def replacement? (plan : Plan) (missing : Missing) (context : Value) : Option String :=
  plan.text.bind fun text =>
    let result := text.evaluate context missing
    if result.isTruthy then result.text? else none

end Plan

namespace Renderer

mutual

/-- The nodes that a renderer puts out. -/
def render (missing : Missing) : Renderer → Value → List Node
  | .text content, _ => [.text content]
  | .element plan children, context =>
    if plan.isPresent context then
      (plan.contexts context).map fun item =>
        let element := plan.dressed missing item
        match plan.replacement? missing item with
        | some content => (element.setText content).toNode
        | none =>
          .element element.tag element.attributes
            (element.children ++ renderAll missing children item)
    else []

/-- The nodes that some renderers put out, one after the other. -/
def renderAll (missing : Missing) : List Renderer → Value → List Node
  | [], _ => []
  | renderer :: renderers, context =>
    render missing renderer context ++ renderAll missing renderers context

end

end Renderer

end Templating
