import Templating.Condition.Basic
import Templating.Directive.Config
import Templating.Markup.Node

/-!
# Renderers

A compiled template is a forest of renderers. The renderer of an element has a
plan, which says everything about the element but its children: the shell that is
copied, and the directives in the form that evaluation needs.
-/

namespace Templating

/-- The value that an attribute of the output gets. -/
structure Binding where
  target : String
  value : Interpolation
deriving DecidableEq

/-- An element of a template without its children. Compilation leaves the shell
without children and without directives. -/
structure Plan where
  shell : Element
  loop : Option Path
  text : Option Interpolation
  condition : Option Condition
  bindings : List Binding
deriving DecidableEq

/-- A compiled node. -/
inductive Renderer
  | text (content : String)
  | element (plan : Plan) (children : List Renderer)
deriving Inhabited

namespace Renderer

mutual

/-- Equality of renderers is decidable. -/
def decEq : (left right : Renderer) → Decidable (left = right)
  | .text left, .text right => decidable_of_iff (left = right) (by simp)
  | .text _, .element _ _ | .element _ _, .text _ => isFalse (by simp)
  | .element plan children, .element plan' children' =>
    have := decEqAll children children'
    decidable_of_iff (plan = plan' ∧ children = children') (by simp)

/-- Equality of lists of renderers is decidable. -/
def decEqAll : (left right : List Renderer) → Decidable (left = right)
  | [], [] => isTrue rfl
  | [], _ :: _ | _ :: _, [] => isFalse (by simp)
  | left :: lefts, right :: rights =>
    have := decEq left right
    have := decEqAll lefts rights
    decidable_of_iff (left = right ∧ lefts = rights) (by simp)

end

instance : DecidableEq Renderer :=
  decEq

end Renderer

end Templating
