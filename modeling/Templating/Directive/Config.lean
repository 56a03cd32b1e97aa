import Templating.Interpolation
import Templating.Text.Split

/-!
# Directive attributes

Some attributes of a template are directives: their names begin with an agreed
lead. `Directives` has the spelling, and `Directives.classify?` is the one place
that says which directive a name is. A name after the lead is cut at its first
colon; what follows the colon only says whether the value is interpolated.
-/

namespace Templating

/-- How directives are spelled: what their names begin with, the names of three of
them, and what stands after a colon to ask for interpolation. -/
structure Directives where
  lead : String
  loop : String
  text : String
  condition : String
  suffix : String
deriving DecidableEq

/-- What a directive asks for: one copy of the element for each item, a text in
place of the children, a condition for the element to be there, or the value of an
attribute. -/
inductive Directive
  | loop
  | text (interpolated : Bool)
  | condition
  | binding (target : String) (interpolated : Bool)
deriving DecidableEq

namespace Directives

/-- The usual spelling. -/
def standard : Directives where
  lead := "jt-"
  loop := "foreach"
  text := "text"
  condition := "if"
  suffix := "var"

/-- The directive that a name without its lead stands for. -/
def directiveOf (directives : Directives) (word : List Char) : Directive :=
  if word = directives.loop.toList then .loop
  else if word = directives.condition.toList then .condition
  else
    let (target, interpolated) :=
      match Text.cutAt? [':'] word with
      | some (target, suffix) => (target, decide (suffix = directives.suffix.toList))
      | none => (word, false)
    if target = directives.text.toList then .text interpolated
    else .binding (String.ofList target) interpolated

/-- The directive that an attribute name is, if it is one. The lead alone is not. -/
def classify? (directives : Directives) (name : String) : Option Directive :=
  match Text.after? directives.lead.toList name.toList with
  | none => none
  | some [] => none
  | some (c :: rest) => some (directives.directiveOf (c :: rest))

end Directives

/-- What templates are compiled with. -/
structure Config where
  directives : Directives
  missing : Missing
deriving DecidableEq

namespace Config

/-- The usual directives, and nothing in place of what is missing. -/
def standard : Config where
  directives := .standard
  missing := .empty

end Config

end Templating
