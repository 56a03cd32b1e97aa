import Templating.Catalog
import Templating.Template.Basic

/-!
# Registries

A registry holds templates by name, all compiled with one configuration. A name is
given once: adding to it again is refused before the new content is looked at, and
content that does not compile leaves the name free.
-/

namespace Templating

/-- Templates by name. -/
structure Registry where
  templates : Catalog Template
  config : Config

namespace Registry

/-- A registry without templates. -/
def ofConfig (config : Config) : Registry :=
  ⟨.empty, config⟩

/-- The template of a name. -/
def template? (registry : Registry) (name : String) : Option Template :=
  registry.templates.find? name

/-- Puts a template, or the error instead of it, under a name that is free. -/
def register (registry : Registry) (name : String) (compiled : Except TemplateError Template) :
    Except TemplateError Registry :=
  match registry.template? name with
  | some _ => .error (.nameTaken name)
  | none =>
    compiled.map fun template =>
      { registry with templates := registry.templates.insert name template }

/-- Compiles markup under a name. -/
def addMarkup (registry : Registry) (name markup : String) : Except TemplateError Registry :=
  registry.register name (Template.ofMarkup registry.config markup)

/-- Compiles a tree under a name. -/
def addNode (registry : Registry) (name : String) (root : Node) :
    Except TemplateError Registry :=
  registry.register name (Template.compile registry.config root)

/-- Evaluates the template of a name. -/
def render (registry : Registry) (name : String) (data : Value) :
    Except TemplateError (List Node) :=
  match registry.template? name with
  | none => .error (.unknownName name)
  | some template => .ok (template.evaluate data)

/-- The paths that the template of a name reads; none if there is no such template. -/
def paths (registry : Registry) (name : String) : List Read :=
  match registry.template? name with
  | none => []
  | some template => template.paths

end Registry

end Templating
