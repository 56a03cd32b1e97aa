import Templating.Markup.Reader
import Templating.Renderer.Compile
import Templating.Renderer.Reads
import Templating.Renderer.Render

/-!
# Templates

A template is compiled once, from a tree or from markup, and evaluated any number
of times. Markup with several nodes compiles as if they stood in one template
element, and markup with one node compiles as that node.
-/

namespace Templating

/-- A compiled template, with what it puts in place of missing data. -/
structure Template where
  renderers : List Renderer
  missing : Missing
deriving DecidableEq

namespace Template

/-- The template of a root node. -/
def compile (config : Config) (root : Node) : Except TemplateError Template :=
  (Renderer.compileRoot config.directives root).map fun renderers =>
    ⟨renderers, config.missing⟩

/-- The node that stands for all top-level nodes of some markup: the only one that
is not a text of blanks, or else a template element around all such nodes. -/
def rootOf (nodes : List Node) : Node :=
  match nodes.filter fun node => !Renderer.isBlankText node with
  | [root] => root
  | nodes => .element Renderer.templateTag [] nodes

/-- The template of some markup. -/
def ofMarkup (config : Config) (markup : String) : Except TemplateError Template := do
  let nodes ← (Node.parse markup).mapError .markup
  compile config (rootOf nodes)

/-- The fragment that a template yields for some data. -/
def evaluate (template : Template) (data : Value) : List Node :=
  Renderer.renderAll template.missing template.renderers data

/-- The paths that a template reads, each use once, in the order in which they
stand first. -/
def paths (template : Template) : List Read :=
  Read.distinct (Renderer.readsAll template.renderers)

end Template

end Templating
