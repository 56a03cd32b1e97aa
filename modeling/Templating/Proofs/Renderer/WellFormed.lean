import Templating.Proofs.Renderer.Compilation
import Templating.Proofs.Renderer.Expression

/-!
# Well-formed renderers

What renderers are like that come from compilation: shells have no children and no
directives, no text is blank, and all expressions are as their compilation makes them.
Rendering relies on it, and `Template.isWellFormed_of_compile` and
`Template.isWellFormed_of_ofMarkup` say that it holds of every template that is compiled.
-/

namespace Templating

namespace Directives

variable {directives : Directives} {attributes : List Attribute}

/-- Every loop directive has a path to go over. -/
theorem isLoop_of_mem_loops {path : Path} (member : path ∈ directives.loops attributes) :
    path.IsLoop := by
  obtain ⟨entry, -, isLoop⟩ := List.mem_filterMap.1 member
  split at isLoop
  · cases isLoop
    exact Path.isLoop_ofLoop entry.value
  · cases isLoop

/-- Every text directive has a well-formed text. -/
theorem isWellFormed_of_mem_texts {text : Interpolation}
    (member : text ∈ directives.texts attributes) : text.IsWellFormed := by
  obtain ⟨entry, -, isText⟩ := List.mem_filterMap.1 member
  split at isText
  · cases isText
    exact Interpolation.isWellFormed_ofDirective _ entry.value
  · cases isText

/-- Every binding has a well-formed text. -/
theorem isWellFormed_of_mem_bindings {binding : Binding}
    (member : binding ∈ directives.bindings attributes) : binding.value.IsWellFormed := by
  obtain ⟨entry, -, interpolated, -, value⟩ := exists_entry_of_mem_bindings member
  rw [value]
  exact Interpolation.isWellFormed_ofDirective interpolated entry.value

end Directives

namespace Plan

/-- A plan as compilation makes it. -/
structure IsWellFormed (directives : Directives) (plan : Plan) : Prop where
  childless : plan.shell.children = []
  undirected : ∀ entry ∈ plan.shell.attributes, directives.classify? entry.name = none
  loop : ∀ path ∈ plan.loop, path.IsLoop
  text : ∀ text ∈ plan.text, text.IsWellFormed
  condition : ∀ condition ∈ plan.condition, condition.IsWellFormed
  bindings : ∀ binding ∈ plan.bindings, binding.value.IsWellFormed

/-- The plan of an element is well-formed. -/
theorem isWellFormed_of_compile {directives : Directives} {tag : String}
    {attributes : List Attribute} {plan : Plan}
    (compiled : compile directives tag attributes = .ok plan) : plan.IsWellFormed directives := by
  obtain ⟨conditions, conditionsCompiled, rfl⟩ := compile_eq_ok_iff.1 compiled
  refine ⟨rfl, ?undirected, ?loop, ?text, ?condition, ?bindings⟩
  case undirected =>
    intro entry member
    exact Option.isNone_iff_eq_none.1 (List.mem_filter.1 member).2
  case loop =>
    intro path isLast
    exact Directives.isLoop_of_mem_loops (List.mem_of_getLast? isLast)
  case text =>
    intro text isLast
    exact Directives.isWellFormed_of_mem_texts (List.mem_of_getLast? isLast)
  case condition =>
    intro condition isLast
    exact Condition.isWellFormed_of_compileAll conditionsCompiled condition
      (List.mem_of_getLast? isLast)
  case bindings =>
    intro binding member
    exact Directives.isWellFormed_of_mem_bindings member

end Plan

namespace Renderer

variable {directives : Directives} {renderers : List Renderer}

/-- Renderers as compilation makes them, at every level. -/
inductive AllWellFormed (directives : Directives) : List Renderer → Prop
  | nil : AllWellFormed directives []
  | text {content : String} {renderers : List Renderer}
      (filled : Text.allBlank content.toList = false)
      (later : AllWellFormed directives renderers) :
      AllWellFormed directives (.text content :: renderers)
  | element {plan : Plan} {children renderers : List Renderer}
      (here : plan.IsWellFormed directives) (below : AllWellFormed directives children)
      (later : AllWellFormed directives renderers) :
      AllWellFormed directives (.element plan children :: renderers)

/-- Compiled renderers are well-formed. -/
theorem allWellFormed_of_compileAll {nodes : List Node}
    (compiled : compileAll directives nodes = .ok renderers) :
    AllWellFormed directives renderers := by
  induction nodes using Node.forestInduction generalizing renderers with
  | nil =>
    rw [compileAll_nil] at compiled
    cases compiled
    exact .nil
  | text content nodes inductionHypothesis =>
    cases blank : Text.allBlank content.toList with
    | true =>
      rw [compileAll_blankText blank] at compiled
      exact inductionHypothesis compiled
    | false =>
      rw [compileAll_text blank] at compiled
      obtain ⟨others, othersCompiled, rfl⟩ := map_eq_ok_iff.1 compiled
      exact .text blank (inductionHypothesis othersCompiled)
  | element tag attributes children nodes childrenHypothesis inductionHypothesis =>
    obtain ⟨plan, inners, others, planCompiled, innersCompiled, othersCompiled, rfl⟩ :=
      compileAll_element_eq_ok_iff.1 compiled
    exact .element (Plan.isWellFormed_of_compile planCompiled)
      (childrenHypothesis innersCompiled) (inductionHypothesis othersCompiled)

end Renderer

namespace Template

variable {config : Config} {template : Template}

/-- A template as compilation with a configuration makes it. -/
structure IsWellFormed (config : Config) (template : Template) : Prop where
  renderers : Renderer.AllWellFormed config.directives template.renderers
  missing : template.missing = config.missing

/-- The template of a root is well-formed. -/
theorem isWellFormed_of_compile {root : Node} (compiled : compile config root = .ok template) :
    template.IsWellFormed config := by
  obtain ⟨renderersCompiled, missing⟩ := compile_eq_ok_iff.1 compiled
  exact ⟨Renderer.allWellFormed_of_compileAll renderersCompiled, missing⟩

/-- The template of some markup is well-formed. -/
theorem isWellFormed_of_ofMarkup {markup : String}
    (compiled : ofMarkup config markup = .ok template) : template.IsWellFormed config := by
  obtain ⟨nodes, -, renderersCompiled, missing⟩ := ofMarkup_eq_ok_iff.1 compiled
  exact ⟨Renderer.allWellFormed_of_compileAll renderersCompiled, missing⟩

end Template

end Templating
