import Templating.Proofs.Directive.Classify
import Templating.Proofs.Markup.RoundTrip
import Templating.Proofs.Renderer.Compilation
import Templating.Proofs.Renderer.Scope

/-!
# Reproduction

A template without directives is copied, whatever the data. `Node.pruneAll` takes the
texts of blanks from a forest, and `Template.evaluate_eq_pruneAll` says that nothing else
happens to the nodes that a root, or some markup, stands for.
-/

namespace Templating

namespace Node

mutual

/-- A node without the texts of blanks below it. -/
def prune : Node → Node
  | .text content => .text content
  | .element tag attributes children => .element tag attributes (pruneAll children)

/-- A forest without its texts of blanks at every level. -/
def pruneAll : List Node → List Node
  | [] => []
  | node :: nodes =>
    if Renderer.isBlankText node then pruneAll nodes else prune node :: pruneAll nodes

end

variable {nodes : List Node}

@[simp] theorem pruneAll_nil : pruneAll [] = [] := by
  rw [pruneAll]

/-- A text of blanks is left out. -/
theorem pruneAll_blankText {content : String} (blank : Text.allBlank content.toList = true) :
    pruneAll (.text content :: nodes) = pruneAll nodes := by
  rw [pruneAll, Renderer.isBlankText, if_pos blank]

/-- Any other text is kept. -/
theorem pruneAll_text {content : String} (filled : Text.allBlank content.toList = false) :
    pruneAll (.text content :: nodes) = .text content :: pruneAll nodes := by
  rw [pruneAll, Renderer.isBlankText, filled, prune]
  rfl

@[simp] theorem pruneAll_element {tag : String} {attributes : List Attribute}
    {children : List Node} : pruneAll (.element tag attributes children :: nodes) =
      .element tag attributes (pruneAll children) :: pruneAll nodes := by
  rw [pruneAll, Renderer.isBlankText, prune]
  rfl

end Node

namespace Plan

/-- The plan of an element that is only copied. -/
def copying (tag : String) (attributes : List Attribute) : Plan where
  shell := ⟨tag, attributes, []⟩
  loop := none
  text := none
  condition := none
  bindings := []

/-- An element without directives is only copied. -/
theorem compile_of_isPlain {directives : Directives} {tag : String} {attributes : List Attribute}
    (plain : ∀ entry ∈ attributes, directives.classify? entry.name = none) :
    compile directives tag attributes = .ok (copying tag attributes) := by
  have kept : directives.plainAttributes attributes = attributes := by
    refine List.filter_eq_self.2 fun entry member => ?_
    rw [plain entry member, Option.isNone_none]
  have noLoops : directives.loops attributes = [] := by
    refine List.filterMap_eq_nil_iff.2 fun entry member => ?_
    rw [plain entry member]
  have noTexts : directives.texts attributes = [] := by
    refine List.filterMap_eq_nil_iff.2 fun entry member => ?_
    rw [plain entry member]
  have noConditions : directives.conditions attributes = [] := by
    refine List.filterMap_eq_nil_iff.2 fun entry member => ?_
    rw [plain entry member]
  have noBindings : directives.bindings attributes = [] := by
    refine List.filterMap_eq_nil_iff.2 fun entry member => ?_
    rw [plain entry member]
  rw [compile, kept, noLoops, noTexts, noConditions, noBindings]
  rfl

end Plan

namespace Renderer

variable {directives : Directives} {nodes : List Node}

/-- A plan that only copies puts out the element once. -/
theorem render_copying {tag : String} {attributes : List Attribute} {inners : List Renderer}
    (missing : Missing) (context : Value) :
    render missing (.element (.copying tag attributes) inners) context =
      [.element tag attributes (renderAll missing inners context)] := by
  rw [render]
  rfl

/-- A forest without directives compiles, and only its texts of blanks are not put out. -/
theorem exists_compileAll_of_isPlain (plain : Node.EverywhereAll directives.IsPlain nodes) :
    ∃ renderers, compileAll directives nodes = .ok renderers ∧
      ∀ missing context, renderAll missing renderers context = Node.pruneAll nodes := by
  induction nodes using Node.forestInduction with
  | nil =>
    refine ⟨[], compileAll_nil, fun missing context => ?_⟩
    rw [renderAll, Node.pruneAll_nil]
  | text content nodes inductionHypothesis =>
    obtain ⟨others, compiled, rendered⟩ := inductionHypothesis (Node.everywhereAll_text.1 plain)
    cases blank : Text.allBlank content.toList with
    | true =>
      rw [compileAll_blankText blank, Node.pruneAll_blankText blank]
      exact ⟨others, compiled, rendered⟩
    | false =>
      rw [compileAll_text blank, Node.pruneAll_text blank, compiled]
      refine ⟨.text content :: others, rfl, fun missing context => ?_⟩
      rw [renderAll, render, rendered]
      rfl
  | element tag attributes children nodes childrenHypothesis inductionHypothesis =>
    obtain ⟨⟨here, below⟩, later⟩ := Node.everywhereAll_element.1 plain
    obtain ⟨inners, innersCompiled, innersRendered⟩ := childrenHypothesis below
    obtain ⟨others, othersCompiled, othersRendered⟩ := inductionHypothesis later
    refine ⟨.element (.copying tag attributes) inners :: others,
      compileAll_element_eq_ok_iff.2 ⟨_, inners, others, Plan.compile_of_isPlain here,
        innersCompiled, othersCompiled, rfl⟩, fun missing context => ?_⟩
    rw [renderAll, render_copying, innersRendered, othersRendered, Node.pruneAll_element]
    rfl

end Renderer

namespace Template

/-- A root without directives compiles, and for any data its output is what it stands for,
less the texts of blanks. So does markup without directives. -/
theorem evaluate_eq_pruneAll :
    (∀ directives missing root,
      Node.EverywhereAll directives.IsPlain (Renderer.content root) →
        ∃ template, compile ⟨directives, missing⟩ root = .ok template ∧
          ∀ data, template.evaluate data = Node.pruneAll (Renderer.content root)) ∧
    ∀ config markup nodes, Node.parse markup = .ok nodes →
      Node.EverywhereAll config.directives.IsPlain nodes →
        ∃ template, ofMarkup config markup = .ok template ∧
          ∀ data, template.evaluate data = Node.pruneAll (content nodes) := by
  refine ⟨?_, ?_⟩
  · intro directives missing root plain
    obtain ⟨renderers, compiled, rendered⟩ := Renderer.exists_compileAll_of_isPlain plain
    exact ⟨⟨renderers, missing⟩, compile_eq_ok_iff.2 ⟨compiled, rfl⟩, rendered missing⟩
  · intro config markup nodes parsed plain
    obtain ⟨renderers, compiled, rendered⟩ :=
      Renderer.exists_compileAll_of_isPlain (everywhereAll_content plain)
    exact ⟨⟨renderers, config.missing⟩, ofMarkup_eq_ok_iff.2 ⟨nodes, parsed, compiled, rfl⟩,
      rendered config.missing⟩

/-- A template element at the root is left out with its attributes, and one among other
nodes is not. -/
theorem evaluate_eq_pruneAll_template :
    (∃ template, compile ⟨.standard, .raw⟩ (.element "template" [⟨"jt-if", ""⟩]
        [.text "\n", .element "p" [⟨"class", "jt-if"⟩] [.text " ", .text " a "]]) = .ok template ∧
      ∀ data, template.evaluate data = [.element "p" [⟨"class", "jt-if"⟩] [.text " a "]]) ∧
    ∃ template, ofMarkup .standard "<template> <b>1</b></template>2" = .ok template ∧
      ∀ data, template.evaluate data =
        [.element "template" [] [.element "b" [] [.text "1"]], .text "2"] := by
  refine ⟨evaluate_eq_pruneAll.1 .standard .raw _ (by decide), ?_⟩
  have source : Node.IsWritable [.element "template" [] [.text " ",
      .element "b" [] [.text "1"]], .text "2"] := by decide
  have parsed := Node.parse_of_derives (Node.derives_toHtml source)
  exact evaluate_eq_pruneAll.2 .standard _ _ parsed (by decide)

end Template

end Templating
