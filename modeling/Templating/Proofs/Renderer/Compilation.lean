import Templating.Proofs.Markup.Tree
import Templating.Proofs.Outcome
import Templating.Template.Basic

/-!
# Compiling forests

One equation for each kind of node says what compiling a forest does with it, and roots
are taken back to forests: `Renderer.content` has the nodes that a root stands for, and
`Template.content` those that all top-level nodes of some markup stand for. So everything
about compilation can be proved by induction over a forest, and carried over to templates
by `Template.compile_eq_ok_iff` and `Template.ofMarkup_eq_ok_iff`.
-/

namespace Templating

/-- Every binding is that of a binding directive, and has the text of its value. -/
theorem Directives.exists_entry_of_mem_bindings {directives : Directives}
    {attributes : List Attribute} {binding : Binding}
    (member : binding ∈ directives.bindings attributes) : ∃ entry ∈ attributes, ∃ interpolated,
      directives.classify? entry.name = some (.binding binding.target interpolated) ∧
        binding.value = .ofDirective interpolated entry.value := by
  obtain ⟨entry, entryMember, isBinding⟩ := List.mem_filterMap.1 member
  split at isBinding
  · next target interpolated bound =>
    cases isBinding
    exact ⟨entry, entryMember, interpolated, bound, rfl⟩
  · cases isBinding

/-- An element has a plan when its conditions are right, and it is taken apart by kind. -/
theorem Plan.compile_eq_ok_iff {directives : Directives} {tag : String}
    {attributes : List Attribute} {plan : Plan} :
    compile directives tag attributes = .ok plan ↔
      ∃ conditions, Condition.compileAll (directives.conditions attributes) = .ok conditions ∧
        plan = {
          shell := ⟨tag, directives.plainAttributes attributes, []⟩
          loop := (directives.loops attributes).getLast?
          text := (directives.texts attributes).getLast?
          condition := conditions.getLast?
          bindings := directives.bindings attributes } := by
  rw [compile, bind_eq_ok_iff]
  constructor
  · rintro ⟨conditions, compiled, same⟩
    exact ⟨conditions, compiled, (Except.ok.inj same).symm⟩
  · rintro ⟨conditions, compiled, rfl⟩
    exact ⟨conditions, compiled, rfl⟩

namespace Renderer

variable {directives : Directives} {nodes : List Node} {renderers : List Renderer}

/-- Nothing compiles to nothing. -/
theorem compileAll_nil : compileAll directives [] = .ok [] := by
  rw [compileAll]

/-- A text of blanks is passed over. -/
theorem compileAll_blankText {content : String} (blank : Text.allBlank content.toList = true) :
    compileAll directives (.text content :: nodes) = compileAll directives nodes := by
  rw [compileAll, compile, if_pos blank]
  cases compileAll directives nodes with
  | error fault => rfl
  | ok others => rfl

/-- Any other text is its own renderer. -/
theorem compileAll_text {content : String} (filled : Text.allBlank content.toList = false) :
    compileAll directives (.text content :: nodes) =
      (compileAll directives nodes).map (.text content :: ·) := by
  rw [compileAll, compile, filled]
  cases compileAll directives nodes with
  | error fault => rfl
  | ok others => rfl

/-- An element compiles when its plan, its children and what comes after it do. -/
theorem compileAll_element_eq_ok_iff {tag : String} {attributes : List Attribute}
    {children : List Node} :
    compileAll directives (.element tag attributes children :: nodes) = .ok renderers ↔
      ∃ plan inners others, Plan.compile directives tag attributes = .ok plan ∧
        compileAll directives children = .ok inners ∧ compileAll directives nodes = .ok others ∧
        renderers = .element plan inners :: others := by
  rw [compileAll, compile]
  constructor
  · intro compiled
    obtain ⟨first, firstCompiled, more⟩ := bind_eq_ok_iff.1 compiled
    obtain ⟨others, othersCompiled, same⟩ := bind_eq_ok_iff.1 more
    obtain ⟨plan, planCompiled, below⟩ := bind_eq_ok_iff.1 firstCompiled
    obtain ⟨inners, innersCompiled, sameElement⟩ := bind_eq_ok_iff.1 below
    cases sameElement
    cases same
    exact ⟨plan, inners, others, mapError_eq_ok_iff.1 planCompiled, innersCompiled,
      othersCompiled, rfl⟩
  · rintro ⟨plan, inners, others, planCompiled, innersCompiled, othersCompiled, rfl⟩
    rw [planCompiled, innersCompiled, othersCompiled]
    rfl

/-- An element fails for its own conditions, then for what is below it, and then for what comes
after it. -/
theorem compileAll_element_eq_error_iff {tag : String} {attributes : List Attribute}
    {children : List Node} {error : TemplateError} :
    compileAll directives (.element tag attributes children :: nodes) = .error error ↔
      (Plan.compile directives tag attributes).mapError (.condition tag) = .error error ∨
        (∃ plan, Plan.compile directives tag attributes = .ok plan) ∧
          (compileAll directives children = .error error ∨
            (∃ inners, compileAll directives children = .ok inners) ∧
              compileAll directives nodes = .error error) := by
  rw [compileAll, compile]
  constructor
  · intro fails
    obtain elementFails | ⟨renderer, compiled, later⟩ := bind_eq_error_iff.1 fails
    · obtain planFails | ⟨plan, planCompiled, below⟩ := bind_eq_error_iff.1 elementFails
      · exact .inl planFails
      · obtain belowFails | ⟨inners, -, same⟩ := bind_eq_error_iff.1 below
        · exact .inr ⟨⟨plan, mapError_eq_ok_iff.1 planCompiled⟩, .inl belowFails⟩
        · cases same
    · obtain ⟨plan, planCompiled, below⟩ := bind_eq_ok_iff.1 compiled
      obtain ⟨inners, innersCompiled, -⟩ := bind_eq_ok_iff.1 below
      obtain laterFails | ⟨others, -, same⟩ := bind_eq_error_iff.1 later
      · exact .inr ⟨⟨plan, mapError_eq_ok_iff.1 planCompiled⟩,
          .inr ⟨⟨inners, innersCompiled⟩, laterFails⟩⟩
      · cases same
  · rintro (planFails | ⟨⟨plan, planCompiled⟩, belowFails | ⟨⟨inners, innersCompiled⟩, laterFails⟩⟩)
    · rw [planFails]
      rfl
    · rw [planCompiled, belowFails]
      rfl
    · rw [planCompiled, innersCompiled, laterFails]
      rfl

/-- Texts of blanks do not matter. -/
theorem compileAll_filter (nodes : List Node) :
    compileAll directives (nodes.filter fun node => !isBlankText node) =
      compileAll directives nodes := by
  induction nodes with
  | nil => rfl
  | cons node nodes inductionHypothesis =>
    cases blank : isBlankText node with
    | true =>
      cases node with
      | element tag attributes children => cases blank
      | text content =>
        rw [List.filter_cons_of_neg (by simp [blank]), inductionHypothesis,
          compileAll_blankText blank]
    | false =>
      rw [List.filter_cons_of_pos (by simp [blank]), compileAll, compileAll, inductionHypothesis]

/-- One node compiles by itself as it does among others. -/
theorem compileAll_singleton (node : Node) :
    compileAll directives [node] = (compile directives node).map Option.toList := by
  rw [compileAll, compileAll]
  cases compile directives node with
  | error fault => rfl
  | ok renderer =>
    cases renderer <;> rfl

/-- Nothing but a condition can be wrong in nodes. -/
theorem exists_condition_of_compileAll {error : TemplateError}
    (fails : compileAll directives nodes = .error error) :
    ∃ tag fault, error = .condition tag fault := by
  induction nodes using Node.forestInduction generalizing error with
  | nil => cases fails
  | text content nodes inductionHypothesis =>
    cases blank : Text.allBlank content.toList with
    | true =>
      rw [compileAll_blankText blank] at fails
      exact inductionHypothesis fails
    | false =>
      rw [compileAll_text blank, map_eq_error_iff] at fails
      exact inductionHypothesis fails
  | element tag attributes children nodes childrenHypothesis inductionHypothesis =>
    obtain planFails | ⟨-, belowFails | ⟨-, laterFails⟩⟩ := compileAll_element_eq_error_iff.1 fails
    · obtain ⟨fault, -, same⟩ := mapError_eq_error_iff.1 planFails
      exact ⟨tag, fault, same.symm⟩
    · exact childrenHypothesis belowFails
    · exact inductionHypothesis laterFails

/-- The nodes that a root stands for: the children of a template element, and otherwise
the root itself. -/
def content : (root : Node) → List Node
  | .text content => [.text content]
  | .element tag attributes children =>
    if tag = "template" then children else [.element tag attributes children]

/-- The children of a template element are the nodes that it stands for, and any other root stands
for itself. -/
theorem content_eq (root : Node) : content root = (templateContent? root).getD [root] := by
  cases root with
  | text content => rfl
  | element tag attributes children =>
    rw [content, templateContent?, templateTag]
    split
    · rfl
    · rfl

/-- A root compiles as the nodes that it stands for. -/
theorem compileRoot_eq (root : Node) :
    compileRoot directives root = compileAll directives (content root) := by
  rw [compileRoot, content_eq]
  cases templateContent? root with
  | some children => rfl
  | none => exact (compileAll_singleton root).symm

/-- A template element stands for its children. -/
theorem content_template {attributes : List Attribute} :
    content (.element templateTag attributes nodes) = nodes := by
  rw [content, templateTag, if_pos rfl]

end Renderer

namespace Template

/-- The nodes that the top-level nodes of some markup stand for: the children of a
template element, if there are only blanks around it, and otherwise these nodes
themselves. -/
def content (nodes : List Node) : List Node :=
  match nodes.filter fun node => !Renderer.isBlankText node with
  | [.element tag _ children] => if tag = "template" then children else nodes
  | _ => nodes

variable {directives : Directives} {config : Config} {template : Template} {nodes : List Node}

/-- What holds everywhere in some nodes holds everywhere in those that they stand for. -/
theorem everywhereAll_content {holds : Element → Prop}
    (everywhere : Node.EverywhereAll holds nodes) : Node.EverywhereAll holds (content nodes) := by
  rw [content]
  split
  · next tag attributes children only =>
    split
    · have kept : Node.EverywhereAll holds [.element tag attributes children] := by
        rw [← only]
        exact everywhere.of_subset (fun _ member => (List.mem_filter.1 member).1)
      exact (Node.everywhereAll_element.1 kept).1.2
    · exact everywhere
  · exact everywhere

/-- Top-level nodes compile as the nodes that they stand for. -/
theorem compileRoot_rootOf (nodes : List Node) :
    Renderer.compileRoot directives (rootOf nodes) =
      Renderer.compileAll directives (content nodes) := by
  have same : Renderer.compileAll directives (nodes.filter fun node => !Renderer.isBlankText node) =
      Renderer.compileAll directives nodes := Renderer.compileAll_filter nodes
  rw [Renderer.compileRoot_eq, rootOf, content]
  generalize (nodes.filter fun node => !Renderer.isBlankText node) = kept at same ⊢
  match kept with
  | [] => exact same
  | [.text content] => exact same
  | [.element tag attributes children] =>
    simp only [Renderer.content]
    split
    · rfl
    · exact same
  | .text content :: second :: others => exact same
  | .element tag attributes children :: second :: others => exact same

/-- A root is compiled when the nodes that it stands for are. -/
theorem compile_eq_ok_iff {root : Node} : compile config root = .ok template ↔
    Renderer.compileAll config.directives (Renderer.content root) = .ok template.renderers ∧
      template.missing = config.missing := by
  rw [compile, Renderer.compileRoot_eq, map_eq_ok_iff]
  constructor
  · rintro ⟨renderers, compiled, rfl⟩
    exact ⟨compiled, rfl⟩
  · rintro ⟨compiled, same⟩
    exact ⟨template.renderers, compiled, by rw [← same]⟩

/-- Markup is compiled when the nodes that it is read as stand for nodes that are. -/
theorem ofMarkup_eq_ok_iff {markup : String} : ofMarkup config markup = .ok template ↔
    ∃ nodes, Node.parse markup = .ok nodes ∧
      Renderer.compileAll config.directives (content nodes) = .ok template.renderers ∧
      template.missing = config.missing := by
  simp only [ofMarkup, bind_eq_ok_iff, mapError_eq_ok_iff, compile, compileRoot_rootOf,
    map_eq_ok_iff]
  constructor
  · rintro ⟨nodes, parsed, renderers, compiled, rfl⟩
    exact ⟨nodes, parsed, compiled, rfl⟩
  · rintro ⟨nodes, parsed, compiled, same⟩
    exact ⟨nodes, parsed, template.renderers, compiled, by rw [← same]⟩

end Template

end Templating
