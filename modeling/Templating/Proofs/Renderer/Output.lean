import Templating.Proofs.Directive.Classify
import Templating.Proofs.Interpolation
import Templating.Proofs.Markup.Setting
import Templating.Proofs.Renderer.Compilation
import Templating.Proofs.Renderer.Scope

/-!
# What output is made of

Every element of the output is a copy of an element of the source with its bindings
applied, and every text is one of the source or replaces children.
`Renderer.madeOf_renderAll` turns this into a rule: what holds of the copies of each
source element, and of these texts, holds throughout the output.
-/

namespace Templating

namespace Plan

variable {directives : Directives} {tag : String} {attributes : List Attribute} {plan : Plan}
  {missing : Missing} {item : Value}

/-- A copy has the tag and the children of the shell, and its attributes with what is
written. -/
theorem dressed_eq : plan.dressed missing item =
    ⟨plan.shell.tag, Attribute.setAll (plan.writes missing item) plan.shell.attributes,
      plan.shell.children⟩ :=
  Attribute.foldl_setAttribute _ _

/-- What a binding writes is shown by the attributes, unless a later binding writes it
again. -/
theorem exists_value?_setAll_writes {earlier later : List Binding} {binding : Binding}
    {content : String} (bindings : plan.bindings = earlier ++ binding :: later)
    (isThere : (binding.value.evaluate item missing).text? = some content)
    (attributes : List Attribute) :
    ∃ written, Attribute.value? binding.target
        (Attribute.setAll (plan.writes missing item) attributes) = some written ∧
      ((∀ other ∈ later, other.target ≠ binding.target) → written = content) := by
  let write := fun binding : Binding =>
    (binding.value.evaluate item missing).text?.map fun value => (⟨binding.target, value⟩ : Attribute)
  have writes : plan.writes missing item =
      earlier.filterMap write ++ ⟨binding.target, content⟩ :: later.filterMap write := by
    rw [Plan.writes, bindings, List.filterMap_append, List.filterMap_cons_some (by rw [isThere]; rfl)]
  rw [Attribute.value?_setAll, writes, List.reverse_append, List.reverse_cons, List.append_assoc,
    Attribute.value?_append, List.singleton_append, Attribute.value?_cons, if_pos rfl]
  -- The last write counts, so the ones that follow decide whether this one does.
  cases overwritten : Attribute.value? binding.target (later.filterMap write).reverse with
  | none => exact ⟨content, rfl, fun _ => rfl⟩
  | some written =>
    refine ⟨written, rfl, fun noneLater => ?_⟩
    have none : Attribute.value? binding.target (later.filterMap write).reverse = none := by
      rw [Attribute.value?_eq_none_iff]
      intro entry member
      obtain ⟨other, otherMember, isWrite⟩ := List.mem_filterMap.1 (List.mem_reverse.1 member)
      obtain ⟨value, -, rfl⟩ := Option.map_eq_some_iff.1 isWrite
      exact noneLater other otherMember
    rw [overwritten] at none
    cases none

/-- The attributes of a copy have the names under which those of the source are put out. -/
theorem forall_name_dressed {isName : String → Prop}
    (compiled : compile directives tag attributes = .ok plan)
    (areNames : ∀ entry ∈ attributes, ∀ name, directives.outputName? entry.name = some name →
      isName name) :
    ∀ entry ∈ (plan.dressed missing item).attributes, isName entry.name := by
  obtain ⟨conditions, -, rfl⟩ := compile_eq_ok_iff.1 compiled
  rw [dressed_eq]
  apply Attribute.forall_name_setAll
  · intro written writtenMember
    obtain ⟨binding, bindingMember, value⟩ := List.mem_filterMap.1 writtenMember
    obtain ⟨content, -, rfl⟩ := Option.map_eq_some_iff.1 value
    obtain ⟨entry, member, interpolated, bound, -⟩ :=
      Directives.exists_entry_of_mem_bindings bindingMember
    exact areNames entry member binding.target (by rw [Directives.outputName?, bound])
  · intro entry plainMember
    obtain ⟨member, isPlain⟩ := List.mem_filter.1 plainMember
    have unclassified := Option.isNone_iff_eq_none.1 isPlain
    exact areNames entry member entry.name (by rw [Directives.outputName?, unclassified])

/-- A text that replaces children is not empty. -/
theorem ne_empty_of_replacement? {content : String}
    (replaced : plan.replacement? missing item = some content) : content ≠ "" := by
  obtain ⟨text, -, result⟩ := Option.bind_eq_some_iff.1 replaced
  dsimp only at result
  split at result
  · next truthy =>
    obtain ⟨⟨shown, isShown, nonempty⟩, -⟩ := Interpolated.isTruthy_iff.1 truthy
    rw [isShown] at result
    cases result
    exact nonempty
  · cases result

end Plan

namespace Renderer

variable {directives : Directives} {isText : String → Prop}
  {isHead : String → List Attribute → Prop} {plan : Plan} {inners renderers : List Renderer}
  {nodes : List Node} {missing : Missing}

/-- The copies of a plan are of a kind when their attributes are, and so are the texts that
replace their children. -/
structure Yields (isText : String → Prop) (isHead : String → List Attribute → Prop)
    (missing : Missing) (plan : Plan) : Prop where
  shellIsChildless : plan.shell.children = []
  isHead : ∀ item, isHead plan.shell.tag (plan.dressed missing item).attributes
  isText : ∀ item content, plan.replacement? missing item = some content → isText content

/-- A copy is an element with the tag of the shell, and its attributes with what is
written. -/
theorem exists_copy_eq (item : Value) : ∃ children, copy missing plan inners item =
    .element plan.shell.tag
      (Attribute.setAll (plan.writes missing item) plan.shell.attributes) children := by
  rw [copy, Plan.dressed_eq]
  dsimp only
  split
  · exact ⟨_, rfl⟩
  · exact ⟨_, rfl⟩

/-- A copy is of a kind when what is below it is. -/
theorem madeOf_copy (yields : Yields isText isHead missing plan)
    (below : ∀ item, Node.MadeOf isText isHead (renderAll missing inners item)) (item : Value) :
    Node.MadeOf isText isHead [copy missing plan inners item] := by
  obtain ⟨shellIsChildless, heads, texts⟩ := yields
  have tagKept : (plan.dressed missing item).tag = plan.shell.tag := by rw [Plan.dressed_eq]
  have childless : (plan.dressed missing item).children = [] := by
    rw [Plan.dressed_eq, shellIsChildless]
  have head := heads item
  rw [← tagKept] at head
  rw [copy]
  cases replaced : plan.replacement? missing item with
  | some content => exact .element head (.text (texts item content replaced) .nil) .nil
  | none =>
    rw [childless, List.nil_append]
    exact .element head (below item) .nil

/-- An element puts out nodes of a kind when its copies are, and what is below it. -/
theorem madeOf_render (yields : Yields isText isHead missing plan)
    (below : ∀ item, Node.MadeOf isText isHead (renderAll missing inners item))
    (context : Value) :
    Node.MadeOf isText isHead (render missing (.element plan inners) context) := by
  rw [render_element]
  split
  · exact .map _ (madeOf_copy yields below)
  · exact .nil

/-- The output is of a kind when the copies of each source element are, and all texts that
are not blank. -/
theorem madeOf_renderAll (texts : ∀ content, Text.allBlank content.toList = false → isText content)
    (plans : Node.EverywhereAll (fun element => ∀ plan,
      Plan.compile directives element.tag element.attributes = .ok plan →
        Yields isText isHead missing plan) nodes)
    (compiled : compileAll directives nodes = .ok renderers) (context : Value) :
    Node.MadeOf isText isHead (renderAll missing renderers context) := by
  induction nodes using Node.forestInduction generalizing renderers context with
  | nil =>
    rw [compileAll_nil] at compiled
    cases compiled
    exact .nil
  | text content nodes inductionHypothesis =>
    have later := Node.everywhereAll_text.1 plans
    cases blank : Text.allBlank content.toList with
    | true =>
      rw [compileAll_blankText blank] at compiled
      exact inductionHypothesis later compiled context
    | false =>
      rw [compileAll_text blank] at compiled
      obtain ⟨others, othersCompiled, rfl⟩ := map_eq_ok_iff.1 compiled
      exact .text (texts content blank) (inductionHypothesis later othersCompiled context)
  | element tag attributes children nodes childrenHypothesis inductionHypothesis =>
    obtain ⟨⟨here, below⟩, later⟩ := Node.everywhereAll_element.1 plans
    obtain ⟨plan, inners, others, planCompiled, innersCompiled, othersCompiled, rfl⟩ :=
      compileAll_element_eq_ok_iff.1 compiled
    have elementMade := madeOf_render (here plan planCompiled)
      (childrenHypothesis below innersCompiled) context
    exact elementMade.append (inductionHypothesis later othersCompiled context)

/-- A plan yields the tag of its source element, the names under which the attributes are
put out, and no empty text. -/
theorem yields_of_compile {isTag isName : String → Prop} {tag : String}
    {attributes : List Attribute} (tagHolds : isTag tag)
    (areNames : ∀ entry ∈ attributes, ∀ name, directives.outputName? entry.name = some name →
      isName name)
    (compiled : Plan.compile directives tag attributes = .ok plan) :
    Yields (· ≠ "") (fun tag attributes => isTag tag ∧ ∀ entry ∈ attributes, isName entry.name)
      missing plan := by
  have names : ∀ item, ∀ entry ∈ (plan.dressed missing item).attributes, isName entry.name :=
    fun item => Plan.forall_name_dressed compiled areNames
  obtain ⟨conditions, -, rfl⟩ := Plan.compile_eq_ok_iff.1 compiled
  exact {
    shellIsChildless := rfl
    isHead := fun item => ⟨tagHolds, names item⟩
    isText := fun item content replaced => Plan.ne_empty_of_replacement? replaced }

/-- The output has the tags of the source, the names under which the attributes are put
out, and no empty text. -/
theorem madeOf_renderAll_of_names (isTag isName : String → Prop)
    (source : Node.EverywhereAll (fun element => isTag element.tag ∧
      ∀ entry ∈ element.attributes, ∀ name, directives.outputName? entry.name = some name →
        isName name) nodes)
    (compiled : compileAll directives nodes = .ok renderers) (missing : Missing)
    (context : Value) :
    Node.MadeOf (· ≠ "")
      (fun tag attributes => isTag tag ∧ ∀ entry ∈ attributes, isName entry.name)
      (renderAll missing renderers context) := by
  refine madeOf_renderAll ?_ (source.mono ?_) compiled context
  · rintro content filled rfl
    cases filled
  · rintro element ⟨tagHolds, areNames⟩ plan planCompiled
    exact yields_of_compile tagHolds areNames planCompiled

end Renderer

end Templating
