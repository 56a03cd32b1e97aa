import Mathlib.Data.List.Forall2
import Templating.Proofs.Renderer.Compilation
import Templating.Proofs.Renderer.Fault
import Templating.Proofs.Text.Run

/-!
# Sources and their renderers

Compilation fails with the first wrong condition of the source in document order, and with
nothing else. Otherwise the renderers follow the source: `Renderer.Follows` says what this
means for the shape of a forest, and `Plan.Follows` for the attributes of an element.
`Renderer.compileRoot_follows` has both.
-/

namespace Templating

open WrittenCondition

/-- What the last attribute that gives anything gives. -/
inductive LastOf {α : Type} (gives : Attribute → Option α) : List Attribute → Option α → Prop
  | none {attributes : List Attribute} (nothing : ∀ entry ∈ attributes, gives entry = .none) :
      LastOf gives attributes .none
  | some (before : List Attribute) {after : List Attribute} {entry : Attribute} {value : α}
      (given : gives entry = .some value) (nothingAfter : ∀ other ∈ after, gives other = .none) :
      LastOf gives (before ++ entry :: after) (.some value)

section LastOf

variable {α : Type} {gives : Attribute → Option α} {attributes : List Attribute} {last : Option α}

/-- The last thing that attributes give is the last one of all that they give. -/
theorem LastOf.eq (isLast : LastOf gives attributes last) :
    last = (attributes.filterMap gives).getLast? := by
  cases isLast with
  | none nothing => rw [List.filterMap_eq_nil_iff.2 nothing, List.getLast?_nil]
  | some before given nothingAfter =>
    rw [List.filterMap_append, List.filterMap_cons_some given,
      List.filterMap_eq_nil_iff.2 nothingAfter, List.getLast?_concat]

/-- Attributes give nothing, or one of them is the last that gives something. -/
theorem exists_lastOf (gives : Attribute → Option α) (attributes : List Attribute) :
    ∃ last, LastOf gives attributes last := by
  induction attributes with
  | nil => exact ⟨none, .none (List.forall_mem_nil _)⟩
  | cons entry entries inductionHypothesis =>
    obtain ⟨last, isLast⟩ := inductionHypothesis
    cases isLast with
    | some before given nothingAfter => exact ⟨_, .some (entry :: before) given nothingAfter⟩
    | none nothing =>
      cases given : gives entry with
      | none => exact ⟨none, .none (List.forall_mem_cons.2 ⟨given, nothing⟩)⟩
      | some value => exact ⟨some value, .some [] given nothing⟩

/-- Whether something is the last of what attributes give can be computed. -/
theorem lastOf_iff :
    LastOf gives attributes last ↔ last = (attributes.filterMap gives).getLast? := by
  constructor
  · exact LastOf.eq
  · rintro rfl
    obtain ⟨last, isLast⟩ := exists_lastOf gives attributes
    exact isLast.eq ▸ isLast

end LastOf

namespace Directives

variable (directives : Directives)

/-- The conditions of an element, in the order of its attributes. -/
def writtenConditions (tag : String) (attributes : List Attribute) : List WrittenCondition :=
  (attributes.filter fun entry => directives.classify? entry.name = some .condition).map
    fun entry => ⟨tag, entry.value⟩

/-- The path that an attribute gives to a loop. -/
def loopOf (entry : Attribute) : Option Path :=
  match directives.classify? entry.name with
  | some .loop => some (.ofLoop entry.value)
  | _ => none

/-- The text that an attribute gives in place of the children. -/
def textOf (entry : Attribute) : Option Interpolation :=
  match directives.classify? entry.name with
  | some (.text interpolated) => some (.ofDirective interpolated entry.value)
  | _ => none

/-- The condition that an attribute gives, or what is wrong with it. -/
def conditionOf (entry : Attribute) : Option (Except ConditionFault Condition) :=
  if directives.classify? entry.name = some .condition then some (Condition.compile entry.value)
  else none

/-- Whether an attribute gives an element a binding. -/
def isBinding (entry : Attribute) : Bool :=
  match directives.classify? entry.name with
  | some (.binding _ _) => true
  | _ => false

/-- The attribute gives an element this binding. -/
def GivesBinding (entry : Attribute) (binding : Binding) : Prop :=
  ∃ interpolated, directives.classify? entry.name = some (.binding binding.target interpolated) ∧
    binding.value = .ofDirective interpolated entry.value

variable {directives} {tag : String} {attributes : List Attribute}

/-- The plain attributes of an element are those that are no directives. -/
theorem plainAttributes_eq : directives.plainAttributes attributes =
    attributes.filter fun entry => directives.classify? entry.name = none :=
  List.filter_congr fun entry _ => by cases directives.classify? entry.name <;> rfl

/-- The expressions of an element are the values of its condition directives. -/
theorem conditions_eq : directives.conditions attributes = attributes.filterMap fun entry =>
    if directives.classify? entry.name = some .condition then some entry.value else none := by
  refine List.filterMap_congr fun entry _ => ?_
  split
  · next isCondition => rw [if_pos isCondition]
  · next notCondition => rw [if_neg notCondition]

/-- The conditions of an element are written as its expressions. -/
theorem writtenConditions_eq : directives.writtenConditions tag attributes =
    (directives.conditions attributes).map (WrittenCondition.mk tag) := by
  rw [writtenConditions, conditions_eq, List.map_filterMap, ← List.filterMap_eq_map',
    List.filterMap_filter]
  refine List.filterMap_congr fun entry _ => ?_
  by_cases isCondition : directives.classify? entry.name = some .condition
  · simp [isCondition]
  · simp [isCondition]

/-- The conditions that the attributes give are those of the expressions. -/
theorem filterMap_conditionOf : attributes.filterMap directives.conditionOf =
    (directives.conditions attributes).map Condition.compile := by
  rw [conditions_eq, List.map_filterMap]
  refine List.filterMap_congr fun entry _ => ?_
  by_cases isCondition : directives.classify? entry.name = some .condition
  · simp [conditionOf, isCondition]
  · simp [conditionOf, isCondition]

/-- The last condition that the attributes give is that of the last expression. -/
theorem lastOf_conditionOf_iff {conditions : List Condition} {condition : Option Condition}
    (compiled : Condition.compileAll (directives.conditions attributes) = .ok conditions) :
    LastOf directives.conditionOf attributes (condition.map .ok) ↔
      condition = conditions.getLast? := by
  rw [lastOf_iff, filterMap_conditionOf, Condition.compileAll_eq_ok_iff.1 compiled,
    List.getLast?_map, Option.map_inj_right fun _ _ => Except.ok.inj]

/-- An attribute gives a binding when its name says so. -/
theorem isBinding_iff {entry : Attribute} : directives.isBinding entry = true ↔
    ∃ target interpolated,
      directives.classify? entry.name = some (.binding target interpolated) := by
  rw [isBinding]
  split
  · next target interpolated asked => exact iff_of_true rfl ⟨target, interpolated, asked⟩
  · next notAsked =>
    refine iff_of_false Bool.false_ne_true ?_
    rintro ⟨target, interpolated, asked⟩
    exact notAsked target interpolated asked

/-- An attribute gives one binding at most. -/
theorem givesBinding_iff {entry : Attribute} {target : String} {interpolated : Bool}
    {binding : Binding}
    (asked : directives.classify? entry.name = some (.binding target interpolated)) :
    directives.GivesBinding entry binding ↔
      binding = ⟨target, .ofDirective interpolated entry.value⟩ := by
  constructor
  · rintro ⟨same, kind, value⟩
    cases asked.symm.trans kind
    rw [← value]
  · rintro rfl
    exact ⟨interpolated, asked, rfl⟩

/-- The bindings of an element are what its binding directives give, in their order. -/
theorem forall₂_givesBinding_iff {found : List Binding} :
    List.Forall₂ directives.GivesBinding (attributes.filter directives.isBinding) found ↔
      found = directives.bindings attributes := by
  induction attributes generalizing found with
  | nil => exact List.forall₂_nil_left_iff
  | cons entry entries inductionHypothesis =>
    rw [bindings, List.filterMap_cons, ← bindings]
    split
    · next notAsked =>
      rw [List.filter_cons_of_neg, inductionHypothesis]
      rw [isBinding_iff]
      rintro ⟨target, interpolated, asked⟩
      rw [asked] at notAsked
      cases notAsked
    · next binding asked =>
      split at asked
      · next target interpolated kind =>
        cases asked
        rw [List.filter_cons_of_pos (isBinding_iff.2 ⟨target, interpolated, kind⟩)]
        simp only [List.forall₂_cons_left_iff, givesBinding_iff kind, inductionHypothesis,
          exists_and_left, exists_eq_left]
      · cases asked

end Directives

/-- The plan of an element has what its attributes say: the plain attributes and the bindings in
their order, and of each other kind of directive the last one. -/
structure Plan.Follows (directives : Directives) (tag : String) (attributes : List Attribute)
    (plan : Plan) : Prop where
  shell : plan.shell =
    ⟨tag, attributes.filter fun entry => directives.classify? entry.name = none, []⟩
  loop : LastOf directives.loopOf attributes plan.loop
  text : LastOf directives.textOf attributes plan.text
  condition : LastOf directives.conditionOf attributes (plan.condition.map .ok)
  bindings : List.Forall₂ directives.GivesBinding (attributes.filter directives.isBinding)
    plan.bindings

namespace Plan

variable {directives : Directives} {tag : String} {attributes : List Attribute}

/-- An element is refused for the first wrong one of its conditions. -/
theorem compile_eq_error_iff {error : TemplateError} :
    (compile directives tag attributes).mapError (.condition tag) = .error error ↔
      FirstFault (directives.writtenConditions tag attributes) error := by
  have same (fault : ConditionFault) : compile directives tag attributes = .error fault ↔
      Condition.compileAll (directives.conditions attributes) = .error fault := by
    rw [compile, bind_eq_error_iff, or_iff_left]
    rintro ⟨conditions, -, same⟩
    cases same
  rw [Directives.writtenConditions_eq, ← Condition.compileAll_eq_error_iff]
  simp only [mapError_eq_error_iff, same]

/-- An element has a plan when its conditions are right. -/
theorem exists_compile_iff : (∃ plan, compile directives tag attributes = .ok plan) ↔
    ∀ condition ∈ directives.writtenConditions tag attributes, condition.IsRight := by
  rw [← exists_ok_iff fun _ => compile_eq_error_iff]
  simp only [mapError_eq_ok_iff]

/-- A plan follows an element when it is put together from what compilation takes from the
attributes. -/
theorem follows_iff {plan : Plan} {conditions : List Condition}
    (compiled : Condition.compileAll (directives.conditions attributes) = .ok conditions) :
    plan.Follows directives tag attributes ↔ plan = {
      shell := ⟨tag, directives.plainAttributes attributes, []⟩
      loop := (directives.loops attributes).getLast?
      text := (directives.texts attributes).getLast?
      condition := conditions.getLast?
      bindings := directives.bindings attributes } := by
  rw [Directives.plainAttributes_eq]
  constructor
  · intro follows
    obtain ⟨shell, loop, text, condition, bindings⟩ := plan
    rw [Plan.mk.injEq]
    exact ⟨follows.shell, lastOf_iff.1 follows.loop, lastOf_iff.1 follows.text,
      (Directives.lastOf_conditionOf_iff compiled).1 follows.condition,
      Directives.forall₂_givesBinding_iff.1 follows.bindings⟩
  · rintro rfl
    exact ⟨rfl, lastOf_iff.2 rfl, lastOf_iff.2 rfl,
      (Directives.lastOf_conditionOf_iff compiled).2 rfl,
      Directives.forall₂_givesBinding_iff.2 rfl⟩

/-- An element has a plan when its conditions are right, and the plan follows it. -/
theorem compile_eq_ok_iff_follows {plan : Plan} : compile directives tag attributes = .ok plan ↔
    (∀ condition ∈ directives.writtenConditions tag attributes, condition.IsRight) ∧
      plan.Follows directives tag attributes := by
  rw [compile_eq_ok_iff, Directives.writtenConditions_eq, ← Condition.exists_compileAll_iff]
  constructor
  · rintro ⟨conditions, compiled, same⟩
    exact ⟨⟨conditions, compiled⟩, (follows_iff compiled).2 same⟩
  · rintro ⟨⟨conditions, compiled⟩, follows⟩
    exact ⟨conditions, compiled, (follows_iff compiled).1 follows⟩

end Plan

namespace Node

mutual

/-- The conditions of a node in document order: those of an element stand before those of what
is below it. -/
def conditions (directives : Directives) : Node → List WrittenCondition
  | .text _ => []
  | .element tag attributes children =>
    directives.writtenConditions tag attributes ++ conditionsAll directives children

/-- The conditions of some nodes in document order. -/
def conditionsAll (directives : Directives) : List Node → List WrittenCondition
  | [] => []
  | node :: nodes => conditions directives node ++ conditionsAll directives nodes

end

variable {directives : Directives} {nodes : List Node}

@[simp] theorem conditionsAll_nil : conditionsAll directives [] = [] := by
  rw [conditionsAll]

@[simp] theorem conditionsAll_text {content : String} :
    conditionsAll directives (.text content :: nodes) = conditionsAll directives nodes := by
  rw [conditionsAll, conditions, List.nil_append]

@[simp] theorem conditionsAll_element {tag : String} {attributes : List Attribute}
    {children : List Node} :
    conditionsAll directives (.element tag attributes children :: nodes) =
      directives.writtenConditions tag attributes ++
        (conditionsAll directives children ++ conditionsAll directives nodes) := by
  rw [conditionsAll, conditions, List.append_assoc]

example : conditionsAll .standard
      [.element "ul" [⟨"jt-if", "a"⟩]
        [.element "li" [⟨"jt-if", "b"⟩, ⟨"class", "item"⟩, ⟨"jt-if", "c"⟩] []],
      .element "p" [⟨"jt-if", "d"⟩] []] =
    [⟨"ul", "a"⟩, ⟨"li", "b"⟩, ⟨"li", "c"⟩, ⟨"p", "d"⟩] := by
  decide +kernel

end Node

namespace Renderer

/-- Renderers follow nodes: texts of blanks are passed over, any other text is kept as it is, and
an element has a plan that follows it and renderers that follow its children. -/
inductive Follows (directives : Directives) : List Node → List Renderer → Prop
  | nil : Follows directives [] []
  | blank {content : String} {nodes : List Node} {renderers : List Renderer}
      (areBlank : Text.Blanks content.toList) (later : Follows directives nodes renderers) :
      Follows directives (.text content :: nodes) renderers
  | text {content : String} {nodes : List Node} {renderers : List Renderer}
      (filled : ¬ Text.Blanks content.toList)
      (later : Follows directives nodes renderers) :
      Follows directives (.text content :: nodes) (.text content :: renderers)
  | element {tag : String} {attributes : List Attribute} {children nodes : List Node} {plan : Plan}
      {inners renderers : List Renderer} (here : plan.Follows directives tag attributes)
      (below : Follows directives children inners) (later : Follows directives nodes renderers) :
      Follows directives (.element tag attributes children :: nodes)
        (.element plan inners :: renderers)

variable {directives : Directives} {nodes : List Node} {renderers : List Renderer}
  {error : TemplateError}

/-- Nodes are refused for the first wrong one of their conditions. -/
theorem compileAll_eq_error_iff : compileAll directives nodes = .error error ↔
    FirstFault (Node.conditionsAll directives nodes) error := by
  induction nodes using Node.forestInduction generalizing error with
  | nil =>
    rw [compileAll_nil, Node.conditionsAll_nil]
    exact iff_of_false nofun not_firstFault_nil
  | text content nodes inductionHypothesis =>
    rw [Node.conditionsAll_text, ← inductionHypothesis]
    cases blank : Text.allBlank content.toList with
    | true => rw [compileAll_blankText blank]
    | false => rw [compileAll_text blank, map_eq_error_iff]
  | element tag attributes children nodes childrenHypothesis inductionHypothesis =>
    rw [compileAll_element_eq_error_iff, Plan.compile_eq_error_iff, Plan.exists_compile_iff,
      exists_ok_iff fun _ => childrenHypothesis, childrenHypothesis, inductionHypothesis,
      Node.conditionsAll_element, firstFault_append_iff, firstFault_append_iff]

/-- Nodes are compiled when all their conditions are right, and the renderers follow them. -/
theorem compileAll_eq_ok_iff : compileAll directives nodes = .ok renderers ↔
    (∀ condition ∈ Node.conditionsAll directives nodes, condition.IsRight) ∧
      Follows directives nodes renderers := by
  induction nodes using Node.forestInduction generalizing renderers with
  | nil =>
    rw [compileAll_nil, Node.conditionsAll_nil]
    constructor
    · intro same
      cases same
      exact ⟨List.forall_mem_nil _, .nil⟩
    · rintro ⟨-, follows⟩
      cases follows
      rfl
  | text content nodes inductionHypothesis =>
    rw [Node.conditionsAll_text]
    by_cases areBlank : Text.Blanks content.toList
    · rw [compileAll_blankText (List.all_eq_true.2 areBlank), inductionHypothesis]
      refine and_congr_right fun _ => ⟨.blank areBlank, fun follows => ?_⟩
      cases follows with
      | blank _ later => exact later
      | text filled _ => exact absurd areBlank filled
    · have filled : Text.allBlank content.toList = false :=
        Bool.eq_false_iff.2 (mt List.all_eq_true.1 areBlank)
      rw [compileAll_text filled, map_eq_ok_iff]
      constructor
      · rintro ⟨others, compiled, rfl⟩
        obtain ⟨right, later⟩ := inductionHypothesis.1 compiled
        exact ⟨right, .text areBlank later⟩
      · rintro ⟨right, follows⟩
        cases follows with
        | blank blank _ => exact absurd blank areBlank
        | text _ later => exact ⟨_, inductionHypothesis.2 ⟨right, later⟩, rfl⟩
  | element tag attributes children nodes childrenHypothesis inductionHypothesis =>
    rw [compileAll_element_eq_ok_iff, Node.conditionsAll_element, List.forall_mem_append,
      List.forall_mem_append]
    constructor
    · rintro ⟨plan, inners, others, planCompiled, innersCompiled, othersCompiled, rfl⟩
      obtain ⟨hereRight, here⟩ := Plan.compile_eq_ok_iff_follows.1 planCompiled
      obtain ⟨belowRight, below⟩ := childrenHypothesis.1 innersCompiled
      obtain ⟨laterRight, later⟩ := inductionHypothesis.1 othersCompiled
      exact ⟨⟨hereRight, belowRight, laterRight⟩, .element here below later⟩
    · rintro ⟨⟨hereRight, belowRight, laterRight⟩, follows⟩
      cases follows with
      | element here below later =>
        exact ⟨_, _, _, Plan.compile_eq_ok_iff_follows.2 ⟨hereRight, here⟩,
          childrenHypothesis.2 ⟨belowRight, below⟩, inductionHypothesis.2 ⟨laterRight, later⟩, rfl⟩

/-- A root is refused exactly when some condition in what it stands for is wrong, and for the
first such condition in document order. Otherwise it has the renderers that follow what it
stands for. -/
theorem compileRoot_follows (directives : Directives) (root : Node) :
    ((∃ error, compileRoot directives root = .error error) ↔
      ∃ condition ∈ Node.conditionsAll directives (content root), ∃ fault,
        Condition.compile condition.expression = .error fault) ∧
    (∀ error, compileRoot directives root = .error error ↔
      FirstFault (Node.conditionsAll directives (content root)) error) ∧
    ∀ renderers, compileRoot directives root = .ok renderers ↔
      (∀ condition ∈ Node.conditionsAll directives (content root), condition.IsRight) ∧
        Follows directives (content root) renderers := by
  rw [compileRoot_eq]
  refine ⟨?wrong, fun error => compileAll_eq_error_iff, fun renderers => compileAll_eq_ok_iff⟩
  case wrong =>
    rw [← exists_firstFault_iff]
    exact exists_congr fun error => compileAll_eq_error_iff

/-- A template root has a wrong condition of its own, which does not count. Its children are
compiled: blanks are passed over, another template element is kept, and the last directive of
each kind counts. A wrong condition counts although another one overrides it, and before one that
stands behind it. -/
theorem compileRoot_follows_template :
    compileRoot .standard (.element "template" [⟨"class", "a"⟩, ⟨"jt-if", "a"⟩]
      [.text " \n",
      .element "p" [⟨"jt-if", "a eq b"⟩, ⟨"class", "c"⟩, ⟨"jt-title", "a"⟩, ⟨"jt-text", "a"⟩,
        ⟨"jt-foreach", "a"⟩, ⟨"jt-if", "b gt 'c'"⟩, ⟨"id", "d"⟩, ⟨"jt-foreach", " b.c "⟩,
        ⟨"jt-title:var", "{{ a }}!"⟩, ⟨"jt-text", "b"⟩] [.text " kept "],
      .element "template" [⟨"jt-foreach", ""⟩] [.text "below"]]) =
      .ok [.element
        { shell := ⟨"p", [⟨"class", "c"⟩, ⟨"id", "d"⟩], []⟩
          loop := some ⟨"b.c", ["b", "c"]⟩
          text := some ⟨[.path ⟨"b", ["b"]⟩]⟩
          condition := some ⟨⟨"b", ["b"]⟩, .greater, .literal (.text "c")⟩
          bindings := [⟨"title", ⟨[.path ⟨"a", ["a"]⟩]⟩⟩,
            ⟨"title", ⟨[.path ⟨"a", ["a"]⟩, .literal "!"]⟩⟩] } [.text " kept "],
      .element
        { shell := ⟨"template", [], []⟩
          loop := some ⟨".", []⟩
          text := none
          condition := none
          bindings := [] } [.text "below"]] ∧
    compileRoot .standard (.element "template" [⟨"jt-if", "a"⟩]
      [.element "ul" [⟨"jt-if", "a eq b"⟩]
        [.element "li" [⟨"jt-if", "a eq"⟩, ⟨"jt-if", "a eq b"⟩] []],
      .element "p" [⟨"jt-if", "a = b"⟩] []]) =
      .error (.condition "li" (.malformed "a eq" 2)) := by
  constructor
  · refine ((compileRoot_follows _ _).2.2 _).2 ⟨?_, ?_⟩
    · change ∀ condition ∈ [⟨"p", "a eq b"⟩, ⟨"p", "b gt 'c'"⟩], WrittenCondition.IsRight condition
      exact List.forall_mem_cons.2 ⟨⟨_, rfl⟩, List.forall_mem_singleton.2 ⟨_, rfl⟩⟩
    · rw [content, if_pos rfl]
      refine .blank (by decide) (.element ?paragraph (.text (by decide) .nil)
        (.element ?template (.text (by decide) .nil) .nil))
      case paragraph =>
        exact ⟨by rfl, lastOf_iff.2 (by rfl), lastOf_iff.2 (by rfl), lastOf_iff.2 (by rfl),
          .cons ⟨false, rfl, rfl⟩ (.cons ⟨true, rfl, by decide +kernel⟩ .nil)⟩
      case template =>
        exact ⟨by rfl, lastOf_iff.2 (by rfl), lastOf_iff.2 (by rfl), lastOf_iff.2 (by rfl), .nil⟩
  · refine ((compileRoot_follows _ _).2.1 _).2 ?_
    exact .intro [⟨"ul", "a eq b"⟩] (List.forall_mem_singleton.2 ⟨_, rfl⟩) rfl

end Renderer

end Templating
