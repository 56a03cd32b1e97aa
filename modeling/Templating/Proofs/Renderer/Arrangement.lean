import Mathlib.Data.List.Induction
import Templating.Proofs.Renderer.Compilation

/-!
# Arrangement of attributes

The attributes of an element are of five kinds, and only their order within a kind matters. The
plan of an element comes of one pass in which each attribute adds to the part that its kind is
for, by `Plan.compile_eq_foldlM`, and only a condition can stop it. So neither what has been
added nor the condition that stops the pass depends on how the kinds are mixed, and sources that
mix them differently compile alike: `Renderer.compileRoot_eq_of_rearranged`.
-/

namespace Templating

/-- What an attribute of a source is for. -/
inductive AttributeKind
  | plain
  | loop
  | text
  | condition
  | binding
deriving DecidableEq

namespace Directives

/-- The kind of an attribute. -/
def kindOf (directives : Directives) (entry : Attribute) : AttributeKind :=
  match directives.classify? entry.name with
  | none => .plain
  | some .loop => .loop
  | some (.text _) => .text
  | some .condition => .condition
  | some (.binding _ _) => .binding

/-- The attributes of a kind, in their order. -/
def ofKind (directives : Directives) (kind : AttributeKind) (attributes : List Attribute) :
    List Attribute :=
  attributes.filter fun entry => directives.kindOf entry = kind

/-- The attributes are put in another order in which those of each kind follow one another as
before. -/
def Rearranges (directives : Directives) (attributes others : List Attribute) : Prop :=
  ∀ kind, directives.ofKind kind attributes = directives.ofKind kind others

variable {directives : Directives} {attributes others : List Attribute}

/-- No attribute is added or lost. -/
theorem Rearranges.perm (rearranges : directives.Rearranges attributes others) :
    attributes.Perm others := by
  rw [List.perm_iff_count]
  intro entry
  have same := congrArg (List.count entry) (rearranges (directives.kindOf entry))
  rwa [ofKind, ofKind, List.count_filter (by simp), List.count_filter (by simp)] at same

/-- The attributes of a kind are those of the first part, and then those of the second. -/
theorem ofKind_append (kind : AttributeKind) (attributes others : List Attribute) :
    directives.ofKind kind (attributes ++ others) =
      directives.ofKind kind attributes ++ directives.ofKind kind others :=
  List.filter_append attributes others

/-- The first attribute comes first of its kind after the rearrangement too, and without it the
other attributes are rearranged. -/
theorem Rearranges.exists_split {entry : Attribute}
    (rearranges : directives.Rearranges (entry :: attributes) others) :
    ∃ before after, others = before ++ entry :: after ∧
      (∀ other ∈ before, directives.kindOf other ≠ directives.kindOf entry) ∧
      directives.Rearranges attributes (before ++ after) := by
  have first : entry :: directives.ofKind (directives.kindOf entry) attributes =
      others.filter fun other => directives.kindOf other = directives.kindOf entry := by
    rw [← ofKind, ← rearranges, ofKind, ofKind, List.filter_cons_of_pos (by simp)]
  obtain ⟨before, after, rfl, otherKinds, -, rest⟩ := List.filter_eq_cons_iff.1 first.symm
  have otherKinds : ∀ other ∈ before, directives.kindOf other ≠ directives.kindOf entry := by
    simpa using otherKinds
  refine ⟨before, after, rfl, otherKinds, fun kind => ?_⟩
  have same := rearranges kind
  by_cases isKind : directives.kindOf entry = kind
  · have noneBefore : directives.ofKind kind before = [] := by
      rw [ofKind, List.filter_eq_nil_iff]
      intro other member
      simpa [← isKind] using otherKinds other member
    rw [ofKind_append, noneBefore, List.nil_append, ← isKind, ← rest, ofKind]
  · simpa [ofKind_append, ofKind, isKind] using same

end Directives

/-- Expressions are read one after the other. -/
theorem Condition.compileAll_append (expressions others : List String) :
    compileAll (expressions ++ others) = do
      let conditions ← compileAll expressions
      let otherConditions ← compileAll others
      return conditions ++ otherConditions := by
  induction expressions with
  | nil =>
    rw [List.nil_append, compileAll]
    exact (bind_pure _).symm
  | cons first expressions inductionHypothesis =>
    simp only [List.cons_append, compileAll, inductionHypothesis, bind_assoc, pure_bind]

namespace Plan

variable {directives : Directives} {tag : String} {attributes others : List Attribute}

/-- The plan of an element without attributes. -/
def bare (tag : String) : Plan where
  shell := ⟨tag, [], []⟩
  loop := none
  text := none
  condition := none
  bindings := []

/-- Takes in one more attribute, after those that have been taken in. -/
def take (directives : Directives) (plan : Plan) (entry : Attribute) :
    Except ConditionFault Plan :=
  match directives.classify? entry.name with
  | none =>
    .ok { plan with shell := { plan.shell with attributes := plan.shell.attributes ++ [entry] } }
  | some .loop => .ok { plan with loop := some (.ofLoop entry.value) }
  | some (.text interpolated) =>
    .ok { plan with text := some (.ofDirective interpolated entry.value) }
  | some .condition => do
    let condition ← Condition.compile entry.value
    return { plan with condition := some condition }
  | some (.binding target interpolated) =>
    .ok { plan with
      bindings := plan.bindings ++ [⟨target, .ofDirective interpolated entry.value⟩] }

/-- An element with one more attribute is planned by taking it in. -/
theorem compile_concat (attributes : List Attribute) (entry : Attribute) :
    compile directives tag (attributes ++ [entry]) =
      compile directives tag attributes >>= fun plan => plan.take directives entry := by
  simp only [compile, Directives.plainAttributes, Directives.loops, Directives.texts,
    Directives.conditions, Directives.bindings, List.filter_append, List.filterMap_append,
    Condition.compileAll_append]
  cases Condition.compileAll (attributes.filterMap _) with
  | error fault => rfl
  | ok conditions =>
    -- The attribute is in the list of its own kind, and in no other.
    cases classified : directives.classify? entry.name with
    | none => simp [take, classified, Condition.compileAll, bind, Except.bind, pure, Except.pure]
    | some directive =>
      cases directive with
      | loop => simp [take, classified, Condition.compileAll, bind, Except.bind, pure, Except.pure]
      | text interpolated =>
        simp [take, classified, Condition.compileAll, bind, Except.bind, pure, Except.pure]
      | binding target interpolated =>
        simp [take, classified, Condition.compileAll, bind, Except.bind, pure, Except.pure]
      | condition =>
        cases compiled : Condition.compile entry.value with
        | error fault =>
          simp [take, classified, compiled, Condition.compileAll, bind, Except.bind, pure,
            Except.pure]
        | ok condition =>
          simp [take, classified, compiled, Condition.compileAll, bind, Except.bind, pure,
            Except.pure]

/-- The plan of an element comes of one pass over its attributes. -/
theorem compile_eq_foldlM (attributes : List Attribute) :
    compile directives tag attributes = attributes.foldlM (take directives) (bare tag) := by
  induction attributes using List.reverseRecOn with
  | nil => rfl
  | append_singleton attributes entry inductionHypothesis =>
    rw [compile_concat, inductionHypothesis, List.foldlM_append]
    simp only [List.foldlM_cons, List.foldlM_nil, bind_pure]

/-- Attributes of different kinds add to different parts, and no more than one of them can be
wrong. So it does not matter which one is taken in first. -/
theorem take_comm {first second : Attribute}
    (differ : directives.kindOf first ≠ directives.kindOf second) (plan : Plan) :
    (plan.take directives first >>= fun next => next.take directives second) =
      (plan.take directives second >>= fun next => next.take directives first) := by
  simp only [take]
  rw [Directives.kindOf, Directives.kindOf] at differ
  match directives.classify? first.name, directives.classify? second.name, differ with
  | none, none, differ | some .loop, some .loop, differ | some (.text _), some (.text _), differ
  | some .condition, some .condition, differ
  | some (.binding _ _), some (.binding _ _), differ => exact absurd rfl differ
  | some .condition, none, _ | some .condition, some .loop, _ | some .condition, some (.text _), _
  | some .condition, some (.binding _ _), _ =>
    cases Condition.compile first.value with
    | error fault => rfl
    | ok condition => rfl
  | none, some .condition, _ | some .loop, some .condition, _ | some (.text _), some .condition, _
  | some (.binding _ _), some .condition, _ =>
    cases Condition.compile second.value with
    | error fault => rfl
    | ok condition => rfl
  | none, some .loop, _ | none, some (.text _), _ | none, some (.binding _ _), _
  | some .loop, none, _ | some .loop, some (.text _), _ | some .loop, some (.binding _ _), _
  | some (.text _), none, _ | some (.text _), some .loop, _
  | some (.text _), some (.binding _ _), _ | some (.binding _ _), none, _
  | some (.binding _ _), some .loop, _ | some (.binding _ _), some (.text _), _ => rfl

/-- An attribute may be taken in before those of other kinds that stand before it. -/
theorem foldlM_take_middle {before after : List Attribute} {entry : Attribute}
    (otherKinds : ∀ other ∈ before, directives.kindOf other ≠ directives.kindOf entry)
    (plan : Plan) : (before ++ entry :: after).foldlM (take directives) plan =
      (entry :: (before ++ after)).foldlM (take directives) plan := by
  induction before generalizing plan with
  | nil => rfl
  | cons other before inductionHypothesis =>
    obtain ⟨otherKind, otherKinds⟩ := List.forall_mem_cons.1 otherKinds
    calc (other :: before ++ entry :: after).foldlM (take directives) plan
      _ = plan.take directives other >>=
            (entry :: (before ++ after)).foldlM (take directives) := by
          rw [List.cons_append, List.foldlM_cons]
          exact congrArg _ (funext fun next => inductionHypothesis otherKinds next)
      _ = (plan.take directives other >>= fun next => next.take directives entry) >>=
            (before ++ after).foldlM (take directives) := by
          simp only [List.foldlM_cons, bind_assoc]
      _ = (plan.take directives entry >>= fun next => next.take directives other) >>=
            (before ++ after).foldlM (take directives) := by
          rw [take_comm otherKind]
      _ = (entry :: (other :: before ++ after)).foldlM (take directives) plan := by
          simp only [List.cons_append, List.foldlM_cons, bind_assoc]

/-- Rearranged attributes are taken in to the same plan, or stop the pass at the same condition. -/
theorem foldlM_take_eq_of_rearranges (rearranges : directives.Rearranges attributes others)
    (plan : Plan) :
    attributes.foldlM (take directives) plan = others.foldlM (take directives) plan := by
  induction attributes generalizing others plan with
  | nil => rw [List.nil_perm.1 rearranges.perm]
  | cons entry attributes inductionHypothesis =>
    obtain ⟨before, after, rfl, otherKinds, rest⟩ := rearranges.exists_split
    rw [foldlM_take_middle otherKinds, List.foldlM_cons, List.foldlM_cons]
    exact congrArg _ (funext fun next => inductionHypothesis rest next)

/-- Rearranged attributes make the same plan, or fail for the same condition. -/
theorem compile_eq_of_rearranges (rearranges : directives.Rearranges attributes others) :
    compile directives tag attributes = compile directives tag others := by
  rw [compile_eq_foldlM, compile_eq_foldlM, foldlM_take_eq_of_rearranges rearranges]

end Plan

namespace Node

/-- The forests differ at most in that the attributes of each element are rearranged. -/
inductive Rearranged (directives : Directives) : List Node → List Node → Prop
  | nil : Rearranged directives [] []
  | text {content : String} {nodes others : List Node}
      (later : Rearranged directives nodes others) :
      Rearranged directives (.text content :: nodes) (.text content :: others)
  | element {tag : String} {attributes otherAttributes : List Attribute}
      {children otherChildren nodes others : List Node}
      (here : directives.Rearranges attributes otherAttributes)
      (below : Rearranged directives children otherChildren)
      (later : Rearranged directives nodes others) :
      Rearranged directives (.element tag attributes children :: nodes)
        (.element tag otherAttributes otherChildren :: others)

end Node

namespace Renderer

variable {directives : Directives} {nodes others : List Node} {root other : Node}

/-- Rearranged forests compile alike. -/
theorem compileAll_eq_of_rearranged (rearranged : Node.Rearranged directives nodes others) :
    compileAll directives nodes = compileAll directives others := by
  induction rearranged with
  | nil => rfl
  | text later laterHypothesis => rw [compileAll, compileAll, laterHypothesis]
  | element here below later belowHypothesis laterHypothesis =>
    rw [compileAll, compileAll, compile, compile, Plan.compile_eq_of_rearranges here,
      belowHypothesis, laterHypothesis]

/-- Rearranged roots stand for rearranged nodes. -/
theorem rearranged_content (rearranged : Node.Rearranged directives [root] [other]) :
    Node.Rearranged directives (content root) (content other) := by
  cases rearranged with
  | text later => exact .text .nil
  | @element tag attributes otherAttributes children otherChildren _ _ here below later =>
    simp only [content]
    split
    · exact below
    · exact .element here below .nil

/-- Sources that differ only in how the attributes of each element are arranged compile to the
same renderers or fail with the same error, whatever the spelling of directives. So the
templates put out the same for all data. -/
theorem compileRoot_eq_of_rearranged (rearranged : Node.Rearranged directives [root] [other]) :
    compileRoot directives root = compileRoot directives other ∧
    ∀ missing data,
      (Template.compile ⟨directives, missing⟩ root).map (·.evaluate data) =
        (Template.compile ⟨directives, missing⟩ other).map (·.evaluate data) := by
  have same : compileRoot directives root = compileRoot directives other := by
    rw [compileRoot_eq, compileRoot_eq, compileAll_eq_of_rearranged (rearranged_content rearranged)]
  refine ⟨same, fun missing data => ?_⟩
  rw [Template.compile, Template.compile, same]

/-- Two bindings of a title, two texts and two plain attributes are mixed in two ways, and so are
two wrong conditions with what stands around them. Either way the bindings keep their order, the
last text counts, and the first condition is the error. -/
theorem compileRoot_eq_of_rearranged_mixed : ∃ right otherRight wrong otherWrong : Node,
    right ≠ otherRight ∧ wrong ≠ otherWrong ∧
    Node.Rearranged .standard [right] [otherRight] ∧
    Node.Rearranged .standard [wrong] [otherWrong] ∧
    compileRoot .standard otherRight = .ok [.element
      { shell := ⟨"p", [⟨"id", "x"⟩, ⟨"class", "y"⟩], []⟩
        loop := none
        text := some ⟨[.path (.ofText "c")]⟩
        condition := none
        bindings := [⟨"title", ⟨[.path (.ofText "a")]⟩⟩, ⟨"title", ⟨[.path (.ofText "b")]⟩⟩] } []] ∧
    compileRoot .standard otherWrong = .error (.condition "p" (.malformed "a" 1)) := by
  let right : Node := .element "p" [⟨"id", "x"⟩, ⟨"jt-title", "a"⟩, ⟨"jt-text", "d"⟩,
    ⟨"class", "y"⟩, ⟨"jt-title", "b"⟩, ⟨"jt-text", "c"⟩] []
  let otherRight : Node := .element "p" [⟨"jt-text", "d"⟩, ⟨"jt-text", "c"⟩, ⟨"jt-title", "a"⟩,
    ⟨"jt-title", "b"⟩, ⟨"id", "x"⟩, ⟨"class", "y"⟩] []
  let wrong : Node := .element "p" [⟨"id", "x"⟩, ⟨"jt-if", "a"⟩, ⟨"class", "y"⟩,
    ⟨"jt-if", "a b"⟩] []
  let otherWrong : Node := .element "p" [⟨"jt-if", "a"⟩, ⟨"jt-if", "a b"⟩, ⟨"id", "x"⟩,
    ⟨"class", "y"⟩] []
  have rearranged : Node.Rearranged .standard [right] [otherRight] := by
    refine .element (fun kind => ?_) .nil .nil
    cases kind <;> decide
  have wrongRearranged : Node.Rearranged .standard [wrong] [otherWrong] := by
    refine .element (fun kind => ?_) .nil .nil
    cases kind <;> decide
  refine ⟨right, otherRight, wrong, otherWrong, by decide, by decide, rearranged, wrongRearranged,
    ?_, ?_⟩
  · rw [← (compileRoot_eq_of_rearranged rearranged).1]
    rfl
  · rw [← (compileRoot_eq_of_rearranged wrongRearranged).1]
    rfl

end Renderer

end Templating
