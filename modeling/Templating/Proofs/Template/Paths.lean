import Mathlib.Data.List.Induction
import Templating.Proofs.Occurrence
import Templating.Proofs.Renderer.Scope
import Templating.Registry

/-!
# Reported paths

The paths that are reported for a template are the first occurrences of all its reads. The
reads are those of its elements in document order, which `Renderer.elementsAll` lists, and
`Plan.ownReads` has those of one element. `Registry.paths_firstOccurrences` puts the two
together for the templates of a registry.
-/

namespace Templating

namespace Read

/-- Reads with one more at the end have one more distinct read, unless it was made before. -/
theorem distinct_concat (reads : List Read) (read : Read) :
    distinct (reads ++ [read]) =
      if read ∈ reads then distinct reads else distinct reads ++ [read] := by
  induction reads with
  | nil => rfl
  | cons first reads inductionHypothesis =>
    rw [List.cons_append, distinct, inductionHypothesis, distinct]
    by_cases same : read = first
    · subst same
      -- The read is the first one, so it is left out wherever it stands behind.
      rw [if_pos List.mem_cons_self]
      split
      · rfl
      · rw [List.filter_append, List.filter_singleton]
        simp
    · by_cases again : read ∈ reads
      · rw [if_pos again, if_pos (List.mem_cons_of_mem first again)]
      · rw [if_neg again, if_neg (by simp [same, again]), List.filter_append,
          List.filter_singleton]
        simp [same]

/-- Leaving out repetitions leaves the first occurrences. -/
theorem firstOccurrences_distinct (reads : List Read) :
    FirstOccurrences reads (distinct reads) := by
  induction reads using List.reverseRecOn with
  | nil => exact .nil
  | append_singleton reads read inductionHypothesis =>
    rw [distinct_concat]
    exact inductionHypothesis.concat read

end Read

/-- What some text reads for one use: the paths of its placeholders, as they stand. -/
def Interpolation.readsFor (usage : Usage) (text : Interpolation) : List Read :=
  text.tokens.filterMap fun
    | .path path => some ⟨path.raw, usage⟩
    | .literal _ => none

/-- What a condition reads: its left side, and its right side if that is a path. -/
def Condition.ownReads : Condition → List Read
  | ⟨left, _, .literal _⟩ => [⟨left.raw, .condition⟩]
  | ⟨left, _, .path right⟩ => [⟨left.raw, .condition⟩, ⟨right.raw, .condition⟩]

namespace Plan

/-- What an element reads by itself: its condition, then its loop, then each of its bindings,
and its text at last. -/
def ownReads (plan : Plan) : List Read :=
  (plan.condition.elim [] Condition.ownReads) ++
    (plan.loop.elim [] fun path => [⟨path.raw, .loop⟩]) ++
    (plan.bindings.flatMap fun binding => binding.value.readsFor .binding) ++
    (plan.text.elim [] fun text => text.readsFor .text)

theorem readsOf_paths (usage : Usage) (text : Interpolation) :
    readsOf usage text.paths = text.readsFor usage := by
  rw [readsOf, Interpolation.paths, Interpolation.readsFor, List.map_filterMap]
  apply List.filterMap_congr
  intro token _
  cases token with
  | literal content => rfl
  | path path => rfl

theorem readsOf_conditionPaths (condition : Condition) :
    readsOf .condition condition.paths = condition.ownReads := by
  obtain ⟨left, operator, right⟩ := condition
  cases right with
  | literal value => rfl
  | path right => rfl

/-- An element reads what it is said to read. -/
theorem reads_eq_ownReads (plan : Plan) : plan.reads = plan.ownReads := by
  have ofCondition : readsOf .condition (plan.condition.toList.flatMap Condition.paths) =
      plan.condition.elim [] Condition.ownReads := by
    cases plan.condition with
    | none => rfl
    | some condition =>
      rw [Option.toList_some, List.flatMap_singleton]
      exact readsOf_conditionPaths condition
  have ofLoop : readsOf .loop plan.loop.toList =
      plan.loop.elim [] fun path => [⟨path.raw, .loop⟩] := by
    cases plan.loop with
    | none => rfl
    | some path => rfl
  have ofBindings : readsOf .binding (plan.bindings.flatMap fun binding => binding.value.paths) =
      plan.bindings.flatMap fun binding => binding.value.readsFor .binding := by
    rw [readsOf, List.map_flatMap]
    apply List.flatMap_congr
    intro binding _
    exact readsOf_paths .binding binding.value
  have ofText : readsOf .text (plan.text.toList.flatMap Interpolation.paths) =
      plan.text.elim [] fun text => text.readsFor .text := by
    cases plan.text with
    | none => rfl
    | some text =>
      rw [Option.toList_some, List.flatMap_singleton]
      exact readsOf_paths .text text
  rw [reads, ofCondition, ofLoop, ofBindings, ofText, ownReads]

end Plan

namespace Renderer

mutual

/-- The elements of a renderer in document order: each stands before those below it. -/
def elements : Renderer → List Plan
  | .text _ => []
  | .element plan children => plan :: elementsAll children

/-- The elements of some renderers in document order. -/
def elementsAll : List Renderer → List Plan
  | [] => []
  | renderer :: renderers => elements renderer ++ elementsAll renderers

end

/-- Renderers read what their elements read, one after the other. -/
theorem readsAll_eq_flatMap (renderers : List Renderer) :
    readsAll renderers = (elementsAll renderers).flatMap Plan.ownReads := by
  induction renderers using forestInduction with
  | nil => rfl
  | text content renderers inductionHypothesis =>
    rw [readsAll, reads, elementsAll, elements, inductionHypothesis]
    rfl
  | element plan children renderers childrenHypothesis inductionHypothesis =>
    rw [readsAll, reads, elementsAll, elements, childrenHypothesis, inductionHypothesis,
      Plan.reads_eq_ownReads, List.cons_append, List.flatMap_cons, List.flatMap_append,
      List.append_assoc]

end Renderer

namespace Registry

variable {registry : Registry} {name : String} {template : Template}

/-- What is reported for a template are the first occurrences of the reads of its elements in
document order, and nothing else is. -/
theorem paths_firstOccurrences (registered : registry.template? name = some template)
    (found : List Read) :
    found = registry.paths name ↔
      FirstOccurrences ((Renderer.elementsAll template.renderers).flatMap Plan.ownReads) found := by
  have reported : registry.paths name = Read.distinct (Renderer.readsAll template.renderers) := by
    rw [paths, registered]
    rfl
  have areFirst := Read.firstOccurrences_distinct (Renderer.readsAll template.renderers)
  rw [reported, ← Renderer.readsAll_eq_flatMap]
  constructor
  · rintro rfl
    exact areFirst
  · intro isFirst
    exact isFirst.unique areFirst

/-- A page greets by a name that one of its items shows again, and it titles a link with that
name. The name is reported once as a text, and once more as an attribute. -/
theorem paths_firstOccurrences_page : ∃ (registry : Registry) (template : Template),
    registry.template? "page" = some template ∧
    (Renderer.elementsAll template.renderers).flatMap Plan.ownReads =
      [⟨"age", .condition⟩, ⟨"limit", .condition⟩, ⟨"name", .text⟩, ⟨"url", .binding⟩,
        ⟨"name", .binding⟩, ⟨"items", .loop⟩, ⟨"name", .text⟩] ∧
    registry.paths "page" =
      [⟨"age", .condition⟩, ⟨"limit", .condition⟩, ⟨"name", .text⟩, ⟨"url", .binding⟩,
        ⟨"name", .binding⟩, ⟨"items", .loop⟩] ∧
    FirstOccurrences ((Renderer.elementsAll template.renderers).flatMap Plan.ownReads)
      (registry.paths "page") := by
  let template : Template := ⟨[.element
      { shell := ⟨"section", [], []⟩, loop := none, text := none, bindings := []
        condition := some ⟨.ofText "age", .atLeast, .path (.ofText "limit")⟩ }
      [.element
        { shell := ⟨"h1", [], []⟩, loop := none, condition := none, bindings := []
          text := some ⟨[.literal "Hello ", .path (.ofText "name")]⟩ } [],
      .element
        { shell := ⟨"a", [], []⟩, loop := none, text := none, condition := none
          bindings := [⟨"href", ⟨[.path (.ofText "url")]⟩⟩, ⟨"title", ⟨[.path (.ofText "name")]⟩⟩] }
        [.text "Home"],
      .element
        { shell := ⟨"li", [], []⟩, loop := some (.ofText "items"), condition := none, bindings := []
          text := some ⟨[.path (.ofText "name")]⟩ } []]], .empty⟩
  let registry : Registry := ⟨Catalog.empty.insert "page" template, .standard⟩
  have registered : registry.template? "page" = some template := by rfl
  exact ⟨registry, template, registered, by rfl, by rfl,
    (paths_firstOccurrences registered _).1 rfl⟩

end Registry

end Templating
