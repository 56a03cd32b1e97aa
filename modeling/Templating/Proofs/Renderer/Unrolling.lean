import Templating.Proofs.Renderer.Spelling

/-!
# Unrolling loops

A loop over an array makes the output of one element for each item, one after the other.
The elements have no loop: `Renderer.unrolled` puts the path to an item before the paths
that are followed from it, so that they can be followed from the context around the loop.
Such an element is one that could have been compiled, as far as its paths go.
-/

namespace Templating

/-- Changing the paths of a condition changes each of them. -/
theorem Condition.paths_mapPaths (f : Path → Path) (condition : Condition) :
    (condition.mapPaths f).paths = condition.paths.map f := by
  obtain ⟨left, operator, right⟩ := condition
  cases right <;> rfl

/-- Changing the paths of a text changes each of them. -/
theorem Interpolation.paths_mapPaths (f : Path → Path) (interpolation : Interpolation) :
    (interpolation.mapPaths f).paths = interpolation.paths.map f := by
  rw [paths, mapPaths, List.filterMap_map, paths, List.map_filterMap]
  apply List.filterMap_congr
  intro token _
  cases token <;> rfl

namespace Access

variable {f : Path → Path}

/-- Accesses to changed paths are spelled when the change keeps paths spelled. -/
theorem allSpelled_ofPaths_map {usage : Usage} {paths : List Path}
    (keeps : ∀ path, path.IsSpelled → (f path).IsSpelled)
    (spelled : AllSpelled (ofPaths usage paths)) : AllSpelled (ofPaths usage (paths.map f)) := by
  rw [allSpelled_ofPaths] at spelled
  rw [allSpelled_ofPaths, List.forall_mem_map]
  exact fun path member => keeps path (spelled path member)

end Access

namespace Plan

open Access (AllSpelled)

variable {f : Path → Path} {plan : Plan}

/-- The paths of the condition and of the loop stay spelled. -/
theorem allSpelled_mapGuard (keeps : ∀ path, path.IsSpelled → (f path).IsSpelled)
    (spelled : AllSpelled plan.guardAccesses) : AllSpelled (plan.mapGuard f).guardAccesses := by
  obtain ⟨conditions, loops⟩ := Access.allSpelled_append.1 spelled
  have conditionPaths : (plan.mapGuard f).condition.toList.flatMap Condition.paths =
      (plan.condition.toList.flatMap Condition.paths).map f := by
    rw [mapGuard, Option.toList_map, List.flatMap_map, List.map_flatMap]
    simp only [Condition.paths_mapPaths]
  have loopPaths : (plan.mapGuard f).loop.toList = plan.loop.toList.map f := by
    rw [mapGuard, Option.toList_map]
  rw [guardAccesses, conditionPaths, loopPaths]
  exact Access.allSpelled_append.2
    ⟨Access.allSpelled_ofPaths_map keeps conditions, Access.allSpelled_ofPaths_map keeps loops⟩

/-- The paths of the bindings and of the text stay spelled. -/
theorem allSpelled_mapContent (keeps : ∀ path, path.IsSpelled → (f path).IsSpelled)
    (spelled : AllSpelled plan.contentAccesses) :
    AllSpelled (plan.mapContent f).contentAccesses := by
  obtain ⟨bindings, texts⟩ := Access.allSpelled_append.1 spelled
  have bindingPaths : ((plan.mapContent f).bindings.flatMap fun binding => binding.value.paths) =
      (plan.bindings.flatMap fun binding => binding.value.paths).map f := by
    rw [mapContent, List.flatMap_map, List.map_flatMap]
    simp only [Interpolation.paths_mapPaths]
  have textPaths : (plan.mapContent f).text.toList.flatMap Interpolation.paths =
      (plan.text.toList.flatMap Interpolation.paths).map f := by
    rw [mapContent, Option.toList_map, List.flatMap_map, List.map_flatMap]
    simp only [Interpolation.paths_mapPaths]
  rw [contentAccesses, bindingPaths, textPaths]
  exact Access.allSpelled_append.2
    ⟨Access.allSpelled_ofPaths_map keeps bindings, Access.allSpelled_ofPaths_map keeps texts⟩

/-- The plan of the element that stands for one item of the array that `base` leads to.
The condition is not touched, since it is looked up around the loop. -/
def unrolled (base : Path) (index : Nat) (plan : Plan) : Plan :=
  mapContent (.under base index) { plan with loop := none }

end Plan

namespace Renderer

/-- The element that stands for one item of the array that `base` leads to. -/
def unrolled (base : Path) (index : Nat) (plan : Plan) (children : List Renderer) : Renderer :=
  .element (plan.unrolled base index) (mapOuterAll (.under base index) children)

section Spelling

/-- Renderers with spelled paths have spelled paths after a change that keeps them so. -/
theorem PathsSpelled.mapOuterAll {f : Path → Path} {renderers : List Renderer}
    (keeps : ∀ path, path.IsSpelled → (f path).IsSpelled) (spelled : PathsSpelled renderers) :
    PathsSpelled (mapOuterAll f renderers) := by
  induction renderers using forestInduction with
  | nil => exact spelled
  | text content renderers inductionHypothesis => exact inductionHypothesis spelled
  | element plan children renderers childrenHypothesis inductionHypothesis =>
    obtain ⟨⟨⟨guard, content⟩, below⟩, later⟩ := pathsSpelled_element_iff.1 spelled
    have guard' := Plan.allSpelled_mapGuard keeps guard
    rw [Renderer.mapOuterAll, mapOuter]
    split
    · exact pathsSpelled_element_iff.2 ⟨⟨⟨guard', content⟩, below⟩, inductionHypothesis later⟩
    · have content' := Plan.allSpelled_mapContent keeps content
      exact pathsSpelled_element_iff.2
        ⟨⟨⟨guard', content'⟩, childrenHypothesis below⟩, inductionHypothesis later⟩

/-- The element for one item has spelled paths when the element with the loop has. -/
theorem pathsSpelled_unrolled {base : Path} {plan : Plan} {children : List Renderer}
    (looped : plan.loop = some base) (spelled : PathsSpelled [.element plan children])
    (index : Nat) : PathsSpelled [unrolled base index plan children] := by
  obtain ⟨⟨⟨guard, content⟩, below⟩, none⟩ := pathsSpelled_element_iff.1 spelled
  obtain ⟨conditions, loops⟩ := Access.allSpelled_append.1 guard
  have baseSpelled : base.IsSpelled :=
    Access.allSpelled_ofPaths.1 loops base (by simp [looped])
  have keeps : ∀ path : Path, path.IsSpelled → (Path.under base index path).IsSpelled :=
    fun _ pathSpelled => baseSpelled.under pathSpelled
  have guard' : Access.AllSpelled (plan.unrolled base index).guardAccesses :=
    Access.allSpelled_append.2 ⟨conditions, nofun⟩
  have content' : Access.AllSpelled (plan.unrolled base index).contentAccesses :=
    Plan.allSpelled_mapContent keeps content
  exact pathsSpelled_element_iff.2 ⟨⟨⟨guard', content'⟩, below.mapOuterAll keeps⟩, none⟩

end Spelling

variable {base : Path} {context : Value} {items : List Value}

/-- Paths under an item lead from around the loop where they lead from the item. -/
theorem carries_under (resolved : base.resolve? context = some (.array items)) {index : Nat}
    {item : Value} (found : items[index]? = some item) (path : Path) :
    Carries .empty (.under base index) context item path := by
  refine ⟨?_, nofun⟩
  rw [Path.resolve?_under resolved, found, Option.bind_some]

/-- The element for one item puts out the copy for that item. -/
theorem render_unrolled (resolved : base.resolve? context = some (.array items)) {index : Nat}
    {item : Value} (found : items[index]? = some item) (plan : Plan) (children : List Renderer) :
    render .empty (unrolled base index plan children) context =
      if plan.isPresent context then [copy .empty plan children item] else [] := by
  have carries := carries_under resolved found
  have below : renderAll .empty (mapOuterAll (.under base index) children) context =
      renderAll .empty children item :=
    renderAll_mapOuter fun access _ => carries access.path
  have copies : copy .empty (plan.unrolled base index)
      (mapOuterAll (.under base index) children) context =
      copy .empty { plan with loop := none } children item :=
    copy_mapContent (fun access _ => carries access.path) below
  have once : (plan.unrolled base index).contexts context = [context] := rfl
  rw [unrolled, render_element, once, List.map_cons, List.map_nil, copies]
  -- Neither the condition nor a copy depends on the loop.
  rfl

/-- What each item gives can be put together by index. -/
theorem flatMap_range {α β : Type} {items : List α} {whole : α → β} {part : Nat → List β}
    (parts : ∀ index item, items[index]? = some item → part index = [whole item]) :
    (List.range items.length).flatMap part = items.map whole := by
  induction items generalizing part with
  | nil => rfl
  | cons item items inductionHypothesis =>
    have first : part 0 = [whole item] := parts 0 item rfl
    have rest : (List.range items.length).flatMap (part ∘ Nat.succ) = items.map whole := by
      apply inductionHypothesis
      intro index item found
      exact parts (index + 1) item found
    rw [List.length_cons, List.range_succ_eq_map, List.flatMap_cons, List.flatMap_map, first,
      List.map_cons]
    exact congrArg _ rest

/-- A loop over an array is unrolled: it puts out what the elements for its items put out
in the same context, in the order of the items. -/
theorem render_eq_flatMap_unrolled {plan : Plan} (looped : plan.loop = some base)
    (resolved : base.resolve? context = some (.array items)) (children : List Renderer) :
    render .empty (.element plan children) context =
      (List.range items.length).flatMap fun index =>
        render .empty (unrolled base index plan children) context := by
  have contexts : plan.contexts context = items := by
    simp only [Plan.contexts, looped, resolved]
  rw [render_element, contexts]
  by_cases present : plan.isPresent context = true
  · rw [if_pos present]
    refine (flatMap_range fun index item found => ?_).symm
    rw [render_unrolled resolved found, if_pos present]
  · rw [if_neg present]
    refine (List.flatMap_eq_nil_iff.2 fun index inRange => ?_).symm
    obtain ⟨item, found⟩ : ∃ item, items[index]? = some item :=
      ⟨_, List.getElem?_eq_getElem (List.mem_range.1 inRange)⟩
    rw [render_unrolled resolved found, if_neg present]

/-- Items may be arrays themselves, and null: an inner loop over the item goes over its
items, and null has none. -/
theorem flatMap_unrolled_nested :
    (Path.ofText "rows").resolve? (.object
      [("rows", .array [.array [.text "a", .null], .null]), ("show", .bool true)]) =
        some (.array [.array [.text "a", .null], .null]) ∧
    ((List.range 2).flatMap fun index => render .empty (unrolled (.ofText "rows") index
        { shell := ⟨"ul", [], []⟩
          loop := some (.ofText "rows")
          text := none
          condition := some ⟨.ofText "show", .equal, .path (.ofText "show")⟩
          bindings := [⟨"title", ⟨[.path (.ofText "0")]⟩⟩] }
        [.element
          { shell := ⟨"li", [], []⟩
            loop := some (.ofText ".")
            text := some ⟨[.literal "item ", .path (.ofText ".")]⟩
            condition := none
            bindings := [] } []]) (.object
      [("rows", .array [.array [.text "a", .null], .null]), ("show", .bool true)])) =
      [.element "ul" [⟨"title", "a"⟩]
        [.element "li" [] [.text "item a"], .element "li" [] [.text "item "]],
       .element "ul" [] []] := by
  have resolved : (Path.ofText "rows").resolve? (.object
      [("rows", .array [.array [.text "a", .null], .null]), ("show", .bool true)]) =
        some (.array [.array [.text "a", .null], .null]) := by
    rfl
  refine ⟨resolved, ?_⟩
  refine (render_eq_flatMap_unrolled rfl resolved _).symm.trans ?_
  decide +kernel

end Renderer

end Templating
