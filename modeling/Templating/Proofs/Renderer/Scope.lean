import Mathlib.Data.List.Basic
import Templating.Renderer.Reads
import Templating.Renderer.Render

/-!
# Scopes

The paths of a renderer are followed from the context that it is rendered in, unless they
stand below a loop, where they are followed from an item. `Renderer.outerAccesses` lists
the paths of the former kind and `Renderer.mapOuter` changes them, and
`Renderer.renderAll_mapOuter` says that rendering depends on nothing else: paths that lead
to the same data from another context make the same output there.
-/

namespace Templating

/-- A path and what it is used for. -/
structure Access where
  path : Path
  usage : Usage
deriving DecidableEq

namespace Access

/-- The access as it is reported. -/
def read (access : Access) : Read :=
  ⟨access.path.raw, access.usage⟩

/-- Accesses to some paths for one use. -/
def ofPaths (usage : Usage) (paths : List Path) : List Access :=
  paths.map fun path => ⟨path, usage⟩

theorem map_read_ofPaths (usage : Usage) (paths : List Path) :
    (ofPaths usage paths).map read = Plan.readsOf usage paths := by
  rw [ofPaths, List.map_map]
  rfl

end Access

namespace Interpolation

/-- Changes the path of a placeholder. -/
def mapToken (f : Path → Path) : Token → Token
  | .literal content => .literal content
  | .path path => .path (f path)

/-- Changes the paths of the placeholders. -/
def mapPaths (f : Path → Path) (interpolation : Interpolation) : Interpolation :=
  ⟨interpolation.tokens.map (mapToken f)⟩

@[simp] theorem mapPaths_id : mapPaths id = id := by
  have same : mapToken id = id := by
    funext token
    cases token <;> rfl
  funext interpolation
  rw [mapPaths, same, List.map_id]
  rfl

end Interpolation

namespace Condition

/-- Changes the paths that a condition compares. -/
def mapPaths (f : Path → Path) (condition : Condition) : Condition :=
  { condition with
    left := f condition.left
    right :=
      match condition.right with
      | .literal value => .literal value
      | .path right => .path (f right) }

@[simp] theorem mapPaths_id : mapPaths id = id := by
  funext ⟨left, operator, right⟩
  cases right <;> rfl

end Condition

namespace Plan

/-- What decides how often an element is there: its condition and its loop. -/
def guardAccesses (plan : Plan) : List Access :=
  Access.ofPaths .condition (plan.condition.toList.flatMap Condition.paths) ++
    Access.ofPaths .loop plan.loop.toList

/-- What an element itself is filled with: its bindings and its text. -/
def contentAccesses (plan : Plan) : List Access :=
  Access.ofPaths .binding (plan.bindings.flatMap fun binding => binding.value.paths) ++
    Access.ofPaths .text (plan.text.toList.flatMap Interpolation.paths)

/-- Changes the paths of the condition and of the loop. -/
def mapGuard (f : Path → Path) (plan : Plan) : Plan :=
  { plan with
    condition := plan.condition.map (Condition.mapPaths f)
    loop := plan.loop.map f }

/-- Changes the paths of the bindings and of the text. -/
def mapContent (f : Path → Path) (plan : Plan) : Plan :=
  { plan with
    bindings := plan.bindings.map fun binding =>
      { binding with value := binding.value.mapPaths f }
    text := plan.text.map (Interpolation.mapPaths f) }

@[simp] theorem mapGuard_id (plan : Plan) : plan.mapGuard id = plan := by
  simp [mapGuard]

@[simp] theorem mapContent_id (plan : Plan) : plan.mapContent id = plan := by
  simp [mapContent]

end Plan

namespace Renderer

/-- Induction over sibling renderers, from the last one to the first, in which the
children of an element come before it. -/
@[elab_as_elim]
theorem forestInduction {motive : List Renderer → Prop} (nil : motive [])
    (text : ∀ content renderers, motive renderers → motive (.text content :: renderers))
    (element : ∀ plan children renderers, motive children → motive renderers →
      motive (.element plan children :: renderers)) :
    ∀ renderers, motive renderers
  | [] => nil
  | .text content :: renderers =>
    text content renderers (forestInduction nil text element renderers)
  | .element plan children :: renderers =>
    element plan children renderers (forestInduction nil text element children)
      (forestInduction nil text element renderers)

mutual

/-- The accesses of a renderer and of those below it. -/
def accesses : Renderer → List Access
  | .text _ => []
  | .element plan children => plan.guardAccesses ++ plan.contentAccesses ++ accessesAll children

/-- The accesses of some renderers and of those below them. -/
def accessesAll : List Renderer → List Access
  | [] => []
  | renderer :: renderers => accesses renderer ++ accessesAll renderers

end

mutual

/-- The accesses that are made in the context of a renderer. The condition and the loop
of an element are looked up there, and without a loop its content is as well. -/
def outerAccesses : Renderer → List Access
  | .text _ => []
  | .element plan children =>
    plan.guardAccesses ++
      match plan.loop with
      | some _ => []
      | none => plan.contentAccesses ++ outerAccessesAll children

/-- The accesses that are made in the context of some renderers. -/
def outerAccessesAll : List Renderer → List Access
  | [] => []
  | renderer :: renderers => outerAccesses renderer ++ outerAccessesAll renderers

end

mutual

/-- Changes the paths that are followed from the context of a renderer. -/
def mapOuter (f : Path → Path) : Renderer → Renderer
  | .text content => .text content
  | .element plan children =>
    match plan.loop with
    | some _ => .element (plan.mapGuard f) children
    | none => .element ((plan.mapContent f).mapGuard f) (mapOuterAll f children)

/-- Changes the paths that are followed from the context of some renderers. -/
def mapOuterAll (f : Path → Path) : List Renderer → List Renderer
  | [] => []
  | renderer :: renderers => mapOuter f renderer :: mapOuterAll f renderers

end

/-- Nothing changes when no path does. -/
theorem mapOuterAll_id (renderers : List Renderer) : mapOuterAll id renderers = renderers := by
  induction renderers using forestInduction with
  | nil => rfl
  | text content renderers inductionHypothesis =>
    rw [mapOuterAll, mapOuter, inductionHypothesis]
  | element plan children renderers childrenHypothesis inductionHypothesis =>
    rw [mapOuterAll, mapOuter, Plan.mapContent_id, Plan.mapGuard_id, childrenHypothesis,
      inductionHypothesis]
    split
    · rfl
    · rfl

end Renderer

/-- A path leads to the same datum from one context as its image does from another one.
Where an absent datum shows the path instead, the two are written the same. -/
structure Carries (missing : Missing) (f : Path → Path) (inner outer : Value) (path : Path) :
    Prop where
  resolves : (f path).resolve? inner = path.resolve? outer
  shows : missing = .raw → (f path).raw = path.raw

section Simulation

variable {missing : Missing} {f : Path → Path} {inner outer : Value}

namespace Interpolation

/-- A path is one of the text exactly when there is a placeholder with it. -/
theorem mem_paths_iff {interpolation : Interpolation} {path : Path} :
    path ∈ interpolation.paths ↔ .path path ∈ interpolation.tokens := by
  constructor
  · intro member
    obtain ⟨token, tokenMember, isPath⟩ := List.mem_filterMap.1 member
    cases token with
    | literal content => cases isPath
    | path other =>
      cases isPath
      exact tokenMember
  · intro member
    exact List.mem_filterMap.2 ⟨.path path, member, rfl⟩

/-- A token contributes the same in both contexts. -/
theorem contribution_mapToken {token : Token}
    (carries : ∀ path, token = .path path → Carries missing f inner outer path) :
    contribution inner missing (mapToken f token) = contribution outer missing token := by
  cases token with
  | literal content => rfl
  | path path =>
    obtain ⟨resolves, shows⟩ := carries path rfl
    simp only [mapToken, contribution, resolves]
    cases path.resolve? outer with
    | some value => rfl
    | none =>
      cases missing with
      | empty => rfl
      | raw => simp only [placeholder, shows rfl]

/-- Several tokens make up a text. -/
theorem evaluate_cons_cons {first second : Token} {tokens : List Token} {context : Value} :
    evaluate ⟨first :: second :: tokens⟩ context missing =
      .text (String.join ((first :: second :: tokens).map (contribution context missing))) := by
  cases first <;> rfl

/-- A text is the same in both contexts. -/
theorem evaluate_mapPaths {interpolation : Interpolation}
    (carries : ∀ path ∈ interpolation.paths, Carries missing f inner outer path) :
    (interpolation.mapPaths f).evaluate inner missing = interpolation.evaluate outer missing := by
  have contributions : interpolation.tokens.map (contribution inner missing ∘ mapToken f) =
      interpolation.tokens.map (contribution outer missing) := by
    apply List.map_congr_left
    intro token member
    apply contribution_mapToken
    intro path isPath
    exact carries path (mem_paths_iff.2 (isPath ▸ member))
  obtain ⟨tokens⟩ := interpolation
  match tokens with
  | [] => rfl
  | [.literal content] => rfl
  | [.path path] =>
    have resolves := (carries path List.mem_cons_self).resolves
    simp only [mapPaths, List.map_cons, List.map_nil, mapToken, evaluate, resolves]
  | first :: second :: tokens =>
    rw [mapPaths, List.map_cons, List.map_cons, evaluate_cons_cons, evaluate_cons_cons,
      ← contributions]
    simp only [List.map_cons, List.map_map, Function.comp_apply]

end Interpolation

namespace Condition

/-- A condition holds in both contexts or in neither. -/
theorem holds_mapPaths {condition : Condition}
    (carries : ∀ path ∈ condition.paths, Carries missing f inner outer path) :
    (condition.mapPaths f).holds inner = condition.holds outer := by
  obtain ⟨left, operator, right⟩ := condition
  cases right with
  | literal value =>
    have leftResolves := (carries left List.mem_cons_self).resolves
    simp only [mapPaths, holds, Operand.resolve?, leftResolves]
  | path right =>
    have leftResolves := (carries left List.mem_cons_self).resolves
    have rightResolves := (carries right (List.mem_cons_of_mem _ List.mem_cons_self)).resolves
    simp only [mapPaths, holds, Operand.resolve?, leftResolves, rightResolves]

end Condition

namespace Plan

variable {plan : Plan}

/-- An element is there in both contexts or in neither. -/
theorem isPresent_mapGuard
    (carries : ∀ access ∈ plan.guardAccesses, Carries missing f inner outer access.path) :
    (plan.mapGuard f).isPresent inner = plan.isPresent outer := by
  rw [isPresent, mapGuard, isPresent]
  cases guard : plan.condition with
  | none => rfl
  | some condition =>
    have carriesPaths : ∀ path ∈ condition.paths, Carries missing f inner outer path := by
      intro path member
      refine carries ⟨path, .condition⟩ (List.mem_append_left _ (List.mem_map_of_mem ?_))
      simpa [guard] using member
    exact Condition.holds_mapPaths carriesPaths

/-- A loop goes over the same items in both contexts. -/
theorem contexts_mapGuard {path : Path} (looped : plan.loop = some path)
    (carries : ∀ access ∈ plan.guardAccesses, Carries missing f inner outer access.path) :
    (plan.mapGuard f).contexts inner = plan.contexts outer := by
  have member : ⟨path, .loop⟩ ∈ plan.guardAccesses :=
    List.mem_append_right _ (by simp [Access.ofPaths, looped])
  have resolves := (carries _ member).resolves
  simp only [contexts, mapGuard, looped, Option.map_some, resolves]

/-- The attributes of an element are the same in both contexts. -/
theorem dressed_mapContent
    (carries : ∀ access ∈ plan.contentAccesses, Carries missing f inner outer access.path) :
    (plan.mapContent f).dressed missing inner = plan.dressed missing outer := by
  have same : (plan.mapContent f).writes missing inner = plan.writes missing outer := by
    rw [writes, mapContent, List.filterMap_map, writes]
    apply List.filterMap_congr
    intro binding bindingMember
    have evaluates : (binding.value.mapPaths f).evaluate inner missing =
        binding.value.evaluate outer missing := by
      apply Interpolation.evaluate_mapPaths
      intro path member
      refine carries ⟨path, .binding⟩ (List.mem_append_left _ (List.mem_map_of_mem ?_))
      exact List.mem_flatMap.2 ⟨binding, bindingMember, member⟩
    rw [Function.comp_apply, evaluates]
  rw [dressed, same]
  rfl

/-- The text in place of the children is the same in both contexts. -/
theorem replacement?_mapContent
    (carries : ∀ access ∈ plan.contentAccesses, Carries missing f inner outer access.path) :
    (plan.mapContent f).replacement? missing inner = plan.replacement? missing outer := by
  rw [replacement?, mapContent, replacement?]
  cases content : plan.text with
  | none => rfl
  | some text =>
    have evaluates : (text.mapPaths f).evaluate inner missing = text.evaluate outer missing := by
      apply Interpolation.evaluate_mapPaths
      intro path member
      refine carries ⟨path, .text⟩ (List.mem_append_right _ (List.mem_map_of_mem ?_))
      simpa [content] using member
    simp only [Option.map_some, Option.bind_some, evaluates]

end Plan

namespace Renderer

variable {plan : Plan} {children : List Renderer} {context : Value}

/-- The element that is put out in one context of its content. -/
def copy (missing : Missing) (plan : Plan) (children : List Renderer) (item : Value) : Node :=
  let element := plan.dressed missing item
  match plan.replacement? missing item with
  | some content => (element.setText content).toNode
  | none =>
    .element element.tag element.attributes
      (element.children ++ renderAll missing children item)

/-- An element is put out once for each context of its content, if it is there. -/
theorem render_element : render missing (.element plan children) context =
    if plan.isPresent context then (plan.contexts context).map (copy missing plan children)
    else [] := by
  rw [render]
  rfl

/-- A copy is the same in both contexts when its content and its children are. -/
theorem copy_mapContent {inners : List Renderer}
    (carries : ∀ access ∈ plan.contentAccesses, Carries missing f inner outer access.path)
    (below : renderAll missing inners inner = renderAll missing children outer) :
    copy missing (plan.mapContent f) inners inner = copy missing plan children outer := by
  simp only [copy, Plan.dressed_mapContent carries, Plan.replacement?_mapContent carries, below]

/-- An element puts out the same in both contexts when its children do, which matters
without a loop only. -/
theorem render_mapOuter_element
    (carries : ∀ access ∈ outerAccesses (.element plan children),
      Carries missing f inner outer access.path)
    (below : (∀ access ∈ outerAccessesAll children, Carries missing f inner outer access.path) →
      renderAll missing (mapOuterAll f children) inner = renderAll missing children outer) :
    render missing (mapOuter f (.element plan children)) inner =
      render missing (.element plan children) outer := by
  rw [outerAccesses] at carries
  have carriesGuard := fun access member => carries access (List.mem_append_left _ member)
  have carriesBody := fun access member => carries access (List.mem_append_right _ member)
  rw [mapOuter]
  cases looped : plan.loop with
  | some path =>
    rw [render_element, render_element, Plan.isPresent_mapGuard carriesGuard,
      Plan.contexts_mapGuard looped carriesGuard]
    rfl
  | none =>
    rw [looped] at carriesBody
    have carriesContent := fun access member => carriesBody access (List.mem_append_left _ member)
    have carriesBelow := fun access member => carriesBody access (List.mem_append_right _ member)
    have present : ((plan.mapContent f).mapGuard f).isPresent inner = plan.isPresent outer :=
      Plan.isPresent_mapGuard carriesGuard
    have once : ((plan.mapContent f).mapGuard f).contexts inner = [inner] := by
      simp only [Plan.contexts, Plan.mapGuard, Plan.mapContent, looped, Option.map_none]
    have copies : copy missing ((plan.mapContent f).mapGuard f) (mapOuterAll f children) inner =
        copy missing plan children outer :=
      copy_mapContent carriesContent (below carriesBelow)
    rw [render_element, render_element, present, once]
    simp only [Plan.contexts, looped, List.map_cons, List.map_nil, copies]

/-- Renderers put out the same in both contexts when all paths that are followed from
there lead to the same data. What stands below a loop does not matter. -/
theorem renderAll_mapOuter {renderers : List Renderer}
    (carries : ∀ access ∈ outerAccessesAll renderers, Carries missing f inner outer access.path) :
    renderAll missing (mapOuterAll f renderers) inner = renderAll missing renderers outer := by
  induction renderers using forestInduction with
  | nil => rfl
  | text content renderers inductionHypothesis =>
    rw [mapOuterAll, mapOuter, renderAll, render, renderAll, render, inductionHypothesis]
    intro access member
    exact carries access (List.mem_append_right _ member)
  | element plan children renderers childrenHypothesis inductionHypothesis =>
    rw [outerAccessesAll] at carries
    have carriesHere := fun access member => carries access (List.mem_append_left _ member)
    have carriesLater := fun access member => carries access (List.mem_append_right _ member)
    rw [mapOuterAll, renderAll, renderAll, inductionHypothesis carriesLater,
      render_mapOuter_element carriesHere childrenHypothesis]

end Renderer

end Simulation

end Templating
