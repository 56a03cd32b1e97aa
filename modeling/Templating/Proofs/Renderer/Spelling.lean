import Templating.Proofs.Renderer.WellFormed

/-!
# Spelled paths

Every path of a compiled renderer is read from text, so its spelling says what it leads
to. `Template.IsCompiled.pathsSpelled` says so for whole templates: their renderers are
well-formed, and so the paths of all accesses are spelled.
-/

namespace Templating

namespace Access

/-- The paths of all accesses are spelled. -/
def AllSpelled (accesses : List Access) : Prop :=
  ∀ access ∈ accesses, access.path.IsSpelled

theorem allSpelled_append {first second : List Access} :
    AllSpelled (first ++ second) ↔ AllSpelled first ∧ AllSpelled second :=
  List.forall_mem_append

theorem allSpelled_ofPaths {usage : Usage} {paths : List Path} :
    AllSpelled (ofPaths usage paths) ↔ ∀ path ∈ paths, path.IsSpelled :=
  List.forall_mem_map

end Access

namespace Plan

open Access (AllSpelled)

variable {directives : Directives} {plan : Plan}

/-- The condition and the loop of a well-formed element have spelled paths. -/
theorem IsWellFormed.allSpelled_guardAccesses (isWellFormed : plan.IsWellFormed directives) :
    AllSpelled plan.guardAccesses := by
  refine Access.allSpelled_append.2 ⟨?_, ?_⟩
  · apply Access.allSpelled_ofPaths.2
    intro path member
    obtain ⟨condition, isCondition, isPath⟩ := List.mem_flatMap.1 member
    exact (isWellFormed.condition condition (Option.mem_toList.1 isCondition)).pathsSpelled path
      isPath
  · apply Access.allSpelled_ofPaths.2
    intro path isLoop
    exact (isWellFormed.loop path (Option.mem_toList.1 isLoop)).isSpelled

/-- The bindings and the text of a well-formed element have spelled paths. -/
theorem IsWellFormed.allSpelled_contentAccesses (isWellFormed : plan.IsWellFormed directives) :
    AllSpelled plan.contentAccesses := by
  refine Access.allSpelled_append.2 ⟨?_, ?_⟩
  · apply Access.allSpelled_ofPaths.2
    intro path member
    obtain ⟨binding, bindingMember, isPath⟩ := List.mem_flatMap.1 member
    exact (isWellFormed.bindings binding bindingMember).pathsSpelled path isPath
  · apply Access.allSpelled_ofPaths.2
    intro path member
    obtain ⟨text, isText, isPath⟩ := List.mem_flatMap.1 member
    exact (isWellFormed.text text (Option.mem_toList.1 isText)).pathsSpelled path isPath

end Plan

namespace Renderer

open Access (AllSpelled)

variable {directives : Directives} {renderers : List Renderer}

/-- All paths of some renderers, below loops as well, are spelled. -/
def PathsSpelled (renderers : List Renderer) : Prop :=
  AllSpelled (accessesAll renderers)

theorem pathsSpelled_element_iff {plan : Plan} {children : List Renderer} :
    PathsSpelled (.element plan children :: renderers) ↔
      ((AllSpelled plan.guardAccesses ∧ AllSpelled plan.contentAccesses) ∧
        PathsSpelled children) ∧ PathsSpelled renderers := by
  rw [PathsSpelled, accessesAll, accesses, Access.allSpelled_append, Access.allSpelled_append,
    Access.allSpelled_append]
  exact Iff.rfl

/-- The paths of well-formed renderers are spelled. -/
theorem AllWellFormed.pathsSpelled (allWellFormed : AllWellFormed directives renderers) :
    PathsSpelled renderers := by
  induction allWellFormed with
  | nil => exact nofun
  | text filled later inductionHypothesis => exact inductionHypothesis
  | element here below later belowHypothesis inductionHypothesis =>
    exact pathsSpelled_element_iff.2
      ⟨⟨⟨here.allSpelled_guardAccesses, here.allSpelled_contentAccesses⟩, belowHypothesis⟩,
        inductionHypothesis⟩

end Renderer

namespace Template

/-- The template is one that compilation makes, of a tree or of markup. -/
def IsCompiled (template : Template) : Prop :=
  ∃ config, (∃ root, compile config root = .ok template) ∨
    ∃ markup, ofMarkup config markup = .ok template

/-- All paths of a compiled template are spelled. -/
theorem IsCompiled.pathsSpelled {template : Template} (compiled : template.IsCompiled) :
    Renderer.PathsSpelled template.renderers := by
  obtain ⟨config, ⟨root, rootCompiled⟩ | ⟨markup, markupCompiled⟩⟩ := compiled
  · exact (isWellFormed_of_compile rootCompiled).renderers.pathsSpelled
  · exact (isWellFormed_of_ofMarkup markupCompiled).renderers.pathsSpelled

end Template

end Templating
