import Templating.Proofs.Renderer.Spelling
import Templating.Registry

/-!
# Noninterference

Evaluating a template looks at its data through the reported paths only, and of these
only through the ones that do not stand below a loop. `Template.evaluate_eq_of_outerReads`
says so for two evaluations: data in which these paths lead to the same make the same
output.
-/

namespace Templating

namespace Renderer

variable {renderers : List Renderer}

theorem map_read_guardAccesses_append (plan : Plan) :
    (plan.guardAccesses ++ plan.contentAccesses).map Access.read = plan.reads := by
  simp only [Plan.guardAccesses, Plan.contentAccesses, List.map_append, Access.map_read_ofPaths,
    Plan.reads, List.append_assoc]

/-- What is reported is every access. -/
theorem map_read_accessesAll (renderers : List Renderer) :
    (accessesAll renderers).map Access.read = readsAll renderers := by
  induction renderers using forestInduction with
  | nil => rfl
  | text content renderers inductionHypothesis =>
    rw [accessesAll, accesses, readsAll, reads]
    exact inductionHypothesis
  | element plan children renderers childrenHypothesis inductionHypothesis =>
    rw [accessesAll, accesses, readsAll, reads, List.map_append, List.map_append,
      map_read_guardAccesses_append, childrenHypothesis, inductionHypothesis]

/-- Accesses in the context of some renderers are accesses. -/
theorem outerAccessesAll_subset (renderers : List Renderer) :
    outerAccessesAll renderers ⊆ accessesAll renderers := by
  induction renderers using forestInduction with
  | nil => exact List.Subset.refl _
  | text content renderers inductionHypothesis =>
    exact inductionHypothesis
  | element plan children renderers childrenHypothesis inductionHypothesis =>
    intro access member
    rw [outerAccessesAll, outerAccesses] at member
    rw [accessesAll, accesses]
    rcases List.mem_append.1 member with here | later
    · refine List.mem_append_left _ ?_
      rcases List.mem_append.1 here with guard | body
      · exact List.mem_append_left _ (List.mem_append_left _ guard)
      · split at body
        · cases body
        · rcases List.mem_append.1 body with content | below
          · exact List.mem_append_left _ (List.mem_append_right _ content)
          · exact List.mem_append_right _ (childrenHypothesis below)
    · exact List.mem_append_right _ (inductionHypothesis later)

/-- Renderers with spelled paths put out the same for data in which the paths that are
followed from there lead to the same. -/
theorem renderAll_eq_of_outerAccesses (missing : Missing) {data data' : Value}
    (spelled : PathsSpelled renderers)
    (same : ∀ access ∈ outerAccessesAll renderers,
      (Path.ofText access.path.raw).resolve? data = (Path.ofText access.path.raw).resolve? data') :
    renderAll missing renderers data = renderAll missing renderers data' := by
  have carries : ∀ access ∈ outerAccessesAll renderers,
      Carries missing id data data' access.path := by
    intro access member
    have isSpelled := spelled access (outerAccessesAll_subset renderers member)
    have resolves := same access member
    rw [isSpelled.ofText_raw] at resolves
    exact ⟨resolves, fun _ => rfl⟩
  have simulated := renderAll_mapOuter carries
  rw [mapOuterAll_id] at simulated
  exact simulated

end Renderer

namespace Read

/-- Leaving out repetitions loses no read. -/
theorem mem_distinct_iff {read : Read} {reads : List Read} :
    read ∈ distinct reads ↔ read ∈ reads := by
  induction reads with
  | nil => exact Iff.rfl
  | cons first reads inductionHypothesis =>
    rw [distinct, List.mem_cons, List.mem_filter, inductionHypothesis, List.mem_cons]
    by_cases same : read = first
    · simp [same]
    · simp [same]

end Read

namespace Template

variable {template : Template}

/-- The reads that a template makes in its data itself: those of conditions and loops
that stand below no loop, and those of bindings and texts that stand in and below none. -/
def outerReads (template : Template) : List Read :=
  (Renderer.outerAccessesAll template.renderers).map Access.read

/-- What a template reads in its data is reported. -/
theorem outerReads_subset_paths (template : Template) : template.outerReads ⊆ template.paths := by
  intro read member
  obtain ⟨access, accessMember, rfl⟩ := List.mem_map.1 member
  rw [paths, Read.mem_distinct_iff, ← Renderer.map_read_accessesAll]
  exact List.mem_map_of_mem (Renderer.outerAccessesAll_subset _ accessMember)

/-- What a compiled template reads in its data is reported under its name, and data in
which these paths lead to the same evaluate to the same, whatever stands for what is
missing. -/
theorem evaluate_eq_of_outerReads (compiled : template.IsCompiled) :
    (∀ (registry : Registry) (name : String), registry.template? name = some template →
      ∀ read ∈ template.outerReads, read ∈ registry.paths name) ∧
    ∀ (missing : Missing) (data data' : Value),
      (∀ read ∈ template.outerReads,
        (Path.ofText read.path).resolve? data = (Path.ofText read.path).resolve? data') →
      { template with missing }.evaluate data = { template with missing }.evaluate data' := by
  refine ⟨?_, ?_⟩
  · intro registry name registered read member
    rw [Registry.paths, registered]
    exact outerReads_subset_paths template member
  · intro missing data data' same
    refine Renderer.renderAll_eq_of_outerAccesses missing compiled.pathsSpelled ?_
    intro access member
    exact same access.read (List.mem_map_of_mem member)

/-- A name in the data around a loop does not show in the loop, where the name is that of
an item. -/
theorem evaluate_eq_of_outerReads_shadowed :
    ∃ template : Template, template.IsCompiled ∧
      template.outerReads = [⟨"kind", .condition⟩, ⟨"other", .condition⟩, ⟨"items", .loop⟩] ∧
      (∀ read ∈ template.outerReads,
        read ∈ (⟨Catalog.empty.insert "list" template, .standard⟩ : Registry).paths "list") ∧
      template.evaluate (.object [("items", .array [.object [("name", .text "inside")]]),
          ("kind", .text "a"), ("name", .text "outside"), ("other", .text "a")]) =
        template.evaluate (.object [("items", .array [.object [("name", .text "inside")]]),
          ("kind", .text "a"), ("name", .null), ("other", .text "a")]) := by
  have compiled : IsCompiled ⟨[.element
      { shell := ⟨"li", [⟨"class", "entry"⟩], []⟩
        loop := some (.ofText "items")
        text := some ⟨[.path (.ofText "name")]⟩
        condition := some ⟨.ofText "kind", .equal, .path (.ofText "other")⟩
        bindings := [] } [.text "none"]], .empty⟩ :=
    ⟨.standard, .inl ⟨.element "li" [⟨"class", "entry"⟩, ⟨"jt-if", "kind eq other"⟩,
      ⟨"jt-foreach", "items"⟩, ⟨"jt-text", "name"⟩] [.text "none"], by rfl⟩⟩
  refine ⟨_, compiled, by rfl, ?_, ?_⟩
  · exact (evaluate_eq_of_outerReads compiled).1 _ "list" (by rfl)
  · exact (evaluate_eq_of_outerReads compiled).2 .empty _ _ (by decide)

end Template

end Templating
