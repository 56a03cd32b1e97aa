import Templating.Proofs.Form.Template
import Templating.Proofs.Registry.Run
import Templating.Proofs.Renderer.WellFormed

/-!
# Reachable registries

A registry comes from an empty one by adding content and by being kept and reloaded. Each
of these steps leaves the configuration alone and keeps every template as compilation has
made it; `Registry.isWellFormed_of_reachable` says so for all registries that such steps
lead to.
-/

namespace Templating

/-- Content that compiles makes a well-formed template. -/
theorem Source.isWellFormed_of_compile {config : Config} {source : Source} {template : Template}
    (compiled : source.compile config = .ok template) : template.IsWellFormed config := by
  cases source with
  | markup text => exact Template.isWellFormed_of_ofMarkup compiled
  | tree root => exact Template.isWellFormed_of_compile compiled

namespace Registry

/-- The registries that an empty one with this configuration becomes. -/
inductive Reachable (config : Config) : Registry → Prop
  | start : Reachable config (ofConfig config)
  | register {registry : Registry} (prior : Reachable config registry) (call : Registration) :
      Reachable config (registry.after call)
  | reload {registry reloaded : Registry} (prior : Reachable config registry)
      (loaded : registry.reload? = some reloaded) : Reachable config reloaded

/-- All templates are well-formed for the configuration of the registry. -/
def IsWellFormed (registry : Registry) : Prop :=
  ∀ name template, registry.template? name = some template →
    template.IsWellFormed registry.config

variable {config : Config} {registry : Registry}

/-- A call keeps templates well-formed. -/
theorem IsWellFormed.after (isWellFormed : registry.IsWellFormed) (call : Registration) :
    (registry.after call).IsWellFormed := by
  intro name template found
  rw [template?_after, Option.or_eq_some_iff] at found
  rw [config_after]
  obtain before | ⟨-, offered⟩ := found
  · exact isWellFormed name template before
  · exact Source.isWellFormed_of_compile (Registration.offer?_eq_some_iff.1 offered).2

/-- In every reachable registry all templates are well-formed for the configuration that
the registry was made with, whichever way they got there. -/
theorem isWellFormed_of_reachable (reachable : Reachable config registry) :
    registry.config = config ∧ registry.IsWellFormed := by
  induction reachable with
  | start => exact ⟨rfl, nofun⟩
  | register prior call inductionHypothesis =>
    obtain ⟨sameConfig, isWellFormed⟩ := inductionHypothesis
    exact ⟨config_after.trans sameConfig, isWellFormed.after call⟩
  | reload prior loaded inductionHypothesis =>
    rw [reload?_eq] at loaded
    cases loaded
    exact inductionHypothesis

/-- A list is added, and the registry is reloaded. -/
theorem isWellFormed_of_reachable_list :
    Template.IsWellFormed .standard ⟨[.element {
        shell := ⟨"li", [⟨"class", "row"⟩], []⟩
        loop := some ⟨"items", ["items"]⟩
        text := some ⟨[.path ⟨"name", ["name"]⟩]⟩
        condition := some ⟨⟨"kind", ["kind"]⟩, .equal, .literal (.text "a b")⟩
        bindings := [] } []], .empty⟩ := by
  have empty : Reachable .standard (ofConfig .standard) := .start
  have filled := empty.register ⟨"list", .tree (.element "li" [⟨"class", "row"⟩,
    ⟨"jt-foreach", " items "⟩, ⟨"jt-text", "name"⟩, ⟨"jt-if", "kind eq 'a b'"⟩] [.text " "])⟩
  exact (isWellFormed_of_reachable (filled.reload (reload?_eq _))).2 "list" _ rfl

end Registry

end Templating
