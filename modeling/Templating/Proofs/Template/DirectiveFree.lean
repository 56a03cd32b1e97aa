import Templating.Proofs.Renderer.Binding

/-!
# Directives in the output

The output has no directives, except that a binding may bind one: the name that is left
of a directive is not looked at again. `Template.evaluate_isPlain` says that nothing else
makes a directive of the output, and that the exception can be ruled out by the spelling
alone only if there is a colon in the lead.
-/

namespace Templating

namespace Directives

/-- An element none of whose bindings binds a directive. -/
def BindsPlain (directives : Directives) (element : Element) : Prop :=
  ∀ entry ∈ element.attributes, ∀ target interpolated,
    directives.classify? entry.name = some (.binding target interpolated) →
      directives.classify? target = none

/-- No binding binds a directive when no attribute is put out under the name of one. -/
theorem bindsPlain_iff {directives : Directives} {element : Element} :
    directives.BindsPlain element ↔ ∀ entry ∈ element.attributes,
      ∀ name ∈ directives.outputName? entry.name, directives.classify? name = none := by
  constructor
  · intro bindsPlain entry member name putOut
    rw [Option.mem_def, outputName?] at putOut
    split at putOut
    · next unclassified =>
      cases putOut
      exact unclassified
    · next bound =>
      cases putOut
      exact bindsPlain entry member _ _ bound
    · cases putOut
  · intro putOutPlain entry member target interpolated bound
    exact putOutPlain entry member target (by rw [outputName?, bound, Option.mem_def])

instance (directives : Directives) : DecidablePred directives.BindsPlain := fun _ =>
  decidable_of_iff _ bindsPlain_iff.symm

end Directives

namespace Template

variable {directives : Directives} {missing : Missing} {root : Node} {template : Template}

/-- The output has no directives if no binding binds one. -/
theorem everywhereAll_isPlain_evaluate (compiled : compile ⟨directives, missing⟩ root = .ok template)
    (bindPlain : Node.EverywhereAll directives.BindsPlain (Renderer.content root)) (data : Value) :
    Node.EverywhereAll directives.IsPlain (template.evaluate data) := by
  obtain ⟨renderersCompiled, -⟩ := compile_eq_ok_iff.1 compiled
  have source : Node.EverywhereAll (fun element => True ∧ ∀ entry ∈ element.attributes, ∀ name,
      directives.outputName? entry.name = some name → directives.classify? name = none)
      (Renderer.content root) :=
    bindPlain.mono fun element bindsPlain => ⟨trivial, Directives.bindsPlain_iff.1 bindsPlain⟩
  have made := Renderer.madeOf_renderAll_of_names (fun _ => True)
    (fun name => directives.classify? name = none) source renderersCompiled template.missing data
  exact made.everywhereAll.mono fun element ⟨_, arePlain⟩ => arePlain

/-- A bound attribute is put out by some template. -/
theorem exists_evaluate_eq_of_binding {name target : String}
    (bound : directives.classify? name = some (.binding target false)) (missing : Missing) :
    ∃ template, compile ⟨directives, missing⟩ (.element "p" [⟨name, "."⟩] []) = .ok template ∧
      template.evaluate (.bool true) = [.element "p" [⟨target, "true"⟩] []] := by
  have planCompiled := Directives.binds_iff.2 bound "p" [] [] "."
  have elementCompiled : Renderer.compileAll directives [.element "p" [⟨name, "."⟩] []] =
      .ok [.element
        { shell := ⟨"p", [], []⟩
          loop := none
          text := none
          condition := none
          bindings := [⟨target, ⟨[.path (.ofText ".")]⟩⟩] } []] :=
    Renderer.compileAll_element_eq_ok_iff.2
      ⟨_, [], [], planCompiled, Renderer.compileAll_nil, Renderer.compileAll_nil, by rfl⟩
  exact ⟨⟨_, missing⟩, compile_eq_ok_iff.2 ⟨elementCompiled, rfl⟩, by rfl⟩

/-- The output has no directives if no binding binds one. Whether this is so for every
template depends on the lead of the directives: it must have a colon. -/
theorem evaluate_isPlain (directives : Directives) :
    (∀ missing root template, compile ⟨directives, missing⟩ root = .ok template →
      Node.EverywhereAll directives.BindsPlain (Renderer.content root) →
        ∀ data, Node.EverywhereAll directives.IsPlain (template.evaluate data)) ∧
    ((∀ missing root template, compile ⟨directives, missing⟩ root = .ok template →
      ∀ data, Node.EverywhereAll directives.IsPlain (template.evaluate data)) ↔
        ':' ∈ directives.lead.toList) := by
  refine ⟨fun missing root template => everywhereAll_isPlain_evaluate, ?_, ?_⟩
  · intro everyPlain
    by_contra noColon
    obtain ⟨name, target, bound, isDirective⟩ :=
      Directives.exists_binding_of_colon_not_mem noColon
    obtain ⟨template, compiled, output⟩ := exists_evaluate_eq_of_binding bound .empty
    have plain := everyPlain .empty _ template compiled (.bool true)
    rw [output, Node.everywhereAll_element] at plain
    exact isDirective (plain.1.1 _ List.mem_cons_self)
  · intro colon missing root template compiled data
    have bindsPlain : ∀ element, directives.BindsPlain element :=
      fun element entry member target interpolated => Directives.classify?_eq_none_of_colon_mem colon
    exact everywhereAll_isPlain_evaluate compiled (Node.everywhereAll_of_forall bindsPlain _) data

/-- A list that is made with directives has none of them in its output, even if the data
spells one. -/
theorem evaluate_isPlain_list :
    ∃ template : Template,
      compile .standard (.element "ul" [] [.element "li"
        [⟨"jt-foreach", "items"⟩, ⟨"jt-title", "name"⟩, ⟨"jt-text", "name"⟩] []]) = .ok template ∧
      Node.EverywhereAll Directives.standard.IsPlain
        (template.evaluate (.object [("items", .array [.object [("name", .text "jt-if")]])])) := by
  have compiled : compile .standard (.element "ul" [] [.element "li"
      [⟨"jt-foreach", "items"⟩, ⟨"jt-title", "name"⟩, ⟨"jt-text", "name"⟩] []]) =
        .ok ⟨[.element
          { shell := ⟨"ul", [], []⟩, loop := none, text := none, condition := none, bindings := [] }
          [.element
            { shell := ⟨"li", [], []⟩
              loop := some (.ofText "items")
              text := some ⟨[.path (.ofText "name")]⟩
              condition := none
              bindings := [⟨"title", ⟨[.path (.ofText "name")]⟩⟩] } []]], .empty⟩ := by rfl
  exact ⟨_, compiled, (evaluate_isPlain .standard).1 .empty _ _ compiled (by decide) _⟩

/-- A directive of a directive is put out as that directive. -/
theorem evaluate_not_isPlain_condition :
    ∃ template : Template,
      compile .standard (.element "p" [⟨"jt-jt-if", "a"⟩] []) = .ok template ∧
      template.evaluate (.object [("a", .text "x")]) = [.element "p" [⟨"jt-if", "x"⟩] []] ∧
      Directives.standard.classify? "jt-if" = some .condition := by
  have compiled : compile .standard (.element "p" [⟨"jt-jt-if", "a"⟩] []) =
      .ok ⟨[.element
        { shell := ⟨"p", [], []⟩
          loop := none
          text := none
          condition := none
          bindings := [⟨"jt-if", ⟨[.path (.ofText "a")]⟩⟩] } []], .empty⟩ := by rfl
  exact ⟨_, compiled, by rfl, by decide⟩

end Template

end Templating
