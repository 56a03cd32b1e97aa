import Templating.Proofs.Markup.Overlay
import Templating.Proofs.Renderer.Output

/-!
# Attributes of copies

Each copy of an element has the attributes of the shell with those written over it whose data
is there. `Renderer.render_overlays` says so for all that an element puts out, and that a
binding without data might as well not be there.
-/

namespace Templating

namespace Plan

variable {plan : Plan} {missing : Missing} {item context : Value} {before after : List Binding}
  {binding : Binding}

/-- A binding without data writes nothing. -/
theorem writes_of_absent (bindings : plan.bindings = before ++ binding :: after)
    (absent : (binding.value.evaluate item missing).text? = none) :
    plan.writes missing item = { plan with bindings := before ++ after }.writes missing item := by
  simp [writes, bindings, absent]

end Plan

namespace Renderer

variable {plan : Plan} {inners : List Renderer} {missing : Missing} {item : Value}
  {before after : List Binding} {binding : Binding}

/-- A copy is the same without a binding that has no data. -/
theorem copy_of_absent (bindings : plan.bindings = before ++ binding :: after)
    (absent : (binding.value.evaluate item missing).text? = none) :
    copy missing plan inners item =
      copy missing { plan with bindings := before ++ after } inners item := by
  have sameDressed : plan.dressed missing item =
      { plan with bindings := before ++ after }.dressed missing item := by
    rw [Plan.dressed_eq, Plan.dressed_eq, Plan.writes_of_absent bindings absent]
  rw [copy, copy, sameDressed]
  rfl

/-- The copies of an element have the tag of the shell, and the attributes that come of writing
what is there over those of the shell. A binding that has no data in any copy might as well not
be there. -/
theorem render_overlays (missing : Missing) (plan : Plan) (inners : List Renderer) :
    (∃ (attributes : Value → List Attribute) (children : Value → List Node),
      (∀ context, render missing (.element plan inners) context =
        if plan.isPresent context then
          (plan.contexts context).map fun item =>
            .element plan.shell.tag (attributes item) (children item)
        else []) ∧
      ∀ item found, found = attributes item ↔
        Attribute.Overlays (plan.writes missing item) plan.shell.attributes found) ∧
    ∀ before binding after context, plan.bindings = before ++ binding :: after →
      (∀ item ∈ plan.contexts context, (binding.value.evaluate item missing).text? = none) →
        render missing (.element plan inners) context =
          render missing (.element { plan with bindings := before ++ after } inners) context := by
  refine ⟨?_, ?_⟩
  · have copies : ∀ item, ∃ children, copy missing plan inners item =
        .element plan.shell.tag
          (Attribute.setAll (plan.writes missing item) plan.shell.attributes) children :=
      exists_copy_eq
    choose children copied using copies
    refine ⟨_, children, fun context => ?_, fun item found => Attribute.overlays_iff.symm⟩
    rw [render_element, funext copied]
  · intro before binding after context bindings absent
    have sameCopies : (plan.contexts context).map (copy missing plan inners) =
        (plan.contexts context).map
          (copy missing { plan with bindings := before ++ after } inners) := by
      apply List.map_congr_left
      intro item member
      exact copy_of_absent bindings (absent item member)
    rw [render_element, render_element, sameCopies]
    rfl

/-- A name is written twice, a static one occurs twice, new names are written between them, and
a title has no data: what the element puts out shows the writes over the shell, and the title
might as well not be bound. -/
theorem render_overlays_repeated : ∃ (plan : Plan) (data : Value),
    plan.writes .empty data = [⟨"class", "wide"⟩, ⟨"lang", "en"⟩, ⟨"class", "tall"⟩, ⟨"dir", "ltr"⟩,
      ⟨"lang", "fr"⟩] ∧
    plan.shell.attributes = [⟨"title", "none"⟩, ⟨"class", "a"⟩, ⟨"id", "x"⟩, ⟨"class", "b"⟩] ∧
    Attribute.Overlays (plan.writes .empty data) plan.shell.attributes
      [⟨"title", "none"⟩, ⟨"class", "tall"⟩, ⟨"id", "x"⟩, ⟨"class", "b"⟩, ⟨"lang", "fr"⟩,
        ⟨"dir", "ltr"⟩] ∧
    render .empty (.element plan []) data = [.element "p" [⟨"title", "none"⟩, ⟨"class", "tall"⟩,
      ⟨"id", "x"⟩, ⟨"class", "b"⟩, ⟨"lang", "fr"⟩, ⟨"dir", "ltr"⟩] []] ∧
    render .empty (.element plan []) data =
      render .empty (.element { plan with
        bindings := plan.bindings.filter fun binding => binding.target ≠ "title" } []) data := by
  let bind (target path : String) : Binding := ⟨target, ⟨[.path (.ofText path)]⟩⟩
  let plan : Plan :=
    { shell := ⟨"p", [⟨"title", "none"⟩, ⟨"class", "a"⟩, ⟨"id", "x"⟩, ⟨"class", "b"⟩], []⟩
      loop := none
      text := none
      condition := none
      bindings := [bind "class" "first", bind "lang" "second", bind "title" "absent",
        bind "class" "third", bind "dir" "fourth", bind "lang" "fifth"] }
  let data : Value := .object [("fifth", .text "fr"), ("first", .text "wide"),
    ("fourth", .text "ltr"), ("second", .text "en"), ("third", .text "tall")]
  obtain ⟨⟨attributes, children, rendered, overlays⟩, withoutAbsent⟩ :=
    render_overlays .empty plan []
  have output : render .empty (.element plan []) data = [.element "p" [⟨"title", "none"⟩,
      ⟨"class", "tall"⟩, ⟨"id", "x"⟩, ⟨"class", "b"⟩, ⟨"lang", "fr"⟩, ⟨"dir", "ltr"⟩] []] := by rfl
  have copied := output.symm.trans (rendered data)
  injection copied with sameNode
  injection sameNode with _ sameAttributes
  have absent : ∀ item ∈ plan.contexts data,
      ((bind "title" "absent").value.evaluate item .empty).text? = none :=
    List.forall_mem_singleton.2 rfl
  exact ⟨plan, data, by rfl, by rfl, (overlays data _).1 sameAttributes, output,
    withoutAbsent [bind "class" "first", bind "lang" "second"] _ _ data rfl absent⟩

end Renderer

end Templating
