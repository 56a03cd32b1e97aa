import Templating.Form.Template
import Templating.Proofs.Form.Expression
import Templating.Proofs.Form.Markup

/-!
# Reading templates back

The forms of renderers, templates and registries are lawful, and so are those of errors.
A registry is therefore the same after it was kept and reloaded, which `Form.lossless` says
beside the laws of all forms and what is read from a configuration that has lost fields.
-/

namespace Templating

open Form

instance : LawfulForm Binding where
  read?_write binding := by
    unfold instFormBinding
    simp [fields?, List.lookup_cons]

namespace Renderer

/-- The form of an element is read back when those of its children are. -/
theorem elementOfForm?_members (plan : Plan) {children : List Renderer} {forms : List Value}
    (childrenRead : renderersOfItems? forms = some children) :
    elementOfForm? (.object [("bindings", write plan.bindings), ("children", .array forms),
      ("condition", writeOptional plan.condition), ("repeat", writeOptional plan.loop),
      ("shell", write plan.shell), ("text", writeOptional plan.text)]) =
      some (.element plan children) := by
  have condition : optional? (some (writeOptional plan.condition)) = some plan.condition :=
    optional?_writeOptional fun _ isNull => by cases isNull
  have loop : optional? (some (writeOptional plan.loop)) = some plan.loop :=
    optional?_writeOptional fun _ isNull => by cases isNull
  have text : optional? (some (writeOptional plan.text)) = some plan.text :=
    optional?_writeOptional fun _ isNull => by cases isNull
  simp [elementOfForm?, planOfMembers?, childrenOfForm?, renderersOfForm?, List.lookup_cons,
    condition, loop, text, childrenRead]

mutual

/-- The form of a renderer is read back. -/
theorem ofForm?_toForm : ∀ renderer : Renderer, ofForm? renderer.toForm = some renderer
  | .text content => by simp [toForm, writeVariant, ofForm?]
  | .element plan children => by
    have element := elementOfForm?_members plan (renderersOfItems?_toForms children)
    simp [toForm, writeVariant, ofForm?, element]

/-- The forms of some renderers are read back one by one. -/
theorem renderersOfItems?_toForms :
    ∀ renderers : List Renderer, renderersOfItems? (toForms renderers) = some renderers
  | [] => rfl
  | renderer :: renderers => by
    rw [toForms, renderersOfItems?, ofForm?_toForm renderer, renderersOfItems?_toForms renderers]
    rfl

end

end Renderer

instance : LawfulForm Renderer where
  read?_write := Renderer.ofForm?_toForm

instance : LawfulForm Template where
  read?_write template := by
    unfold instFormTemplate
    simp [fields?, List.lookup_cons]

instance : LawfulForm Registry where
  read?_write registry := by
    unfold instFormRegistry
    simp [fields?, List.lookup_cons]

/-- The registry that is reloaded from the form of this one. -/
def Registry.reload? (registry : Registry) : Option Registry :=
  read? (write registry)

/-- Reloading gives back the registry. -/
@[simp] theorem Registry.reload?_eq (registry : Registry) : registry.reload? = some registry :=
  LawfulForm.read?_write registry

instance : LawfulForm Usage where
  read?_write usage := by cases usage <;> rfl

instance : LawfulForm ConditionFault where
  read?_write fault := by
    unfold instFormConditionFault
    cases fault <;> simp [variant?, writeVariant, variantFields?, List.lookup_cons]

instance : LawfulForm TemplateError where
  read?_write error := by
    unfold instFormTemplateError
    cases error <;> simp [variant?, writeVariant, variantFields?, List.lookup_cons]

/-- Nothing is lost in forms: every form is lawful, a reloaded registry answers as before,
and a configuration, like its spelling of directives, is read from whatever fields are
there, with the usual content for the others. -/
theorem Form.lossless :
    (LawfulForm Node ∧ LawfulForm Element ∧ LawfulForm Path ∧ LawfulForm Token ∧
      LawfulForm Interpolation ∧ LawfulForm Operator ∧ LawfulForm Operand ∧
      LawfulForm Condition ∧ LawfulForm Binding ∧ LawfulForm Renderer ∧ LawfulForm Missing ∧
      LawfulForm Directives ∧ LawfulForm Config ∧ LawfulForm Template ∧ LawfulForm Registry ∧
      LawfulForm Swap ∧ LawfulForm Usage ∧ LawfulForm MarkupFault ∧ LawfulForm MarkupError ∧
      LawfulForm ConditionFault ∧ LawfulForm TemplateError) ∧
    (∀ registry : Registry, ∃ reloaded, registry.reload? = some reloaded ∧
      reloaded.config = registry.config ∧
      ∀ name, reloaded.template? name = registry.template? name ∧
        reloaded.paths name = registry.paths name ∧
        ∀ data, reloaded.render name data = registry.render name data) ∧
    (∀ (kept : String → Prop) [DecidablePred kept] (directives : Directives) (form : Value),
      Keeps Directives.fieldNames kept (write directives) form →
        read? form = some (directives.keeping kept)) ∧
    ∀ (kept keptInside : String → Prop) [DecidablePred kept] [DecidablePred keptInside]
      (config : Config) (form spelling : Value),
      Keeps Directives.fieldNames keptInside (write config.directives) spelling →
      Keeps Config.fieldNames kept (config.formAround spelling) form →
        read? form = some (config.keeping kept keptInside) := by
  refine ⟨?_, ?_, ?_, ?_⟩
  · refine ⟨?_, ?_, ?_, ?_, ?_, ?_, ?_, ?_, ?_, ?_, ?_, ?_, ?_, ?_, ?_, ?_, ?_, ?_, ?_, ?_, ?_⟩
    all_goals infer_instance
  · intro registry
    exact ⟨registry, registry.reload?_eq, rfl, fun name => ⟨rfl, rfl, fun data => rfl⟩⟩
  · intro kept _ directives form keeps
    exact Directives.read?_of_keeps kept keeps
  · intro kept keptInside _ _ config form spelling inside keeps
    exact Config.read?_of_keeps kept keptInside inside keeps

/-- Of a configuration, the policy and the lead of directives are left, beside a member
that it does not know. -/
theorem Form.lossless_lead_and_policy :
    (read? (.object [("directives", .object [("prefix", .text "x-")]), ("later", .null),
        ("missing", .text "Raw")]) : Option Config) =
      some ⟨{ Directives.standard with lead := "x-" }, .raw⟩ := by
  have spelled : Keeps Directives.fieldNames (· = "prefix")
      (write (⟨"x-", "each", "content", "when", "fill"⟩ : Directives))
      (.object [("prefix", .text "x-")]) :=
    ⟨⟨_, rfl⟩, by decide⟩
  exact Form.lossless.2.2.2 (fun _ => True) (· = "prefix")
    ⟨⟨"x-", "each", "content", "when", "fill"⟩, .raw⟩ _ _ spelled ⟨⟨_, rfl⟩, by decide⟩

end Templating
