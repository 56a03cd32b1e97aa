import Templating.Proofs.Renderer.Output

/-!
# Bindings

A directive `Binds` an attribute if it does nothing but give an element one more binding,
and it `Sets` the attribute if the output shows it. `Directives.binds_iff` says that this
depends on the name of the directive alone. With the usual directives,
`Directives.standard_binds_named` says what the directive that is meant to bind a name
does: it binds that name if there is no colon in it, and otherwise only what stands before
its first colon.
-/

namespace Templating

namespace Interpolation

/-- The two ways to read a directive's value differ, on the empty text for one. -/
theorem ofDirective_injective {first second : Bool}
    (same : ∀ value, ofDirective first value = ofDirective second value) : first = second := by
  have noTokens : compile "" = ⟨[]⟩ := by
    rw [compile, tokensOf]
    rfl
  have atEmpty := same ""
  rw [ofDirective, ofDirective, noTokens] at atEmpty
  cases first with
  | true =>
    cases second with
    | true => rfl
    | false => exact absurd atEmpty (by decide)
  | false =>
    cases second with
    | true => exact absurd atEmpty (by decide)
    | false => rfl

end Interpolation

namespace Directives

variable {directives : Directives} {name target : String} {interpolated : Bool}

section Insert

variable {value : String} {before after : List Attribute}
  (bound : directives.classify? name = some (.binding target interpolated))
include bound

theorem plainAttributes_insert : directives.plainAttributes (before ++ ⟨name, value⟩ :: after) =
    directives.plainAttributes (before ++ after) := by
  simp [plainAttributes, bound]

theorem loops_insert :
    directives.loops (before ++ ⟨name, value⟩ :: after) = directives.loops (before ++ after) := by
  simp [loops, bound]

theorem texts_insert :
    directives.texts (before ++ ⟨name, value⟩ :: after) = directives.texts (before ++ after) := by
  simp [texts, bound]

theorem conditions_insert :
    directives.conditions (before ++ ⟨name, value⟩ :: after) =
      directives.conditions (before ++ after) := by
  simp [conditions, bound]

theorem bindings_insert : directives.bindings (before ++ ⟨name, value⟩ :: after) =
    directives.bindings before ++
      ⟨target, .ofDirective interpolated value⟩ :: directives.bindings after := by
  simp [bindings, bound]

end Insert

/-- A directive binds an attribute: an element compiles with it as without it, and has one
more binding, between those of the attributes before it and behind it. -/
def Binds (directives : Directives) (name target : String) (interpolated : Bool) : Prop :=
  ∀ tag before after value,
    Plan.compile directives tag (before ++ ⟨name, value⟩ :: after) =
      (Plan.compile directives tag (before ++ after)).map fun plan =>
        { plan with
          bindings := directives.bindings before ++
            ⟨target, .ofDirective interpolated value⟩ :: directives.bindings after }

/-- A directive binds what it is said to bind, and nothing else. -/
theorem binds_iff : directives.Binds name target interpolated ↔
    directives.classify? name = some (.binding target interpolated) := by
  constructor
  · intro binds
    -- An element without other attributes shows how the name is classified.
    have only : ∀ value, directives.bindings [⟨name, value⟩] =
        [⟨target, .ofDirective interpolated value⟩] := by
      intro value
      have compiled : Plan.compile directives "" [⟨name, value⟩] = .ok
          { shell := ⟨"", [], []⟩, loop := none, text := none, condition := none,
            bindings := [⟨target, .ofDirective interpolated value⟩] } := binds "" [] [] value
      obtain ⟨conditions, -, same⟩ := Plan.compile_eq_ok_iff.1 compiled
      exact (congrArg Plan.bindings same).symm
    cases classified : directives.classify? name with
    | none => simp [bindings, classified] at only
    | some directive =>
      cases directive with
      | loop => simp [bindings, classified] at only
      | text flag => simp [bindings, classified] at only
      | condition => simp [bindings, classified] at only
      | binding other flag =>
        simp only [bindings, List.filterMap_cons, classified, List.filterMap_nil, List.cons.injEq,
          Binding.mk.injEq, and_true] at only
        rw [(only "").1, Interpolation.ofDirective_injective fun value => (only value).2]
  · intro bound tag before after value
    rw [Plan.compile, Plan.compile, plainAttributes_insert bound, loops_insert bound,
      texts_insert bound, conditions_insert bound, bindings_insert bound]
    cases Condition.compileAll (directives.conditions (before ++ after)) with
    | error fault => rfl
    | ok conditions => rfl

/-- A directive sets an attribute: where its value is there, every copy of an element that
has the directive has the attribute, and it holds that value unless a later directive
binds the attribute again. -/
def Sets (directives : Directives) (name target : String) (interpolated : Bool) : Prop :=
  ∀ tag before after value plan,
    Plan.compile directives tag (before ++ ⟨name, value⟩ :: after) = .ok plan →
    ∀ missing (inners : List Renderer) context (index : Nat) item content,
      plan.isPresent context = true → (plan.contexts context)[index]? = some item →
      ((Interpolation.ofDirective interpolated value).evaluate item missing).text? =
        some content →
      ∃ attributes children written,
        (Renderer.render missing (.element plan inners) context)[index]? =
          some (.element tag attributes children) ∧
        Attribute.value? target attributes = some written ∧
        ((∀ entry ∈ after, ∀ flag,
          directives.classify? entry.name ≠ some (.binding target flag)) → written = content)

/-- What is bound is set. -/
theorem Binds.sets (binds : directives.Binds name target interpolated) :
    directives.Sets name target interpolated := by
  intro tag before after value plan compiled missing inners context index item content present
    isItem isThere
  have bindings : plan.bindings = directives.bindings before ++
      ⟨target, .ofDirective interpolated value⟩ :: directives.bindings after := by
    rw [binds] at compiled
    obtain ⟨others, -, rfl⟩ := map_eq_ok_iff.1 compiled
    rfl
  have shellTag : plan.shell.tag = tag := by
    obtain ⟨conditions, -, rfl⟩ := Plan.compile_eq_ok_iff.1 compiled
    rfl
  obtain ⟨children, copied⟩ := Renderer.exists_copy_eq item
  obtain ⟨written, isWritten, last⟩ :=
    Plan.exists_value?_setAll_writes bindings isThere plan.shell.attributes
  refine ⟨_, children, written, ?_, isWritten, ?_⟩
  · rw [Renderer.render_element, if_pos present, List.getElem?_map, isItem, Option.map_some, copied,
      shellTag]
  · intro noneLater
    apply last
    intro other member same
    obtain ⟨entry, entryMember, flag, bound, -⟩ := exists_entry_of_mem_bindings member
    rw [same] at bound
    exact noneLater entry entryMember flag bound

/-- The name of the directive that is meant to bind an attribute. -/
def bindingName (directives : Directives) (target : String) (interpolated : Bool) : String :=
  directives.lead ++ target ++ if interpolated then ":" ++ directives.suffix else ""

/-- A name that is not taken for another directive, and does not end as if it asked for
interpolation. -/
structure IsBindable (directives : Directives) (target : String) : Prop where
  nonempty : target ≠ ""
  notLoop : target ≠ directives.loop
  notCondition : target ≠ directives.condition
  notText : target ≠ directives.text
  notTextMode : ¬(directives.text.toList ++ [':']) <+: target.toList
  notSuffixed : ¬(':' :: directives.suffix.toList) <:+ target.toList

instance (directives : Directives) : DecidablePred directives.IsBindable := fun target =>
  decidable_of_iff (target ≠ "" ∧ target ≠ directives.loop ∧ target ≠ directives.condition ∧
      target ≠ directives.text ∧ ¬(directives.text.toList ++ [':']) <+: target.toList ∧
      ¬(':' :: directives.suffix.toList) <:+ target.toList)
    ⟨fun ⟨nonempty, notLoop, notCondition, notText, notTextMode, notSuffixed⟩ =>
        ⟨nonempty, notLoop, notCondition, notText, notTextMode, notSuffixed⟩,
      fun ⟨nonempty, notLoop, notCondition, notText, notTextMode, notSuffixed⟩ =>
        ⟨nonempty, notLoop, notCondition, notText, notTextMode, notSuffixed⟩⟩

/-- A name without a colon is bound as it is. -/
theorem classify?_bindingName (loopNoColon : ':' ∉ directives.loop.toList)
    (conditionNoColon : ':' ∉ directives.condition.toList) (bindable : directives.IsBindable target)
    (noColon : ':' ∉ target.toList) :
    directives.classify? (directives.bindingName target interpolated) =
      some (.binding target interpolated) := by
  have nonempty : target.toList ≠ [] := fun empty => bindable.nonempty (String.toList_eq_nil_iff.1 empty)
  cases interpolated with
  | false =>
    refine classify?_eq_some_iff.2 ⟨target.toList, by simp [bindingName], nonempty, ?_⟩
    rw [directiveOf_eq_binding_iff]
    refine ⟨?_, ?_, bindable.notText, noColon, .inl ⟨rfl, rfl⟩⟩
    · intro isLoop
      exact bindable.notLoop (String.toList_inj.1 isLoop)
    · intro isCondition
      exact bindable.notCondition (String.toList_inj.1 isCondition)
  | true =>
    have colon : ':' ∈ target.toList ++ ':' :: directives.suffix.toList := by simp
    refine classify?_eq_some_iff.2 ⟨target.toList ++ ':' :: directives.suffix.toList,
      by simp [bindingName], by simp, ?_⟩
    rw [directiveOf_eq_binding_iff]
    refine ⟨?_, ?_, bindable.notText, noColon, .inr ⟨_, rfl, by simp⟩⟩
    · intro isLoop
      exact loopNoColon (isLoop ▸ colon)
    · intro isCondition
      exact conditionNoColon (isCondition ▸ colon)

/-- Of a name with a colon, only what stands before the first colon is bound, and it is not
interpolated. -/
theorem classify?_bindingName_of_colon {first rest : String}
    (loopNoColon : ':' ∉ directives.loop.toList)
    (conditionNoColon : ':' ∉ directives.condition.toList)
    (bindable : directives.IsBindable (first ++ ":" ++ rest)) (noColon : ':' ∉ first.toList) :
    directives.classify? (directives.bindingName (first ++ ":" ++ rest) interpolated) =
      some (.binding first false) := by
  let ending := if interpolated then ':' :: directives.suffix.toList else []
  have colon : ':' ∈ first.toList ++ ':' :: (rest.toList ++ ending) := by simp
  have notSuffix : rest.toList ++ ending ≠ directives.suffix.toList := by
    intro same
    cases interpolated with
    | false => exact bindable.notSuffixed ⟨first.toList, by simp [← same, ending]⟩
    | true =>
      have lengths := congrArg List.length same
      simp only [ending, if_true, List.length_append, List.length_cons] at lengths
      omega
  refine classify?_eq_some_iff.2 ⟨first.toList ++ ':' :: (rest.toList ++ ending), ?_, by simp, ?_⟩
  · cases interpolated with
    | false => simp [bindingName, ending]
    | true => simp [bindingName, ending]
  rw [directiveOf_eq_binding_iff]
  refine ⟨?_, ?_, ?_, noColon, .inr ⟨rest.toList ++ ending, rfl, by simp [notSuffix]⟩⟩
  · intro isLoop
    exact loopNoColon (isLoop ▸ colon)
  · intro isCondition
    exact conditionNoColon (isCondition ▸ colon)
  · rintro rfl
    exact bindable.notTextMode ⟨rest.toList, by simp⟩

/-- With the usual directives, a directive is meant to bind each name that is bindable.
Names without a colon are bound, in the mode that is asked for, and are set in the output,
and different ones are never set by the same binding. Of any other name, only what stands
before its first colon is bound, in no mode but the plain one. -/
theorem standard_binds_named (bindable : standard.IsBindable target) :
    (':' ∉ target.toList →
      (∀ interpolated,
        standard.Binds (standard.bindingName target interpolated) target interpolated ∧
        standard.Sets (standard.bindingName target interpolated) target interpolated) ∧
      ∀ other interpolated otherInterpolated bound flag otherFlag,
        standard.IsBindable other → ':' ∉ other.toList →
        standard.Binds (standard.bindingName target interpolated) bound flag →
        standard.Binds (standard.bindingName other otherInterpolated) bound otherFlag →
        target = other) ∧
    ∀ first rest, target = first ++ ":" ++ rest → ':' ∉ first.toList → ∀ interpolated,
      standard.Binds (standard.bindingName target interpolated) first false := by
  have asNamed : ∀ target, standard.IsBindable target → ':' ∉ target.toList → ∀ interpolated,
      standard.classify? (standard.bindingName target interpolated) =
        some (.binding target interpolated) :=
    fun target bindable noColon interpolated =>
      classify?_bindingName (by decide) (by decide) bindable noColon
  refine ⟨fun noColon => ⟨fun interpolated => ?_, ?_⟩, ?_⟩
  · have binds := binds_iff.2 (asNamed target bindable noColon interpolated)
    exact ⟨binds, binds.sets⟩
  · intro other interpolated otherInterpolated bound flag otherFlag otherBindable otherNoColon
      binds otherBinds
    have classified := binds_iff.1 binds
    have otherClassified := binds_iff.1 otherBinds
    rw [asNamed target bindable noColon] at classified
    rw [asNamed other otherBindable otherNoColon] at otherClassified
    cases classified
    cases otherClassified
    rfl
  · rintro first rest rfl noColon interpolated
    exact binds_iff.2 (classify?_bindingName_of_colon (by decide) (by decide) bindable noColon)

/-- A link shows the address that it is bound to, and not the one that it has without
data. -/
theorem standard_binds_href :
    standard.IsBindable "href" ∧ standard.bindingName "href" false = "jt-href" ∧
      standard.Binds "jt-href" "href" false ∧
      ∃ attributes children,
        (Renderer.render .empty (.element
            { shell := ⟨"a", [⟨"href", "#"⟩], []⟩
              loop := none
              text := none
              condition := none
              bindings := [⟨"href", ⟨[.path (.ofText "url")]⟩⟩] } [])
            (.object [("url", .text "/users/7")]))[0]? = some (.element "a" attributes children) ∧
          Attribute.value? "href" attributes = some "/users/7" := by
  have bindable : standard.IsBindable "href" := by decide
  obtain ⟨binds, sets⟩ := ((standard_binds_named bindable).1 (by decide)).1 false
  obtain ⟨attributes, children, written, shown, isWritten, last⟩ :=
    sets "a" [] [⟨"href", "#"⟩] "url" _ rfl .empty [] (.object [("url", .text "/users/7")]) 0 _
      "/users/7" rfl rfl rfl
  rw [last (by decide)] at isWritten
  exact ⟨bindable, rfl, binds, attributes, children, shown, isWritten⟩

/-- A name with a prefix is not bound: two directives for different names of a namespace
both bind the namespace. -/
theorem standard_not_binds_namespaced :
    standard.IsBindable "xlink:href" ∧ standard.IsBindable "xlink:title" ∧
      ¬standard.Binds (standard.bindingName "xlink:href" false) "xlink:href" false ∧
      ¬standard.Binds (standard.bindingName "xlink:href" true) "xlink:href" true ∧
      standard.Binds (standard.bindingName "xlink:href" false) "xlink" false ∧
      standard.Binds (standard.bindingName "xlink:title" false) "xlink" false := by
  simp only [binds_iff]
  decide

end Directives

end Templating
