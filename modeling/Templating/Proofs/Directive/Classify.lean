import Templating.Directive.Config
import Templating.Markup.Node
import Templating.Proofs.Text.Run

/-!
# What attribute names ask for

`Directives.classify?` looks at the word behind the lead. `classify?_eq_some_iff` says so,
and `directiveOf_eq_binding_iff` says which words bind an attribute, and which one: the
part of the word before its first colon. So the bound attribute has no colon in its name,
and no character that the directive does not have. It may be a directive itself, though:
`exists_binding_of_colon_not_mem` finds one that is, unless the lead has a colon.
-/

namespace Templating.Directives

variable {directives : Directives} {name target : String} {word : List Char}
  {interpolated : Bool}

/-- A name is a directive when a word follows the lead, namely the directive of that
word. -/
theorem classify?_eq_some_iff {directive : Directive} :
    directives.classify? name = some directive ↔
      ∃ word, name.toList = directives.lead.toList ++ word ∧ word ≠ [] ∧
        directives.directiveOf word = directive := by
  rw [classify?]
  cases found : Text.after? directives.lead.toList name.toList with
  | none =>
    constructor
    · intro same
      cases same
    · rintro ⟨word, parts, -, -⟩
      rw [Text.after?_eq_some_iff.2 parts] at found
      cases found
  | some rest =>
    have parts := Text.after?_eq_some_iff.1 found
    have unique : ∀ word, name.toList = directives.lead.toList ++ word → word = rest :=
      fun word other => List.append_cancel_left (other.symm.trans parts)
    cases rest with
    | nil =>
      constructor
      · intro same
        cases same
      · rintro ⟨word, other, nonempty, -⟩
        exact absurd (unique word other) nonempty
    | cons c rest =>
      constructor
      · intro same
        exact ⟨c :: rest, parts, List.cons_ne_nil c rest, Option.some.inj same⟩
      · rintro ⟨word, other, -, rfl⟩
        rw [unique word other]

/-- A word behind the lead is the directive of that word. -/
theorem classify?_ofList_append (nonempty : word ≠ []) :
    directives.classify? (String.ofList (directives.lead.toList ++ word)) =
      some (directives.directiveOf word) :=
  classify?_eq_some_iff.2 ⟨word, String.toList_ofList, nonempty, rfl⟩

/-- What stands before a colon is bound, unless it is the name of the text directive. -/
theorem ite_eq_binding_iff {before : List Char} {flag : Bool} :
    (if before = directives.text.toList then Directive.text flag
      else .binding (String.ofList before) flag) = .binding target interpolated ↔
      target ≠ directives.text ∧ before = target.toList ∧ interpolated = flag := by
  split
  · next isText =>
    constructor
    · nofun
    · rintro ⟨notText, same, -⟩
      exact absurd (String.toList_inj.1 (same.symm.trans isText)) notText
  · next notText =>
    constructor
    · intro same
      cases same
      refine ⟨?_, String.toList_ofList.symm, rfl⟩
      intro isText
      exact notText (by rw [← isText, String.toList_ofList])
    · rintro ⟨-, rfl, rfl⟩
      rw [String.ofList_toList]

/-- A word binds an attribute unless it is one of the other directives. It is cut at its
first colon: what stands before it is bound, and what follows it only says whether the
value is interpolated. -/
theorem directiveOf_eq_binding_iff :
    directives.directiveOf word = .binding target interpolated ↔
      word ≠ directives.loop.toList ∧ word ≠ directives.condition.toList ∧
      target ≠ directives.text ∧ ':' ∉ target.toList ∧
      (word = target.toList ∧ interpolated = false ∨
        ∃ suffix, word = target.toList ++ ':' :: suffix ∧
          interpolated = decide (suffix = directives.suffix.toList)) := by
  rw [directiveOf]
  by_cases isLoop : word = directives.loop.toList
  · rw [if_pos isLoop]
    exact ⟨nofun, fun ⟨notLoop, _⟩ => absurd isLoop notLoop⟩
  by_cases isCondition : word = directives.condition.toList
  · rw [if_neg isLoop, if_pos isCondition]
    exact ⟨nofun, fun ⟨_, notCondition, _⟩ => absurd isCondition notCondition⟩
  rw [if_neg isLoop, if_neg isCondition]
  cases cut : Text.cutAt? [':'] word with
  | none =>
    have noColon := Text.cutAt?_singleton_eq_none_iff.1 cut
    refine ite_eq_binding_iff.trans ⟨?_, ?_⟩
    · rintro ⟨notText, rfl, rfl⟩
      exact ⟨isLoop, isCondition, notText, noColon, .inl ⟨rfl, rfl⟩⟩
    · rintro ⟨-, -, notText, -, ⟨rfl, rfl⟩ | ⟨suffix, rfl, -⟩⟩
      · exact ⟨notText, rfl, rfl⟩
      · exact absurd (by simp) noColon
  | some parts =>
    obtain ⟨before, suffix⟩ := parts
    obtain ⟨rfl, first⟩ := Text.cutAt?_singleton_eq_some_iff.1 cut
    refine ite_eq_binding_iff.trans ⟨?_, ?_⟩
    · rintro ⟨notText, rfl, rfl⟩
      exact ⟨isLoop, isCondition, notText, first, .inr ⟨suffix, rfl, rfl⟩⟩
    · rintro ⟨-, -, notText, noColon, ⟨same, -⟩ | ⟨other, same, rfl⟩⟩
      · exact absurd (by simp [← same]) noColon
      · have cutOther := Text.cutAt?_singleton_eq_some_iff.2 ⟨same, noColon⟩
        rw [cut] at cutOther
        cases cutOther
        exact ⟨notText, rfl, rfl⟩

/-- A bound attribute has no colon in its name. -/
theorem colon_not_mem_of_classify?
    (bound : directives.classify? name = some (.binding target interpolated)) :
    ':' ∉ target.toList := by
  obtain ⟨word, -, -, isBinding⟩ := classify?_eq_some_iff.1 bound
  exact (directiveOf_eq_binding_iff.1 isBinding).2.2.2.1

/-- The name of a bound attribute has no character that the directive has not. -/
theorem subset_of_classify?
    (bound : directives.classify? name = some (.binding target interpolated)) :
    target.toList ⊆ name.toList := by
  obtain ⟨word, parts, -, isBinding⟩ := classify?_eq_some_iff.1 bound
  obtain ⟨-, -, -, -, ⟨rfl, -⟩ | ⟨suffix, rfl, -⟩⟩ := directiveOf_eq_binding_iff.1 isBinding
  · rw [parts]
    exact List.subset_append_right _ _
  · rw [parts]
    exact List.subset_append_of_subset_right _ (List.subset_append_left _ _)

/-- The name under which an attribute is put out: its own one if it is no directive, and
otherwise the one that it binds, if it binds any. -/
def outputName? (directives : Directives) (name : String) : Option String :=
  match directives.classify? name with
  | none => some name
  | some (.binding target _) => some target
  | some _ => none

/-- The name of an attribute that is put out has no character that the source has not. -/
theorem subset_of_outputName? {other : String} (putOut : directives.outputName? name = some other) :
    other.toList ⊆ name.toList := by
  rw [outputName?] at putOut
  split at putOut
  · cases putOut
    exact List.Subset.refl _
  · next bound =>
    cases putOut
    exact subset_of_classify? bound
  · cases putOut

/-- An element without directives. -/
def IsPlain (directives : Directives) (element : Element) : Prop :=
  ∀ entry ∈ element.attributes, directives.classify? entry.name = none

instance (directives : Directives) : DecidablePred directives.IsPlain := fun element =>
  inferInstanceAs
    (Decidable (∀ entry ∈ element.attributes, directives.classify? entry.name = none))

/-- A lead with a colon leads no bound attribute, since there is no colon in the name of
one. -/
theorem classify?_eq_none_of_colon_mem (colon : ':' ∈ directives.lead.toList)
    (bound : directives.classify? name = some (.binding target interpolated)) :
    directives.classify? target = none := by
  cases found : directives.classify? target with
  | none => rfl
  | some directive =>
    obtain ⟨word, parts, -, -⟩ := classify?_eq_some_iff.1 found
    have inTarget : ':' ∈ target.toList := by
      rw [parts]
      exact List.mem_append_left word colon
    exact absurd inTarget (colon_not_mem_of_classify? bound)

/-- With any other lead, some directive binds an attribute that is a directive itself: the
lead stands twice in front of a word which is longer than every word with a meaning. -/
theorem exists_binding_of_colon_not_mem (noColon : ':' ∉ directives.lead.toList) :
    ∃ name target, directives.classify? name = some (.binding target false) ∧
      directives.classify? target ≠ none := by
  let bound := directives.loop.toList.length + directives.condition.toList.length +
    directives.text.toList.length
  obtain ⟨word, wordNoColon, long⟩ : ∃ word : List Char, ':' ∉ word ∧ bound < word.length := by
    refine ⟨List.replicate (bound + 1) 'a', ?_, ?_⟩
    · intro member
      exact absurd (List.eq_of_mem_replicate member) (by decide)
    · rw [List.length_replicate]
      exact Nat.lt_succ_self bound
  have nonempty : word ≠ [] := List.ne_nil_of_length_pos (by omega)
  have isBinding : directives.directiveOf (directives.lead.toList ++ word) =
      .binding (String.ofList (directives.lead.toList ++ word)) false := by
    have different : ∀ short : List Char, short.length ≤ bound →
        directives.lead.toList ++ word ≠ short := by
      rintro short shorter rfl
      rw [List.length_append] at shorter
      omega
    rw [directiveOf_eq_binding_iff, String.toList_ofList]
    refine ⟨different _ (by omega), different _ (by omega), ?_, ?_, .inl ⟨rfl, rfl⟩⟩
    · intro isText
      exact different directives.text.toList (by omega) (by rw [← isText, String.toList_ofList])
    · rw [List.mem_append, not_or]
      exact ⟨noColon, wordNoColon⟩
  refine ⟨_, _, (classify?_ofList_append ?_).trans (congrArg some isBinding), ?_⟩
  · exact List.append_ne_nil_of_right_ne_nil _ nonempty
  · rw [classify?_ofList_append nonempty]
    exact Option.some_ne_none _

end Templating.Directives
