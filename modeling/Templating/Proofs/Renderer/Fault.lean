import Templating.Proofs.Outcome
import Templating.Renderer.Compile

/-!
# First faults

Conditions are read in the order in which they stand in a source, and the first wrong one
counts: `WrittenCondition.FirstFault`. A step that fails with the first wrong one of some
conditions succeeds when all of them are right, by `WrittenCondition.exists_ok_iff`.
-/

namespace Templating

/-- A condition as it stands in a source: the tag of its element, and its expression. -/
structure WrittenCondition where
  tag : String
  expression : String
deriving DecidableEq

namespace WrittenCondition

/-- The condition can be read. -/
def IsRight (condition : WrittenCondition) : Prop :=
  ∃ compiled, Condition.compile condition.expression = .ok compiled

/-- The error of the first wrong condition. -/
inductive FirstFault : List WrittenCondition → TemplateError → Prop
  | intro (before : List WrittenCondition) {after : List WrittenCondition}
      {condition : WrittenCondition} {fault : ConditionFault}
      (right : ∀ other ∈ before, other.IsRight)
      (wrong : Condition.compile condition.expression = .error fault) :
      FirstFault (before ++ condition :: after) (.condition condition.tag fault)

variable {conditions others : List WrittenCondition} {condition : WrittenCondition}
  {error : TemplateError}

/-- Nothing is wrong where there are no conditions. -/
theorem not_firstFault_nil : ¬ FirstFault [] error := by
  intro wrong
  generalize empty : ([] : List WrittenCondition) = conditions at wrong
  cases wrong with
  | intro before right wrong => simp at empty

/-- The first wrong condition is the first one, or else the first wrong one of the others. -/
theorem firstFault_cons_iff : FirstFault (condition :: others) error ↔
    (∃ fault, Condition.compile condition.expression = .error fault ∧
      error = .condition condition.tag fault) ∨ condition.IsRight ∧ FirstFault others error := by
  constructor
  · intro wrong
    generalize whole : condition :: others = conditions at wrong
    cases wrong with
    | intro before right wrong =>
      next after first fault =>
      cases before with
      | nil =>
        obtain ⟨rfl, rfl⟩ := List.cons.inj whole
        exact .inl ⟨fault, wrong, rfl⟩
      | cons head before =>
        obtain ⟨rfl, rfl⟩ := List.cons.inj whole
        obtain ⟨headRight, restRight⟩ := List.forall_mem_cons.1 right
        exact .inr ⟨headRight, .intro before restRight wrong⟩
  · rintro (⟨fault, wrong, rfl⟩ | ⟨right, wrong⟩)
    · exact .intro [] (List.forall_mem_nil _) wrong
    · cases wrong with
      | intro before othersRight wrong =>
        exact .intro (condition :: before) (List.forall_mem_cons.2 ⟨right, othersRight⟩) wrong

/-- The first wrong condition of two runs is that of the first one, or else of the second. -/
theorem firstFault_append_iff : FirstFault (conditions ++ others) error ↔
    FirstFault conditions error ∨
      (∀ other ∈ conditions, other.IsRight) ∧ FirstFault others error := by
  induction conditions with
  | nil => simp [not_firstFault_nil]
  | cons condition conditions inductionHypothesis =>
    rw [List.cons_append, firstFault_cons_iff, firstFault_cons_iff, inductionHypothesis,
      List.forall_mem_cons, and_or_left, ← or_assoc, and_assoc]

/-- Some condition is wrong exactly when there is a first wrong one. -/
theorem exists_firstFault_iff : (∃ error, FirstFault conditions error) ↔
    ∃ condition ∈ conditions, ∃ fault, Condition.compile condition.expression = .error fault := by
  constructor
  · rintro ⟨error, before, right, wrong⟩
    exact ⟨_, List.mem_append_right before List.mem_cons_self, _, wrong⟩
  · rintro ⟨condition, member, fault, wrong⟩
    induction conditions with
    | nil => cases member
    | cons head others inductionHypothesis =>
      cases compiled : Condition.compile head.expression with
      | error headFault => exact ⟨_, firstFault_cons_iff.2 (.inl ⟨headFault, compiled, rfl⟩)⟩
      | ok headCompiled =>
        rcases List.mem_cons.1 member with rfl | later
        · rw [wrong] at compiled
          cases compiled
        · obtain ⟨error, othersWrong⟩ := inductionHypothesis later
          exact ⟨error, firstFault_cons_iff.2 (.inr ⟨⟨headCompiled, compiled⟩, othersWrong⟩)⟩

/-- A step that fails with the first wrong condition succeeds when all conditions are right. -/
theorem exists_ok_iff {α : Type} {outcome : Except TemplateError α}
    (faults : ∀ error, outcome = .error error ↔ FirstFault conditions error) :
    (∃ result, outcome = .ok result) ↔ ∀ condition ∈ conditions, condition.IsRight := by
  constructor
  · rintro ⟨result, succeeds⟩ condition member
    cases compiled : Condition.compile condition.expression with
    | ok conditionCompiled => exact ⟨conditionCompiled, compiled⟩
    | error fault =>
      obtain ⟨error, wrong⟩ := exists_firstFault_iff.2 ⟨condition, member, fault, compiled⟩
      rw [← faults, succeeds] at wrong
      cases wrong
  · intro right
    cases outcome with
    | ok result => exact ⟨result, rfl⟩
    | error error =>
      have first : FirstFault conditions error := (faults error).1 rfl
      obtain ⟨condition, member, fault, wrong⟩ := exists_firstFault_iff.1 ⟨error, first⟩
      obtain ⟨compiled, same⟩ := right condition member
      rw [wrong] at same
      cases same

end WrittenCondition

open WrittenCondition

namespace Condition

variable {tag : String} {expressions : List String}

/-- Expressions are refused for the first wrong one. -/
theorem compileAll_eq_error_iff {error : TemplateError} :
    (compileAll expressions).mapError (.condition tag) = .error error ↔
      FirstFault (expressions.map (WrittenCondition.mk tag)) error := by
  induction expressions with
  | nil => exact iff_of_false nofun not_firstFault_nil
  | cons expression expressions inductionHypothesis =>
    rw [List.map_cons, firstFault_cons_iff, ← inductionHypothesis, compileAll]
    cases compiled : compile expression with
    | error fault =>
      constructor
      · intro same
        exact .inl ⟨fault, rfl, (Except.error.inj same).symm⟩
      · rintro (⟨other, same, rfl⟩ | ⟨⟨condition, right⟩, -⟩)
        · cases same
          rfl
        · cases compiled.symm.trans right
    | ok condition =>
      have right : IsRight ⟨tag, expression⟩ := ⟨condition, compiled⟩
      rw [or_iff_right (by rintro ⟨fault, same, -⟩; cases same), and_iff_right right]
      cases compileAll expressions with
      | error fault => exact Iff.rfl
      | ok conditions => exact iff_of_false nofun nofun

/-- Expressions have conditions when each of them is right. -/
theorem exists_compileAll_iff : (∃ conditions, compileAll expressions = .ok conditions) ↔
    ∀ condition ∈ expressions.map (WrittenCondition.mk tag), condition.IsRight := by
  rw [← exists_ok_iff fun _ => compileAll_eq_error_iff]
  simp only [mapError_eq_ok_iff]

/-- The conditions of expressions are those that the expressions have one by one. -/
theorem compileAll_eq_ok_iff {conditions : List Condition} :
    compileAll expressions = .ok conditions ↔ expressions.map compile = conditions.map .ok := by
  induction expressions generalizing conditions with
  | nil =>
    rw [compileAll, Except.ok.injEq, List.map_nil, List.nil_eq, List.nil_eq, List.map_eq_nil_iff]
  | cons expression expressions inductionHypothesis =>
    rw [compileAll, bind_eq_ok_iff]
    constructor
    · rintro ⟨condition, compiled, more⟩
      obtain ⟨others, othersCompiled, same⟩ := bind_eq_ok_iff.1 more
      cases same
      rw [List.map_cons, compiled, inductionHypothesis.1 othersCompiled, List.map_cons]
    · intro same
      obtain ⟨condition, others, rfl, compiled, othersCompiled⟩ := List.map_eq_cons_iff.1 same.symm
      refine ⟨condition, compiled.symm, ?_⟩
      rw [inductionHypothesis.2 othersCompiled.symm]
      rfl

end Condition

end Templating
