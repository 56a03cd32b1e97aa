import Mathlib.Data.String.Basic
import Mathlib.Order.Compare
import Mathlib.Order.Defs.LinearOrder
import Templating.Condition.Compile
import Templating.Condition.Evaluate
import Templating.Proofs.Value.Equality

/-!
# Comparisons

The six comparisons are those of a linear order, on numbers by their keys and on texts by
code points; other data have no order, and are equal or not. `Operator.Relates` is what a
comparison says in any linear order. `Operator.holds_number_iff`, `Operator.holds_text_iff`
and `Operator.holds_eq_false_of_not_comparable` reduce every comparison of data to it or to
equality, and the laws follow from those of linear orders: `Condition.comparisons_consistent`.
-/

namespace Templating

namespace Value

/-- Two numbers, or two texts. -/
inductive Comparable : Value → Value → Prop
  | numbers (left right : Number) : Comparable (.number left) (.number right)
  | texts (left right : String) : Comparable (.text left) (.text right)

theorem Comparable.symm {left right : Value} (comparable : Comparable left right) :
    Comparable right left := by
  cases comparable with
  | numbers left right => exact .numbers right left
  | texts left right => exact .texts right left

/-- Exactly the comparable data have an order. -/
theorem compare?_eq_none_iff {left right : Value} :
    left.compare? right = none ↔ ¬ Comparable left right := by
  rw [compare?.eq_def]
  split
  · simp [Comparable.numbers]
  · simp [Comparable.texts]
  · next notNumbers notTexts =>
    refine iff_of_true rfl ?_
    rintro (⟨left, right⟩ | ⟨left, right⟩)
    · exact notNumbers left right rfl rfl
    · exact notTexts left right rfl rfl

/-- What equality looks at: the key of a number, and everything else but the signs of zeros
for other data. -/
def equalityKey : Value → Int ⊕ Value
  | .number value => .inl value.key
  | value => .inr value.settled

/-- Data are equal for conditions when equality sees the same. -/
theorem looselyEqual_iff {left right : Value} :
    left.looselyEqual right = true ↔ left.equalityKey = right.equalityKey := by
  rw [looselyEqual.eq_def]
  split
  · simp [equalityKey]
  · next notNumbers =>
    rw [same_iff]
    cases left with
    | number left =>
      cases right with
      | number right => exact absurd rfl (notNumbers left right rfl)
      | _ => simp [equalityKey, settled]
    | _ =>
      cases right with
      | number right => simp [equalityKey, settled]
      | _ => simp [equalityKey]

/-- Data that are not comparable are equal when they are the same but for the signs of
zeros. -/
theorem looselyEqual_of_not_comparable {left right : Value} (apart : ¬ Comparable left right) :
    left.looselyEqual right = true ↔ left.settled = right.settled := by
  rw [looselyEqual.eq_def]
  split
  · exact absurd (.numbers _ _) apart
  · exact same_iff _ _

end Value

namespace Operator

/-- What a comparison says in a linear order. -/
def Relates {α : Type} [LinearOrder α] (operator : Operator) (left right : α) : Prop :=
  match operator with
  | .equal => left = right
  | .different => left ≠ right
  | .greater => right < left
  | .less => left < right
  | .atLeast => right ≤ left
  | .atMost => left ≤ right

/-- The comparisons that need an order. -/
def orderings : List Operator :=
  [.greater, .less, .atLeast, .atMost]

section Relates

variable {α : Type} [LinearOrder α] {operator : Operator} {left right : α}

/-- An ordering by comparison says what it says in the order. -/
theorem relates_iff_compare : operator.Relates left right ↔
    match operator with
    | .equal => compare left right = .eq
    | .different => compare left right ≠ .eq
    | .greater => compare left right = .gt
    | .less => compare left right = .lt
    | .atLeast => compare left right = .gt ∨ compare left right = .eq
    | .atMost => compare left right = .lt ∨ compare left right = .eq := by
  cases operator with
  | equal => exact compare_eq_iff_eq.symm
  | different => exact compare_eq_iff_eq.symm.not
  | greater => exact compare_gt_iff_gt.symm
  | less => exact compare_lt_iff_lt.symm
  | atLeast =>
    simp only [compare_gt_iff_gt, compare_eq_iff_eq]
    exact le_iff_lt_or_eq.trans (or_congr_right eq_comm)
  | atMost =>
    simp only [compare_lt_iff_lt, compare_eq_iff_eq]
    exact le_iff_lt_or_eq

/-- The comparison that an ordering is the outcome of. -/
def ofOrdering : Ordering → Operator
  | .lt => less
  | .eq => equal
  | .gt => greater

/-- Of three comparisons, exactly the one of their outcome relates two things. -/
theorem relates_iff_eq_ofOrdering (isOutcome : operator ∈ [less, equal, greater]) :
    operator.Relates left right ↔ operator = ofOrdering (compare left right) := by
  rw [relates_iff_compare]
  simp only [List.mem_cons, List.not_mem_nil, or_false] at isOutcome
  rcases isOutcome with rfl | rfl | rfl
  · cases compare left right <;> simp [ofOrdering]
  · cases compare left right <;> simp [ofOrdering]
  · cases compare left right <;> simp [ofOrdering]

/-- Not below is above or equal. -/
theorem relates_atLeast_iff : atLeast.Relates left right ↔
    greater.Relates left right ∨ equal.Relates left right :=
  le_iff_lt_or_eq.trans (or_congr_right eq_comm)

/-- Not above is below or equal. -/
theorem relates_atMost_iff : atMost.Relates left right ↔
    less.Relates left right ∨ equal.Relates left right :=
  le_iff_lt_or_eq

/-- What is below, or not above, stays so. -/
theorem Relates.trans {last : α} (isUpward : operator ∈ [less, atMost])
    (first : operator.Relates left right) (second : operator.Relates right last) :
    operator.Relates left last := by
  simp only [List.mem_cons, List.not_mem_nil, or_false] at isUpward
  rcases isUpward with rfl | rfl
  · exact lt_trans first second
  · exact le_trans first second

end Relates

section Holds

variable {operator : Operator}

/-- Numbers are compared by their keys. -/
theorem holds_number_iff {left right : Number} :
    operator.holds (.number left) (.number right) = true ↔ operator.Relates left.key right.key := by
  rw [relates_iff_compare]
  cases operator with
  | equal => simp [holds, Value.looselyEqual]
  | different => simp [holds, Value.looselyEqual]
  | greater => simp [holds, Value.compare?]
  | less => simp [holds, Value.compare?]
  | atLeast => simp [holds, Value.compare?]
  | atMost => simp [holds, Value.compare?]

/-- Texts are compared by code points. -/
theorem holds_text_iff {left right : String} :
    operator.holds (.text left) (.text right) = true ↔ operator.Relates left right := by
  rw [relates_iff_compare]
  cases operator with
  | equal => simp [holds, Value.looselyEqual, Value.same]
  | different => simp [holds, Value.looselyEqual, Value.same]
  | greater => simp [holds, Value.compare?]
  | less => simp [holds, Value.compare?]
  | atLeast => simp [holds, Value.compare?]
  | atMost => simp [holds, Value.compare?]

/-- Data that are not comparable have no order. -/
theorem holds_eq_false_of_not_comparable {left right : Value}
    (isOrdering : operator ∈ orderings) (apart : ¬ Value.Comparable left right) :
    operator.holds left right = false := by
  have noOrder : left.compare? right = none := Value.compare?_eq_none_iff.2 apart
  simp only [orderings, List.mem_cons, List.not_mem_nil, or_false] at isOrdering
  rcases isOrdering with rfl | rfl | rfl | rfl <;> simp [holds, noOrder]

/-- Only comparable data are in an order. -/
theorem comparable_of_holds {left right : Value} (isOrdering : operator ∈ orderings)
    (holds : operator.holds left right = true) : Value.Comparable left right := by
  by_contra apart
  rw [holds_eq_false_of_not_comparable isOrdering apart] at holds
  cases holds

variable {left right last : Value}

/-- One thing is less than another one when that is greater. -/
theorem less_holds_eq (left right : Value) : less.holds left right = greater.holds right left := by
  rw [Bool.eq_iff_iff]
  by_cases comparable : Value.Comparable left right
  · cases comparable with
    | numbers left right => rw [holds_number_iff, holds_number_iff, Relates, Relates]
    | texts left right => rw [holds_text_iff, holds_text_iff, Relates, Relates]
  · rw [holds_eq_false_of_not_comparable (by decide) comparable,
      holds_eq_false_of_not_comparable (by decide) fun other => comparable other.symm]

/-- Of three comparisons, exactly one holds between comparable data. -/
theorem existsUnique_holds (comparable : Value.Comparable left right) :
    ∃! operator : Operator,
      operator ∈ [less, equal, greater] ∧ operator.holds left right = true := by
  obtain ⟨ordering, outcome⟩ : ∃ ordering, ∀ operator ∈ [less, equal, greater],
      operator.holds left right = true ↔ operator = ofOrdering ordering := by
    cases comparable with
    | numbers left right =>
      exact ⟨_, fun operator member => holds_number_iff.trans (relates_iff_eq_ofOrdering member)⟩
    | texts left right =>
      exact ⟨_, fun operator member => holds_text_iff.trans (relates_iff_eq_ofOrdering member)⟩
  have isOutcome : ofOrdering ordering ∈ [less, equal, greater] := by
    cases ordering <;> decide
  refine ⟨ofOrdering ordering, ⟨isOutcome, (outcome _ isOutcome).2 rfl⟩, ?_⟩
  rintro other ⟨member, holds⟩
  exact (outcome other member).1 holds

/-- Comparable data are not below when they are above or equal. -/
theorem atLeast_holds_iff (comparable : Value.Comparable left right) :
    atLeast.holds left right = true ↔
      greater.holds left right = true ∨ equal.holds left right = true := by
  cases comparable with
  | numbers left right => simp only [holds_number_iff, relates_atLeast_iff]
  | texts left right => simp only [holds_text_iff, relates_atLeast_iff]

/-- Comparable data are not above when they are below or equal. -/
theorem atMost_holds_iff (comparable : Value.Comparable left right) :
    atMost.holds left right = true ↔
      less.holds left right = true ∨ equal.holds left right = true := by
  cases comparable with
  | numbers left right => simp only [holds_number_iff, relates_atMost_iff]
  | texts left right => simp only [holds_text_iff, relates_atMost_iff]

/-- What is below, or not above, stays so. -/
theorem holds_trans (isUpward : operator ∈ [less, atMost])
    (first : operator.holds left right = true) (second : operator.holds right last = true) :
    operator.holds left last = true := by
  have isOrdering : operator ∈ orderings := by
    revert isUpward
    cases operator <;> decide
  -- All three are numbers, or all three are texts, for they are comparable in pairs.
  have comparable := comparable_of_holds isOrdering first
  have next := comparable_of_holds isOrdering second
  cases comparable with
  | numbers left right =>
    cases next with
    | numbers right last =>
      rw [holds_number_iff] at first second ⊢
      exact first.trans isUpward second
  | texts left right =>
    cases next with
    | texts right last =>
      rw [holds_text_iff] at first second ⊢
      exact first.trans isUpward second

/-- Equality is reflexive, symmetric and transitive. -/
theorem equivalence_equal_holds :
    Equivalence fun left right => equal.holds left right = true where
  refl _ := Value.looselyEqual_iff.2 rfl
  symm same := Value.looselyEqual_iff.2 (Value.looselyEqual_iff.1 same).symm
  trans first second := Value.looselyEqual_iff.2
    ((Value.looselyEqual_iff.1 first).trans (Value.looselyEqual_iff.1 second))

/-- Texts are ordered by their first code points that differ. -/
theorem less_holds_text_iff {left right : String} :
    less.holds (.text left) (.text right) = true ↔
      List.Lex (fun c d => c.toNat < d.toNat) left.toList right.toList := by
  rw [holds_text_iff, Relates, String.lt_iff_toList_lt]
  exact Iff.rfl

end Holds

end Operator

namespace Condition

variable {condition : Condition} {context left right : Value}

/-- A condition whose sides are there compares what they lead to. -/
theorem holds_of_resolve (leftThere : condition.left.resolve? context = some left)
    (rightThere : condition.right.resolve? context = some right) :
    condition.holds context = condition.operator.holds left right := by
  rw [holds, leftThere, rightThere]

/-- A condition with an absent side does not hold. -/
theorem holds_of_absent (absent : condition.left.resolve? context = none ∨
    condition.right.resolve? context = none) : condition.holds context = false := by
  rw [holds]
  rcases absent with leftAbsent | rightAbsent
  · rw [leftAbsent]
  · rw [rightAbsent]
    cases condition.left.resolve? context <;> rfl

/-- A condition compares what its sides lead to, and does not hold if one of them is absent.
Equality is an equivalence, and the other comparisons are the orders of numbers and of texts:
of less, equal and greater exactly one holds, and the others follow. There is no order
between other data, which are equal when they are the same but for the signs of zeros. -/
theorem comparisons_consistent :
    (∀ (condition : Condition) context left right,
      condition.left.resolve? context = some left → condition.right.resolve? context = some right →
        condition.holds context = condition.operator.holds left right) ∧
    (∀ (condition : Condition) context,
      condition.left.resolve? context = none ∨ condition.right.resolve? context = none →
        condition.holds context = false) ∧
    (Equivalence fun left right => Operator.equal.holds left right = true) ∧
    (∀ left right, Operator.different.holds left right = !Operator.equal.holds left right) ∧
    (∀ left right, Operator.less.holds left right = Operator.greater.holds right left) ∧
    (∀ left right, Value.Comparable left right →
      (∃! operator, operator ∈ [Operator.less, .equal, .greater] ∧
        operator.holds left right = true) ∧
      (Operator.atLeast.holds left right = true ↔
        Operator.greater.holds left right = true ∨ Operator.equal.holds left right = true) ∧
      (Operator.atMost.holds left right = true ↔
        Operator.less.holds left right = true ∨ Operator.equal.holds left right = true)) ∧
    (∀ operator ∈ [Operator.less, .atMost], ∀ left right last, operator.holds left right = true →
      operator.holds right last = true → operator.holds left last = true) ∧
    (∀ left right, ¬ Value.Comparable left right →
      (∀ operator ∈ Operator.orderings, operator.holds left right = false) ∧
      (Operator.equal.holds left right = true ↔ left.settled = right.settled)) ∧
    (∀ left right : String, Operator.less.holds (.text left) (.text right) = true ↔
      List.Lex (fun c d => c.toNat < d.toNat) left.toList right.toList) := by
  refine ⟨fun _ _ _ _ => holds_of_resolve, fun _ _ => holds_of_absent,
    Operator.equivalence_equal_holds, fun _ _ => rfl, Operator.less_holds_eq, ?comparable,
    fun _ isUpward _ _ _ => Operator.holds_trans isUpward, ?apart,
    fun _ _ => Operator.less_holds_text_iff⟩
  case comparable =>
    intro left right comparable
    exact ⟨Operator.existsUnique_holds comparable, Operator.atLeast_holds_iff comparable,
      Operator.atMost_holds_iff comparable⟩
  case apart =>
    intro left right apart
    exact ⟨fun _ isOrdering => Operator.holds_eq_false_of_not_comparable isOrdering apart,
      Value.looselyEqual_of_not_comparable apart⟩

/-- An integer is not above the double of its value, which is below the next integer, so the
first integer is not above the second one. The same condition does not hold without data, and
truth values have no order. -/
theorem comparisons_consistent_mixed :
    (∃ condition, compile "a lte c" = .ok condition ∧
      condition.holds (.object [("a", .int 1), ("c", .int 2)]) = true ∧
      condition.holds .null = false) ∧
    Operator.less.holds (.bool false) (.bool true) = false := by
  have compiled : compile "a lte c" = .ok ⟨.ofText "a", .atMost, .path (.ofText "c")⟩ := by cbv
  obtain ⟨present, absent, -, -, -, comparable, upward, apart, -⟩ := comparisons_consistent
  let double : Number := .float ⟨false, 1023 * Nat.pow 2 52, by decide⟩
  have sameValue : Operator.equal.holds (.int 1) (.number double) = true := by decide +kernel
  have next : Operator.less.holds (.number double) (.int 2) = true := by decide +kernel
  have first := (comparable _ _ (.numbers (.int 1) double)).2.2.2 (.inr sameValue)
  have second := (comparable _ _ (.numbers double (.int 2))).2.2.2 (.inl next)
  refine ⟨⟨_, compiled, ?present, absent _ _ (.inl (by decide))⟩, ?apart⟩
  case present =>
    rw [present _ _ (.int 1) (.int 2) (by decide) (by decide)]
    exact upward .atMost (by decide) _ _ _ first second
  case apart =>
    have unordered : ¬ Value.Comparable (.bool false) (.bool true) := by
      intro comparable
      cases comparable
    exact (apart _ _ unordered).1 .less (by decide)

end Condition

end Templating
