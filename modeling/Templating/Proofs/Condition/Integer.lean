import Templating.Proofs.Condition.Comparison
import Templating.Proofs.Condition.RoundTrip
import Templating.Proofs.Number.Nearest

/-!
# Comparing integers

Integers are compared by the doubles nearest to them, so that two of them may be taken for equal,
but never the greater one for the lesser. By `Operator.holds_int_of_relates`, a comparison that
equal integers satisfy is found to hold wherever it is true, and by `Operator.relates_of_holds_int`
any other comparison is true wherever it is found to hold. Up to `2 ^ 53` all comparisons are exact:
`Operator.holds_int_iff`.
-/

namespace Templating

namespace Operator

variable {operator : Operator} {left right : Int}

/-- Integers are compared by their keys. -/
theorem holds_int_iff_keys : operator.holds (.int left) (.int right) = true ↔
    operator.Relates (nearestKey left) (nearestKey right) :=
  holds_number_iff

/-- A comparison that equal integers satisfy is found to hold where it is true. -/
theorem holds_int_of_relates (isWeak : operator ∈ [equal, atLeast, atMost])
    (relates : operator.Relates left right) : operator.holds (.int left) (.int right) = true := by
  rw [holds_int_iff_keys]
  simp only [List.mem_cons, List.not_mem_nil, or_false] at isWeak
  obtain rfl | rfl | rfl := isWeak
  · exact congrArg nearestKey relates
  · exact nearestKey_mono relates
  · exact nearestKey_mono relates

/-- A comparison that equal integers do not satisfy is true where it is found to hold. -/
theorem relates_of_holds_int (isStrict : operator ∈ [different, greater, less])
    (holds : operator.holds (.int left) (.int right) = true) : operator.Relates left right := by
  rw [holds_int_iff_keys] at holds
  simp only [List.mem_cons, List.not_mem_nil, or_false] at isStrict
  obtain rfl | rfl | rfl := isStrict
  · exact mt (congrArg nearestKey) holds
  · exact lt_of_not_ge fun le => not_lt_of_ge (nearestKey_mono le) holds
  · exact lt_of_not_ge fun le => not_lt_of_ge (nearestKey_mono le) holds

/-- A comparison that equal integers do not satisfy is not found to hold where it is not true. -/
theorem holds_int_eq_false (isStrict : operator ∈ [different, greater, less])
    (unrelated : ¬ operator.Relates left right) :
    operator.holds (.int left) (.int right) = false :=
  Bool.eq_false_of_not_eq_true fun holds => unrelated (relates_of_holds_int isStrict holds)

/-- Up to `2 ^ 53`, integers are in the order of their keys. -/
theorem compare_nearestKey (leftSmall : left.natAbs ≤ 2 ^ 53) (rightSmall : right.natAbs ≤ 2 ^ 53) :
    compare (nearestKey left) (nearestKey right) = compare left right := by
  obtain less | rfl | greater := lt_trichotomy left right
  · rw [compare_lt_iff_lt.2 less]
    exact compare_lt_iff_lt.2 (nearestKey_lt less leftSmall rightSmall)
  · rw [compare_eq_iff_eq.2 rfl, compare_eq_iff_eq.2 rfl]
  · rw [compare_gt_iff_gt.2 greater]
    exact compare_gt_iff_gt.2 (nearestKey_lt greater rightSmall leftSmall)

/-- Up to `2 ^ 53`, every comparison of integers is found to hold exactly where it is true. -/
theorem holds_int_iff (leftSmall : left.natAbs ≤ 2 ^ 53) (rightSmall : right.natAbs ≤ 2 ^ 53) :
    operator.holds (.int left) (.int right) = true ↔ operator.Relates left right := by
  rw [holds_int_iff_keys, relates_iff_compare, relates_iff_compare,
    compare_nearestKey leftSmall rightSmall]

end Operator

namespace Condition

/-- Behind the word of a comparison, an integer of sixty-four bits is a literal, with a plus sign or
with zeros in front as well. -/
theorem compile_int {expression : String} {left right : List Char} {operator : Operator} {n : Int}
    (hasParts : HasParts expression.toList left operator.word.toList right)
    (spells : Numeral.SpellsInteger right n) (fits : FitsSigned64 n) :
    compile expression = .ok ⟨.ofText (String.ofList left), operator, .literal (.int n)⟩ := by
  have isWritten : (Number.int n).IsWritten right := .integer spells fits
  exact compile_of_classifies (.condition hasParts (.number isWritten.isWord isWritten))

/-- A condition on two integers of the data, or on one of them and a literal, is never inverted. Of
a lesser integer and a greater one, the first is at most the second and not greater, and equal ones
are equal. Up to `2 ^ 53` all six comparisons are those of the integers. -/
theorem integers_never_inverted :
    (∀ (condition : Condition) context (left right : Int),
      condition.left.resolve? context = some (.int left) →
      condition.right.resolve? context = some (.int right) →
      (left < right → (condition.operator = .atMost → condition.holds context = true) ∧
        (condition.operator = .greater → condition.holds context = false)) ∧
      (right < left → (condition.operator = .atLeast → condition.holds context = true) ∧
        (condition.operator = .less → condition.holds context = false)) ∧
      (left = right → condition.operator ∈ [Operator.equal, .atLeast, .atMost] →
        condition.holds context = true) ∧
      (left.natAbs ≤ 2 ^ 53 → right.natAbs ≤ 2 ^ 53 →
        (condition.holds context = true ↔ condition.operator.Relates left right))) ∧
    ∀ (expression : String) left (operator : Operator) right n,
      HasParts expression.toList left operator.word.toList right →
      Numeral.SpellsInteger right n → FitsSigned64 n →
      compile expression = .ok ⟨.ofText (String.ofList left), operator, .literal (.int n)⟩ := by
  refine ⟨?_, fun _ _ _ _ _ => compile_int⟩
  intro condition context left right leftThere rightThere
  rw [holds_of_resolve leftThere rightThere]
  generalize condition.operator = operator
  refine ⟨?less, ?greater, ?equal, Operator.holds_int_iff⟩
  case less =>
    intro less
    constructor
    · rintro rfl
      exact Operator.holds_int_of_relates (by decide) less.le
    · rintro rfl
      exact Operator.holds_int_eq_false (by decide) less.asymm
  case greater =>
    intro greater
    constructor
    · rintro rfl
      exact Operator.holds_int_of_relates (by decide) greater.le
    · rintro rfl
      exact Operator.holds_int_eq_false (by decide) greater.asymm
  case equal =>
    rintro rfl isWeak
    refine Operator.holds_int_of_relates isWeak ?_
    simp only [List.mem_cons, List.not_mem_nil, or_false] at isWeak
    obtain rfl | rfl | rfl := isWeak
    · rfl
    · exact le_refl left
    · exact le_refl left

/-- The first integer that is not a double is written with a plus sign. The one before it is taken
for equal to it, and so is at most that integer and not greater, but told apart from the one before
itself. -/
theorem integers_never_inverted_at_bound :
    let context : Value := .object [("a", .int (2 ^ 53)), ("b", .int (2 ^ 53 - 1))]
    compile "a lte +9007199254740993" =
      .ok ⟨.ofText "a", .atMost, .literal (.int (2 ^ 53 + 1))⟩ ∧
    Condition.holds ⟨.ofText "a", .atMost, .literal (.int (2 ^ 53 + 1))⟩ context = true ∧
    Condition.holds ⟨.ofText "a", .greater, .literal (.int (2 ^ 53 + 1))⟩ context = false ∧
    Condition.holds ⟨.ofText "a", .equal, .literal (.int (2 ^ 53 + 1))⟩ context = true ∧
    Condition.holds ⟨.ofText "b", .different, .path (.ofText "a")⟩ context = true := by
  intro context
  obtain ⟨compared, read⟩ := integers_never_inverted
  have isA : (Path.ofText "a").resolve? context = some (.int (2 ^ 53)) := by decide
  have isB : (Path.ofText "b").resolve? context = some (.int (2 ^ 53 - 1)) := by decide
  have isLeft : Text.IsWord ['a'] := ⟨by decide, List.forall_mem_singleton.2 (by decide)⟩
  have fits : FitsSigned64 (2 ^ 53 + 1) := ⟨by omega, by omega⟩
  have spells := Numeral.SpellsInteger.intro .plus (decimalDigits_ne_nil (2 ^ 53 + 1))
    (digits_decimalDigits (2 ^ 53 + 1))
  rw [ofDigits_decimalDigits] at spells
  have isRight : (Number.int (2 ^ 53 + 1)).IsWritten (['+'] ++ decimalDigits (2 ^ 53 + 1)) :=
    .integer spells fits
  have hasParts := HasParts.intro .nil isLeft .space Operator.atMost.isWord_word .space
    isRight.isWord.isTrimmed (by simp) .nil
  have spelled : [] ++ (['a'] ++ ([' '] ++ (Operator.atMost.word.toList ++ ([' '] ++
      (['+'] ++ decimalDigits (2 ^ 53 + 1) ++ []))))) = "a lte +9007199254740993".toList := by
    decide +kernel
  rw [spelled] at hasParts
  have less : (2 ^ 53 : Int) < 2 ^ 53 + 1 := by decide
  have apart : (2 ^ 53 - 1 : Int) ≠ 2 ^ 53 := by decide
  obtain ⟨notInverted, -⟩ := compared ⟨.ofText "a", .atMost, .literal (.int (2 ^ 53 + 1))⟩
    context _ _ isA rfl
  obtain ⟨notAbove, -⟩ := compared ⟨.ofText "a", .greater, .literal (.int (2 ^ 53 + 1))⟩
    context _ _ isA rfl
  obtain ⟨-, -, -, exact⟩ := compared ⟨.ofText "b", .different, .path (.ofText "a")⟩
    context _ _ isB isA
  refine ⟨read _ _ _ _ _ hasParts spells fits, (notInverted less).1 rfl, (notAbove less).2 rfl, ?_,
    (exact (by decide) (by decide)).2 apart⟩
  -- One of the two is rounded, to the even one of its neighbours.
  decide +kernel

end Condition

end Templating
