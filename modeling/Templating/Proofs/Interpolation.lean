import Templating.Interpolation
import Templating.Proofs.Number.Digits

/-!
# Truthiness

Whether a text may replace content is almost a matter of its being empty:
`Interpolated.isTruthy_iff` says that a result is truthy when it has a text that is not
empty, except that the datum false is not truthy, whose text is not empty.
-/

namespace Templating

namespace Double

/-- Digits with a point are not nothing. -/
theorem positional_ne_nil (digits : List Char) (place : Int) : positional digits place ≠ [] := by
  rw [positional]
  split
  · exact List.cons_ne_nil _ _
  · dsimp only
    split
    · exact List.append_ne_nil_of_right_ne_nil _ (List.cons_ne_nil _ _)
    · exact List.append_ne_nil_of_right_ne_nil _ (List.cons_ne_nil _ _)

/-- Digits with an exponent are not nothing. -/
theorem scientific_ne_nil (digits : List Char) (place : Int) : scientific digits place ≠ [] :=
  List.append_ne_nil_of_right_ne_nil _ (List.cons_ne_nil _ _)

/-- The text of a double is not empty. -/
theorem text_ne_nil (d : Double) : d.text ≠ [] := by
  rw [text]
  split
  · exact List.cons_ne_nil _ _
  · split
    · exact positional_ne_nil _ _
    · exact scientific_ne_nil _ _

end Double

namespace Number

/-- The text of a number is not empty. -/
theorem text_ne_nil (value : Number) : value.text ≠ [] := by
  cases value with
  | float value => exact value.text_ne_nil
  | int value =>
    rw [text, integerText]
    split
    · exact List.cons_ne_nil _ _
    · exact decimalDigits_ne_nil _

end Number

namespace Value

/-- The compact text of a datum is not empty. -/
theorem compact_ne_nil (value : Value) : value.compact ≠ [] := by
  cases value with
  | null => exact List.cons_ne_nil _ _
  | bool truth =>
    cases truth with
    | false => exact List.cons_ne_nil _ _
    | true => exact List.cons_ne_nil _ _
  | number value => exact value.text_ne_nil
  | text content => exact List.cons_ne_nil _ _
  | array items => exact List.cons_ne_nil _ _
  | object members => exact List.cons_ne_nil _ _

/-- Only null and the empty text are nothing within a text. -/
theorem plain_eq_empty_iff {value : Value} : value.plain = "" ↔ value = .null ∨ value = .text "" := by
  have shown : String.ofList value.compact ≠ "" := by
    intro empty
    apply value.compact_ne_nil
    rw [← String.toList_ofList (l := value.compact), empty, String.toList_empty]
  cases value with
  | null => simp [plain]
  | text content => simp [plain]
  | bool truth => simpa [plain] using shown
  | number value => simpa [plain] using shown
  | array items => simpa [plain] using shown
  | object members => simpa [plain] using shown

end Value

namespace Interpolated

/-- A result is truthy when its text is not empty, unless it is the datum false. -/
theorem isTruthy_iff {result : Interpolated} : result.isTruthy = true ↔
    (∃ content, result.text? = some content ∧ content ≠ "") ∧ result ≠ .value (.bool false) := by
  cases result with
  | absent => simp [isTruthy, text?]
  | text content => simp [isTruthy, text?]
  | value datum =>
    simp only [text?, Option.some.injEq, exists_eq_left', ne_eq, Value.plain_eq_empty_iff]
    cases datum with
    | null => simp [isTruthy]
    | bool truth => cases truth <;> simp [isTruthy]
    | number value => simp [isTruthy]
    | text content => simp [isTruthy]
    | array items => simp [isTruthy]
    | object members => simp [isTruthy]

end Interpolated

end Templating
