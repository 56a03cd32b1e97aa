import Mathlib.Data.List.Basic
import Templating.Condition.Evaluate
import Templating.Proofs.Condition.Grammar
import Templating.Proofs.Number.Text

/-!
# Writing and reading conditions

A condition that was read is written as an expression of the same condition:
`compile_text`. The two spellings need not agree, for the blanks, the signs and the zeros
of the first one are gone, but every operand stays in its class. A quoted text holds no
quote, a path is not a number, and a number is written as that number.
-/

namespace Templating

/-- A number that is written somewhere is written by its text. -/
theorem Number.isWritten_text {number : Number} {text : List Char}
    (isWritten : number.IsWritten text) : number.IsWritten number.text := by
  cases isWritten with
  | integer spells fits => exact isWritten_int fits
  | float => exact isWritten_float _

/-- A number is a word. -/
theorem Number.IsWritten.isWord {number : Number} {text : List Char}
    (isWritten : number.IsWritten text) : Text.IsWord text := by
  obtain ⟨numeral, spells⟩ := isWritten.exists_spells
  exact spells.isWord

namespace Operand

variable {operand : Operand} {text : List Char}

/-- An operand that is written somewhere is written by its text. -/
theorem isWritten_text (isWritten : operand.IsWritten text) :
    operand.IsWritten operand.text.toList := by
  cases isWritten with
  | quoted unquoted =>
    next content =>
    have spelled : (Operand.literal (.text (String.ofList content))).text.toList =
        '\'' :: (content ++ ['\'']) := by
      simp [Operand.text]
    rw [spelled]
    exact .quoted unquoted
  | number isWord isWritten =>
    next number =>
    have spelled : (Operand.literal (.number number)).text.toList = number.text :=
      String.toList_ofList
    have itself := number.isWritten_text isWritten
    rw [spelled]
    exact .number itself.isWord itself
  | path isWord unquoted noNumber =>
    have spelled : (Operand.path (.ofText (String.ofList text))).text.toList = text :=
      String.toList_ofList
    rw [spelled]
    exact .path isWord unquoted noNumber

/-- An operand is written with no blanks around it. -/
theorem IsWritten.isTrimmed (isWritten : operand.IsWritten text) :
    Text.IsTrimmed text ∧ text ≠ [] := by
  cases isWritten with
  | quoted unquoted =>
    refine ⟨⟨Text.Ends.cons rfl, ?_⟩, List.cons_ne_nil _ _⟩
    rw [List.reverse_cons, List.reverse_append]
    exact Text.Ends.cons rfl
  | number isWord isWritten => exact ⟨isWord.isTrimmed, isWord.nonempty⟩
  | path isWord unquoted noNumber => exact ⟨isWord.isTrimmed, isWord.nonempty⟩

end Operand

/-- The word of a comparison is a word. -/
theorem Operator.isWord_word (operator : Operator) : Text.IsWord operator.word.toList where
  nonempty := by
    cases operator <;> decide
  visible := by
    have noBlank : operator.word.toList.any Text.isBlank = false := by
      cases operator <;> decide
    exact fun c member => Bool.eq_false_iff.2 (List.any_eq_false.1 noBlank c member)

namespace Condition

/-- A written condition has its own three parts. -/
theorem hasParts_text {left text : List Char} {operand : Operand} (isLeft : Text.IsWord left)
    (operator : Operator) (isWritten : operand.IsWritten text) :
    HasParts (Condition.text ⟨.ofText (String.ofList left), operator, operand⟩).toList
      left operator.word.toList operand.text.toList := by
  obtain ⟨isTrimmed, nonempty⟩ := (Operand.isWritten_text isWritten).isTrimmed
  have parts := HasParts.intro Text.Blanks.nil isLeft Text.IsGap.space operator.isWord_word
    Text.IsGap.space isTrimmed nonempty Text.Blanks.nil
  have spelled : (Condition.text ⟨.ofText (String.ofList left), operator, operand⟩).toList =
      [] ++ (left ++ ([' '] ++ (operator.word.toList ++ ([' '] ++ (operand.text.toList ++ []))))) := by
    simp [Condition.text, Path.ofText]
  rwa [spelled]

/-- What a condition is written as is read as that condition, so that the condition that
is read again holds in the same contexts. -/
theorem compile_text {expression : String} {condition : Condition}
    (compiled : compile expression = .ok condition) :
    compile condition.text = .ok condition ∧
      ∀ reread, compile condition.text = .ok reread →
        ∀ context, reread.holds context = condition.holds context := by
  have again : compile condition.text = .ok condition := by
    obtain ⟨outcome, classified⟩ := exists_classifies expression
    have same := (compile_of_classifies classified).symm.trans compiled
    subst same
    cases classified with
    | condition hasParts isWritten =>
      exact compile_of_classifies
        (.condition (hasParts_text hasParts.isLeft _ isWritten) (Operand.isWritten_text isWritten))
  refine ⟨again, fun reread readAgain context => ?_⟩
  rw [again] at readAgain
  cases readAgain
  rfl

/-- A left side in quotes stays a path, and a power of ten is written out. -/
theorem compile_text_minus_five :
    compile " 'x'\tneq  -0.50e1" =
        .ok ⟨.ofText "'x'", .different,
          .literal (.number (.float ⟨true, 4617315517961601024, by decide⟩))⟩ ∧
      compile "'x' neq -5.0" =
        .ok ⟨.ofText "'x'", .different,
          .literal (.number (.float ⟨true, 4617315517961601024, by decide⟩))⟩ := by
  have compiled : compile " 'x'\tneq  -0.50e1" =
      .ok ⟨.ofText "'x'", .different,
        .literal (.number (.float ⟨true, 4617315517961601024, by decide⟩))⟩ := by decide +kernel
  have spelled : Condition.text ⟨.ofText "'x'", .different,
      .literal (.number (.float ⟨true, 4617315517961601024, by decide⟩))⟩ = "'x' neq -5.0" := by
    decide +kernel
  have reread := (compile_text compiled).1
  rw [spelled] at reread
  exact ⟨compiled, reread⟩

end Condition

end Templating
