import Templating.Condition.Compile
import Templating.Proofs.Number.Numeral
import Templating.Proofs.Outcome
import Templating.Proofs.Text.Words

/-!
# The grammar of conditions

`Condition.Classifies` says for every expression what it is read as: which expressions
are conditions, and what is wrong with each of the others. It is stated through the words
of the expression and the three parts that they make up, not through a scan.
`compile_eq_iff` says that reading an expression has exactly this outcome.
-/

namespace Templating

/-- The words that name a comparison. -/
def Operator.words : List String :=
  ["eq", "neq", "gt", "lt", "gte", "lte"]

/-- A word names the comparison that is written with it, and no other. -/
theorem Operator.ofWord?_eq_some_iff {text : String} {operator : Operator} :
    ofWord? text = some operator ↔ text = operator.word := by
  constructor
  · intro found
    have same := List.find?_some found
    exact (of_decide_eq_true same).symm
  · rintro rfl
    exact ofWord?_word operator

/-- Only these words name a comparison. -/
theorem Operator.ofWord?_eq_none_iff {text : String} : ofWord? text = none ↔ text ∉ words := by
  have spelled : words = all.map word := rfl
  simp [ofWord?, List.find?_eq_none, spelled]

/-- An operand as it is written, without blanks around it. -/
inductive Operand.IsWritten : List Char → Operand → Prop
  | quoted {content : List Char} (unquoted : '\'' ∉ content) :
      IsWritten ('\'' :: (content ++ ['\''])) (.literal (.text (String.ofList content)))
  | number {text : List Char} {number : Number} (isWord : Text.IsWord text)
      (isWritten : number.IsWritten text) : IsWritten text (.literal (.number number))
  | path {text : List Char} (isWord : Text.IsWord text) (unquoted : '\'' ∉ text.head?)
      (noNumber : ∀ number : Number, ¬ number.IsWritten text) :
      IsWritten text (.path (.ofText (String.ofList text)))

namespace Condition

open Text

/-- The three parts of an expression: two words and a text behind them that may hold
blanks, all of them between blanks. -/
inductive HasParts : (expression left word right : List Char) → Prop
  | intro {front left leftGap word wordGap right back : List Char} (frontBlank : Blanks front)
      (isLeft : IsWord left) (isLeftGap : IsGap leftGap) (isWord : IsWord word)
      (isWordGap : IsGap wordGap) (isTrimmed : IsTrimmed right) (nonempty : right ≠ [])
      (backBlank : Blanks back) :
      HasParts (front ++ (left ++ (leftGap ++ (word ++ (wordGap ++ (right ++ back))))))
        left word right

/-- What an expression is read as. A missing part is reported first, then an unknown
comparison, and then what is wrong with the operand. -/
inductive Classifies (expression : String) : Except ConditionFault Condition → Prop
  | tooFewWords {ws : List (List Char)} (hasWords : HasWords expression.toList ws)
      (few : ws.length < 3) : Classifies expression (.error (.malformed expression ws.length))
  | unknownOperator {left word right : List Char}
      (hasParts : HasParts expression.toList left word right)
      (unknown : String.ofList word ∉ Operator.words) :
      Classifies expression (.error (.unknownOperator (String.ofList word) expression))
  | unterminatedText {left quoted : List Char} {operator : Operator}
      (hasParts : HasParts expression.toList left operator.word.toList ('\'' :: quoted))
      (unclosed : '\'' ∉ quoted) : Classifies expression (.error (.unterminatedText expression))
  | textAfterQuote {left content trailing : List Char} {operator : Operator}
      {ws : List (List Char)}
      (hasParts : HasParts expression.toList left operator.word.toList
        ('\'' :: (content ++ '\'' :: trailing)))
      (unquoted : '\'' ∉ content) (follows : trailing ≠ []) (hasWords : HasWords trailing ws) :
      Classifies expression (.error (.malformed expression (3 + ws.length)))
  | blankInside {left right : List Char} {operator : Operator} {blank : Char}
      {ws : List (List Char)}
      (hasParts : HasParts expression.toList left operator.word.toList right)
      (unquoted : '\'' ∉ right.head?) (inside : blank ∈ right) (isBlank : isBlank blank = true)
      (hasWords : HasWords expression.toList ws) :
      Classifies expression (.error (.malformed expression ws.length))
  | condition {left right : List Char} {operator : Operator} {operand : Operand}
      (hasParts : HasParts expression.toList left operator.word.toList right)
      (isWritten : operand.IsWritten right) :
      Classifies expression (.ok ⟨.ofText (String.ofList left), operator, operand⟩)

section Parts

variable {text left word right : List Char}

/-- An expression has fewer than three words, or it has three parts. -/
theorem few_words_or_hasParts (text : List Char) :
    (∃ ws, HasWords text ws ∧ ws.length < 3) ∨ ∃ left word right, HasParts text left word right := by
  -- Each word that is found leaves a text with another one, or with blanks only.
  rcases blanks_or_exists_word text with
    areBlank | ⟨front, left, afterLeft, rfl, frontBlank, isLeft, leftEnded⟩
  · exact .inl ⟨[], .none areBlank, by decide⟩
  rcases blanks_or_exists_word afterLeft with
    areBlank | ⟨leftGap, word, afterWord, rfl, gapBlank, isWord, wordEnded⟩
  · exact .inl ⟨[left], .cons frontBlank isLeft leftEnded (.none areBlank), by simp⟩
  obtain ⟨wordGap, back, wordGapBlank, backBlank, parts⟩ := exists_blanks_trim_blanks afterWord
  by_cases empty : trim afterWord = []
  · have areBlank : Blanks afterWord := by
      rw [parts, empty]
      exact wordGapBlank.append backBlank
    exact .inl ⟨[left, word],
      .cons frontBlank isLeft leftEnded (.cons gapBlank isWord wordEnded (.none areBlank)), by simp⟩
  · have isLeftGap : IsGap leftGap :=
      leftEnded.isGap gapBlank (by simp [isWord.nonempty])
        ((ends_append_iff isWord.nonempty).2 isWord.front)
    have isTrimmed := isTrimmed_trim afterWord
    have isWordGap : IsGap wordGap := by
      rw [parts] at wordEnded
      exact wordEnded.isGap wordGapBlank (by simp [empty])
        ((ends_append_iff empty).2 isTrimmed.front)
    refine .inr ⟨left, word, trim afterWord, ?_⟩
    have whole := HasParts.intro frontBlank isLeft isLeftGap isWord isWordGap isTrimmed empty
      backBlank
    rwa [← parts] at whole

/-- The first part is a word. -/
theorem HasParts.isLeft (hasParts : HasParts text left word right) : IsWord left := by
  cases hasParts with
  | intro frontBlank isLeft isLeftGap isWord isWordGap isTrimmed nonempty backBlank =>
    exact isLeft

/-- The third part has no blanks around it, and it is there. -/
theorem HasParts.isTrimmed (hasParts : HasParts text left word right) :
    IsTrimmed right ∧ right ≠ [] := by
  cases hasParts with
  | intro frontBlank isLeft isLeftGap isWord isWordGap isTrimmed nonempty backBlank =>
    exact ⟨isTrimmed, nonempty⟩

/-- The scan for words finds the parts. -/
theorem HasParts.scanned (hasParts : HasParts text left word right) :
    ∃ afterLeft afterWord, firstWord text = (left, afterLeft) ∧
      firstWord afterLeft = (word, afterWord) ∧ trim afterWord = right ∧
      left ≠ [] ∧ word ≠ [] ∧ right ≠ [] := by
  cases hasParts with
  | intro frontBlank isLeft isLeftGap isWord isWordGap isTrimmed nonempty backBlank =>
    exact ⟨_, _, firstWord_word frontBlank isLeft isLeftGap.endsWord,
      firstWord_word isLeftGap.areBlank isWord isWordGap.endsWord,
      trim_padded isWordGap.areBlank isTrimmed nonempty backBlank, isLeft.nonempty,
      isWord.nonempty, nonempty⟩

/-- The words of an expression with three parts are the first two parts and the words
of the third. -/
theorem HasParts.hasWords {ws : List (List Char)} (hasParts : HasParts text left word right)
    (rightWords : HasWords right ws) : HasWords text (left :: word :: ws) := by
  cases hasParts with
  | intro frontBlank isLeft isLeftGap isWord isWordGap isTrimmed nonempty backBlank =>
    have afterWord := (rightWords.append_blanks backBlank).blanks_append isWordGap.areBlank
    exact .cons frontBlank isLeft isLeftGap.endsWord
      (.cons isLeftGap.areBlank isWord isWordGap.endsWord afterWord)

end Parts

section Operands

variable {expression : String} {text content trailing : List Char}

/-- A quote that is not closed is reported. -/
theorem compile_unclosed (unclosed : '\'' ∉ content) :
    Operand.compile expression ('\'' :: content) = .error (.unterminatedText expression) := by
  simp only [Operand.compile, cutAt?_singleton_eq_none_iff.2 unclosed]

/-- A text between quotes is a literal, and what follows it is reported. -/
theorem compile_quoted (unquoted : '\'' ∉ content) :
    Operand.compile expression ('\'' :: (content ++ '\'' :: trailing)) =
      if allBlank trailing then .ok (.literal (.text (String.ofList content)))
      else .error (.malformed expression (3 + (words trailing).length)) := by
  simp only [Operand.compile, cutAt?_singleton_eq_some_iff.2 ⟨rfl, unquoted⟩]

/-- An operand that begins with no quote holds no blanks, and is a number if it can be. -/
theorem compile_unquoted (unquoted : '\'' ∉ text.head?) :
    Operand.compile expression text =
      if text.any isBlank then .error (.malformed expression (2 + (words text).length))
      else
        match (Numeral.ofText? text).bind Numeral.literal? with
        | some number => .ok (.literal (.number number))
        | none => .ok (.path (.ofText (String.ofList text))) := by
  refine Operand.compile.eq_2 expression text fun quoted same => unquoted ?_
  rw [same]
  rfl

/-- Nothing is blank in a word. -/
theorem any_isBlank_of_isWord (isWord : IsWord text) : text.any isBlank = false :=
  List.any_eq_false.2 fun c member => by simp [isWord.visible c member]

/-- A number begins with no quote. -/
theorem unquoted_of_isWritten {number : Number} (isWritten : number.IsWritten text) :
    '\'' ∉ text.head? := by
  obtain ⟨numeral, spells⟩ := isWritten.exists_spells
  intro atFront
  exact spells.looksNumeric.ne_quote atFront rfl

/-- Every operand is read back from the texts that it is written as. -/
theorem compile_of_isWritten {operand : Operand} (isWritten : operand.IsWritten text) :
    Operand.compile expression text = .ok operand := by
  cases isWritten with
  | quoted unquoted => exact compile_quoted unquoted
  | number isWord isWritten =>
    rw [compile_unquoted (unquoted_of_isWritten isWritten), any_isBlank_of_isWord isWord,
      Numeral.literal?_eq_some_iff.2 isWritten]
    rfl
  | path isWord unquoted noNumber =>
    have noLiteral : (Numeral.ofText? text).bind Numeral.literal? = none :=
      Option.eq_none_iff_forall_not_mem.2 fun number literal =>
        noNumber number (Numeral.literal?_eq_some_iff.1 literal)
    rw [compile_unquoted unquoted, any_isBlank_of_isWord isWord, noLiteral]
    rfl

end Operands

section Classification

variable {expression : String} {left word right : List Char}
  {outcome : Except ConditionFault Condition}

/-- A word that names no comparison is reported. -/
theorem compile_of_unknown (hasParts : HasParts expression.toList left word right)
    (unknown : Operator.ofWord? (String.ofList word) = none) :
    compile expression = .error (.unknownOperator (String.ofList word) expression) := by
  obtain ⟨afterLeft, afterWord, first, second, rfl, someLeft, someWord, someRight⟩ :=
    hasParts.scanned
  simp only [compile, first, second, someLeft, someWord, someRight, if_false, unknown]

/-- Behind a word that names a comparison the operand is read. -/
theorem compile_of_operator {operator : Operator}
    (hasParts : HasParts expression.toList left operator.word.toList right) :
    compile expression =
      (Operand.compile expression right).map fun operand =>
        ⟨.ofText (String.ofList left), operator, operand⟩ := by
  obtain ⟨afterLeft, afterWord, first, second, rfl, someLeft, someWord, someRight⟩ :=
    hasParts.scanned
  simp only [compile, first, second, someLeft, someWord, someRight, if_false,
    String.ofList_toList, Operator.ofWord?_word]

/-- With fewer than three words a part is missing, and the words are counted. -/
theorem compile_of_few_words {ws : List (List Char)} (hasWords : HasWords expression.toList ws)
    (few : ws.length < 3) : compile expression = .error (.malformed expression ws.length) := by
  generalize whole : expression.toList = text at hasWords
  cases hasWords with
  | none areBlank =>
    simp only [compile, whole, firstWord_blanks areBlank, if_true, List.length_nil]
  | cons frontBlank isLeft leftEnded others =>
    cases others with
    | none areBlank =>
      simp only [compile, whole, firstWord_word frontBlank isLeft leftEnded,
        firstWord_blanks areBlank, isLeft.nonempty, if_false, if_true, List.length_singleton]
    | cons gapBlank isWord wordEnded others =>
      cases others with
      | cons => exact absurd few (by simp)
      | none areBlank =>
        simp only [compile, whole, firstWord_word frontBlank isLeft leftEnded,
          firstWord_word gapBlank isWord wordEnded, trim_blanks areBlank, isLeft.nonempty,
          isWord.nonempty, if_false, if_true, List.length_cons, List.length_nil]

/-- The parts end with no blank, so what follows a closing quote is not blank. -/
theorem not_allBlank_of_hasParts {content trailing : List Char}
    (hasParts : HasParts expression.toList left word ('\'' :: (content ++ '\'' :: trailing)))
    (follows : trailing ≠ []) : allBlank trailing = false := by
  have trimmed := hasParts.isTrimmed.1
  have parts : '\'' :: (content ++ '\'' :: trailing) = ('\'' :: (content ++ ['\''])) ++ trailing := by
    simp
  rw [parts] at trimmed
  refine Bool.eq_false_iff.2 fun areBlank => ?_
  exact follows (trimmed.eq_nil_of_blanks (List.all_eq_true.1 areBlank))

/-- Reading an expression has the outcome that it is classified as. -/
theorem compile_of_classifies (classified : Classifies expression outcome) :
    compile expression = outcome := by
  cases classified with
  | tooFewWords hasWords few => exact compile_of_few_words hasWords few
  | unknownOperator hasParts unknown =>
    exact compile_of_unknown hasParts (Operator.ofWord?_eq_none_iff.2 unknown)
  | unterminatedText hasParts unclosed =>
    rw [compile_of_operator hasParts, compile_unclosed unclosed]
    rfl
  | textAfterQuote hasParts unquoted follows hasWords =>
    rw [compile_of_operator hasParts, compile_quoted unquoted,
      not_allBlank_of_hasParts hasParts follows, words_of_hasWords hasWords]
    rfl
  | blankInside hasParts unquoted inside isBlank hasWords =>
    next left right operator blank ws =>
    have wordCount : ws.length = 2 + (words right).length := by
      rw [← words_of_hasWords hasWords, words_of_hasWords (hasParts.hasWords (words_eq_iff.1 rfl))]
      simp only [List.length_cons]
      omega
    rw [compile_of_operator hasParts, compile_unquoted unquoted,
      List.any_eq_true.2 ⟨blank, inside, isBlank⟩, wordCount]
    rfl
  | condition hasParts isWritten =>
    rw [compile_of_operator hasParts, compile_of_isWritten isWritten]
    rfl

/-- With three parts and a known comparison, an expression is classified by its operand. -/
theorem exists_classifies_of_operator {operator : Operator}
    (hasParts : HasParts expression.toList left operator.word.toList right) :
    ∃ outcome, Classifies expression outcome := by
  -- A quote in front leaves the closing quote to look for, and anything else the blanks.
  by_cases quoted : '\'' ∈ right.head?
  · obtain ⟨content, rfl⟩ : ∃ content, right = '\'' :: content := by
      cases right with
      | nil => cases quoted
      | cons c content =>
        cases quoted
        exact ⟨content, rfl⟩
    by_cases closed : '\'' ∈ content
    · obtain ⟨inner, trailing, rfl, unquoted⟩ := List.eq_append_cons_of_mem closed
      by_cases follows : trailing = []
      · subst follows
        exact ⟨_, .condition hasParts (.quoted unquoted)⟩
      · obtain ⟨ws, hasWords⟩ := exists_hasWords trailing
        exact ⟨_, .textAfterQuote hasParts unquoted follows hasWords⟩
    · exact ⟨_, .unterminatedText hasParts closed⟩
  · by_cases blankInside : ∃ blank ∈ right, isBlank blank = true
    · obtain ⟨blank, inside, isBlank⟩ := blankInside
      obtain ⟨ws, hasWords⟩ := exists_hasWords expression.toList
      exact ⟨_, .blankInside hasParts quoted inside isBlank hasWords⟩
    · have isWord : IsWord right := by
        refine ⟨hasParts.isTrimmed.2, fun c member => Bool.eq_false_iff.2 fun isBlank => ?_⟩
        exact blankInside ⟨c, member, isBlank⟩
      by_cases isNumber : ∃ number : Number, number.IsWritten right
      · obtain ⟨number, isWritten⟩ := isNumber
        exact ⟨_, .condition hasParts (.number isWord isWritten)⟩
      · exact ⟨_, .condition hasParts
          (.path isWord quoted fun number isWritten => isNumber ⟨number, isWritten⟩)⟩

/-- Every expression is classified. -/
theorem exists_classifies (expression : String) : ∃ outcome, Classifies expression outcome := by
  rcases few_words_or_hasParts expression.toList with
    ⟨ws, hasWords, few⟩ | ⟨left, word, right, hasParts⟩
  · exact ⟨_, .tooFewWords hasWords few⟩
  · cases found : Operator.ofWord? (String.ofList word) with
    | none => exact ⟨_, .unknownOperator hasParts (Operator.ofWord?_eq_none_iff.1 found)⟩
    | some operator =>
      have named : word = operator.word.toList := by
        rw [← Operator.ofWord?_eq_some_iff.1 found, String.toList_ofList]
      rw [named] at hasParts
      exact exists_classifies_of_operator hasParts

/-- Reading an expression has exactly the outcome of its class: it gives a condition for
the expressions of the grammar, and for every other one the fault that comes first. -/
theorem compile_eq_iff : compile expression = outcome ↔ Classifies expression outcome := by
  constructor
  · intro compiled
    obtain ⟨found, classified⟩ := exists_classifies expression
    rw [← compiled, compile_of_classifies classified]
    exact classified
  · exact compile_of_classifies

example : compile " user.age\tgte limits.min " =
    .ok ⟨⟨"user.age", ["user", "age"]⟩, .atLeast, .path ⟨"limits.min", ["limits", "min"]⟩⟩ := by
  decide +kernel

end Classification

end Condition

end Templating
