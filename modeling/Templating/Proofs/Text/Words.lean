import Templating.Proofs.Text.Run

/-!
# Words

A text is taken apart at its blanks. `HasWords` says which words a text has, without a
scan of it, and `words_eq_iff` says that the scan finds these. The first word and the
trimmed text are the parts that stand between blanks: `firstWord_word`, `trim_padded`.
-/

namespace Templating.Text

variable {text blanks word rest : List Char}

/-- A text of at least one character, none of which is blank. -/
structure IsWord (word : List Char) : Prop where
  nonempty : word ≠ []
  visible : ∀ c ∈ word, isBlank c = false

/-- A text that does not go on a word before it: it is empty or begins with a blank. -/
def EndsWord (text : List Char) : Prop :=
  Ends (fun c => !isBlank c) text

/-- At least one blank, and nothing else. -/
structure IsGap (text : List Char) : Prop where
  nonempty : text ≠ []
  areBlank : Blanks text

/-- A text with no blank at either end. -/
structure IsTrimmed (text : List Char) : Prop where
  front : Ends isBlank text
  back : Ends isBlank text.reverse

/-- The words of a text in order: each one is as long as it can be, and there is nothing
but blanks around them. -/
inductive HasWords : List Char → List (List Char) → Prop
  | none {text : List Char} (areBlank : Blanks text) : HasWords text []
  | cons {blanks word rest : List Char} {words : List (List Char)} (areBlank : Blanks blanks)
      (isWord : IsWord word) (ended : EndsWord rest) (others : HasWords rest words) :
      HasWords (blanks ++ (word ++ rest)) (word :: words)

section Words

/-- A word begins with no blank. -/
theorem IsWord.front (isWord : IsWord word) : Ends isBlank word :=
  fun c atFront => isWord.visible c (List.mem_of_mem_head? atFront)

/-- A word ends with no blank. -/
theorem IsWord.isTrimmed (isWord : IsWord word) : IsTrimmed word where
  front := isWord.front
  back c atFront := isWord.visible c (List.mem_reverse.1 (List.mem_of_mem_head? atFront))

/-- A word ends in front of a text exactly when that text has nothing in front of its
first blank. -/
theorem endsWord_iff : EndsWord text ↔ ∀ c ∈ text.head?, isBlank c = true := by
  simp [EndsWord, Ends]

/-- Blanks after a word go on no word. -/
theorem Blanks.endsWord (areBlank : Blanks blanks) : EndsWord blanks :=
  endsWord_iff.2 fun c atFront => areBlank c (List.mem_of_mem_head? atFront)

/-- A gap in front of a text ends the word before it. -/
theorem IsGap.endsWord (gap : IsGap blanks) : EndsWord (blanks ++ rest) :=
  (ends_append_iff gap.nonempty).2 gap.areBlank.endsWord

/-- A space is a gap. -/
theorem IsGap.space : IsGap [' '] where
  nonempty := List.cons_ne_nil _ _
  areBlank c member := by
    rw [List.mem_singleton.1 member]
    rfl

/-- What stands between a word and another one is a gap. -/
theorem EndsWord.isGap (ended : EndsWord (blanks ++ rest)) (areBlank : Blanks blanks)
    (nonempty : rest ≠ []) (front : Ends isBlank rest) : IsGap blanks := by
  refine ⟨?_, areBlank⟩
  rintro rfl
  obtain ⟨c, others, rfl⟩ := List.exists_cons_of_ne_nil nonempty
  have isBlank := endsWord_iff.1 ended c rfl
  rw [front c rfl] at isBlank
  cases isBlank

/-- A text is blank, or it has a first word. -/
theorem blanks_or_exists_word (text : List Char) :
    Blanks text ∨ ∃ blanks word rest,
      text = blanks ++ (word ++ rest) ∧ Blanks blanks ∧ IsWord word ∧ EndsWord rest := by
  obtain ⟨blanks, areBlank, parts⟩ := exists_blanks_append_trimStart text
  by_cases empty : trimStart text = []
  · rw [empty, List.append_nil] at parts
    exact .inl (parts ▸ areBlank)
  · let accepts : Char → Bool := fun c => !isBlank c
    refine .inr ⟨blanks, (trimStart text).takeWhile accepts, (trimStart text).dropWhile accepts,
      by rwa [List.takeWhile_append_dropWhile], areBlank, ⟨?_, ?_⟩, ends_dropWhile _⟩
    · intro noWord
      obtain ⟨c, others, start⟩ := List.exists_cons_of_ne_nil empty
      have visible : isBlank c = false := ends_trimStart text c (by rw [start]; rfl)
      rw [start] at noWord
      simp [accepts, visible] at noWord
    · intro c member
      have accepted := accepted_of_mem_takeWhile (trimStart text) c member
      simpa [accepts] using accepted

end Words

section Scan

/-- Blanks in front of a text add no word. -/
theorem words_blanks_append (areBlank : Blanks blanks) : words (blanks ++ rest) = words rest := by
  induction blanks with
  | nil => rfl
  | cons c blanks inductionHypothesis =>
    rw [List.cons_append, words, if_pos (areBlank c List.mem_cons_self)]
    exact inductionHypothesis fun other member => areBlank other (List.mem_cons_of_mem c member)

/-- A blank text has no words. -/
theorem words_blanks (areBlank : Blanks blanks) : words blanks = [] := by
  rw [← List.append_nil blanks, words_blanks_append areBlank]
  rfl

/-- A word in front of a text that does not go on it is the first word. -/
theorem words_word_append (isWord : IsWord word) (ended : EndsWord rest) :
    words (word ++ rest) = word :: words rest := by
  obtain ⟨nonempty, visible⟩ := isWord
  -- A character joins the word behind it unless it is the last one of its word.
  induction word with
  | nil => exact absurd rfl nonempty
  | cons c more inductionHypothesis =>
    have visibleHere : isBlank c = false := visible c List.mem_cons_self
    have visibleMore : ∀ other ∈ more, isBlank other = false :=
      fun other member => visible other (List.mem_cons_of_mem c member)
    rw [List.cons_append, words, if_neg (Bool.eq_false_iff.1 visibleHere)]
    cases more with
    | nil =>
      have lastOfWord : rest.head?.all isBlank = true := by
        rw [Option.all_eq_true]
        exact endsWord_iff.1 ended
      rw [List.nil_append, if_pos lastOfWord]
    | cons next more =>
      have goesOn : ¬ ((next :: more) ++ rest).head?.all isBlank = true := by
        simp [visibleMore next List.mem_cons_self]
      rw [if_neg goesOn, inductionHypothesis (List.cons_ne_nil next more) visibleMore]

/-- Each text has words. -/
theorem exists_hasWords (text : List Char) : ∃ ws, HasWords text ws := by
  rcases blanks_or_exists_word text with areBlank | ⟨blanks, word, rest, same, areBlank, isWord, ended⟩
  · exact ⟨[], .none areBlank⟩
  · have shorter : rest.length < text.length := by
      have positive := List.length_pos_iff.2 isWord.nonempty
      rw [same, List.length_append, List.length_append]
      omega
    obtain ⟨ws, others⟩ := exists_hasWords rest
    exact ⟨word :: ws, same ▸ .cons areBlank isWord ended others⟩
termination_by text.length

/-- The words that are found are the words of the text. -/
theorem words_of_hasWords {ws : List (List Char)} (hasWords : HasWords text ws) :
    words text = ws := by
  induction hasWords with
  | none areBlank => exact words_blanks areBlank
  | cons areBlank isWord ended others inductionHypothesis =>
    rw [words_blanks_append areBlank, words_word_append isWord ended, inductionHypothesis]

/-- Exactly the words of a text are found. -/
theorem words_eq_iff {ws : List (List Char)} : words text = ws ↔ HasWords text ws := by
  constructor
  · rintro rfl
    obtain ⟨ws, hasWords⟩ := exists_hasWords text
    rwa [words_of_hasWords hasWords]
  · exact words_of_hasWords

/-- Blanks behind a text add no word. -/
theorem HasWords.append_blanks {ws : List (List Char)} (hasWords : HasWords text ws)
    (areBlank : Blanks blanks) : HasWords (text ++ blanks) ws := by
  induction hasWords with
  | none textBlank => exact .none (textBlank.append areBlank)
  | cons frontBlank isWord ended others inductionHypothesis =>
    next front word rest words =>
    have endedToo : EndsWord (rest ++ blanks) := by
      by_cases empty : rest = []
      · rw [empty, List.nil_append]
        exact areBlank.endsWord
      · exact (ends_append_iff empty).2 ended
    rw [List.append_assoc, List.append_assoc]
    exact .cons frontBlank isWord endedToo inductionHypothesis

/-- Blanks in front of a text add no word. -/
theorem HasWords.blanks_append {ws : List (List Char)} (hasWords : HasWords text ws)
    (areBlank : Blanks blanks) : HasWords (blanks ++ text) ws := by
  cases hasWords with
  | none textBlank => exact .none (areBlank.append textBlank)
  | cons frontBlank isWord ended others =>
    rw [← List.append_assoc]
    exact .cons (areBlank.append frontBlank) isWord ended others

/-- A blank text has no first word. -/
theorem firstWord_blanks (areBlank : Blanks blanks) : firstWord blanks = ([], []) := by
  have nothingLeft : trimStart blanks = [] := by
    rw [← List.append_nil blanks]
    exact trimStart_blanks areBlank Ends.nil
  rw [firstWord, nothingLeft]
  rfl

/-- The first word is the one that the blanks in front leave. -/
theorem firstWord_word (areBlank : Blanks blanks) (isWord : IsWord word) (ended : EndsWord rest) :
    firstWord (blanks ++ (word ++ rest)) = (word, rest) := by
  have start : trimStart (blanks ++ (word ++ rest)) = word ++ rest :=
    trimStart_blanks areBlank ((ends_append_iff isWord.nonempty).2 isWord.front)
  have visible : ∀ c ∈ word, (!isBlank c) = true := by
    intro c member
    rw [isWord.visible c member]
    rfl
  rw [firstWord, start]
  exact Prod.ext (takeWhile_run visible ended) (dropWhile_run visible ended)

end Scan

section Trim

/-- What trimming leaves has no blank at either end. -/
theorem isTrimmed_trim (text : List Char) : IsTrimmed (trim text) where
  front := ends_trimEnd (ends_trimStart text)
  back := by
    rw [trim, trimEnd, List.reverse_reverse]
    exact ends_trimStart _

/-- A text is what trimming leaves of it, between blanks. -/
theorem exists_blanks_trim_blanks (text : List Char) :
    ∃ front back, Blanks front ∧ Blanks back ∧ text = front ++ (trim text ++ back) := by
  obtain ⟨front, frontBlank, start⟩ := exists_blanks_append_trimStart text
  obtain ⟨back, backBlank, parts⟩ := exists_trimEnd_append_blanks (trimStart text)
  exact ⟨front, back, frontBlank, backBlank, start.trans (congrArg (front ++ ·) parts)⟩

/-- Trimming takes the blanks around a text off. -/
theorem trim_padded {front back : List Char} (frontBlank : Blanks front) (trimmed : IsTrimmed text)
    (nonempty : text ≠ []) (backBlank : Blanks back) : trim (front ++ (text ++ back)) = text := by
  have start : trimStart (front ++ (text ++ back)) = text ++ back :=
    trimStart_blanks frontBlank ((ends_append_iff nonempty).2 trimmed.front)
  have reversed : trimStart (back.reverse ++ text.reverse) = text.reverse :=
    trimStart_blanks (fun c member => backBlank c (List.mem_reverse.1 member)) trimmed.back
  rw [trim, start, trimEnd, List.reverse_append, reversed, List.reverse_reverse]

/-- An end of a text with no blank at its end is blank only if it is empty. -/
theorem IsTrimmed.eq_nil_of_blanks (trimmed : IsTrimmed (text ++ blanks)) (areBlank : Blanks blanks) :
    blanks = [] := by
  rcases List.eq_nil_or_concat blanks with empty | ⟨others, c, rfl⟩
  · exact empty
  · have visible := trimmed.back c (by simp)
    rw [areBlank c (by simp)] at visible
    cases visible

/-- Nothing is left of a blank text. -/
theorem trim_blanks (areBlank : Blanks text) : trim text = [] := by
  obtain ⟨front, back, -, -, parts⟩ := exists_blanks_trim_blanks text
  have trimmed : IsTrimmed ([] ++ trim text) := isTrimmed_trim text
  refine trimmed.eq_nil_of_blanks fun c member => areBlank c ?_
  rw [parts]
  exact List.mem_append_right _ (List.mem_append_left _ member)

/-- Nothing is left of exactly the texts of blanks. -/
theorem trim_eq_nil_iff : trim text = [] ↔ Blanks text := by
  constructor
  · intro empty
    obtain ⟨front, back, frontBlank, backBlank, parts⟩ := exists_blanks_trim_blanks text
    rw [empty, List.nil_append] at parts
    rw [parts]
    exact frontBlank.append backBlank
  · exact trim_blanks

end Trim

end Templating.Text
