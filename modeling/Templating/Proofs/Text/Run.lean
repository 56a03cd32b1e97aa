import Templating.Text.Blank
import Templating.Text.Split

/-!
# Runs and first marks

A run of accepted characters is as long as it can be when the text behind it ends it,
and `takeWhile` and `dropWhile` part such a text there. A mark is cut at its first
occurrence: `cutAt?_eq_some_iff` says which parts that gives.
-/

namespace Templating.Text

/-- A text of blanks only. -/
def Blanks (text : List Char) : Prop :=
  ∀ c ∈ text, isBlank c = true

instance : DecidablePred Blanks :=
  List.decidableBAll _

/-- A text that does not begin with an accepted character, so that a run of accepted
characters ends in front of it. -/
def Ends (accepts : Char → Bool) (text : List Char) : Prop :=
  ∀ c ∈ text.head?, accepts c = false

/-- With the mark behind it, a text has the mark at its end only. -/
def IsBeforeFirst (mark before : List Char) : Prop :=
  ∀ front back, before ++ mark = front ++ mark ++ back → back = []

section Runs

variable {accepts : Char → Bool} {run rest : List Char}

/-- Any run ends with the text. -/
theorem Ends.nil : Ends accepts [] := by
  intro c atFront
  cases atFront

/-- A run ends in front of a character that is not accepted. -/
theorem Ends.cons {c : Char} (refused : accepts c = false) : Ends accepts (c :: rest) := by
  intro other atFront
  cases atFront
  exact refused

/-- A run ends in front of a text exactly when it ends in front of its beginning. -/
theorem ends_append_iff {beginning : List Char} (nonempty : beginning ≠ []) :
    Ends accepts (beginning ++ rest) ↔ Ends accepts beginning := by
  obtain ⟨c, others, rfl⟩ := List.exists_cons_of_ne_nil nonempty
  rfl

/-- Nothing is taken from a text that ends a run. -/
theorem Ends.takeWhile (ended : Ends accepts rest) : rest.takeWhile accepts = [] := by
  cases rest with
  | nil => rfl
  | cons c others => simp [ended c rfl]

/-- Nothing is dropped from a text that ends a run. -/
theorem Ends.dropWhile (ended : Ends accepts rest) : rest.dropWhile accepts = rest := by
  cases rest with
  | nil => rfl
  | cons c others => simp [ended c rfl]

/-- What is taken from a run and a text that ends it is the run. -/
theorem takeWhile_run (accepted : ∀ c ∈ run, accepts c = true) (ended : Ends accepts rest) :
    (run ++ rest).takeWhile accepts = run := by
  rw [List.takeWhile_append_of_pos accepted, ended.takeWhile, List.append_nil]

/-- What is left of a run and a text that ends it is that text. -/
theorem dropWhile_run (accepted : ∀ c ∈ run, accepts c = true) (ended : Ends accepts rest) :
    (run ++ rest).dropWhile accepts = rest := by
  rw [List.dropWhile_append_of_pos accepted, ended.dropWhile]

/-- Everything taken is accepted. -/
theorem accepted_of_mem_takeWhile (text : List Char) :
    ∀ c ∈ text.takeWhile accepts, accepts c = true :=
  List.all_eq_true.1 List.all_takeWhile

/-- What is left ends the run that was taken. -/
theorem ends_dropWhile (text : List Char) : Ends accepts (text.dropWhile accepts) := by
  induction text with
  | nil => exact Ends.nil
  | cons c others inductionHypothesis =>
    by_cases accepted : accepts c = true
    · rw [List.dropWhile_cons_of_pos accepted]
      exact inductionHypothesis
    · rw [List.dropWhile_cons_of_neg accepted]
      exact Ends.cons (Bool.eq_false_iff.2 accepted)

/-- A text from which nothing is taken ends a run. -/
theorem ends_of_takeWhile_eq_nil {text : List Char} (empty : text.takeWhile accepts = []) :
    Ends accepts text := by
  have parts : text.takeWhile accepts ++ text.dropWhile accepts = text :=
    List.takeWhile_append_dropWhile
  rw [empty, List.nil_append] at parts
  rw [← parts]
  exact ends_dropWhile text

/-- A text is cut into a run and a rest that ends it in one way only. -/
theorem eq_run_iff {text : List Char} :
    text.takeWhile accepts = run ∧ text.dropWhile accepts = rest ↔
      text = run ++ rest ∧ (∀ c ∈ run, accepts c = true) ∧ Ends accepts rest := by
  constructor
  · rintro ⟨rfl, rfl⟩
    exact ⟨List.takeWhile_append_dropWhile.symm, accepted_of_mem_takeWhile text,
      ends_dropWhile text⟩
  · rintro ⟨rfl, accepted, ended⟩
    exact ⟨takeWhile_run accepted ended, dropWhile_run accepted ended⟩

end Runs

section Blanks

variable {blanks rest : List Char}

/-- The empty text has no characters that are not blank. -/
theorem Blanks.nil : Blanks [] := by
  intro c member
  cases member

/-- Blanks after blanks are blanks. -/
theorem Blanks.append {more : List Char} (areBlank : Blanks blanks) (moreBlank : Blanks more) :
    Blanks (blanks ++ more) := by
  intro c member
  rcases List.mem_append.1 member with inFirst | inSecond
  · exact areBlank c inFirst
  · exact moreBlank c inSecond

/-- Trimming takes blanks off down to a text that begins with none. -/
theorem trimStart_blanks (areBlank : Blanks blanks) (ended : Ends isBlank rest) :
    trimStart (blanks ++ rest) = rest :=
  dropWhile_run areBlank ended

/-- A trimmed text begins with no blank. -/
theorem ends_trimStart (text : List Char) : Ends isBlank (trimStart text) :=
  ends_dropWhile text

/-- Trimming leaves an end of the text. -/
theorem trimStart_suffix (text : List Char) : trimStart text <:+ text :=
  List.dropWhile_suffix isBlank

/-- A text is some blanks and what is left of it when trimmed. -/
theorem exists_blanks_append_trimStart (text : List Char) :
    ∃ blanks, Blanks blanks ∧ text = blanks ++ trimStart text :=
  ⟨text.takeWhile isBlank, accepted_of_mem_takeWhile text,
    List.takeWhile_append_dropWhile.symm⟩

/-- Trimming a trimmed text changes nothing. -/
theorem trimStart_trimStart (text : List Char) : trimStart (trimStart text) = trimStart text :=
  (ends_trimStart text).dropWhile

/-- A text is what is left of it when trimmed at its end, and some blanks. -/
theorem exists_trimEnd_append_blanks (text : List Char) :
    ∃ blanks, Blanks blanks ∧ text = trimEnd text ++ blanks := by
  obtain ⟨blanks, areBlank, parts⟩ := exists_blanks_append_trimStart text.reverse
  refine ⟨blanks.reverse, fun c member => areBlank c (List.mem_reverse.1 member), ?_⟩
  rw [trimEnd, ← List.reverse_append, ← parts, List.reverse_reverse]

/-- Trimming the end brings no blank to the front. -/
theorem ends_trimEnd {text : List Char} (ended : Ends isBlank text) :
    Ends isBlank (trimEnd text) := by
  obtain ⟨blanks, -, parts⟩ := exists_trimEnd_append_blanks text
  by_cases empty : trimEnd text = []
  · rw [empty]
    exact Ends.nil
  · have whole : Ends isBlank (trimEnd text ++ blanks) := by
      rwa [← parts]
    exact (ends_append_iff empty).1 whole

theorem trimEnd_trimEnd (text : List Char) : trimEnd (trimEnd text) = trimEnd text := by
  rw [trimEnd, trimEnd, List.reverse_reverse, trimStart_trimStart]

/-- Trimming a text at both ends again changes nothing. -/
theorem trim_trim (text : List Char) : trim (trim text) = trim text := by
  have front : Ends isBlank (trim text) := ends_trimEnd (ends_trimStart text)
  calc trim (trim text) = trimEnd (trim text) := congrArg trimEnd front.dropWhile
    _ = trim text := trimEnd_trimEnd (trimStart text)

end Blanks

section Marks

variable {mark text before rest : List Char}

/-- A mark at the very front is a first one. -/
theorem IsBeforeFirst.nil : IsBeforeFirst mark [] := by
  intro front back same
  have lengths := congrArg List.length same
  simp only [List.nil_append, List.length_append] at lengths
  exact List.length_eq_zero_iff.1 (by omega)

/-- What stands before the first mark stands before every mark. -/
theorem IsBeforeFirst.isPrefix {front back : List Char} (first : IsBeforeFirst mark before)
    (same : before ++ mark ++ rest = front ++ mark ++ back) : before <+: front := by
  by_cases shorter : before.length ≤ front.length
  · rw [List.append_assoc, List.append_assoc] at same
    exact List.prefix_of_prefix_length_le ⟨mark ++ rest, rfl⟩ ⟨mark ++ back, same.symm⟩ shorter
  · -- Otherwise the other mark would end before the first one does.
    have begins : front ++ mark <+: before ++ mark := by
      refine List.prefix_of_prefix_length_le ⟨back, rfl⟩ ⟨rest, same⟩ ?_
      rw [List.length_append, List.length_append]
      omega
    obtain ⟨behind, parts⟩ := begins
    have empty : behind = [] := first front behind parts.symm
    have lengths := congrArg List.length parts
    rw [empty, List.append_nil, List.length_append, List.length_append] at lengths
    omega

/-- Where a text begins with a mark, nothing stands before the first one. -/
theorem IsBeforeFirst.eq_nil (first : IsBeforeFirst mark before)
    (atFront : before ++ mark ++ rest = mark ++ text) : before = [] :=
  List.prefix_nil.1 (first.isPrefix (atFront.trans (by rw [List.nil_append])))

/-- A character in front keeps a first mark the first, unless it begins one itself. -/
theorem isBeforeFirst_cons_iff {c : Char}
    (notAtFront : ∀ back, c :: (before ++ mark) ≠ mark ++ back) :
    IsBeforeFirst mark (c :: before) ↔ IsBeforeFirst mark before := by
  constructor
  · intro first front back same
    exact first (c :: front) back (by simp only [List.cons_append, same])
  · intro first front back same
    cases front with
    | nil => exact absurd same (notAtFront back)
    | cons other front =>
      simp only [List.cons_append, List.cons.injEq] at same
      exact first front back same.2

/-- A text is cut at its first mark, and at no other. -/
theorem cutAt?_eq_some_iff (nonempty : mark ≠ []) :
    cutAt? mark text = some (before, rest) ↔
      text = before ++ mark ++ rest ∧ IsBeforeFirst mark before := by
  induction text generalizing before with
  | nil =>
    have noMark : after? mark [] = none := by
      obtain ⟨m, mark, rfl⟩ := List.exists_cons_of_ne_nil nonempty
      rfl
    simp [cutAt?, noMark, nonempty]
  | cons c text inductionHypothesis =>
    rw [cutAt?]
    cases found : after? mark (c :: text) with
    | some after =>
      have begins := after?_eq_some_iff.1 found
      simp only [Option.some.injEq, Prod.mk.injEq]
      constructor
      · rintro ⟨rfl, rfl⟩
        exact ⟨by simpa using begins, IsBeforeFirst.nil⟩
      · rintro ⟨parts, first⟩
        have empty := first.eq_nil (parts.symm.trans begins)
        subst empty
        rw [begins] at parts
        exact ⟨rfl, List.append_cancel_left parts⟩
    | none =>
      have notAtFront : ∀ back, c :: text ≠ mark ++ back := by
        intro back same
        rw [after?_eq_some_iff.2 same] at found
        cases found
      simp only [Option.map_eq_some_iff, Prod.mk.injEq, Prod.exists]
      constructor
      · rintro ⟨inner, left, cut, rfl, rfl⟩
        obtain ⟨rfl, first⟩ := inductionHypothesis.1 cut
        refine ⟨rfl, (isBeforeFirst_cons_iff ?_).2 first⟩
        intro back same
        exact notAtFront (back ++ left) (by rw [← List.append_assoc, ← same]; rfl)
      · rintro ⟨parts, first⟩
        cases before with
        | nil => exact absurd parts (by simpa using notAtFront rest)
        | cons other inner =>
          simp only [List.cons_append, List.cons.injEq] at parts
          obtain ⟨rfl, rfl⟩ := parts
          have innerFirst := (isBeforeFirst_cons_iff fun back same =>
            notAtFront (back ++ rest) (by rw [← List.append_assoc, ← same]; rfl)).1 first
          exact ⟨inner, rest, inductionHypothesis.2 ⟨rfl, innerFirst⟩, rfl, rfl⟩

/-- A text is not cut at a mark that does not occur in it. -/
theorem cutAt?_eq_none_iff (nonempty : mark ≠ []) :
    cutAt? mark text = none ↔ ¬ mark <:+: text := by
  induction text with
  | nil =>
    obtain ⟨m, mark, rfl⟩ := List.exists_cons_of_ne_nil nonempty
    simp [cutAt?, after?]
  | cons c text inductionHypothesis =>
    rw [cutAt?, List.infix_cons_iff]
    cases found : after? mark (c :: text) with
    | some after =>
      have begins := after?_eq_some_iff.1 found
      exact iff_of_false (Option.some_ne_none _) (not_not_intro (.inl ⟨after, begins.symm⟩))
    | none =>
      have notAtFront : ¬ mark <+: c :: text := by
        rintro ⟨back, same⟩
        rw [after?_eq_some_iff.2 same.symm] at found
        cases found
      rw [or_iff_right notAtFront, ← inductionHypothesis, Option.map_eq_none_iff]

/-- A mark of one character is a first one exactly when the character does not occur
before it. -/
theorem isBeforeFirst_singleton_iff {c : Char} : IsBeforeFirst [c] before ↔ c ∉ before := by
  constructor
  · intro first member
    obtain ⟨front, back, rfl⟩ := List.append_of_mem member
    have empty := first front (back ++ [c]) (by simp)
    simp at empty
  · intro absent front back same
    rcases List.eq_nil_or_concat back with empty | ⟨others, other, rfl⟩
    · exact empty
    · have parts : before = front ++ c :: others ∧ c = other := by
        have assoc : before ++ [c] = (front ++ c :: others) ++ [other] := by
          simpa using same
        simpa using List.append_inj' assoc rfl
      exact absurd (by simp [parts.1]) absent

/-- A mark of two equal characters is a first one exactly when it does not occur before it,
and the text before it does not end with the character, which would begin an earlier one. -/
theorem isBeforeFirst_pair_iff {c : Char} :
    IsBeforeFirst [c, c] before ↔ ¬ [c, c] <:+: before ∧ before.getLast? ≠ some c := by
  constructor
  · intro first
    constructor
    · rintro ⟨front, back, rfl⟩
      have empty := first front (back ++ [c, c]) (by simp)
      simp at empty
    · intro isLast
      obtain ⟨front, rfl⟩ := List.getLast?_eq_some_iff.1 isLast
      have empty := first front [c] (by simp)
      cases empty
  · rintro ⟨absent, notLast⟩ front back same
    -- With something behind it, the mark takes in one character of the text before it or two.
    rcases List.eq_nil_or_concat back with empty | ⟨others, last, rfl⟩
    · exact empty
    · have assoc : (before ++ [c]) ++ [c] = (front ++ [c, c] ++ others) ++ [last] := by
        simpa using same
      have shorter := (List.append_inj' assoc rfl).1
      rcases List.eq_nil_or_concat others with rfl | ⟨inner, next, rfl⟩
      · have ends : before ++ [c] = (front ++ [c]) ++ [c] := by simpa using shorter
        rw [(List.append_inj' ends rfl).1] at notLast
        exact absurd (by simp) notLast
      · have inside : before ++ [c] = (front ++ [c, c] ++ inner) ++ [next] := by
          simpa using shorter
        exact absurd ⟨front, inner, (List.append_inj' inside rfl).1.symm⟩ absent

/-- A text is cut at the first occurrence of a character. -/
theorem cutAt?_singleton_eq_some_iff {c : Char} :
    cutAt? [c] text = some (before, rest) ↔ text = before ++ c :: rest ∧ c ∉ before := by
  rw [cutAt?_eq_some_iff (List.cons_ne_nil c []), isBeforeFirst_singleton_iff, List.append_assoc,
    List.singleton_append]

/-- A text without a character is not cut at it. -/
theorem cutAt?_singleton_eq_none_iff {c : Char} : cutAt? [c] text = none ↔ c ∉ text := by
  rw [cutAt?_eq_none_iff (List.cons_ne_nil c [])]
  constructor
  · intro absent member
    obtain ⟨before, rest, rfl⟩ := List.append_of_mem member
    exact absent ⟨before, rest, by simp⟩
  · intro absent occurs
    exact absent (occurs.subset List.mem_cons_self)

/-- A character that is not in a text stands behind it. -/
theorem exists_append_of_not_mem {c : Char} {front back : List Char} (absent : c ∉ before)
    (same : before ++ rest = front ++ c :: back) :
    ∃ tail, front = before ++ tail ∧ rest = tail ++ c :: back := by
  rcases List.append_eq_append_iff.1 same with ⟨tail, frontParts, parts⟩ | ⟨tail, parts, others⟩
  · exact ⟨tail, frontParts, parts⟩
  · cases tail with
    | nil => exact ⟨[], by simpa using parts.symm, by simpa using others.symm⟩
    | cons other tail =>
      obtain ⟨rfl, -⟩ := List.cons.inj others
      exact absurd (parts ▸ List.mem_append_right front List.mem_cons_self) absent

end Marks

end Templating.Text
