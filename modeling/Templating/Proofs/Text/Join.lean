import Templating.Text.Split

/-!
# Joining parts

Cutting a text at every occurrence of a mark gives parts without the mark, which make up
the text with the mark between them: `intercalate_splitOn`. And `splitOn_intercalate` says
that such parts are given back when they were put together in this way.
-/

namespace Templating.Text

variable {mark : Char}

/-- There is always a part. -/
theorem splitOn_ne_nil (mark : Char) (text : List Char) : splitOn mark text ≠ [] := by
  cases text with
  | nil => exact List.cons_ne_nil _ _
  | cons c text =>
    rw [splitOn]
    split
    · exact List.cons_ne_nil _ _
    · split
      · exact List.cons_ne_nil _ _
      · exact List.cons_ne_nil _ _

/-- Another character goes into the first part. -/
theorem splitOn_cons_of_ne {c : Char} {text part : List Char} {parts : List (List Char)}
    (different : c ≠ mark) (rest : splitOn mark text = part :: parts) :
    splitOn mark (c :: text) = (c :: part) :: parts := by
  rw [splitOn, if_neg different, rest]

/-- A text without the mark is one part. -/
theorem splitOn_of_not_mem {text : List Char} (without : mark ∉ text) :
    splitOn mark text = [text] := by
  induction text with
  | nil => rfl
  | cons c text inductionHypothesis =>
    rw [List.mem_cons, not_or] at without
    obtain ⟨different, restWithout⟩ := without
    exact splitOn_cons_of_ne (Ne.symm different) (inductionHypothesis restWithout)

/-- A part is cut off at the mark that ends it. -/
theorem splitOn_append_mark {part : List Char} (without : mark ∉ part) (text : List Char) :
    splitOn mark (part ++ mark :: text) = part :: splitOn mark text := by
  induction part with
  | nil => rw [List.nil_append, splitOn, if_pos rfl]
  | cons c part inductionHypothesis =>
    rw [List.mem_cons, not_or] at without
    obtain ⟨different, restWithout⟩ := without
    exact splitOn_cons_of_ne (Ne.symm different) (inductionHypothesis restWithout)

/-- No part holds the mark. -/
theorem not_mem_of_mem_splitOn {text part : List Char} (member : part ∈ splitOn mark text) :
    mark ∉ part := by
  induction text generalizing part with
  | nil =>
    rw [splitOn, List.mem_singleton] at member
    rw [member]
    exact List.not_mem_nil
  | cons c text inductionHypothesis =>
    by_cases same : c = mark
    · rw [splitOn, if_pos same] at member
      rcases List.mem_cons.1 member with rfl | later
      · exact List.not_mem_nil
      · exact inductionHypothesis later
    · obtain ⟨first, parts, rest⟩ := List.exists_cons_of_ne_nil (splitOn_ne_nil mark text)
      rw [splitOn_cons_of_ne same rest] at member
      rw [rest] at inductionHypothesis
      rcases List.mem_cons.1 member with rfl | later
      · rw [List.mem_cons, not_or]
        exact ⟨Ne.symm same, inductionHypothesis List.mem_cons_self⟩
      · exact inductionHypothesis (List.mem_cons_of_mem _ later)

/-- The parts with the mark between them make up the text. -/
theorem intercalate_splitOn (mark : Char) (text : List Char) :
    List.intercalate [mark] (splitOn mark text) = text := by
  induction text with
  | nil => rfl
  | cons c text inductionHypothesis =>
    by_cases same : c = mark
    · rw [splitOn, if_pos same, List.intercalate_cons_of_ne_nil (splitOn_ne_nil mark text),
        inductionHypothesis, same]
      rfl
    · obtain ⟨part, parts, rest⟩ := List.exists_cons_of_ne_nil (splitOn_ne_nil mark text)
      rw [rest] at inductionHypothesis
      rw [splitOn_cons_of_ne same rest, ← inductionHypothesis]
      -- Only the first part has the character, whether or not there are more parts.
      cases parts with
      | nil => rw [List.intercalate_singleton, List.intercalate_singleton]
      | cons next parts => rfl

/-- Parts with the mark between them are cut apart again. -/
theorem splitOn_intercalate {parts : List (List Char)} (nonempty : parts ≠ [])
    (without : ∀ part ∈ parts, mark ∉ part) :
    splitOn mark (List.intercalate [mark] parts) = parts := by
  induction parts with
  | nil => contradiction
  | cons part parts inductionHypothesis =>
    obtain ⟨partWithout, restWithout⟩ := List.forall_mem_cons.1 without
    by_cases last : parts = []
    · rw [last, List.intercalate_singleton]
      exact splitOn_of_not_mem partWithout
    · calc splitOn mark (List.intercalate [mark] (part :: parts))
        _ = splitOn mark (part ++ mark :: List.intercalate [mark] parts) := by
          rw [List.intercalate_cons_of_ne_nil last, List.append_assoc]
          rfl
        _ = part :: splitOn mark (List.intercalate [mark] parts) :=
          splitOn_append_mark partWithout _
        _ = part :: parts := by
          rw [inductionHypothesis last restWithout]

end Templating.Text
