/-!
# Cutting text

The first occurrence of a mark cuts a text into what stands before and after it.
`after?` tests for a mark at the front, `cutAt?` looks for its first occurrence,
and `splitOn` cuts at every occurrence of one character. Each comes with the
equation that says nothing of the text is lost.
-/

namespace Templating.Text

/-- What follows `mark` when the text begins with it. -/
def after? : (mark text : List Char) → Option (List Char)
  | [], text => some text
  | _ :: _, [] => none
  | m :: mark, c :: text => if m = c then after? mark text else none

/-- A text begins with a mark exactly when it is the mark and what follows it. -/
theorem after?_eq_some_iff {mark text rest : List Char} :
    after? mark text = some rest ↔ text = mark ++ rest := by
  induction mark generalizing text with
  | nil => simp [after?, eq_comm]
  | cons m mark inductionHypothesis =>
    cases text with
    | nil => simp [after?]
    | cons c text =>
      by_cases same : m = c
      · simp [after?, same, inductionHypothesis]
      · simp [after?, same, Ne.symm same]

/-- The parts of a text before and after the first occurrence of `mark`. -/
def cutAt? (mark : List Char) : List Char → Option (List Char × List Char)
  | [] => (after? mark []).map fun rest => ([], rest)
  | c :: text =>
    match after? mark (c :: text) with
    | some rest => some ([], rest)
    | none => (cutAt? mark text).map fun (before, rest) => (c :: before, rest)

/-- The parts, with the mark between them, make up the text. -/
theorem eq_append_of_cutAt? {mark text before rest : List Char}
    (cut : cutAt? mark text = some (before, rest)) : text = before ++ mark ++ rest := by
  induction text generalizing before with
  | nil =>
    simp only [cutAt?, Option.map_eq_some_iff, Prod.mk.injEq] at cut
    obtain ⟨_, found, rfl, rfl⟩ := cut
    simpa using after?_eq_some_iff.1 found
  | cons c text inductionHypothesis =>
    rw [cutAt?] at cut
    split at cut
    · next found =>
      simp only [Option.some.injEq, Prod.mk.injEq] at cut
      obtain ⟨rfl, rfl⟩ := cut
      simpa using after?_eq_some_iff.1 found
    · simp only [Option.map_eq_some_iff, Prod.mk.injEq, Prod.exists] at cut
      obtain ⟨inner, _, found, rfl, rfl⟩ := cut
      simp [inductionHypothesis found]

/-- What follows a cut is no longer than the text, less the mark. -/
theorem length_of_cutAt? {mark text before rest : List Char}
    (cut : cutAt? mark text = some (before, rest)) :
    rest.length + mark.length ≤ text.length := by
  rw [eq_append_of_cutAt? cut]
  simp only [List.length_append]
  omega

/-- The parts of a text between the occurrences of `mark`; there is always one
part more than there are occurrences. -/
def splitOn (mark : Char) : List Char → List (List Char)
  | [] => [[]]
  | c :: text =>
    if c = mark then [] :: splitOn mark text
    else
      match splitOn mark text with
      | [] => [[c]]
      | part :: parts => (c :: part) :: parts

end Templating.Text
