import Mathlib.Logic.Basic
import Templating.Interpolation
import Templating.Proofs.Text.Words

/-!
# Literals and marks

A text is cut at its first two marks, over and over: `Interpolation.tokensOf_of_marks` says
what that gives, and `Interpolation.cutInduction` is induction along these cuts. What is not
a placeholder is literal. `Interpolation.IsVerbatim` says which texts have no placeholder but
blank ones, and `isVerbatim_of_mem_tokensOf` that every literal is such a text, although it
may be joined from many parts.
-/

namespace Templating.Interpolation

/-- No closing mark follows the first opening mark, if there is one. -/
def IsUnclosed (text : List Char) : Prop :=
  ∀ before after, text = before ++ opening ++ after → Text.IsBeforeFirst opening before →
    ¬ closing <:+: after

/-- Only blanks stand between any opening mark and the first closing mark behind it. -/
def IsVerbatim (text : List Char) : Prop :=
  ∀ before inside after, text = before ++ opening ++ (inside ++ closing ++ after) →
    Text.IsBeforeFirst closing inside → Text.Blanks inside

theorem opening_ne_nil : opening ≠ [] :=
  List.cons_ne_nil _ _

theorem closing_ne_nil : closing ≠ [] :=
  List.cons_ne_nil _ _

section Tokens

variable {text before inside : List Char}

/-- A text whose first opening mark is not closed is literal. -/
theorem tokensOf_of_isUnclosed (unclosed : IsUnclosed text) :
    tokensOf text = prependLiteral text [] := by
  rw [tokensOf]
  split
  · rfl
  · next cut =>
    obtain ⟨parts, opened⟩ := (Text.cutAt?_eq_some_iff opening_ne_nil).1 cut
    split
    · rfl
    · next cutClosing =>
      obtain ⟨rfl, -⟩ := (Text.cutAt?_eq_some_iff closing_ne_nil).1 cutClosing
      exact absurd ⟨_, _, rfl⟩ (unclosed _ _ parts opened)

/-- What the first marks enclose is a placeholder if it is not blank, and otherwise literal. -/
theorem tokensOf_of_marks (opened : Text.IsBeforeFirst opening before)
    (closed : Text.IsBeforeFirst closing inside) (rest : List Char) :
    tokensOf (before ++ opening ++ (inside ++ closing ++ rest)) =
      if Text.trim inside = [] then
        prependLiteral (before ++ opening ++ inside ++ closing) (tokensOf rest)
      else
        prependLiteral before
          (.path (.ofText (String.ofList (Text.trim inside))) :: tokensOf rest) := by
  have cut : Text.cutAt? opening (before ++ opening ++ (inside ++ closing ++ rest)) =
      some (before, inside ++ closing ++ rest) :=
    (Text.cutAt?_eq_some_iff opening_ne_nil).2 ⟨rfl, opened⟩
  have cutClosing : Text.cutAt? closing (inside ++ closing ++ rest) = some (inside, rest) :=
    (Text.cutAt?_eq_some_iff closing_ne_nil).2 ⟨rfl, closed⟩
  rw [tokensOf]
  split
  · next noOpening =>
    rw [cut] at noOpening
    cases noOpening
  · next found =>
    cases cut.symm.trans found
    split
    · next noClosing =>
      rw [cutClosing] at noClosing
      cases noClosing
    · next foundClosing =>
      cases cutClosing.symm.trans foundClosing
      rfl

/-- Induction over a text as it is cut: its first opening mark is not closed, or its first marks
enclose something, and there is a text behind them. -/
@[elab_as_elim]
theorem cutInduction {motive : List Char → Prop}
    (unclosed : ∀ text, IsUnclosed text → motive text)
    (marks : ∀ before inside rest, Text.IsBeforeFirst opening before →
      Text.IsBeforeFirst closing inside → motive rest →
        motive (before ++ opening ++ (inside ++ closing ++ rest))) (text : List Char) :
    motive text := by
  by_cases isUnclosed : IsUnclosed text
  · exact unclosed text isUnclosed
  · simp only [IsUnclosed, not_forall, not_not] at isUnclosed
    obtain ⟨before, after, rfl, opened, occurs⟩ := isUnclosed
    cases cut : Text.cutAt? closing after with
    | none => exact absurd occurs ((Text.cutAt?_eq_none_iff closing_ne_nil).1 cut)
    | some parts =>
      obtain ⟨inside, rest⟩ := parts
      obtain ⟨rfl, closed⟩ := (Text.cutAt?_eq_some_iff closing_ne_nil).1 cut
      have shorter : rest.length < (before ++ opening ++ (inside ++ closing ++ rest)).length := by
        simp only [List.length_append, opening, List.length_cons]
        omega
      exact marks before inside rest opened closed (cutInduction unclosed marks rest)
termination_by text.length

end Tokens

section Verbatim

variable {text before inside rest : List Char} {content : String}

/-- Nothing is between the marks of a text whose first opening mark is not closed. -/
theorem IsUnclosed.isVerbatim (unclosed : IsUnclosed text) : IsVerbatim text := by
  rintro before inside after rfl -
  cases cut : Text.cutAt? opening (before ++ opening ++ (inside ++ closing ++ after)) with
  | none => exact absurd ⟨_, _, rfl⟩ ((Text.cutAt?_eq_none_iff opening_ne_nil).1 cut)
  | some parts =>
    obtain ⟨front, behind⟩ := parts
    obtain ⟨same, opened⟩ := (Text.cutAt?_eq_some_iff opening_ne_nil).1 cut
    -- The closing mark stands behind the first opening mark as well.
    have short : front.length ≤ before.length := (opened.isPrefix same.symm).length_le
    have behindFirst : inside ++ closing ++ after <:+ behind := by
      have lengths := congrArg List.length same
      simp only [List.length_append] at lengths
      refine List.suffix_of_suffix_length_le ⟨_, rfl⟩ ⟨front ++ opening, same.symm⟩ ?_
      simp only [List.length_append]
      omega
    have occurs : closing <:+: inside ++ closing ++ after := ⟨inside, after, rfl⟩
    exact absurd (occurs.trans behindFirst.isInfix) (unclosed front behind same opened)

theorem isVerbatim_nil : IsVerbatim [] := by
  intro before inside after same
  simp [opening] at same

/-- A blank placeholder in front keeps a text verbatim. -/
theorem IsVerbatim.marks (verbatim : IsVerbatim rest)
    (opened : Text.IsBeforeFirst opening before) (blank : Text.Blanks inside) :
    IsVerbatim (before ++ opening ++ (inside ++ closing ++ rest)) := by
  intro front other back same closed
  obtain ⟨more, rfl⟩ := opened.isPrefix same
  have noBrace : '\x7b' ∉ inside ++ closing := by
    intro member
    rcases List.mem_append.1 member with isInside | isClosing
    · exact absurd (blank _ isInside) (by decide)
    · exact absurd isClosing (by decide)
  simp only [List.append_assoc, List.append_cancel_left_eq] at same
  -- The other opening mark is the first one, or would overlap it, or stands behind it.
  match more with
  | [] =>
    have sameInside : other ++ closing ++ back = inside ++ closing ++ rest := by
      simpa using same.symm
    obtain ⟨behind, rfl⟩ := closed.isPrefix sameInside
    exact fun c member => blank c (List.mem_append_left _ member)
  | [first] =>
    have next : inside ++ closing ++ rest = [] ++ '\x7b' :: (other ++ closing ++ back) := by
      simpa using (List.cons.inj (List.cons.inj same).2).2
    obtain ⟨tail, empty, -⟩ := Text.exists_append_of_not_mem noBrace next
    simp [closing] at empty
  | first :: second :: more =>
    have later : inside ++ closing ++ rest =
        more ++ '\x7b' :: ('\x7b' :: (other ++ closing ++ back)) := by
      simpa [opening] using (List.cons.inj (List.cons.inj same).2).2
    obtain ⟨tail, -, parts⟩ := Text.exists_append_of_not_mem noBrace later
    exact verbatim tail other back (by simpa [opening] using parts) closed

/-- A literal that begins with some text in front is that text alone, or with a literal behind
it. -/
theorem literal_mem_prependLiteral {front : List Char} {tokens : List Token}
    (member : .literal content ∈ prependLiteral front tokens) :
    .literal content ∈ tokens ∨ content.toList = front ∨
      ∃ next others, tokens = .literal next :: others ∧ content.toList = front ++ next.toList := by
  rw [prependLiteral.eq_def] at member
  split at member
  · exact .inl member
  · split at member
    · next next others =>
      rcases List.mem_cons.1 member with same | later
      · cases same
        exact .inr (.inr ⟨next, others, rfl, String.toList_ofList⟩)
      · exact .inl (List.mem_cons_of_mem _ later)
    · rcases List.mem_cons.1 member with same | later
      · cases same
        exact .inr (.inl String.toList_ofList)
      · exact .inl later

/-- The literals of a text are verbatim. -/
theorem isVerbatim_of_mem_tokensOf (member : .literal content ∈ tokensOf text) :
    IsVerbatim content.toList := by
  induction text using cutInduction generalizing content with
  | unclosed text isUnclosed =>
    rw [tokensOf_of_isUnclosed isUnclosed] at member
    obtain none | same | ⟨next, others, none, -⟩ := literal_mem_prependLiteral member
    · cases none
    · rw [same]
      exact isUnclosed.isVerbatim
    · cases none
  | marks before inside rest opened closed inductionHypothesis =>
    rw [tokensOf_of_marks opened closed] at member
    split at member
    · next empty =>
      have blank : Text.Blanks inside := Text.trim_eq_nil_iff.1 empty
      obtain later | same | ⟨next, others, parts, same⟩ := literal_mem_prependLiteral member
      · exact inductionHypothesis later
      · have alone := isVerbatim_nil.marks opened blank
        simpa [same] using alone
      · have joined := (inductionHypothesis (parts ▸ List.mem_cons_self)).marks opened blank
        simpa [same] using joined
    · obtain later | same | ⟨next, others, parts, -⟩ := literal_mem_prependLiteral member
      · exact inductionHypothesis ((List.mem_cons.1 later).resolve_left nofun)
      · have noOpening : ¬ opening <:+: before := (Text.isBeforeFirst_pair_iff.1 opened).1
        have unclosed : IsUnclosed before := by
          rintro front back rfl
          exact absurd ⟨front, back, rfl⟩ noOpening
        rw [same]
        exact unclosed.isVerbatim
      · cases parts

end Verbatim

end Templating.Interpolation
