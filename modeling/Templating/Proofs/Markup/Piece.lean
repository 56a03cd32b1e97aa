import Templating.Proofs.Markup.Attributes
import Templating.Proofs.Outcome

/-!
# Scanning pieces

The first piece of a text is the one that the grammar puts at its beginning:
`Piece.isPiece_of_scan` and `Piece.scan_of_isPiece` say so for texts, comments, opening
and closing tags at once.
-/

namespace Templating.Piece

open Grammar
open Text (Blanks Ends IsBeforeFirst)

/-- Text goes on to the end of its input or to markup. -/
def EndsText (next : List Char) : Prop :=
  next = [] ∨ opensMarkup next = true

/-- A piece as written, with what comes next. A closing tag may be one that no element
has. -/
inductive IsPiece : (written : List Char) → Piece → (next : List Char) → Prop
  | text {run decoded next : List Char} (isRun : IsTextRun run) (decodes : Decodes run decoded)
      (endsText : EndsText next) : IsPiece run (.text (String.ofList decoded)) next
  | comment {written next : List Char} (isComment : IsComment written) :
      IsPiece written .comment next
  | opening {written tag next : List Char} {entries : List Attribute} {closed : Bool}
      (isOpening : IsOpening written tag entries closed) :
      IsPiece written (.opening (String.ofList tag) entries closed) next
  | closing {written tag next : List Char} (nonempty : tag ≠ [])
      (areTagChars : ∀ c ∈ tag, IsTagChar c) (isClosing : IsClosing tag written) :
      IsPiece written (.closing (String.ofList tag)) next

/-- A closing tag is written around its tag. -/
theorem IsPiece.isClosing {written next : List Char} {tag : String}
    (isPiece : IsPiece written (.closing tag) next) : IsClosing tag.toList written := by
  cases isPiece with
  | closing nonempty areTagChars isClosing =>
    rw [String.toList_ofList]
    exact isClosing

section Texts

/-- Markup is opened by a bracket in front of an ASCII letter, a slash or an exclamation
mark. -/
theorem opensMarkup_eq_true_iff {text : List Char} :
    opensMarkup text = true ↔
      ∃ c rest, text = '<' :: c :: rest ∧ (c.isAlpha = true ∨ c = '/' ∨ c = '!') := by
  constructor
  · intro opens
    unfold opensMarkup at opens
    split at opens
    · next c rest =>
      simp only [Bool.or_eq_true, beq_iff_eq, or_assoc] at opens
      exact ⟨c, rest, rfl, opens⟩
    · cases opens
  · rintro ⟨c, rest, rfl, opens⟩
    simpa only [opensMarkup, Bool.or_eq_true, beq_iff_eq, or_assoc] using opens

/-- In front of an end of text, a character opens no markup exactly when it may stand in
a text that opens none. -/
theorem noMarkup_cons_iff {c : Char} {run next : List Char} (endsText : EndsText next) :
    NoMarkup (c :: run) ↔ opensMarkup (c :: (run ++ next)) = false ∧ NoMarkup run := by
  constructor
  · intro noMarkup
    refine ⟨?_, ?_⟩
    · apply Bool.eq_false_iff.2
      intro opens
      obtain ⟨d, rest, same, special⟩ := opensMarkup_eq_true_iff.1 opens
      obtain ⟨rfl, parts⟩ := List.cons.inj same
      cases run with
      | cons other others =>
        obtain ⟨rfl, -⟩ := List.cons.inj parts
        exact noMarkup [] other others rfl special
      | nil =>
        -- The bracket would stand in front of the next one, which is nothing special.
        rw [List.nil_append] at parts
        rcases endsText with empty | nextOpens
        · rw [empty] at parts
          cases parts
        · obtain ⟨_, _, begins, -⟩ := opensMarkup_eq_true_iff.1 nextOpens
          rw [begins] at parts
          rw [← (List.cons.inj parts).1] at special
          exact absurd special (by decide)
    · intro before d after same
      exact noMarkup (c :: before) d after (by rw [same]; rfl)
  · rintro ⟨closed, noMarkup⟩ before d after same special
    cases before with
    | nil =>
      obtain ⟨rfl, rfl⟩ := List.cons.inj same
      have opens := opensMarkup_eq_true_iff.2 ⟨d, after ++ next, rfl, special⟩
      exact absurd opens (Bool.eq_false_iff.1 closed)
    | cons other before => exact noMarkup before d after (List.cons.inj same).2 special

/-- A text and what comes after it are split where markup begins, and nowhere else. -/
theorem splitText_eq_iff {input run next : List Char} :
    splitText input = (run, next) ↔ input = run ++ next ∧ EndsText next ∧ NoMarkup run := by
  have noneInNil : NoMarkup [] := by
    intro before c after same
    simp at same
  induction input generalizing run with
  | nil =>
    simp only [splitText, Prod.mk.injEq]
    constructor
    · rintro ⟨rfl, rfl⟩
      exact ⟨rfl, .inl rfl, noneInNil⟩
    · rintro ⟨parts, -⟩
      obtain ⟨rfl, rfl⟩ := List.append_eq_nil_iff.1 parts.symm
      exact ⟨rfl, rfl⟩
  | cons c rest inductionHypothesis =>
    rw [splitText]
    by_cases opens : opensMarkup (c :: rest) = true
    · rw [if_pos opens, Prod.mk.injEq]
      constructor
      · rintro ⟨rfl, rfl⟩
        exact ⟨rfl, .inr opens, noneInNil⟩
      · rintro ⟨parts, endsText, noMarkup⟩
        cases run with
        | nil => exact ⟨rfl, parts⟩
        | cons other run =>
          rw [parts] at opens
          exact absurd opens (Bool.eq_false_iff.1 ((noMarkup_cons_iff endsText).1 noMarkup).1)
    · rw [if_neg opens, Prod.mk.injEq]
      constructor
      · rintro ⟨rfl, rfl⟩
        obtain ⟨parts, endsText, noMarkup⟩ := inductionHypothesis.1 rfl
        refine ⟨by rw [List.cons_append, ← parts], endsText, (noMarkup_cons_iff endsText).2 ?_⟩
        rw [← parts]
        exact ⟨Bool.eq_false_iff.2 opens, noMarkup⟩
      · rintro ⟨parts, endsText, noMarkup⟩
        cases run with
        | nil =>
          rw [List.nil_append] at parts
          rcases endsText with rfl | nextOpens
          · cases parts
          · rw [← parts] at nextOpens
            exact absurd nextOpens opens
        | cons other run =>
          obtain ⟨rfl, restParts⟩ := List.cons.inj parts
          have split := inductionHypothesis.2
            ⟨restParts, endsText, ((noMarkup_cons_iff endsText).1 noMarkup).2⟩
          rw [split]
          exact ⟨rfl, rfl⟩

end Texts

section Tags

/-- A tag is scanned up to the first character that is none of a tag's. -/
theorem scanTag_eq_ok_iff {input tag rest : List Char} :
    scanTag input = .ok (tag, rest) ↔
      input = tag ++ rest ∧ tag ≠ [] ∧ (∀ c ∈ tag, IsTagChar c) ∧ Ends isTagChar rest := by
  have cut : input.takeWhile isTagChar = tag ∧ input.dropWhile isTagChar = rest ↔
      input = tag ++ rest ∧ (∀ c ∈ tag, IsTagChar c) ∧ Ends isTagChar rest := by
    simp only [Text.eq_run_iff, isTagChar_iff]
  simp only [scanTag]
  split
  · next empty =>
    constructor
    · intro scanned
      cases scanned
    · rintro ⟨parts, nonempty, areTagChars, ended⟩
      exact absurd ((cut.2 ⟨parts, areTagChars, ended⟩).1.symm.trans empty) nonempty
  · next nonempty =>
    simp only [Except.ok.injEq, Prod.mk.injEq, cut]
    constructor
    · rintro ⟨parts, areTagChars, ended⟩
      refine ⟨parts, ?_, areTagChars, ended⟩
      rintro rfl
      exact nonempty (cut.2 ⟨parts, areTagChars, ended⟩).1
    · rintro ⟨parts, -, areTagChars, ended⟩
      exact ⟨parts, areTagChars, ended⟩

/-- A mark is expected exactly where it comes next. -/
theorem expect_eq_ok_iff {mark : String} {input rest : List Char} :
    expect mark input = .ok rest ↔ input = mark.toList ++ rest := by
  rw [← Text.after?_eq_some_iff]
  simp only [expect]
  cases Text.after? mark.toList input with
  | some after => simp
  | none =>
    by_cases empty : input = []
    · simp [empty]
    · simp [empty]

variable {input rest : List Char} {piece : Piece}

/-- The rest of a comment goes on to the first end mark. -/
theorem scanComment_eq_ok_iff :
    scanComment input = .ok (piece, rest) ↔ piece = .comment ∧ ∃ body,
      input = body ++ commentEnd.toList ++ rest ∧ IsBeforeFirst commentEnd.toList body := by
  have nonempty : commentEnd.toList ≠ [] := by decide
  simp only [← Text.cutAt?_eq_some_iff nonempty, scanComment]
  cases cut : Text.cutAt? commentEnd.toList input with
  | none => simp
  | some parts =>
    obtain ⟨before, after⟩ := parts
    simp [eq_comm]

/-- The rest of a closing tag is a tag, blanks and a bracket. -/
theorem scanClosing_eq_ok_iff :
    scanClosing input = .ok (piece, rest) ↔ ∃ tag blanks, piece = .closing (String.ofList tag) ∧
      input = tag ++ blanks ++ '>' :: rest ∧ tag ≠ [] ∧ (∀ c ∈ tag, IsTagChar c) ∧
      Blanks blanks := by
  simp only [scanClosing, bind_eq_ok_iff, Prod.exists, scanTag_eq_ok_iff, expect_eq_ok_iff]
  constructor
  · rintro ⟨tag, after, ⟨rfl, nonempty, areTagChars, -⟩, left, bracket, result⟩
    cases result
    obtain ⟨blanks, areBlank, parts⟩ := Text.exists_blanks_append_trimStart after
    refine ⟨tag, blanks, rfl, ?_, nonempty, areTagChars, areBlank⟩
    rw [parts, bracket, List.append_assoc]
    rfl
  · rintro ⟨tag, blanks, rfl, rfl, nonempty, areTagChars, areBlank⟩
    have ended : Ends isTagChar (blanks ++ '>' :: rest) := by
      cases blanks with
      | nil => exact Text.Ends.cons (by decide)
      | cons blank others =>
        exact Text.Ends.cons
          (isTagChar_eq_false_of_isBlank (areBlank blank List.mem_cons_self))
    refine ⟨tag, blanks ++ '>' :: rest, ⟨by simp, nonempty, areTagChars, ended⟩, rest, ?_, rfl⟩
    exact Text.trimStart_blanks areBlank (Text.Ends.cons (by decide))

/-- The rest of an opening tag is a tag and the rest that follows it. -/
theorem scanOpening_eq_ok_iff :
    scanOpening input = .ok (piece, rest) ↔ ∃ tag written entries closed,
      piece = .opening (String.ofList tag) entries closed ∧ input = tag ++ written ++ rest ∧
      tag ≠ [] ∧ (∀ c ∈ tag, IsTagChar c) ∧ Ends isTagChar written ∧
      TagRest written entries closed := by
  simp only [scanOpening, bind_eq_ok_iff, Prod.exists, scanTag_eq_ok_iff]
  constructor
  · rintro ⟨tag, after, ⟨rfl, nonempty, areTagChars, ended⟩, entries, closed, left, scanned, result⟩
    cases result
    obtain ⟨written, rfl, tagRest⟩ := tagRest_of_scanAttributes scanned
    exact ⟨tag, written, entries, closed, rfl, by simp, nonempty, areTagChars,
      (Text.ends_append_iff tagRest.ne_nil).1 ended, tagRest⟩
  · rintro ⟨tag, written, entries, closed, rfl, rfl, nonempty, areTagChars, ended, tagRest⟩
    exact ⟨tag, written ++ rest, ⟨by simp, nonempty, areTagChars,
      (Text.ends_append_iff tagRest.ne_nil).2 ended⟩, entries, closed, rest,
      scanAttributes_of_tagRest tagRest rfl, rfl⟩

end Tags

section Pieces

/-- A comment is scanned behind its start. -/
theorem scan_comment (body : List Char) : scan (commentStart ++ body) = scanComment body := by
  rw [scan, Text.after?_eq_some_iff.2 rfl]

/-- A closing tag is scanned behind its start. -/
theorem scan_closing (body : List Char) : scan (closingStart ++ body) = scanClosing body := by
  have noComment : Text.after? commentStart (closingStart ++ body) = none := rfl
  rw [scan, noComment, Text.after?_eq_some_iff.2 rfl]

/-- An opening tag is scanned behind its bracket. -/
theorem scan_opening {letter : Char} (isLetter : letter.isAlpha = true) (rest : List Char) :
    scan ('<' :: letter :: rest) = scanOpening (letter :: rest) := by
  have notBang : '!' ≠ letter := by
    rintro rfl
    cases isLetter
  have notSlash : '/' ≠ letter := by
    rintro rfl
    cases isLetter
  have noComment : Text.after? commentStart ('<' :: letter :: rest) = none := by
    simp [commentStart, Text.after?, notBang]
  have noClosing : Text.after? closingStart ('<' :: letter :: rest) = none := by
    simp [closingStart, Text.after?, notSlash]
  have opens : opensMarkup ('<' :: letter :: rest) = true :=
    opensMarkup_eq_true_iff.2 ⟨letter, rest, rfl, .inl isLetter⟩
  rw [scan, noComment, noClosing]
  simp only [opens, if_true, List.tail_cons]

/-- What opens no markup is scanned as text. -/
theorem scan_text (closed : opensMarkup input = false) :
    scan input = .ok (.text (String.ofList (Entity.decode (splitText input).1)),
      (splitText input).2) := by
  have noMark : ∀ mark, opensMarkup mark = true → Text.after? mark input = none := by
    intro mark opens
    cases found : Text.after? mark input with
    | none => rfl
    | some after =>
      obtain ⟨c, others, rfl, special⟩ := opensMarkup_eq_true_iff.1 opens
      rw [Text.after?_eq_some_iff.1 found] at closed
      have opensInput := opensMarkup_eq_true_iff.2 ⟨c, others ++ after, rfl, special⟩
      exact absurd opensInput (Bool.eq_false_iff.1 closed)
  rw [scan, noMark commentStart (by decide), noMark closingStart (by decide)]
  simp only [closed, Bool.false_eq_true, if_false]

/-- An exclamation mark behind a bracket is read as the start of a comment only. -/
theorem scan_bang (after : List Char) (scanned : scan ('<' :: '!' :: after) = .ok (piece, rest)) :
    ∃ body, '<' :: '!' :: after = commentStart ++ body := by
  cases found : Text.after? commentStart ('<' :: '!' :: after) with
  | some body => exact ⟨body, Text.after?_eq_some_iff.1 found⟩
  | none =>
    have opens : opensMarkup ('<' :: '!' :: after) = true := rfl
    rw [scan, found] at scanned
    simp only [opens] at scanned
    cases scanned

/-- A scanned piece stands at the beginning of its text. -/
theorem isPiece_of_scan (nonempty : input ≠ []) (scanned : scan input = .ok (piece, rest)) :
    ∃ written, input = written ++ rest ∧ IsPiece written piece rest := by
  by_cases opens : opensMarkup input = true
  · obtain ⟨c, others, rfl, isLetter | rfl | rfl⟩ := opensMarkup_eq_true_iff.1 opens
    · rw [scan_opening isLetter] at scanned
      obtain ⟨tag, written, entries, closed, rfl, parts, tagNonempty, areTagChars, ended, tagRest⟩ :=
        scanOpening_eq_ok_iff.1 scanned
      obtain ⟨letter, more, rfl⟩ := List.exists_cons_of_ne_nil tagNonempty
      obtain ⟨rfl, rfl⟩ := List.cons.inj parts
      have isTag : IsTag (c :: more) :=
        .intro isLetter fun other member => areTagChars other (List.mem_cons_of_mem c member)
      have isOpening := IsOpening.intro isTag (ends_isTagChar_iff.1 ended) tagRest
      exact ⟨'<' :: (c :: more ++ written), rfl, .opening isOpening⟩
    · obtain ⟨tag, blanks, rfl, rfl, tagNonempty, areTagChars, areBlank⟩ :=
        scanClosing_eq_ok_iff.1 ((scan_closing others).symm.trans scanned)
      refine ⟨'<' :: '/' :: (tag ++ blanks ++ ['>']), by simp, ?_⟩
      exact .closing tagNonempty areTagChars (.intro areBlank)
    · obtain ⟨body, parts⟩ := scan_bang others scanned
      rw [parts, scan_comment] at scanned
      obtain ⟨rfl, inside, rfl, isBody⟩ := scanComment_eq_ok_iff.1 scanned
      refine ⟨commentStart ++ inside ++ commentEnd.toList, ?_, .comment (.intro isBody)⟩
      rw [parts]
      simp only [List.append_assoc]
  · have closed := Bool.eq_false_iff.2 opens
    rw [scan_text closed] at scanned
    cases scanned
    obtain ⟨parts, endsText, noMarkup⟩ :=
      splitText_eq_iff.1 (rfl : splitText input = ((splitText input).1, (splitText input).2))
    refine ⟨(splitText input).1, parts, .text ⟨?_, noMarkup⟩ (Entity.decodes_decode _) endsText⟩
    intro empty
    rw [empty, List.nil_append] at parts
    rcases endsText with ended | nextOpens
    · exact nonempty (parts.trans ended)
    · rw [← parts] at nextOpens
      exact opens nextOpens

/-- A piece is scanned as such, in front of what comes next. -/
theorem scan_of_isPiece {written : List Char} (isPiece : IsPiece written piece rest) :
    scan (written ++ rest) = .ok (piece, rest) := by
  cases isPiece with
  | text isRun decodes endsText =>
    obtain ⟨c, others, rfl⟩ := List.exists_cons_of_ne_nil isRun.nonempty
    have closed := ((noMarkup_cons_iff endsText).1 isRun.noMarkup).1
    have split := splitText_eq_iff.2 ⟨rfl, endsText, isRun.noMarkup⟩
    rw [List.cons_append] at split ⊢
    rw [scan_text closed, split, Entity.decode_of_decodes decodes]
  | comment isComment =>
    cases isComment with
    | @intro body isBody =>
      rw [List.append_assoc, List.append_assoc]
      refine (scan_comment _).trans (scanComment_eq_ok_iff.2 ?_)
      exact ⟨rfl, body, (List.append_assoc _ _ _).symm, isBody⟩
  | opening isOpening =>
    cases isOpening with
    | intro isTag ended attributes =>
      cases isTag with
      | @intro letter others isLetter areTagChars =>
        have isTag : IsTag (letter :: others) := .intro isLetter areTagChars
        rw [List.cons_append, List.cons_append, List.cons_append, scan_opening isLetter,
          scanOpening_eq_ok_iff]
        exact ⟨letter :: others, _, _, _, rfl, rfl, isTag.ne_nil, isTag.areTagChars,
          ends_isTagChar_iff.2 ended, attributes⟩
  | @closing tag _ tagNonempty areTagChars isClosing =>
    cases isClosing with
    | @intro blanks areBlank =>
      have parts : '<' :: '/' :: (tag ++ blanks ++ ['>']) ++ rest =
          closingStart ++ (tag ++ blanks ++ '>' :: rest) := by
        simp [closingStart]
      rw [parts, scan_closing, scanClosing_eq_ok_iff]
      exact ⟨tag, blanks, rfl, rfl, tagNonempty, areTagChars, areBlank⟩

end Pieces

end Templating.Piece
