import Mathlib.Data.List.Basic
import Templating.Proofs.Markup.Reading

/-!
# The places of faults

Reading stops at a place in its text, and what it reports is true of that place. Each
scanner leaves a part of its input from its end unread, so a stop lies in the text that was
given to `Node.parse`; and the cursor that runs up to the unread part has counted the line
breaks before it and the bytes since the last one. `Node.exists_place_of_parse` says so for
every error.
-/

namespace Templating

section Cursors

/-- What a cursor knows when it stands behind some text: its bytes, its line breaks, and
the line that they leave open. -/
structure Cursor.IsBehind (cursor : Cursor) (before : String) : Prop where
  position_eq : cursor.position = before.utf8ByteSize
  line_eq : cursor.line = 1 + before.toList.count '\n'
  exists_line : ∃ earlier line : String, before = earlier ++ line ∧ '\n' ∉ line.toList ∧
    (earlier = "" ∨ ∃ lines, earlier = lines ++ "\n") ∧ cursor.lineStart = earlier.utf8ByteSize

namespace Cursor.IsBehind

variable {cursor : Cursor} {before : String}

/-- A cursor starts behind nothing. -/
theorem start : Cursor.start.IsBehind "" :=
  ⟨rfl, rfl, "", "", rfl, List.not_mem_nil, .inl rfl, rfl⟩

/-- A cursor that goes past one more character stands behind it. A line break closes the
line, and any other character makes it longer. -/
theorem bump (isBehind : cursor.IsBehind before) (c : Char) :
    (cursor.bump c).IsBehind (before ++ String.singleton c) := by
  obtain ⟨position_eq, line_eq, earlier, line, rfl, unbroken, starts, lineStart_eq⟩ := isBehind
  by_cases isBreak : c = '\n'
  · subst isBreak
    rw [Cursor.bump, if_pos rfl]
    refine ⟨?position, ?line, earlier ++ line ++ "\n", "", ?parts, List.not_mem_nil, .inr ⟨_, rfl⟩,
      ?lineStart⟩
    case position =>
      rw [String.utf8ByteSize_append, String.utf8ByteSize_singleton, position_eq]
    case line => simp [line_eq, Nat.add_assoc]
    case parts => simp
    case lineStart =>
      rw [String.utf8ByteSize_append, position_eq]
      rfl
  · rw [Cursor.bump, if_neg isBreak]
    refine ⟨?position, ?line, earlier, line ++ String.singleton c, ?parts, ?unbroken, starts,
      lineStart_eq⟩
    case position =>
      rw [String.utf8ByteSize_append, String.utf8ByteSize_singleton, position_eq]
    case line => simp [line_eq, isBreak]
    case parts => rw [String.append_assoc]
    case unbroken => simpa [unbroken] using Ne.symm isBreak

/-- A cursor stands behind everything that it went past. -/
theorem advance (isBehind : cursor.IsBehind before) (text : List Char) :
    (cursor.advance text).IsBehind (before ++ String.ofList text) := by
  induction text generalizing cursor before with
  | nil => simpa [Cursor.advance] using isBehind
  | cons c text inductionHypothesis =>
    have further := inductionHypothesis (isBehind.bump c)
    rwa [String.append_assoc, String.singleton_eq_ofList, ← String.ofList_append] at further

/-- The place of a cursor is the line that it is in, and how far it is from the start of
that line. -/
theorem location (isBehind : cursor.IsBehind before) :
    cursor.location.line = 1 + before.toList.count '\n' ∧
      ∃ earlier line : String, before = earlier ++ line ∧ '\n' ∉ line.toList ∧
        (earlier = "" ∨ ∃ lines, earlier = lines ++ "\n") ∧
        cursor.location.column = 1 + line.utf8ByteSize := by
  obtain ⟨position_eq, line_eq, earlier, line, rfl, unbroken, starts, lineStart_eq⟩ := isBehind
  refine ⟨line_eq, earlier, line, rfl, unbroken, starts, ?_⟩
  rw [String.utf8ByteSize_append] at position_eq
  simp only [Cursor.location]
  omega

end Cursor.IsBehind

end Cursors

open Text (Ends)

/-- What a fault says of the text from its place on. -/
def MarkupFault.HoldsAt (unread : List Char) : MarkupFault → Prop
  | .unexpectedToken _ found => unread ≠ [] ∧ found = "'" ++ String.ofList (unread.take 10) ++ "'"
  | .unexpectedEnd _ => unread = []
  | .mismatchedTag opened found => '<' :: '/' :: found.toList <+: unread ∧ opened ≠ found
  | .unopenedTag tag => '<' :: '/' :: tag.toList <+: unread
  | .missing description =>
    description = "tag name" ∧ Ends isTagChar unread ∨
      description = "attribute name" ∧ ∃ c rest, unread = c :: rest ∧
        (c = '=' ∨ c = '/' ∧ rest.head? ≠ some '>')

/-- A stop in a text leaves an end of it unread, and reports what holds there. -/
structure Stop.IsIn (stop : Stop) (input : List Char) : Prop where
  suffix : stop.unread <:+ input
  holds : stop.fault.HoldsAt stop.unread

namespace Stop

variable {stop : Stop} {input rest : List Char}

/-- A stop in an end of a text is a stop in the text. -/
theorem IsIn.of_suffix (isIn : stop.IsIn rest) (isSuffix : rest <:+ input) : stop.IsIn input :=
  ⟨isIn.suffix.trans isSuffix, isIn.holds⟩

/-- A stop where everything is read. -/
theorem isIn_ending (expected : Option String) (input : List Char) :
    Stop.IsIn ⟨.ending expected, []⟩ input := by
  refine ⟨List.nil_suffix, ?_⟩
  cases expected with
  | none => rfl
  | some mark => rfl

end Stop

namespace Piece

variable {stop : Stop} {input rest : List Char}

section Suffixes

/-- A value leaves an end of its input. -/
theorem suffix_of_scanValue {content : List Char}
    (scanned : scanValue input = .ok (content, rest)) : rest <:+ input := by
  cases input with
  | nil => cases scanned
  | cons c others =>
    by_cases isQuote : c = '"' ∨ c = '\''
    · obtain ⟨rfl, -⟩ := (scanValue_quote isQuote).1 scanned
      exact ⟨c :: (content ++ [c]), by simp⟩
    · rw [scanValue, if_neg isQuote] at scanned
      cases scanned
      exact List.dropWhile_suffix isBareChar

/-- An attribute leaves an end of its input. -/
theorem suffix_of_scanAttribute {entry : Attribute}
    (scanned : scanAttribute input = .ok (entry, rest)) : rest <:+ input := by
  obtain ⟨name, after, rfl, isName, ended⟩ := exists_name_of_scanAttribute scanned
  rw [scanAttribute_name isName ended] at scanned
  have trimmed := (Text.trimStart_suffix after).trans (List.suffix_append name after)
  split at scanned
  · next behind found =>
    obtain ⟨⟨content, left⟩, valueScanned, same⟩ := map_eq_ok_iff.1 scanned
    cases same
    rw [found] at trimmed
    exact (suffix_of_scanValue valueScanned).trans ((Text.trimStart_suffix behind).trans
      ((List.suffix_cons '=' behind).trans trimmed))
  · cases scanned
    exact trimmed

end Suffixes

section Stops

/-- Where no tag stands, none of its characters does. -/
theorem isIn_of_scanTag (failed : scanTag input = .error stop) : stop.IsIn input := by
  simp only [scanTag] at failed
  split at failed
  · next empty =>
    cases failed
    exact ⟨List.suffix_refl input, .inl ⟨rfl, Text.ends_of_takeWhile_eq_nil empty⟩⟩
  · cases failed

/-- Where a mark does not stand, the text ends, or something else is shown. -/
theorem isIn_of_expect {mark : String} (failed : expect mark input = .error stop) :
    stop.IsIn input := by
  simp only [expect] at failed
  split at failed
  · cases failed
  · split at failed
    · cases failed
      exact Stop.isIn_ending (some mark) input
    · next remains =>
      cases failed
      exact ⟨List.suffix_refl input, remains, rfl⟩

/-- A value is missing, or not closed, at the end of the text only. -/
theorem isIn_of_scanValue (failed : scanValue input = .error stop) : stop.IsIn input := by
  rw [scanValue.eq_def] at failed
  split at failed
  · cases failed
    exact Stop.isIn_ending (some "attribute value") []
  · split at failed
    · split at failed
      · cases failed
      · cases failed
        exact Stop.isIn_ending (some _) _
    · cases failed

/-- An attribute has no name where it begins with an equals sign, or with a slash that does
not close the element. -/
theorem isIn_of_scanAttribute {c : Char} {start : List Char}
    (notBlank : Text.isBlank c = false) (notOpened : c ≠ '>')
    (notClosed : c = '/' → start.head? ≠ some '>')
    (failed : scanAttribute (c :: start) = .error stop) : stop.IsIn (c :: start) := by
  by_cases empty : (c :: start).takeWhile isNameChar = []
  · rw [scanAttribute, if_pos empty] at failed
    cases failed
    refine ⟨List.suffix_refl _, .inr ⟨rfl, c, start, rfl, ?_⟩⟩
    have refused := Text.ends_of_takeWhile_eq_nil empty c rfl
    rcases isNameChar_eq_false_iff.1 refused with blank | equals | bracket | slash
    · rw [notBlank] at blank
      cases blank
    · exact .inl equals
    · exact absurd bracket notOpened
    · exact .inr ⟨slash, notClosed slash⟩
  · rw [scanAttribute, if_neg empty] at failed
    have trimmed := (Text.trimStart_suffix ((c :: start).dropWhile isNameChar)).trans
      (List.dropWhile_suffix isNameChar)
    split at failed
    · next behind found =>
      rw [found] at trimmed
      exact (isIn_of_scanValue (map_eq_error_iff.1 failed)).of_suffix
        ((Text.trimStart_suffix behind).trans ((List.suffix_cons '=' behind).trans trimmed))
    · cases failed

/-- The attributes of a tag stop at the end of the text, or at one of them. -/
theorem isIn_of_scanAttributes (failed : scanAttributes input = .error stop) : stop.IsIn input := by
  fun_induction scanAttributes input with
  | case1 input trimmed =>
    cases failed
    exact Stop.isIn_ending (some ">") input
  | case2 => cases failed
  | case3 => cases failed
  | case4 input c start notClosed notOpened trimmed other scanned =>
    cases failed
    have notBlank : Text.isBlank c = false := by
      have ended := Text.ends_trimStart input
      rw [trimmed] at ended
      exact ended c rfl
    have slash : c = '/' → start.head? ≠ some '>' := by
      intro isSlash bracket
      obtain ⟨after, rfl⟩ := List.head?_eq_some_iff.1 bracket
      exact notClosed after isSlash rfl
    have isIn := isIn_of_scanAttribute notBlank notOpened slash scanned
    exact isIn.of_suffix (trimmed ▸ Text.trimStart_suffix input)
  | case5 input c start notClosed notOpened trimmed entry left scanned inductionHypothesis =>
    have isSuffix := Text.trimStart_suffix input
    rw [trimmed] at isSuffix
    exact (inductionHypothesis (map_eq_error_iff.1 failed)).of_suffix
      ((suffix_of_scanAttribute scanned).trans isSuffix)

/-- A comment is not closed. -/
theorem isIn_of_scanComment (failed : scanComment input = .error stop) : stop.IsIn input := by
  rw [scanComment] at failed
  split at failed
  · cases failed
  · cases failed
    exact Stop.isIn_ending (some commentEnd) input

/-- A closing tag has no tag, or no bracket behind it. -/
theorem isIn_of_scanClosing (failed : scanClosing input = .error stop) : stop.IsIn input := by
  rcases bind_eq_error_iff.1 failed with noTag | ⟨⟨tag, afterTag⟩, tagScanned, more⟩
  · exact isIn_of_scanTag noTag
  · obtain ⟨rfl, -⟩ := scanTag_eq_ok_iff.1 tagScanned
    rcases bind_eq_error_iff.1 more with noBracket | ⟨left, -, same⟩
    · exact (isIn_of_expect noBracket).of_suffix
        ((Text.trimStart_suffix afterTag).trans (List.suffix_append tag afterTag))
    · cases same

/-- An opening tag has no tag, or its attributes stop. -/
theorem isIn_of_scanOpening (failed : scanOpening input = .error stop) : stop.IsIn input := by
  rcases bind_eq_error_iff.1 failed with noTag | ⟨⟨tag, afterTag⟩, tagScanned, more⟩
  · exact isIn_of_scanTag noTag
  · obtain ⟨rfl, -⟩ := scanTag_eq_ok_iff.1 tagScanned
    rcases bind_eq_error_iff.1 more with attributesFailed | ⟨triple, -, same⟩
    · exact (isIn_of_scanAttributes attributesFailed).of_suffix (List.suffix_append tag afterTag)
    · cases same

/-- A piece stops inside its text. -/
theorem isIn_of_scan (failed : scan input = .error stop) : stop.IsIn input := by
  rw [scan] at failed
  split at failed
  · next body found =>
    rw [Text.after?_eq_some_iff.1 found]
    exact (isIn_of_scanComment failed).of_suffix (List.suffix_append commentStart body)
  · split at failed
    · next body found =>
      rw [Text.after?_eq_some_iff.1 found]
      exact (isIn_of_scanClosing failed).of_suffix (List.suffix_append closingStart body)
    · split at failed
      · exact (isIn_of_scanOpening failed).of_suffix (List.tail_suffix input)
      · cases failed

end Stops

/-- A piece leaves an end of its text. -/
theorem suffix_of_scan {piece : Piece} (nonempty : input ≠ [])
    (scanned : scan input = .ok (piece, rest)) : rest <:+ input := by
  obtain ⟨written, rfl, -⟩ := isPiece_of_scan nonempty scanned
  exact List.suffix_append written rest

/-- A closing tag begins with its tag. -/
theorem prefix_of_scan_closing {tag : String} (nonempty : input ≠ [])
    (scanned : scan input = .ok (.closing tag, rest)) : '<' :: '/' :: tag.toList <+: input := by
  obtain ⟨written, rfl, isPiece⟩ := isPiece_of_scan nonempty scanned
  have isClosing := isPiece.isClosing
  generalize tag.toList = letters at isClosing
  cases isClosing with
  | @intro blanks areBlank => exact ⟨blanks ++ ['>'] ++ rest, by simp⟩

end Piece

namespace Node

variable {stop : Stop} {enclosing : List OpenElement} {siblings : List Node} {input : List Char}

/-- Reading stops inside its text. A closing tag that fits no element is left to read. -/
theorem isIn_of_readAll (failed : readAll enclosing siblings input = .error stop) :
    stop.IsIn input := by
  fun_induction readAll enclosing siblings input with
  | case1 => cases failed
  | case2 =>
    cases failed
    exact Stop.isIn_ending (some _) []
  | case3 enclosing siblings input nonempty other scanned =>
    cases failed
    exact Piece.isIn_of_scan scanned
  | case4 enclosing siblings input nonempty content rest scanned inductionHypothesis =>
    exact (inductionHypothesis failed).of_suffix (Piece.suffix_of_scan nonempty scanned)
  | case5 enclosing siblings input nonempty rest scanned inductionHypothesis =>
    exact (inductionHypothesis failed).of_suffix (Piece.suffix_of_scan nonempty scanned)
  | case6 enclosing siblings input nonempty tag attributes closed rest scanned childless
      inductionHypothesis =>
    exact (inductionHypothesis failed).of_suffix (Piece.suffix_of_scan nonempty scanned)
  | case7 enclosing siblings input nonempty tag attributes closed rest scanned notChildless
      inductionHypothesis =>
    exact (inductionHypothesis failed).of_suffix (Piece.suffix_of_scan nonempty scanned)
  | case8 siblings input nonempty tag rest scanned =>
    cases failed
    exact ⟨List.suffix_refl input, Piece.prefix_of_scan_closing nonempty scanned⟩
  | case9 siblings input nonempty rest parent outer scanned inductionHypothesis =>
    have reversed : siblings.attach.reverse.unattach = siblings.reverse := by simp
    rw [reversed] at inductionHypothesis
    exact (inductionHypothesis failed).of_suffix (Piece.suffix_of_scan nonempty scanned)
  | case10 siblings input nonempty tag rest scanned parent outer different =>
    cases failed
    exact ⟨List.suffix_refl input, Piece.prefix_of_scan_closing nonempty scanned, different⟩

/-- Every error has a place between two characters of the markup. Its line counts the line
breaks before the place, its column the bytes from the last of them on, both from one; and
what it reports holds of the markup from the place on. -/
theorem exists_place_of_parse {markup : String} {error : MarkupError}
    (failed : parse markup = .error error) :
    ∃ (place : markup.Pos) (before after : String), place.Splits before after ∧
      error.line = 1 + before.toList.count '\n' ∧
      (∃ earlier line : String, before = earlier ++ line ∧ '\n' ∉ line.toList ∧
        (earlier = "" ∨ ∃ lines, earlier = lines ++ "\n") ∧
        error.column = 1 + line.utf8ByteSize) ∧
      error.fault.HoldsAt after.toList := by
  obtain ⟨stop, readFailed, rfl⟩ := mapError_eq_error_iff.1 failed
  obtain ⟨⟨before, parts⟩, holds⟩ := isIn_of_readAll readFailed
  have whole : markup = String.ofList before ++ String.ofList stop.unread := by
    rw [← String.ofList_append, parts, String.ofList_toList]
  have consumed : markup.toList.take (markup.toList.length - stop.unread.length) = before := by
    rw [← parts, List.length_append, Nat.add_sub_cancel, List.take_left]
  have isBehind := Cursor.IsBehind.start.advance before
  rw [String.empty_append] at isBehind
  obtain ⟨line_eq, lastLine⟩ := isBehind.location
  have isPlace : (String.ofList before).rawEndPos.IsValid markup :=
    String.Pos.Raw.isValid_iff_exists_append.2 ⟨_, _, whole, rfl⟩
  refine ⟨⟨_, isPlace⟩, String.ofList before, String.ofList stop.unread, ⟨whole, rfl⟩, ?_⟩
  rw [errorAt, Location.ofUnread, consumed]
  refine ⟨line_eq, lastLine, ?_⟩
  rw [String.toList_ofList]
  exact holds

/-- A closing tag in the second line that does not fit its element. -/
theorem exists_place_of_parse_mismatch :
    parse "<div>\n  <p>é</span>\n</div>" = .error ⟨2, 8, .mismatchedTag "p" "span"⟩ ∧
      ∃ earlier line after : String, "<div>\n  <p>é</span>\n</div>" = earlier ++ line ++ after ∧
        1 + line.utf8ByteSize = 8 ∧ '<' :: '/' :: "span".toList <+: after.toList := by
  have failed : parse "<div>\n  <p>é</span>\n</div>" =
      .error ⟨2, 8, .mismatchedTag "p" "span"⟩ := by
    decide +kernel
  obtain ⟨place, before, after, splits, -, ⟨earlier, line, rfl, -, -, column⟩, begins, -⟩ :=
    exists_place_of_parse failed
  exact ⟨failed, earlier, line, after, splits.eq_append, column.symm, begins⟩

end Node

end Templating
