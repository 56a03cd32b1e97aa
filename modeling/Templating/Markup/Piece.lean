import Templating.Markup.Entity
import Templating.Markup.Fault
import Templating.Markup.Node
import Templating.Text.Blank

/-!
# Pieces of markup

Markup is a row of pieces: runs of text, comments, opening tags with their
attributes, and closing tags. `Piece.scan` takes the first piece off a text that is
not empty. Each scanner returns what it leaves unread, or stops with a fault and
the text from the offending place on; `Piece.length_of_scan` says that a piece takes at
least one character.
-/

namespace Templating

/-- Why and before which text reading stopped. -/
structure Stop where
  fault : MarkupFault
  unread : List Char

/-- A piece of markup. An opening tag may close its element itself. -/
inductive Piece
  | text (content : String)
  | comment
  | opening (tag : String) (attributes : List Attribute) (closed : Bool)
  | closing (tag : String)
deriving DecidableEq

/-- The characters of tags, all of them ASCII. -/
def isTagChar (c : Char) : Bool :=
  c.isAlphanum || c == '-' || c == '_' || c == ':'

/-- The characters of attribute names. -/
def isNameChar (c : Char) : Bool :=
  !Text.isBlank c && c != '=' && c != '>' && c != '/'

/-- The characters of attribute values without quotes. -/
def isBareChar (c : Char) : Bool :=
  !Text.isBlank c && c != '>'

/-- Whether a text begins with markup; a bracket before anything but an ASCII
letter, a slash or an exclamation mark is text. -/
def opensMarkup : List Char → Bool
  | '<' :: c :: _ => c.isAlpha || c == '/' || c == '!'
  | _ => false

namespace Piece

/-- The longest text before markup, and the rest. -/
def splitText : List Char → List Char × List Char
  | [] => ([], [])
  | c :: rest =>
    if opensMarkup (c :: rest) then ([], c :: rest)
    else (c :: (splitText rest).1, (splitText rest).2)

/-- The number of characters that an unexpected text is shown by. -/
def shownLength : Nat :=
  10

/-- What follows a mark that has to come next. -/
def expect (mark : String) (input : List Char) : Except Stop (List Char) :=
  match Text.after? mark.toList input with
  | some rest => .ok rest
  | none =>
    if input = [] then .error ⟨.ending (some mark), []⟩
    else
      let found := String.ofList (input.take shownLength)
      .error ⟨.unexpectedToken s!"'{mark}'" s!"'{found}'", input⟩

/-- A tag, and the rest. -/
def scanTag (input : List Char) : Except Stop (List Char × List Char) :=
  let tag := input.takeWhile isTagChar
  if tag = [] then .error ⟨.missing "tag name", input⟩
  else .ok (tag, input.dropWhile isTagChar)

/-- An attribute value in quotes or bare, and the rest. -/
def scanValue : List Char → Except Stop (List Char × List Char)
  | [] => .error ⟨.ending (some "attribute value"), []⟩
  | c :: rest =>
    if c = '"' ∨ c = '\'' then
      match Text.cutAt? [c] rest with
      | some (value, rest') => .ok (value, rest')
      | none => .error ⟨.ending (some (String.ofList [c])), []⟩
    else .ok ((c :: rest).takeWhile isBareChar, (c :: rest).dropWhile isBareChar)

/-- An attribute, and the rest. An attribute without a value has the empty one. -/
def scanAttribute (input : List Char) : Except Stop (Attribute × List Char) :=
  let name := input.takeWhile isNameChar
  if name = [] then .error ⟨.missing "attribute name", input⟩
  else
    match Text.trimStart (input.dropWhile isNameChar) with
    | '=' :: rest =>
      (scanValue (Text.trimStart rest)).map fun (value, rest') =>
        (⟨String.ofList name, String.ofList (Entity.decode value)⟩, rest')
    | rest => .ok (⟨String.ofList name, ""⟩, rest)

/-- Dropping leading characters does not lengthen a text. -/
theorem length_dropWhile_le (accepts : Char → Bool) (text : List Char) :
    (text.dropWhile accepts).length ≤ text.length :=
  (List.dropWhile_sublist accepts).length_le

/-- A run of accepted characters and the rest make up the text. -/
theorem length_takeWhile_add (accepts : Char → Bool) (text : List Char) :
    (text.takeWhile accepts).length + (text.dropWhile accepts).length = text.length := by
  rw [← List.length_append, List.takeWhile_append_dropWhile]

/-- A value leaves no more than there was. -/
theorem length_of_scanValue {input value rest : List Char}
    (scanned : scanValue input = .ok (value, rest)) : rest.length ≤ input.length := by
  unfold scanValue at scanned
  split at scanned
  · simp at scanned
  · split at scanned
    · split at scanned
      · next cut =>
        simp only [Except.ok.injEq, Prod.mk.injEq] at scanned
        obtain ⟨-, rfl⟩ := scanned
        have := Text.length_of_cutAt? cut
        simp only [List.length_cons] at this ⊢
        omega
      · simp at scanned
    · simp only [Except.ok.injEq, Prod.mk.injEq] at scanned
      obtain ⟨-, rfl⟩ := scanned
      exact length_dropWhile_le _ _

/-- An attribute takes at least one character. -/
theorem length_of_scanAttribute {input rest : List Char} {entry : Attribute}
    (scanned : scanAttribute input = .ok (entry, rest)) : rest.length < input.length := by
  unfold scanAttribute at scanned
  simp only at scanned
  split at scanned
  · simp at scanned
  · next nonempty =>
    have positive := List.length_pos_iff.2 nonempty
    have parts := length_takeWhile_add isNameChar input
    have trimmed := length_dropWhile_le Text.isBlank (input.dropWhile isNameChar)
    split at scanned
    · next rest' found =>
      cases value : scanValue (Text.trimStart rest') with
      | error stop => simp [value, Except.map] at scanned
      | ok pair =>
        simp only [value, Except.map, Except.ok.injEq, Prod.mk.injEq] at scanned
        obtain ⟨-, rfl⟩ := scanned
        have valueLength := length_of_scanValue value
        have trimmedAgain := length_dropWhile_le Text.isBlank rest'
        rw [Text.trimStart] at found valueLength
        rw [found] at trimmed
        simp only [List.length_cons] at trimmed
        omega
    · simp only [Except.ok.injEq, Prod.mk.injEq] at scanned
      obtain ⟨-, rfl⟩ := scanned
      rw [Text.trimStart]
      omega

/-- The attributes up to the end of an opening tag, whether the tag closes its
element itself, and the rest. -/
def scanAttributes (input : List Char) : Except Stop (List Attribute × Bool × List Char) :=
  match _trimmed : Text.trimStart input with
  | [] => .error ⟨.ending (some ">"), []⟩
  | '/' :: '>' :: rest => .ok ([], true, rest)
  | '>' :: rest => .ok ([], false, rest)
  | c :: start =>
    match _scanned : scanAttribute (c :: start) with
    | .error stop => .error stop
    | .ok (entry, rest) =>
      (scanAttributes rest).map fun (entries, closed, rest') => (entry :: entries, closed, rest')
termination_by input.length
decreasing_by
  have shorter := length_of_scanAttribute _scanned
  have trimmed := length_dropWhile_le Text.isBlank input
  rw [Text.trimStart] at _trimmed
  rw [_trimmed] at trimmed
  omega

/-- What the end of an opening tag leaves is no longer than what it was found in. -/
theorem length_of_scanAttributes {input rest : List Char} {entries : List Attribute}
    {closed : Bool} (scanned : scanAttributes input = .ok (entries, closed, rest)) :
    rest.length ≤ input.length := by
  fun_induction scanAttributes input generalizing entries closed rest with
  | case1 => simp at scanned
  | case2 input rest' found =>
    have trimmed := length_dropWhile_le Text.isBlank input
    rw [← Text.trimStart, found] at trimmed
    simp only [Except.ok.injEq, Prod.mk.injEq] at scanned
    obtain ⟨-, -, rfl⟩ := scanned
    simp only [List.length_cons] at trimmed
    omega
  | case3 input rest' found =>
    have trimmed := length_dropWhile_le Text.isBlank input
    rw [← Text.trimStart, found] at trimmed
    simp only [Except.ok.injEq, Prod.mk.injEq] at scanned
    obtain ⟨-, -, rfl⟩ := scanned
    simp only [List.length_cons] at trimmed
    omega
  | case4 => simp at scanned
  | case5 input c start _ _ found entry rest' scannedOne inductionHypothesis =>
    have trimmed := length_dropWhile_le Text.isBlank input
    rw [← Text.trimStart, found] at trimmed
    have shorter := length_of_scanAttribute scannedOne
    cases more : scanAttributes rest' with
    | error stop => simp [more, Except.map] at scanned
    | ok triple =>
      obtain ⟨entries', closed', rest''⟩ := triple
      simp only [more, Except.map, Except.ok.injEq, Prod.mk.injEq] at scanned
      obtain ⟨-, -, rfl⟩ := scanned
      have := inductionHypothesis more
      omega

/-- What stands before a comment. -/
def commentStart : List Char :=
  "<!--".toList

/-- What ends a comment. -/
def commentEnd : String :=
  "-->"

/-- What stands before the tag of a closing tag. -/
def closingStart : List Char :=
  "</".toList

/-- The rest of a comment. -/
def scanComment (input : List Char) : Except Stop (Piece × List Char) :=
  match Text.cutAt? commentEnd.toList input with
  | some (_, rest) => .ok (.comment, rest)
  | none => .error ⟨.ending (some commentEnd), []⟩

/-- The rest of a closing tag. -/
def scanClosing (input : List Char) : Except Stop (Piece × List Char) := do
  let (tag, afterTag) ← scanTag input
  let rest ← expect ">" (Text.trimStart afterTag)
  return (.closing (String.ofList tag), rest)

/-- The rest of an opening tag. -/
def scanOpening (input : List Char) : Except Stop (Piece × List Char) := do
  let (tag, afterTag) ← scanTag input
  let (entries, closed, rest) ← scanAttributes afterTag
  return (.opening (String.ofList tag) entries closed, rest)

/-- The first piece of a text, and the rest. -/
def scan (input : List Char) : Except Stop (Piece × List Char) :=
  match Text.after? commentStart input with
  | some body => scanComment body
  | none =>
    match Text.after? closingStart input with
    | some body => scanClosing body
    | none =>
      if opensMarkup input then scanOpening input.tail
      else
        let (content, rest) := splitText input
        .ok (.text (String.ofList (Entity.decode content)), rest)

/-- Text leaves no more than there was. -/
theorem length_splitText_le (input : List Char) : (splitText input).2.length ≤ input.length := by
  induction input with
  | nil => simp [splitText]
  | cons c rest inductionHypothesis =>
    rw [splitText]
    split
    · simp
    · simp only [List.length_cons]
      omega

/-- A mark takes its own length. -/
theorem length_of_expect {mark : String} {input rest : List Char}
    (expected : expect mark input = .ok rest) :
    rest.length + mark.toList.length = input.length := by
  unfold expect at expected
  split at expected
  · next found =>
    simp only [Except.ok.injEq] at expected
    rw [Text.after?_eq_some_iff.1 found, expected, List.length_append, Nat.add_comm]
  · split at expected <;> simp at expected

/-- A tag leaves less than there was. -/
theorem length_of_scanTag {input tag rest : List Char}
    (scanned : scanTag input = .ok (tag, rest)) : rest.length < input.length := by
  unfold scanTag at scanned
  simp only at scanned
  split at scanned
  · simp at scanned
  · next nonempty =>
    simp only [Except.ok.injEq, Prod.mk.injEq] at scanned
    obtain ⟨-, rfl⟩ := scanned
    have positive := List.length_pos_iff.2 nonempty
    have parts := length_takeWhile_add isTagChar input
    omega

/-- The rest of a comment leaves no more than there was. -/
theorem length_of_scanComment {input rest : List Char} {piece : Piece}
    (scanned : scanComment input = .ok (piece, rest)) : rest.length ≤ input.length := by
  unfold scanComment at scanned
  split at scanned
  · next cut =>
    simp only [Except.ok.injEq, Prod.mk.injEq] at scanned
    obtain ⟨-, rfl⟩ := scanned
    have := Text.length_of_cutAt? cut
    omega
  · simp at scanned

/-- The rest of a closing tag leaves less than there was. -/
theorem length_of_scanClosing {input rest : List Char} {piece : Piece}
    (scanned : scanClosing input = .ok (piece, rest)) : rest.length < input.length := by
  unfold scanClosing at scanned
  cases tagScanned : scanTag input with
  | error stop => simp [tagScanned, bind, Except.bind] at scanned
  | ok pair =>
    obtain ⟨tag, afterTag⟩ := pair
    cases expected : expect ">" (Text.trimStart afterTag) with
    | error stop => simp [tagScanned, expected, bind, Except.bind] at scanned
    | ok rest' =>
      simp only [tagScanned, expected, bind, Except.bind, pure, Except.pure, Except.ok.injEq,
        Prod.mk.injEq] at scanned
      obtain ⟨-, rfl⟩ := scanned
      have tagLength := length_of_scanTag tagScanned
      have markLength := length_of_expect expected
      have trimmed := length_dropWhile_le Text.isBlank afterTag
      rw [Text.trimStart] at markLength
      omega

/-- The rest of an opening tag leaves less than there was. -/
theorem length_of_scanOpening {input rest : List Char} {piece : Piece}
    (scanned : scanOpening input = .ok (piece, rest)) : rest.length < input.length := by
  unfold scanOpening at scanned
  cases tagScanned : scanTag input with
  | error stop => simp [tagScanned, bind, Except.bind] at scanned
  | ok pair =>
    obtain ⟨tag, afterTag⟩ := pair
    cases entriesScanned : scanAttributes afterTag with
    | error stop => simp [tagScanned, entriesScanned, bind, Except.bind] at scanned
    | ok triple =>
      obtain ⟨entries, closed, rest'⟩ := triple
      simp only [tagScanned, entriesScanned, bind, Except.bind, pure, Except.pure,
        Except.ok.injEq, Prod.mk.injEq] at scanned
      obtain ⟨-, rfl⟩ := scanned
      have tagLength := length_of_scanTag tagScanned
      have entriesLength := length_of_scanAttributes entriesScanned
      omega

/-- A piece takes at least one character of a text that is not empty. -/
theorem length_of_scan {input rest : List Char} {piece : Piece} (nonempty : input ≠ [])
    (scanned : scan input = .ok (piece, rest)) : rest.length < input.length := by
  unfold scan at scanned
  split at scanned
  · next body found =>
    have bodyLength := length_of_scanComment scanned
    rw [Text.after?_eq_some_iff.1 found, List.length_append]
    have : 0 < commentStart.length := by decide
    omega
  · split at scanned
    · next body found =>
      have bodyLength := length_of_scanClosing scanned
      rw [Text.after?_eq_some_iff.1 found, List.length_append]
      omega
    · obtain ⟨c, start, rfl⟩ := List.exists_cons_of_ne_nil nonempty
      split at scanned
      · have openingLength := length_of_scanOpening scanned
        simp only [List.tail_cons, List.length_cons] at openingLength ⊢
        omega
      · next noMarkup =>
        simp only [splitText, noMarkup, Bool.false_eq_true, if_false, Except.ok.injEq,
          Prod.mk.injEq] at scanned
        obtain ⟨-, rfl⟩ := scanned
        have := length_splitText_le start
        simp only [List.length_cons]
        omega

end Piece

end Templating
