import Mathlib.Data.List.Basic
import Templating.Markup.Reader
import Templating.Proofs.Markup.Piece

/-!
# Reading follows the grammar

`Node.readAll` walks through pieces with a list of open elements, while the grammar
nests fragments. `Completes` is the grammar seen from the middle of such a walk: what
the rest of a text must be for the elements that are open. Reading and the grammar
agree in both directions, so `Node.parse_eq_ok_iff_derives` says exactly which texts
are read, and as which nodes.
-/

namespace Templating

namespace Grammar

open Piece (EndsText)

/-- Text that ends in front of a beginning ends in front of what it begins. -/
theorem opensMarkup_append {written : List Char} (opens : opensMarkup written = true)
    (next : List Char) : opensMarkup (written ++ next) = true := by
  obtain ⟨c, rest, rfl, special⟩ := Piece.opensMarkup_eq_true_iff.1 opens
  exact Piece.opensMarkup_eq_true_iff.2 ⟨c, rest ++ next, rfl, special⟩

/-- Markup is not empty. -/
theorem ne_nil_of_opensMarkup {written : List Char} (opens : opensMarkup written = true) :
    written ≠ [] := by
  rintro rfl
  cases opens

/-- An opening tag opens markup. -/
theorem IsOpening.opensMarkup {written tag : List Char} {entries : List Attribute}
    {closed : Bool} (isOpening : IsOpening written tag entries closed) :
    Templating.opensMarkup written = true := by
  cases isOpening with
  | intro isTag ended attributes =>
    cases isTag with
    | intro isLetter areTagChars =>
      exact Piece.opensMarkup_eq_true_iff.2 ⟨_, _, rfl, .inl isLetter⟩

/-- An opening tag has a tag. -/
theorem IsOpening.isTag {written tag : List Char} {entries : List Attribute} {closed : Bool}
    (isOpening : IsOpening written tag entries closed) : IsTag tag := by
  cases isOpening with
  | intro isTag ended attributes => exact isTag

/-- A closing tag opens markup. -/
theorem IsClosing.opensMarkup {tag written : List Char} (isClosing : IsClosing tag written) :
    Templating.opensMarkup written = true := by
  cases isClosing with
  | intro areBlank => exact Piece.opensMarkup_eq_true_iff.2 ⟨_, _, rfl, .inr (.inl rfl)⟩

/-- A comment opens markup. -/
theorem IsComment.opensMarkup {written : List Char} (isComment : IsComment written) :
    Templating.opensMarkup written = true := by
  cases isComment with
  | intro isBody => exact Piece.opensMarkup_eq_true_iff.2 ⟨_, _, rfl, .inr (.inr rfl)⟩

/-- Text ends in front of what may follow it. -/
theorem Fragment.endsText {written : List Char} {nodes : List Node}
    (fragment : Fragment true written nodes) : EndsText written := by
  cases fragment with
  | nil => exact .inl rfl
  | comment isComment more => exact .inr (opensMarkup_append isComment.opensMarkup _)
  | childless isOpening isChildless more =>
    exact .inr (opensMarkup_append isOpening.opensMarkup _)
  | element isOpening notVoid content isClosing more =>
    rw [List.append_assoc, List.append_assoc]
    exact .inr (opensMarkup_append isOpening.opensMarkup _)

/-- Text ends in front of one end of text that is followed by another one. -/
theorem endsText_append {written next : List Char} (ends : EndsText written)
    (nextEnds : EndsText next) : EndsText (written ++ next) := by
  rcases ends with rfl | opens
  · exact nextEnds
  · exact .inr (opensMarkup_append opens next)

/-- A run of text is not in front of anything that ends text. -/
theorem IsTextRun.not_endsText {run next : List Char} (isRun : IsTextRun run)
    (nextEnds : EndsText next) : ¬EndsText (run ++ next) := by
  obtain ⟨c, others, rfl⟩ := List.exists_cons_of_ne_nil isRun.nonempty
  rintro (empty | opens)
  · cases empty
  · have closed := ((Piece.noMarkup_cons_iff nextEnds).1 isRun.noMarkup).1
    exact absurd opens (Bool.eq_false_iff.1 closed)

/-- What completes the elements that are open: a fragment in the innermost one, its
closing tag, and what completes the elements around it, which end up as `nodes`. -/
def Completes (afterText : Bool) (enclosing : List OpenElement) (siblings : List Node)
    (written : List Char) (nodes : List Node) : Prop :=
  match enclosing with
  | [] => ∃ more, Fragment afterText written more ∧ nodes = siblings.reverse ++ more
  | parent :: outer => ∃ inner more closing rest, written = inner ++ closing ++ rest ∧
      Fragment afterText inner more ∧ IsClosing parent.tag.toList closing ∧
      Completes false outer
        (.element parent.tag parent.attributes (siblings.reverse ++ more) :: parent.before) rest nodes

/-- Items in front of a fragment stand in front of what completes open elements as
well. -/
theorem Completes.prepend {afterText itemsAfterText : Bool} {enclosing : List OpenElement}
    {siblings nodes : List Node} {written rest : List Char} (items : List Node)
    (prepends : ∀ source more, Fragment itemsAfterText source more →
      Fragment afterText (written ++ source) (items ++ more))
    (completes : Completes itemsAfterText enclosing (items.reverse ++ siblings) rest nodes) :
    Completes afterText enclosing siblings (written ++ rest) nodes := by
  cases enclosing with
  | nil =>
    obtain ⟨more, fragment, rfl⟩ := completes
    exact ⟨items ++ more, prepends rest more fragment, by simp⟩
  | cons parent outer =>
    obtain ⟨inner, more, closing, left, rfl, fragment, isClosing, outside⟩ := completes
    refine ⟨written ++ inner, items ++ more, closing, left, by simp,
      prepends inner more fragment, isClosing, ?_⟩
    simpa using outside

end Grammar

namespace Node

open Grammar
open Piece (EndsText IsPiece)

variable {enclosing : List OpenElement} {siblings nodes : List Node} {input rest : List Char}

/-- The first piece of a text decides how reading goes on. -/
theorem readAll_of_isPiece {piece : Piece} {written : List Char} (nonempty : written ≠ [])
    (isPiece : IsPiece written piece rest) :
    readAll enclosing siblings (written ++ rest) =
      match piece with
      | .text content => readAll enclosing (.text content :: siblings) rest
      | .comment => readAll enclosing siblings rest
      | .opening tag attributes closed =>
        if closed || isVoidTag tag then
          readAll enclosing (.element tag attributes [] :: siblings) rest
        else readAll (⟨tag, attributes, siblings⟩ :: enclosing) [] rest
      | .closing tag =>
        match enclosing with
        | [] => .error ⟨.unopenedTag tag, written ++ rest⟩
        | parent :: outer =>
          if parent.tag = tag then
            readAll outer
              (.element parent.tag parent.attributes siblings.reverse :: parent.before) rest
          else .error ⟨.mismatchedTag parent.tag tag, written ++ rest⟩ := by
  have remains : written ++ rest ≠ [] := List.append_ne_nil_of_left_ne_nil nonempty rest
  have scanned := Piece.scan_of_isPiece isPiece
  rw [readAll.eq_def, dif_neg remains]
  split
  · next failed => cases scanned.symm.trans failed
  · next same => cases scanned.symm.trans same; rfl
  · next same => cases scanned.symm.trans same; rfl
  · next same => cases scanned.symm.trans same; rfl
  · next same => cases scanned.symm.trans same; rfl

/-- What the grammar derives is read, in front of everything that ends text. -/
theorem readAll_of_fragment {afterText : Bool} {written : List Char}
    (fragment : Fragment afterText written nodes) (endsText : EndsText rest) :
    readAll enclosing siblings (written ++ rest) =
      readAll enclosing (nodes.reverse ++ siblings) rest := by
  induction fragment generalizing enclosing siblings rest with
  | nil => rfl
  | @comment afterText comment source nodes isComment more inductionHypothesis =>
    have nonempty := ne_nil_of_opensMarkup isComment.opensMarkup
    have isPiece : IsPiece comment .comment (source ++ rest) := .comment isComment
    rw [List.append_assoc, readAll_of_isPiece nonempty isPiece]
    exact inductionHypothesis endsText
  | @text run decoded source nodes isRun decodes more inductionHypothesis =>
    have isPiece : IsPiece run (.text (String.ofList decoded)) (source ++ rest) :=
      .text isRun decodes (endsText_append more.endsText endsText)
    rw [List.append_assoc, readAll_of_isPiece isRun.nonempty isPiece]
    simpa using inductionHypothesis endsText
  | @childless afterText opening tag source entries closed nodes isOpening isChildless more
      inductionHypothesis =>
    have nonempty := ne_nil_of_opensMarkup isOpening.opensMarkup
    have isPiece : IsPiece opening (.opening (String.ofList tag) entries closed) (source ++ rest) :=
      .opening isOpening
    have stops : (closed || isVoidTag (String.ofList tag)) = true := isChildless_iff.2 isChildless
    rw [List.append_assoc, readAll_of_isPiece nonempty isPiece]
    simp only [stops, if_true]
    simpa using inductionHypothesis endsText
  | @element afterText opening inner closing tag source entries children nodes isOpening notVoid
      content isClosing more contentHypothesis inductionHypothesis =>
    have nonempty := ne_nil_of_opensMarkup isOpening.opensMarkup
    have closingNonempty := ne_nil_of_opensMarkup isClosing.opensMarkup
    have isPiece : IsPiece opening (.opening (String.ofList tag) entries false)
        (inner ++ (closing ++ (source ++ rest))) := .opening isOpening
    have isClosingPiece : IsPiece closing (.closing (String.ofList tag)) (source ++ rest) :=
      .closing isOpening.isTag.ne_nil isOpening.isTag.areTagChars isClosing
    have endsInner : EndsText (closing ++ (source ++ rest)) :=
      .inr (opensMarkup_append isClosing.opensMarkup _)
    simp only [List.append_assoc]
    rw [readAll_of_isPiece nonempty isPiece]
    simp only [isVoidTag_eq_false_iff.2 notVoid, Bool.or_false, Bool.false_eq_true, if_false]
    rw [contentHypothesis endsInner, readAll_of_isPiece closingNonempty isClosingPiece]
    simp only [if_true, List.append_nil, List.reverse_reverse]
    simpa using inductionHypothesis endsText

/-- What is read completes the elements that are open. -/
theorem completes_of_readAll (read : readAll enclosing siblings input = .ok nodes)
    {afterText : Bool} (starts : afterText = true → EndsText input) :
    Completes afterText enclosing siblings input nodes := by
  fun_induction readAll enclosing siblings input generalizing afterText with
  | case1 siblings =>
    cases read
    exact ⟨[], .nil, by simp⟩
  | case2 => cases read
  | case3 => cases read
  | case4 enclosing siblings input nonempty content rest scanned inductionHypothesis =>
    obtain ⟨written, rfl, isPiece⟩ := Piece.isPiece_of_scan nonempty scanned
    cases isPiece with
    | @text decoded _ isRun decodes endsText =>
      cases afterText with
      | true => exact absurd (starts rfl) (isRun.not_endsText endsText)
      | false =>
        have completes := inductionHypothesis read fun _ : true = true => endsText
        refine Completes.prepend [.text (String.ofList decoded)] ?_ completes
        intro source more fragment
        exact .text isRun decodes fragment
  | case5 enclosing siblings input nonempty rest scanned inductionHypothesis =>
    obtain ⟨written, rfl, isPiece⟩ := Piece.isPiece_of_scan nonempty scanned
    cases isPiece with
    | comment isComment =>
      have completes : Completes false enclosing siblings rest nodes :=
        inductionHypothesis read nofun
      refine Completes.prepend [] ?_ completes
      intro source more fragment
      exact .comment isComment fragment
  | case6 enclosing siblings input nonempty tag attributes closed rest scanned childless
      inductionHypothesis =>
    obtain ⟨written, rfl, isPiece⟩ := Piece.isPiece_of_scan nonempty scanned
    have completes : Completes false enclosing (.element tag attributes [] :: siblings) rest nodes :=
      inductionHypothesis read nofun
    cases isPiece with
    | opening isOpening =>
      refine Completes.prepend [.element _ attributes []] ?_ completes
      intro source more fragment
      exact .childless isOpening (isChildless_iff.1 childless) fragment
  | case7 enclosing siblings input nonempty tag attributes closed rest scanned notChildless
      inductionHypothesis =>
    obtain ⟨written, rfl, isPiece⟩ := Piece.isPiece_of_scan nonempty scanned
    have completes : Completes false (⟨tag, attributes, siblings⟩ :: enclosing) [] rest nodes :=
      inductionHypothesis read nofun
    obtain ⟨inner, children, closing, left, rfl, content, isClosing, outside⟩ := completes
    obtain ⟨rfl, notVoid⟩ : closed = false ∧ isVoidTag tag = false := by
      simpa using notChildless
    cases isPiece with
    | opening isOpening =>
      rw [String.toList_ofList] at isClosing
      have parts : written ++ (inner ++ closing ++ left) = (written ++ inner ++ closing) ++ left := by
        simp
      rw [parts]
      refine Completes.prepend [.element _ attributes children] ?_ outside
      intro source more fragment
      exact .element isOpening (isVoidTag_eq_false_iff.1 notVoid) content isClosing fragment
  | case8 => cases read
  | case9 siblings input nonempty rest parent outer scanned inductionHypothesis =>
    obtain ⟨written, rfl, isPiece⟩ := Piece.isPiece_of_scan nonempty scanned
    have reversed : siblings.attach.reverse.unattach = siblings.reverse := by simp
    rw [reversed] at inductionHypothesis
    have completes : Completes false outer
        (.element parent.tag parent.attributes siblings.reverse :: parent.before) rest nodes :=
      inductionHypothesis read nofun
    exact ⟨[], [], written, rest, rfl, .nil, isPiece.isClosing, by simpa using completes⟩
  | case10 => cases read

variable {markup : String}

/-- What is read is derived. -/
theorem derives_of_parse (parsed : parse markup = .ok nodes) : Derives markup nodes := by
  have read : readAll [] [] markup.toList = .ok nodes := mapError_eq_ok_iff.1 parsed
  have completes : Completes false [] [] markup.toList nodes := completes_of_readAll read nofun
  obtain ⟨more, fragment, rfl⟩ := completes
  exact fragment

/-- What is derived is read. -/
theorem parse_of_derives (derives : Derives markup nodes) : parse markup = .ok nodes := by
  have endsText : EndsText [] := .inl rfl
  have read : readAll [] [] (markup.toList ++ []) = readAll [] (nodes.reverse ++ []) [] :=
    readAll_of_fragment derives endsText
  have finished : readAll [] nodes.reverse [] = .ok nodes := by
    rw [readAll.eq_def]
    simp
  rw [List.append_nil, List.append_nil, finished] at read
  exact mapError_eq_ok_iff.2 read

/-- A text is read exactly when it is markup, as the nodes that the grammar derives. -/
theorem parse_eq_ok_iff_derives (markup : String) (nodes : List Node) :
    parse markup = .ok nodes ↔ Derives markup nodes :=
  ⟨derives_of_parse, parse_of_derives⟩

/-- All six entities are decoded and another one is kept, a comment parts two texts, a lone bracket
is text, and blanks of any kind stand around names and values. With another closing tag, nothing
is derived. -/
theorem parse_eq_ok_iff_derives_entities :
    Derives ("<ul\tid=a\u00a0Class = 'x &apos;y' hidden><br><li/>" ++
        "&amp;&lt;&gt;&quot;&#39;&apos;&nbsp;<!-- - --> 1 < 2</ul >")
      [.element "ul" [⟨"id", "a"⟩, ⟨"Class", "x 'y"⟩, ⟨"hidden", ""⟩]
        [.element "br" [] [], .element "li" [] [], .text "&<>\"''&nbsp;", .text " 1 < 2"]] ∧
    ∀ nodes, ¬Derives "<ul><br></li>" nodes := by
  refine ⟨(parse_eq_ok_iff_derives _ _).1 (by decide +kernel), fun nodes derives => ?_⟩
  have refused : parse "<ul><br></li>" = .error ⟨1, 9, .mismatchedTag "ul" "li"⟩ := by
    decide +kernel
  cases refused.symm.trans ((parse_eq_ok_iff_derives _ _).2 derives)

end Node

end Templating
