import Mathlib.Data.List.Basic
import Templating.Proofs.Markup.Joining

/-!
# Canonical markup

Whatever spelling markup has, what is read from it can be written, and the written form is
canonical: it is read back with adjacent texts joined, and writing that gives the same form
again. Adjacent texts come from comments only. `Node.parse_toHtml_of_parse` puts these
facts together.
-/

namespace Templating

namespace Grammar

open Node (MadeOf IsNormal BeginsWithoutText textsApart_text_iff textsApart_element_iff
  everywhereAll_text everywhereAll_element)

variable {afterText : Bool} {written : List Char} {nodes : List Node}

/-- A derived opening tag has a tag and attribute names as the grammar has them. -/
theorem IsOpening.isHead {tag : List Char} {entries : List Attribute} {closed : Bool}
    (isOpening : IsOpening written tag entries closed) :
    IsTag (String.ofList tag).toList ∧ ∀ entry ∈ entries, IsName entry.name.toList := by
  have isWritable : Element.IsWritable ⟨String.ofList tag, entries, []⟩ :=
    isOpening.isWritable fun _ => rfl
  exact ⟨isWritable.isTag, isWritable.areNames⟩

/-- A derived forest has texts that are not empty, and tags and attribute names as the
grammar has them. -/
theorem Fragment.madeOf (fragment : Fragment afterText written nodes) :
    MadeOf (· ≠ "") (fun tag attributes => IsTag tag.toList ∧
      ∀ entry ∈ attributes, IsName entry.name.toList) nodes := by
  induction fragment with
  | nil => exact .nil
  | comment isComment more inductionHypothesis => exact inductionHypothesis
  | text isRun decodes more inductionHypothesis =>
    exact .text (isRun.ofList_ne_empty decodes) inductionHypothesis
  | childless isOpening isChildless more inductionHypothesis =>
    exact .element isOpening.isHead .nil inductionHypothesis
  | element isOpening notVoid content isClosing more contentHypothesis inductionHypothesis =>
    exact .element isOpening.isHead contentHypothesis inductionHypothesis

/-- A comment has the start of one. -/
theorem IsComment.commentStart_prefix (isComment : IsComment written) :
    Piece.commentStart <+: written := by
  cases isComment with
  | @intro body isBody =>
    rw [List.append_assoc]
    exact List.prefix_append Piece.commentStart _

/-- Without comments nothing parts two texts but an element, so a fragment is normal, and
one behind a text does not begin with another. -/
theorem Fragment.isNormal (fragment : Fragment afterText written nodes)
    (noComment : ¬Piece.commentStart <:+: written) :
    IsNormal nodes ∧ (afterText = true → BeginsWithoutText nodes) := by
  induction fragment with
  | nil => exact ⟨⟨Node.textsApart_nil, Node.everywhereAll_nil⟩, fun _ => nofun⟩
  | @comment afterText comment rest nodes isComment more inductionHypothesis =>
    have begins := isComment.commentStart_prefix.trans (List.prefix_append comment rest)
    exact absurd begins.isInfix noComment
  | @text run decoded rest nodes isRun decodes more inductionHypothesis =>
    obtain ⟨⟨apart, below⟩, without⟩ := inductionHypothesis fun inRest =>
      noComment (inRest.trans (List.suffix_append run rest).isInfix)
    have nonempty := isRun.ofList_ne_empty decodes
    exact ⟨⟨textsApart_text_iff.2 ⟨nonempty, without rfl, apart⟩, everywhereAll_text.2 below⟩, nofun⟩
  | @childless afterText opening tag rest entries closed nodes isOpening isChildless more
      inductionHypothesis =>
    obtain ⟨⟨apart, below⟩, -⟩ := inductionHypothesis fun inRest =>
      noComment (inRest.trans (List.suffix_append opening rest).isInfix)
    exact ⟨⟨textsApart_element_iff.2 apart,
      everywhereAll_element.2 ⟨⟨Node.textsApart_nil, Node.everywhereAll_nil⟩, below⟩⟩, fun _ => nofun⟩
  | @element afterText opening inner closing tag rest entries children nodes isOpening notVoid
      content isClosing more contentHypothesis inductionHypothesis =>
    obtain ⟨⟨childrenApart, childrenBelow⟩, -⟩ := contentHypothesis fun inContent =>
      noComment (inContent.trans ⟨opening, closing ++ rest, by simp⟩)
    obtain ⟨⟨apart, below⟩, -⟩ := inductionHypothesis fun inRest =>
      noComment (inRest.trans (List.suffix_append _ rest).isInfix)
    exact ⟨⟨textsApart_element_iff.2 apart,
      everywhereAll_element.2 ⟨⟨childrenApart, childrenBelow⟩, below⟩⟩, fun _ => nofun⟩

end Grammar

namespace Entity

/-- What is written for a character does not depend on what comes next. -/
theorem exists_escapeText_cons (c : Char) :
    ∃ escaped, ∀ rest, escapeText (c :: rest) = escaped ++ escapeText rest := by
  by_cases ampersand : c = '&'
  · exact ⟨"&amp;".toList, by rw [ampersand]; exact fun _ => rfl⟩
  by_cases opening : c = '<'
  · exact ⟨"&lt;".toList, by rw [opening]; exact fun _ => rfl⟩
  by_cases closing : c = '>'
  · exact ⟨"&gt;".toList, by rw [closing]; exact fun _ => rfl⟩
  refine ⟨[c], fun rest => ?_⟩
  rw [escapeText.eq_def]
  split
  · next empty => cases empty
  · next same => exact absurd (List.cons.inj same).1 ampersand
  · next same => exact absurd (List.cons.inj same).1 opening
  · next same => exact absurd (List.cons.inj same).1 closing
  · next same =>
    obtain ⟨rfl, rfl⟩ := List.cons.inj same
    rfl

/-- Texts are escaped one after the other. -/
theorem escapeText_append (first second : List Char) :
    escapeText (first ++ second) = escapeText first ++ escapeText second := by
  induction first with
  | nil => rfl
  | cons c first inductionHypothesis =>
    obtain ⟨escaped, same⟩ := exists_escapeText_cons c
    rw [List.cons_append, same, same, inductionHypothesis, List.append_assoc]

end Entity

namespace Node

open Grammar

variable {nodes : List Node}

/-- A text is written alike by itself and at the front of the text it is joined to. -/
theorem markupAll_joinText (content : String) : markupAll (joinText content nodes) =
    Entity.escapeText content.toList ++ markupAll nodes := by
  rw [joinText.eq_def]
  split
  · next following others =>
    rw [markupAll, markup, String.toList_append, Entity.escapeText_append, markupAll, markup,
      List.append_assoc]
  · rw [markupAll, markup]

/-- Joining texts does not change what is written. -/
theorem markupAll_joinAll (nodes : List Node) : markupAll (joinAll nodes) = markupAll nodes := by
  induction nodes using forestInduction with
  | nil => rw [joinAll_nil]
  | text content nodes inductionHypothesis =>
    rw [joinAll_text, markupAll_joinText, inductionHypothesis, markupAll, markup]
  | element tag attributes children nodes childrenHypothesis inductionHypothesis =>
    rw [joinAll_element, markupAll, markup, childrenHypothesis, inductionHypothesis, markupAll,
      markup]

/-- What is read from any markup has tags, attribute names and texts that can be written,
and void elements without content; unless a comment starts somewhere in the markup, no text
stands next to another one. Its HTML is read back with adjacent texts joined, and is the
HTML of what is read back. -/
theorem parse_toHtml_of_parse {markup : String} (parsed : parse markup = .ok nodes) :
    MadeOf (· ≠ "") (fun tag attributes => IsTag tag.toList ∧
        ∀ entry ∈ attributes, IsName entry.name.toList) nodes ∧
      EverywhereAll (fun element => element.isVoid = true → element.children = []) nodes ∧
      (¬Piece.commentStart <:+: markup.toList → IsNormal nodes) ∧
      parse (toHtml nodes) = .ok (joinAll nodes) ∧
      (parse (toHtml nodes)).map toHtml = .ok (toHtml nodes) := by
  have fragment : Fragment false markup.toList nodes := derives_of_parse parsed
  have isWritable : IsWritable nodes := fragment.isWritable
  have readBack : parse (toHtml nodes) = .ok (joinAll nodes) :=
    (parse_toHtml_eq_joinAll_iff fragment.madeOf).2 isWritable
  refine ⟨fragment.madeOf, isWritable.mono fun element writable => writable.voidIsChildless,
    fun noComment => (fragment.isNormal noComment).1, readBack, ?_⟩
  have sameHtml : toHtml (joinAll nodes) = toHtml nodes := by
    rw [toHtml, toHtml, markupAll_joinAll]
  rw [readBack, Except.map, sameHtml]

/-- Two texts that a comment parts, a bare value, an entity, a bracket that opens nothing
and a blank in a closing tag. -/
theorem parse_toHtml_of_parse_comment :
    parse "<p a=1>x<!-- -->y &lt; 1 < 2<br></p >" = .ok [.element "p" [⟨"a", "1"⟩]
        [.text "x", .text "y < 1 < 2", .element "br" [] []]] ∧
      parse (toHtml [.element "p" [⟨"a", "1"⟩]
          [.text "x", .text "y < 1 < 2", .element "br" [] []]]) =
        .ok [.element "p" [⟨"a", "1"⟩] [.text "xy < 1 < 2", .element "br" [] []]] := by
  have parsed : parse "<p a=1>x<!-- -->y &lt; 1 < 2<br></p >" = .ok [.element "p" [⟨"a", "1"⟩]
      [.text "x", .text "y < 1 < 2", .element "br" [] []]] := by
    decide +kernel
  have readBack := (parse_toHtml_of_parse parsed).2.2.2.1
  rw [readBack]
  exact ⟨parsed, rfl⟩

end Node

end Templating
