import Templating.Markup.Html
import Templating.Proofs.Markup.Reading
import Templating.Proofs.Markup.Tree

/-!
# Writing and reading back

The HTML of a forest derives its normal form, provided that tags and attribute names
are such as the grammar knows and void elements have no content. What the grammar
derives is always such a forest, so `Node.parse_toHtml` can say for which forests
writing and reading back changes nothing.
-/

namespace Templating

open Grammar

/-- An element that can be written: its tag and the names of its attributes are what
the grammar takes for such, and it has no content if it is void. -/
structure Element.IsWritable (element : Element) : Prop where
  isTag : IsTag element.tag.toList
  areNames : ∀ entry ∈ element.attributes, IsName entry.name.toList
  voidIsChildless : isVoidTag element.tag = true → element.children = []

instance : DecidablePred Element.IsWritable := fun element =>
  decidable_of_iff (IsTag element.tag.toList ∧ (∀ entry ∈ element.attributes,
      IsName entry.name.toList) ∧ (isVoidTag element.tag = true → element.children = []))
    ⟨fun ⟨isTag, areNames, voidIsChildless⟩ => ⟨isTag, areNames, voidIsChildless⟩,
      fun ⟨isTag, areNames, voidIsChildless⟩ => ⟨isTag, areNames, voidIsChildless⟩⟩

/-- All elements of a forest can be written. -/
def Node.IsWritable (nodes : List Node) : Prop :=
  Node.EverywhereAll Element.IsWritable nodes

instance : DecidablePred Node.IsWritable := fun nodes =>
  inferInstanceAs (Decidable (Node.EverywhereAll Element.IsWritable nodes))

namespace Grammar

/-- Attributes that are derived have names. -/
theorem TagRest.areNames {written : List Char} {entries : List Attribute} {closed : Bool}
    (tagRest : TagRest written entries closed) : ∀ entry ∈ entries, IsName entry.name.toList := by
  induction tagRest with
  | opened areBlank => nofun
  | closed areBlank => nofun
  | bareName areBlank isName ended more inductionHypothesis =>
    intro entry member
    rcases List.mem_cons.1 member with rfl | inRest
    · rw [String.toList_ofList]
      exact isName
    · exact inductionHypothesis entry inRest
  | valued areBlank isName beforeBlank afterBlank isValue decodes more inductionHypothesis =>
    intro entry member
    rcases List.mem_cons.1 member with rfl | inRest
    · rw [String.toList_ofList]
      exact isName
    · exact inductionHypothesis entry inRest

/-- An element with a derived opening tag can be written. -/
theorem IsOpening.isWritable {written tag : List Char} {entries : List Attribute} {closed : Bool}
    {children : List Node} (isOpening : IsOpening written tag entries closed)
    (voidIsChildless : isVoidTag (String.ofList tag) = true → children = []) :
    Element.IsWritable ⟨String.ofList tag, entries, children⟩ := by
  cases isOpening with
  | intro isTag ended attributes =>
    refine ⟨?_, attributes.areNames, voidIsChildless⟩
    rw [String.toList_ofList]
    exact isTag

/-- What is derived can be written. -/
theorem Fragment.isWritable {afterText : Bool} {written : List Char} {nodes : List Node}
    (fragment : Fragment afterText written nodes) : Node.IsWritable nodes := by
  induction fragment with
  | nil => exact Node.everywhereAll_nil
  | comment isComment more inductionHypothesis => exact inductionHypothesis
  | text isRun decodes more inductionHypothesis =>
    exact Node.everywhereAll_text.2 inductionHypothesis
  | childless isOpening isChildless more inductionHypothesis =>
    exact Node.everywhereAll_element.2
      ⟨⟨isOpening.isWritable fun _ => rfl, Node.everywhereAll_nil⟩, inductionHypothesis⟩
  | @element afterText opening inner closing tag rest entries children nodes isOpening notVoid
      content isClosing more contentHypothesis inductionHypothesis =>
    have voidIsChildless : isVoidTag (String.ofList tag) = true → children = [] := by
      intro isVoid
      exact absurd (isVoidTag_iff.1 isVoid) notVoid
    exact Node.everywhereAll_element.2
      ⟨⟨isOpening.isWritable voidIsChildless, contentHypothesis⟩, inductionHypothesis⟩

/-- What may follow text may stand anywhere. -/
theorem Fragment.weaken {written : List Char} {nodes : List Node}
    (fragment : Fragment true written nodes) : Fragment false written nodes := by
  cases fragment with
  | nil => exact .nil
  | comment isComment more => exact .comment isComment more
  | childless isOpening isChildless more => exact .childless isOpening isChildless more
  | element isOpening notVoid content isClosing more =>
    exact .element isOpening notVoid content isClosing more

/-- Written attributes are the rest of an opening tag. -/
theorem tagRest_markup {attributes : List Attribute}
    (areNames : ∀ entry ∈ attributes, IsName entry.name.toList) :
    TagRest (attributes.flatMap Attribute.markup ++ ['>']) attributes false := by
  induction attributes with
  | nil => exact .opened Text.Blanks.nil
  | cons entry others inductionHypothesis =>
    have isName := areNames entry List.mem_cons_self
    have more := inductionHypothesis fun other member => areNames other (List.mem_cons_of_mem _ member)
    have space : Text.Blanks [' '] := by
      intro c member
      rw [List.mem_singleton.1 member]
      rfl
    have isValue : IsValue ('"' :: (Entity.escapeValue entry.value.toList ++ ['"']))
        (Entity.escapeValue entry.value.toList) (others.flatMap Attribute.markup ++ ['>']) :=
      .quoted (.inl rfl) (Entity.not_mem_escapeValue entry.value.toList)
    have valued := TagRest.valued space isName Text.Blanks.nil Text.Blanks.nil isValue
      (Entity.decodes_escapeValue entry.value.toList) more
    simpa [Attribute.markup] using valued

/-- A written opening tag is one. -/
theorem isOpening_openingTag {tag : String} {attributes : List Attribute} {children : List Node}
    (isWritable : Element.IsWritable ⟨tag, attributes, children⟩) :
    IsOpening (Node.openingTag tag attributes) tag.toList attributes false := by
  have ended : Text.Ends isTagChar (attributes.flatMap Attribute.markup ++ ['>']) := by
    cases attributes with
    | nil => exact Text.Ends.cons (by decide)
    | cons entry others => exact Text.Ends.cons (by decide)
  have isOpening := IsOpening.intro isWritable.isTag (ends_isTagChar_iff.1 ended)
    (tagRest_markup isWritable.areNames)
  simpa [Node.openingTag] using isOpening

/-- A written closing tag is one. -/
theorem isClosing_closingTag (tag : String) : IsClosing tag.toList (Node.closingTag tag) := by
  have isClosing : IsClosing tag.toList ('<' :: '/' :: (tag.toList ++ [] ++ ['>'])) :=
    .intro Text.Blanks.nil
  simpa [Node.closingTag] using isClosing

/-- Nothing is decoded from nothing only. -/
theorem Decodes.eq_nil_iff {written decoded : List Char} (decodes : Decodes written decoded) :
    decoded = [] ↔ written = [] := by
  cases decodes with
  | nil => exact Iff.rfl
  | entity isEntity more =>
    obtain ⟨name, -, rfl⟩ := Entity.isEntity_iff.1 isEntity
    exact iff_of_false (List.cons_ne_nil _ _) (List.cons_ne_nil _ _)
  | char noEntity more => exact iff_of_false (List.cons_ne_nil _ _) (List.cons_ne_nil _ _)

/-- A run of text stands for a text that is not empty. -/
theorem IsTextRun.ofList_ne_empty {run decoded : List Char} (isRun : IsTextRun run)
    (decodes : Decodes run decoded) : String.ofList decoded ≠ "" := by
  intro empty
  have noChars : decoded = [] := by simpa using congrArg String.toList empty
  exact isRun.nonempty (decodes.eq_nil_iff.1 noChars)

/-- Markup without comments: text that may be empty, and then a fragment whose nodes do
not begin with one. A text that is written before it is read as one with the first. -/
inductive Printed : (written : List Char) → List Node → Prop
  | intro {run decoded rest : List Char} {more : List Node} (noBracket : '<' ∉ run)
      (decodes : Decodes run decoded) (fragment : Fragment true rest more)
      (without : Node.BeginsWithoutText more) :
      Printed (run ++ rest) (Node.prependText (String.ofList decoded) more)

namespace Printed

variable {written : List Char} {nodes : List Node}

/-- A fragment that begins with no text is printed as it is. -/
theorem ofFragment (fragment : Fragment true written nodes)
    (without : Node.BeginsWithoutText nodes) : Printed written nodes := by
  have printed : Printed ([] ++ written) (Node.prependText (String.ofList []) nodes) :=
    .intro nofun .nil fragment without
  simpa using printed

/-- An escaped text may be written before everything printed. -/
theorem text (printed : Printed written nodes) (content : String) :
    Printed (Entity.escapeText content.toList ++ written) (Node.prependText content nodes) := by
  cases printed with
  | @intro run decoded rest more noBracket decodes fragment without =>
    have joined := Printed.intro
      (by simpa using ⟨Entity.not_mem_escapeText content.toList, noBracket⟩)
      (Entity.decodes_escapeText_append decodes content.toList) fragment without
    rw [Node.prependText_prependText without, ← List.append_assoc]
    simpa using joined

/-- What is printed is a fragment. -/
theorem fragment (printed : Printed written nodes) : Fragment false written nodes := by
  cases printed with
  | @intro run decoded rest more noBracket decodes fragment without =>
    cases run with
    | nil =>
      rw [decodes.eq_nil_iff.2 rfl]
      simpa using fragment.weaken
    | cons c others =>
      have isRun : IsTextRun (c :: others) := by
        refine ⟨List.cons_ne_nil c others, ?_⟩
        intro before d after same special
        exact noBracket (by simp [same])
      rw [Node.prependText_of_beginsWithoutText (isRun.ofList_ne_empty decodes) without]
      exact .text isRun decodes fragment

end Printed

/-- The written form of a forest is printed, as its normal form. -/
theorem printed_markupAll {nodes : List Node} (isWritable : Node.IsWritable nodes) :
    Printed (Node.markupAll nodes) (Node.normalizeAll nodes) := by
  induction nodes using Node.forestInduction with
  | nil =>
    rw [Node.markupAll, Node.normalizeAll_nil]
    exact .ofFragment .nil nofun
  | text content nodes inductionHypothesis =>
    rw [Node.markupAll, Node.markup, Node.normalizeAll_text]
    exact (inductionHypothesis (Node.everywhereAll_text.1 isWritable)).text content
  | element tag attributes children nodes childrenHypothesis inductionHypothesis =>
    obtain ⟨⟨elementWritable, childrenWritable⟩, nodesWritable⟩ :=
      Node.everywhereAll_element.1 isWritable
    have isOpening := isOpening_openingTag elementWritable
    have more := (inductionHypothesis nodesWritable).fragment
    rw [Node.markupAll, Node.markup, Node.normalizeAll_element]
    refine .ofFragment ?_ nofun
    by_cases isVoid : isVoidTag tag = true
    · have noChildren : children = [] := elementWritable.voidIsChildless isVoid
      have childless : Fragment true (Node.openingTag tag attributes ++ Node.markupAll nodes)
          (.element (String.ofList tag.toList) attributes [] :: Node.normalizeAll nodes) :=
        .childless isOpening (.inr (by simpa using isVoidTag_iff.1 isVoid)) more
      rw [if_pos isVoid, List.append_nil, noChildren, Node.normalizeAll_nil]
      simpa using childless
    · have content := (childrenHypothesis childrenWritable).fragment
      have element : Fragment true (Node.openingTag tag attributes ++ Node.markupAll children ++
            Node.closingTag tag ++ Node.markupAll nodes)
          (.element (String.ofList tag.toList) attributes (Node.normalizeAll children) ::
            Node.normalizeAll nodes) :=
        .element isOpening (by simpa [isVoidTag_iff] using isVoid) content
          (isClosing_closingTag tag) more
      rw [if_neg isVoid]
      simpa using element

end Grammar

namespace Node

variable {nodes : List Node}

/-- The HTML of a forest that can be written derives its normal form. -/
theorem derives_toHtml (isWritable : IsWritable nodes) :
    Derives (toHtml nodes) (normalizeAll nodes) := by
  rw [Derives, toHtml, String.toList_ofList]
  exact (printed_markupAll isWritable).fragment

/-- Each node of a forest that is read back is read back by itself. -/
theorem parse_toHtml_singleton {node : Node} (readBack : parse (toHtml nodes) = .ok nodes)
    (member : node ∈ nodes) : parse (toHtml [node]) = .ok [node] := by
  have isWritable : IsWritable nodes := (derives_of_parse readBack).isWritable
  have normalized : parse (toHtml nodes) = .ok (normalizeAll nodes) :=
    parse_of_derives (derives_toHtml isWritable)
  have isNormal : IsNormal nodes :=
    normalizeAll_eq_self_iff.1 (Except.ok.inj (normalized.symm.trans readBack))
  have aloneWritable : IsWritable [node] := isWritable.of_subset (by simpa using member)
  have aloneNormal : normalizeAll [node] = [node] :=
    normalizeAll_eq_self_iff.2 (isNormal.singleton member)
  rw [parse_of_derives (derives_toHtml aloneWritable), aloneNormal]

/-- A forest that can be written is read back in its normal form. Exactly the normal
ones among these are read back as they are, and nothing else is. -/
theorem parse_toHtml :
    (∀ nodes : List Node, IsWritable nodes → parse (toHtml nodes) = .ok (normalizeAll nodes)) ∧
      ∀ nodes : List Node, parse (toHtml nodes) = .ok nodes ↔ IsWritable nodes ∧ IsNormal nodes := by
  have readBack : ∀ nodes : List Node, IsWritable nodes →
      parse (toHtml nodes) = .ok (normalizeAll nodes) := by
    intro nodes isWritable
    exact parse_of_derives (derives_toHtml isWritable)
  refine ⟨readBack, fun nodes => ?_⟩
  constructor
  · intro same
    have isWritable : IsWritable nodes := (derives_of_parse same).isWritable
    have normalized := (readBack nodes isWritable).symm.trans same
    exact ⟨isWritable, normalizeAll_eq_self_iff.1 (Except.ok.inj normalized)⟩
  · rintro ⟨isWritable, isNormal⟩
    rw [readBack nodes isWritable, normalizeAll_eq_self_iff.2 isNormal]

/-- Texts that stand side by side are joined, an empty one disappears, brackets, quotes
and ampersands survive, and so does an attribute that is there twice. -/
theorem parse_toHtml_joins_texts :
    IsWritable [.text "1 < 2", .text "", .text " & ", .element "p" [⟨"title", "\"&lt;\""⟩, ⟨"title", ">"⟩]
        [.element "br" [] [], .text "", .element "b" [] []]] ∧
      parse (toHtml [.text "1 < 2", .text "", .text " & ", .element "p"
          [⟨"title", "\"&lt;\""⟩, ⟨"title", ">"⟩] [.element "br" [] [], .text "", .element "b" [] []]]) =
        .ok [.text "1 < 2 & ", .element "p" [⟨"title", "\"&lt;\""⟩, ⟨"title", ">"⟩]
          [.element "br" [] [], .element "b" [] []]] :=
  ⟨by decide, parse_toHtml.1 _ (by decide)⟩

end Node

end Templating
