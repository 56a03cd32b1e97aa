import Templating.Proofs.Markup.Joining
import Templating.Proofs.Renderer.Output

/-!
# Injection

Data never becomes markup: whatever texts the data holds, the output of a template that
comes from markup has tags and attribute names that markup can have, and it is read back
with its texts joined and otherwise as it is. `Template.evaluate_injects_no_markup` says
so, and that there are two things in a template which break the reading: a directive that
binds the empty name, and content that replaces the children of a void element.
-/

namespace Templating

open Grammar

/-- An element whose tag and attribute names have only characters of such. -/
structure Element.IsSpelled (element : Element) : Prop where
  isTag : IsTag element.tag.toList
  areNameChars : ∀ entry ∈ element.attributes, ∀ c ∈ entry.name.toList, IsNameChar c

/-- An element all of whose attributes have names, and which has no content if it is
void. -/
structure Element.IsComplete (element : Element) : Prop where
  named : ∀ entry ∈ element.attributes, entry.name ≠ ""
  voidIsChildless : element.isVoid = true → element.children = []

instance : DecidablePred Element.IsComplete := fun element =>
  decidable_of_iff ((∀ entry ∈ element.attributes, entry.name ≠ "") ∧
      (element.isVoid = true → element.children = []))
    ⟨fun ⟨named, voidIsChildless⟩ => ⟨named, voidIsChildless⟩,
      fun ⟨named, voidIsChildless⟩ => ⟨named, voidIsChildless⟩⟩

/-- An element can be written when it is spelled and complete. -/
theorem Element.isWritable_iff {element : Element} :
    element.IsWritable ↔ element.IsSpelled ∧ element.IsComplete := by
  constructor
  · rintro ⟨isTag, areNames, voidIsChildless⟩
    refine ⟨⟨isTag, fun entry member => (areNames entry member).areNameChars⟩, ?_, voidIsChildless⟩
    intro entry member empty
    exact (areNames entry member).nonempty (by rw [empty, String.toList_empty])
  · rintro ⟨⟨isTag, areNameChars⟩, named, voidIsChildless⟩
    refine ⟨isTag, ?_, voidIsChildless⟩
    intro entry member
    refine ⟨?_, areNameChars entry member⟩
    intro empty
    exact named entry member (String.toList_eq_nil_iff.1 empty)

/-- A spelled forest can be written when it is complete. -/
theorem Node.isWritable_iff {nodes : List Node} (spelled : EverywhereAll Element.IsSpelled nodes) :
    IsWritable nodes ↔ EverywhereAll Element.IsComplete nodes := by
  constructor
  · intro isWritable
    exact isWritable.mono fun element writable => (Element.isWritable_iff.1 writable).2
  · intro complete
    have both := everywhereAll_and_iff.2 ⟨spelled, complete⟩
    exact both.mono fun element => Element.isWritable_iff.2

namespace Template

variable {config : Config} {markup : String} {template : Template}

/-- The output for any data has texts that are not empty, and tags and attribute names of
the characters of such. -/
theorem madeOf_evaluate (compiled : ofMarkup config markup = .ok template) (data : Value) :
    Node.MadeOf (· ≠ "") (fun tag attributes => IsTag tag.toList ∧
      ∀ entry ∈ attributes, ∀ c ∈ entry.name.toList, IsNameChar c)
      (template.evaluate data) := by
  obtain ⟨nodes, parsed, renderersCompiled, -⟩ := ofMarkup_eq_ok_iff.1 compiled
  have isWritable : Node.IsWritable nodes := (Node.derives_of_parse parsed).isWritable
  refine Renderer.madeOf_renderAll_of_names (fun tag => IsTag tag.toList)
    (fun name => ∀ c ∈ name.toList, IsNameChar c)
    ((everywhereAll_content isWritable).mono ?_) renderersCompiled _ _
  rintro element ⟨isTag, areNames, -⟩
  refine ⟨isTag, ?_⟩
  intro entry member name putOut c inName
  exact (areNames entry member).areNameChars c (Directives.subset_of_outputName? putOut inName)

/-- Whatever the data, the tags of the output are tags and its attribute names have only
characters of such. It is read back with its texts joined, and otherwise as it is, exactly
if all attributes have names and no void element has content. -/
theorem evaluate_injects_no_markup (compiled : ofMarkup config markup = .ok template)
    (data : Value) :
    Node.EverywhereAll Element.IsSpelled (template.evaluate data) ∧
      (Node.parse (Node.toHtml (template.evaluate data)) =
          .ok (Node.joinAll (template.evaluate data)) ↔
        Node.EverywhereAll Element.IsComplete (template.evaluate data)) := by
  have made := madeOf_evaluate compiled data
  have spelled : Node.EverywhereAll Element.IsSpelled (template.evaluate data) :=
    made.everywhereAll.mono fun element ⟨isTag, areNameChars⟩ => ⟨isTag, areNameChars⟩
  exact ⟨spelled, (Node.parse_toHtml_eq_joinAll_iff made).trans (Node.isWritable_iff spelled)⟩

/-- A script in the data is a text of the output and the value of an attribute, and is
still both after reading the output back. -/
theorem evaluate_injects_no_script :
    ∃ template : Template,
      ofMarkup .standard "<p jt-title=\"name\">By <b jt-text=\"name\">me</b></p>" = .ok template ∧
      Node.EverywhereAll Element.IsSpelled
        (template.evaluate (.object [("name", .text "\"></b><script>")])) ∧
      Node.parse (Node.toHtml (template.evaluate (.object [("name", .text "\"></b><script>")]))) =
        .ok [.element "p" [⟨"title", "\"></b><script>"⟩]
          [.text "By ", .element "b" [] [.text "\"></b><script>"]]] := by
  have source : Node.IsWritable [.element "p" [⟨"jt-title", "name"⟩] [.text "By ",
      .element "b" [⟨"jt-text", "name"⟩] [.text "me"]]] := by decide
  have parsed := Node.parse_of_derives (Node.derives_toHtml source)
  have compiled : ofMarkup .standard "<p jt-title=\"name\">By <b jt-text=\"name\">me</b></p>" =
      .ok ⟨[.element
        { shell := ⟨"p", [], []⟩
          loop := none
          text := none
          condition := none
          bindings := [⟨"title", ⟨[.path (.ofText "name")]⟩⟩] }
        [.text "By ", .element
          { shell := ⟨"b", [], []⟩
            loop := none
            text := some ⟨[.path (.ofText "name")]⟩
            condition := none
            bindings := [] } [.text "me"]]], .empty⟩ :=
    ofMarkup_eq_ok_iff.2 ⟨_, parsed, by rfl, rfl⟩
  have safe := evaluate_injects_no_markup compiled (.object [("name", .text "\"></b><script>")])
  exact ⟨_, compiled, safe.1, safe.2.2 (by decide)⟩

end Template

end Templating
