import Templating.Proofs.Markup.RoundTrip

/-!
# Joining texts

Texts that stand next to each other come back from markup as one.
`Node.parse_toHtml_eq_joinAll_iff` says that a forest without empty texts is read back
with its texts joined, and otherwise as it is, exactly if it can be written.
-/

namespace Templating.Node

/-- Puts a text before other nodes. A text that follows is joined to it. -/
def joinText (content : String) : List Node → List Node
  | .text next :: others => .text (content ++ next) :: others
  | nodes => .text content :: nodes

mutual

/-- Joins adjacent texts at every level below a node. -/
def join : Node → Node
  | .text content => .text content
  | .element tag attributes children => .element tag attributes (joinAll children)

/-- Joins adjacent texts at every level. -/
def joinAll : List Node → List Node
  | [] => []
  | .text content :: nodes => joinText content (joinAll nodes)
  | node :: nodes => join node :: joinAll nodes

end

@[simp] theorem joinAll_nil : joinAll [] = [] := by
  rw [joinAll]

@[simp] theorem joinAll_text {content : String} {nodes : List Node} :
    joinAll (.text content :: nodes) = joinText content (joinAll nodes) := by
  rw [joinAll]

@[simp] theorem joinAll_element {tag : String} {attributes : List Attribute}
    {children nodes : List Node} :
    joinAll (.element tag attributes children :: nodes) =
      .element tag attributes (joinAll children) :: joinAll nodes := by
  rw [joinAll, join]
  nofun

section Joining

variable {content : String} {nodes : List Node}

theorem joinText_ne_nil : joinText content nodes ≠ [] := by
  rw [joinText.eq_def]
  split
  · exact List.cons_ne_nil _ _
  · exact List.cons_ne_nil _ _

/-- A text that is not empty is put before others by joining it. -/
theorem prependText_eq_joinText (nonempty : content ≠ "") :
    prependText content nodes = joinText content nodes :=
  match nodes with
  | [] => prependText_of_beginsWithoutText nonempty nofun
  | .text _ :: _ => prependText_text nonempty
  | .element _ _ _ :: _ => prependText_of_beginsWithoutText nonempty nofun

/-- A text is joined only to a text. -/
theorem everywhereAll_joinText {holds : Element → Prop} :
    EverywhereAll holds (joinText content nodes) ↔ EverywhereAll holds nodes := by
  rw [joinText.eq_def]
  split
  · rw [everywhereAll_text, everywhereAll_text]
  · rw [everywhereAll_text]

/-- Joining leaves something of everything. -/
theorem joinAll_eq_nil_iff : joinAll nodes = [] ↔ nodes = [] := by
  cases nodes with
  | nil => rw [joinAll_nil]
  | cons node nodes =>
    cases node with
    | text content => simp [joinText_ne_nil]
    | element tag attributes children => simp

/-- Where no text is empty, joining texts gives the normal form. -/
theorem normalizeAll_eq_joinAll {isHead : String → List Attribute → Prop}
    (made : MadeOf (· ≠ "") isHead nodes) : normalizeAll nodes = joinAll nodes := by
  induction made with
  | nil => rw [normalizeAll_nil, joinAll_nil]
  | text nonempty later inductionHypothesis =>
    rw [normalizeAll_text, joinAll_text, inductionHypothesis, prependText_eq_joinText nonempty]
  | element here below later belowHypothesis inductionHypothesis =>
    rw [normalizeAll_element, joinAll_element, belowHypothesis, inductionHypothesis]

/-- Joining texts does not matter for whether a forest can be written. -/
theorem isWritable_joinAll_iff : IsWritable (joinAll nodes) ↔ IsWritable nodes := by
  rw [IsWritable, IsWritable]
  induction nodes using forestInduction with
  | nil => rw [joinAll_nil]
  | text content nodes inductionHypothesis =>
    rw [joinAll_text, everywhereAll_joinText, inductionHypothesis, everywhereAll_text]
  | element tag attributes children nodes childrenHypothesis inductionHypothesis =>
    have here : Element.IsWritable ⟨tag, attributes, joinAll children⟩ ↔
        Element.IsWritable ⟨tag, attributes, children⟩ := by
      constructor
      · rintro ⟨isTag, areNames, voidIsChildless⟩
        exact ⟨isTag, areNames, fun isVoid => joinAll_eq_nil_iff.1 (voidIsChildless isVoid)⟩
      · rintro ⟨isTag, areNames, voidIsChildless⟩
        exact ⟨isTag, areNames, fun isVoid => joinAll_eq_nil_iff.2 (voidIsChildless isVoid)⟩
    rw [joinAll_element, everywhereAll_element, everywhereAll_element, here, childrenHypothesis,
      inductionHypothesis]

/-- A forest without empty texts is read back with its texts joined exactly if it can be
written. -/
theorem parse_toHtml_eq_joinAll_iff {isHead : String → List Attribute → Prop}
    (made : MadeOf (· ≠ "") isHead nodes) :
    parse (toHtml nodes) = .ok (joinAll nodes) ↔ IsWritable nodes := by
  constructor
  · intro parsed
    exact isWritable_joinAll_iff.1 (derives_of_parse parsed).isWritable
  · intro isWritable
    rw [← normalizeAll_eq_joinAll made]
    exact parse_of_derives (derives_toHtml isWritable)

end Joining

end Templating.Node
