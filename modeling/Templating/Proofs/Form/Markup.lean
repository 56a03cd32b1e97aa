import Templating.Form.Markup
import Templating.Proofs.Form.Basic

/-!
# Reading markup back

The forms of trees, of markup errors and of the ways to place a fragment are lawful.
-/

namespace Templating

open Form

instance : LawfulForm Attribute where
  read?_write entry := by
    unfold instFormAttribute
    simp

namespace Node

/-- The form of some nodes, taken one by one. -/
theorem toForms_eq_map (nodes : List Node) : toForms nodes = nodes.map toForm := by
  induction nodes with
  | nil => rfl
  | cons node nodes inductionHypothesis => rw [toForms, inductionHypothesis, List.map_cons]

/-- The form of an element is read back when those of its children are. -/
theorem elementOfForm?_members (tag : String) (attributes : List Attribute)
    {children : List Node} {forms : List Value}
    (childrenRead : nodesOfItems? forms = some children) :
    elementOfForm? (.object [("attributes", write attributes), ("children", .array forms),
      ("tag", write tag)]) = some ⟨tag, attributes, children⟩ := by
  simp [elementOfForm?, childrenOfForm?, nodesOfForm?, List.lookup_cons, childrenRead]

mutual

/-- The form of a node is read back. -/
theorem ofForm?_toForm : ∀ node : Node, ofForm? node.toForm = some node
  | .text content => by simp [toForm, writeVariant, ofForm?]
  | .element tag attributes children => by
    have element := elementOfForm?_members tag attributes (nodesOfItems?_toForms children)
    simp [toForm, writeVariant, ofForm?, element, Element.toNode]

/-- The forms of some nodes are read back one by one. -/
theorem nodesOfItems?_toForms : ∀ nodes : List Node, nodesOfItems? (toForms nodes) = some nodes
  | [] => rfl
  | node :: nodes => by
    rw [toForms, nodesOfItems?, ofForm?_toForm node, nodesOfItems?_toForms nodes]
    rfl

end

end Node

instance : LawfulForm Node where
  read?_write := Node.ofForm?_toForm

instance : LawfulForm Element where
  read?_write element := by
    have forms : element.children.map write = Node.toForms element.children :=
      (Node.toForms_eq_map _).symm
    refine Node.elementOfForm?_members element.tag element.attributes ?_
    rw [forms]
    exact Node.nodesOfItems?_toForms _

instance : LawfulForm MarkupFault where
  read?_write fault := by
    unfold instFormMarkupFault
    cases fault <;> simp [variant?, writeVariant, variantFields?, List.lookup_cons]

instance : LawfulForm MarkupError where
  read?_write error := by
    unfold instFormMarkupError
    simp [fields?, List.lookup_cons]

instance : LawfulForm Swap where
  read?_write swap := by cases swap <;> rfl

end Templating
