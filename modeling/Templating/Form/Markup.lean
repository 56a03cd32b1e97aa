import Templating.Form.Basic
import Templating.Markup.Fault
import Templating.Markup.Node
import Templating.Swap

/-!
# Forms of markup

The forms of trees, of what can be wrong with markup, and of the ways to place a
fragment.
-/

namespace Templating

open Form

instance : Form Attribute where
  write entry := .array [write entry.name, write entry.value]
  read?
    | .array [name, value] => do return ⟨← read? name, ← read? value⟩
    | _ => none

namespace Node

mutual

/-- The form of a node. -/
def toForm : Node → Value
  | .text content => writeVariant "Text" (write content)
  | .element tag attributes children =>
    writeVariant "Element"
      (.object [("attributes", write attributes), ("children", .array (toForms children)),
        ("tag", write tag)])

/-- The forms of some nodes. -/
def toForms : List Node → List Value
  | [] => []
  | node :: nodes => toForm node :: toForms nodes

end

mutual

/-- The node of a form. -/
def ofForm? : Value → Option Node
  | .object [(variant, content)] =>
    if variant = "Text" then (read? content).map .text
    else if variant = "Element" then (elementOfForm? content).map Element.toNode
    else none
  | _ => none

/-- The element of a form. -/
def elementOfForm? : Value → Option Element
  | .object members => do
    let tag ← required? (members.lookup "tag")
    let attributes ← required? (members.lookup "attributes")
    let children ← childrenOfForm? members
    return ⟨tag, attributes, children⟩
  | .array [tag, attributes, children] => do
    return ⟨← read? tag, ← read? attributes, ← nodesOfForm? children⟩
  | _ => none

/-- The child nodes among the members of an element's form. -/
def childrenOfForm? : List (String × Value) → Option (List Node)
  | [] => none
  | (name, content) :: members =>
    if name = "children" then nodesOfForm? content else childrenOfForm? members

/-- The nodes of an array of forms. -/
def nodesOfForm? : Value → Option (List Node)
  | .array items => nodesOfItems? items
  | _ => none

/-- The nodes of some forms, all of which have to be right. -/
def nodesOfItems? : List Value → Option (List Node)
  | [] => some []
  | item :: items => do
    let node ← ofForm? item
    let nodes ← nodesOfItems? items
    return node :: nodes

end

end Node

instance : Form Node where
  write := Node.toForm
  read? := Node.ofForm?

instance : Form Element where
  write element :=
    .object [("attributes", write element.attributes), ("children", write element.children),
      ("tag", write element.tag)]
  read? := Node.elementOfForm?

instance : Form MarkupFault where
  write
    | .unexpectedToken expected found =>
      writeVariant "UnexpectedToken"
        (.object [("expected", write expected), ("found", write found)])
    | .unexpectedEnd expectation =>
      writeVariant "UnexpectedEOF" (.object [("expected_what", write expectation)])
    | .mismatchedTag opened found =>
      writeVariant "MismatchedTag" (.object [("found", write found), ("open", write opened)])
    | .unopenedTag tag => writeVariant "UnopenedTag" (.object [("tag", write tag)])
    | .missing description =>
      writeVariant "Expected" (.object [("description", write description)])
  read? form := do
    let (variant, some content) ← variant? form | none
    match variant with
    | "UnexpectedToken" =>
      let [expected, found] ← variantFields? ["expected", "found"] content | none
      return .unexpectedToken (← required? expected) (← required? found)
    | "UnexpectedEOF" =>
      let [expectation] ← variantFields? ["expected_what"] content | none
      return .unexpectedEnd (← required? expectation)
    | "MismatchedTag" =>
      let [opened, found] ← variantFields? ["open", "found"] content | none
      return .mismatchedTag (← required? opened) (← required? found)
    | "UnopenedTag" =>
      let [tag] ← variantFields? ["tag"] content | none
      return .unopenedTag (← required? tag)
    | "Expected" =>
      let [description] ← variantFields? ["description"] content | none
      return .missing (← required? description)
    | _ => none

instance : Form MarkupError where
  write error :=
    .object [("column", write error.column), ("kind", write error.fault),
      ("line", write error.line)]
  read? form := do
    let [line, column, fault] ← fields? ["line", "column", "kind"] form | none
    return ⟨← required? line, ← required? column, ← required? fault⟩

instance : Form Swap where
  write
    | .replace => .text "Replace"
    | .append => .text "Append"
    | .prepend => .text "Prepend"
  read? := unit? [("Replace", .replace), ("Append", .append), ("Prepend", .prepend)]

end Templating
