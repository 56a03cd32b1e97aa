/-!
# Markup trees

A node is a text or an element with a tag, attributes in order, and child nodes.
`Element` is the view of an element node on which attributes and children are
changed. Setting an attribute keeps its place, and a name that occurs twice is
read and changed at its first place only.
-/

namespace Templating

/-- An attribute of an element. -/
structure Attribute where
  name : String
  value : String
deriving DecidableEq

/-- A node of a markup tree. Texts and attribute values are unescaped. -/
inductive Node
  | text (content : String)
  | element (tag : String) (attributes : List Attribute) (children : List Node)
deriving Inhabited

/-- An element by itself. -/
structure Element where
  tag : String
  attributes : List Attribute
  children : List Node

/-- The tags of the elements that never have content. -/
def voidTags : List String :=
  ["br", "hr", "img", "input", "link", "meta"]

/-- Whether elements of this tag never have content. -/
def isVoidTag (tag : String) : Bool :=
  voidTags.contains tag

namespace Attribute

/-- The value of the first attribute of a name. -/
def value? (name : String) (attributes : List Attribute) : Option String :=
  (attributes.find? fun entry => entry.name = name).map (·.value)

/-- Sets the first attribute of a name in its place, or adds one at the end. -/
def set (name value : String) : List Attribute → List Attribute
  | [] => [⟨name, value⟩]
  | entry :: entries =>
    if entry.name = name then ⟨name, value⟩ :: entries
    else entry :: set name value entries

/-- The value of the first attribute of a name, and the attributes without that one. -/
def take? (name : String) (attributes : List Attribute) : Option (String × List Attribute) :=
  match attributes.findIdx? fun entry => entry.name = name with
  | none => none
  | some index =>
    attributes[index]?.map fun entry => (entry.value, attributes.eraseIdx index)

end Attribute

namespace Node

mutual

/-- Equality of nodes is decidable. -/
def decEq : (left right : Node) → Decidable (left = right)
  | .text left, .text right => decidable_of_iff (left = right) (by simp)
  | .text _, .element _ _ _ | .element _ _ _, .text _ => isFalse (by simp)
  | .element tag attributes children, .element tag' attributes' children' =>
    have := decEqAll children children'
    decidable_of_iff (tag = tag' ∧ attributes = attributes' ∧ children = children') (by simp)

/-- Equality of lists of nodes is decidable. -/
def decEqAll : (left right : List Node) → Decidable (left = right)
  | [], [] => isTrue rfl
  | [], _ :: _ | _ :: _, [] => isFalse (by simp)
  | left :: lefts, right :: rights =>
    have := decEq left right
    have := decEqAll lefts rights
    decidable_of_iff (left = right ∧ lefts = rights) (by simp)

end

instance : DecidableEq Node :=
  decEq

mutual

/-- The texts of a node and of everything below it, joined. -/
def textContent : Node → String
  | .text content => content
  | .element _ _ children => textContents children

/-- The texts of some nodes and of everything below them, joined. -/
def textContents : List Node → String
  | [] => ""
  | node :: nodes => textContent node ++ textContents nodes

end

/-- The element that a node is. -/
def element? : Node → Option Element
  | .text _ => none
  | .element tag attributes children => some ⟨tag, attributes, children⟩

end Node

deriving instance DecidableEq for Element

namespace Element

/-- An element without attributes and children. -/
def ofTag (tag : String) : Element :=
  ⟨tag, [], []⟩

/-- The element as a node of a tree. -/
def toNode (element : Element) : Node :=
  .element element.tag element.attributes element.children

/-- Whether the element never has content. -/
def isVoid (element : Element) : Bool :=
  isVoidTag element.tag

/-- The value of the first attribute of a name. -/
def attribute? (element : Element) (name : String) : Option String :=
  Attribute.value? name element.attributes

/-- Sets the first attribute of a name in its place, or adds one at the end. -/
def setAttribute (element : Element) (name value : String) : Element :=
  { element with attributes := Attribute.set name value element.attributes }

/-- Removes the first attribute of a name, and gives the value that it had. -/
def takeAttribute (element : Element) (name : String) : Option String × Element :=
  match Attribute.take? name element.attributes with
  | none => (none, element)
  | some (value, rest) => (some value, { element with attributes := rest })

/-- The element without the first attribute of a name. -/
def removeAttribute (element : Element) (name : String) : Element :=
  (element.takeAttribute name).2

/-- Replaces all children by one text. -/
def setText (element : Element) (content : String) : Element :=
  { element with children := [.text content] }

/-- Adds a node after the children. -/
def appendChild (element : Element) (child : Node) : Element :=
  { element with children := element.children ++ [child] }

/-- The element without its children. -/
def shell (element : Element) : Element :=
  { element with children := [] }

/-- A new element whose only child is this one. -/
def wrap (element : Element) (tag : String) : Element :=
  ⟨tag, [], [element.toNode]⟩

end Element

end Templating
