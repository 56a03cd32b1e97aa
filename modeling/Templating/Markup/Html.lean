import Templating.Markup.Entity
import Templating.Markup.Node

/-!
# Writing markup

A tree is written as HTML: attributes in double quotes, void elements without
content or closing tag, and everything else as it stands in the tree. Nothing is
checked, so a tag or attribute name goes out as it is.
-/

namespace Templating

namespace Attribute

/-- An attribute after a space. -/
def markup (entry : Attribute) : List Char :=
  ' ' :: entry.name.toList ++ '=' :: '"' :: Entity.escapeValue entry.value.toList ++ ['"']

end Attribute

namespace Node

/-- The opening tag of an element. -/
def openingTag (tag : String) (attributes : List Attribute) : List Char :=
  '<' :: tag.toList ++ attributes.flatMap Attribute.markup ++ ['>']

/-- The closing tag of an element. -/
def closingTag (tag : String) : List Char :=
  '<' :: '/' :: tag.toList ++ ['>']

mutual

/-- The markup of a node. -/
def markup : Node → List Char
  | .text content => Entity.escapeText content.toList
  | .element tag attributes children =>
    openingTag tag attributes ++
      if isVoidTag tag then [] else markupAll children ++ closingTag tag

/-- The markup of some nodes, one after the other. -/
def markupAll : List Node → List Char
  | [] => []
  | node :: nodes => markup node ++ markupAll nodes

end

/-- The HTML of a fragment. -/
def toHtml (fragment : List Node) : String :=
  String.ofList (markupAll fragment)

end Node

namespace Element

/-- The HTML of an element. -/
def toHtml (element : Element) : String :=
  Node.toHtml [element.toNode]

end Element

end Templating
