import Templating.Markup.Piece

/-!
# Reading markup

`Node.readAll` builds the tree of a text from its pieces. The elements that are
still open stand in a list, the innermost first, each with the siblings before it;
a closing tag must be the one of the innermost. `Node.parse` reads a whole text and
gives the place of what is wrong with it.
-/

namespace Templating

/-- An element whose closing tag has not come yet, with the siblings before it, the
nearest first. -/
structure OpenElement where
  tag : String
  attributes : List Attribute
  before : List Node

namespace Node

/-- The nodes of a text, given the open elements around it and the siblings before
it, the nearest first. -/
def readAll (enclosing : List OpenElement) (siblings : List Node) (input : List Char) :
    Except Stop (List Node) :=
  if _nonempty : input = [] then
    match enclosing with
    | [] => .ok siblings.reverse
    | parent :: _ => .error ⟨.ending (some ("</" ++ parent.tag ++ ">")), []⟩
  else
    match _scanned : Piece.scan input with
    | .error stop => .error stop
    | .ok (.text content, rest) => readAll enclosing (.text content :: siblings) rest
    | .ok (.comment, rest) => readAll enclosing siblings rest
    | .ok (.opening tag attributes closed, rest) =>
      if closed || isVoidTag tag then
        readAll enclosing (.element tag attributes [] :: siblings) rest
      else readAll (⟨tag, attributes, siblings⟩ :: enclosing) [] rest
    | .ok (.closing tag, rest) =>
      match enclosing with
      | [] => .error ⟨.unopenedTag tag, input⟩
      | parent :: outer =>
        if parent.tag = tag then
          readAll outer (.element parent.tag parent.attributes siblings.reverse :: parent.before)
            rest
        else .error ⟨.mismatchedTag parent.tag tag, input⟩
termination_by input.length
decreasing_by all_goals exact Piece.length_of_scan _nonempty _scanned

/-- The error at the place where reading stopped. -/
def errorAt (input : List Char) (stop : Stop) : MarkupError :=
  let place := Location.ofUnread input stop.unread
  ⟨place.line, place.column, stop.fault⟩

/-- The top-level nodes of a text. -/
def parse (markup : String) : Except MarkupError (List Node) :=
  (readAll [] [] markup.toList).mapError (errorAt markup.toList)

end Node

end Templating
