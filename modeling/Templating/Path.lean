import Templating.Text.Split
import Templating.Value.Basic

/-!
# Paths into data

A path is written as segments with dots between them, and the single dot names
the datum itself. `Path.resolve?` walks the segments: a segment is the name of a
member or the decimal index of an item, and whatever does not lead on makes the
path absent. A path that ends at null is absent as well.
-/

namespace Templating

/-- The index that a segment spells. Only the decimal spelling of a number counts,
so a sign, a leading zero or a blank makes it no index. -/
def arrayIndex? (segment : List Char) : Option Nat :=
  let index := ofDigits segment
  if decimalDigits index = segment then some index else none

namespace Value

/-- The datum one segment below. -/
def child? (segment : String) : Value → Option Value
  | .object members => members.lookup segment
  | .array items => (arrayIndex? segment.toList).bind (items[·]?)
  | _ => none

/-- The datum at the end of some segments. -/
def descend? : List String → Value → Option Value
  | [], value => some value
  | segment :: segments, value => (value.child? segment).bind (descend? segments)

/-- Following two runs of segments is following one after the other. -/
theorem descend?_append (first second : List String) (value : Value) :
    value.descend? (first ++ second) = (value.descend? first).bind (descend? second) := by
  induction first generalizing value with
  | nil => rfl
  | cons segment first inductionHypothesis =>
    simp only [List.cons_append, descend?, Option.bind_assoc]
    exact Option.bind_congr fun child _ => inductionHypothesis child

/-- The datum unless it is null. -/
def present? : Value → Option Value
  | .null => none
  | value => some value

end Value

/-- A path as written, and the segments that are followed. `Path.ofText` makes the
two agree. -/
structure Path where
  raw : String
  segments : List String
deriving DecidableEq

namespace Path

/-- How the path to the datum itself is written. -/
def itself : String :=
  "."

/-- The segments that a path is written as. -/
def segmentsOf (raw : String) : List String :=
  if raw = itself then [] else (Text.splitOn '.' raw.toList).map String.ofList

/-- The path of that spelling. -/
def ofText (raw : String) : Path :=
  ⟨raw, segmentsOf raw⟩

/-- Whether the path leads to the datum itself. -/
def isItself (path : Path) : Bool :=
  path.segments.isEmpty

/-- The datum that the path leads to, if there is one and it is not null. -/
def resolve? (path : Path) (context : Value) : Option Value :=
  (context.descend? path.segments).bind Value.present?

end Path

end Templating
