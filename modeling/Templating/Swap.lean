import Templating.Markup.Node
import Templating.Text.Blank

/-!
# Placing fragments

A rendered fragment goes into a target element in place of its children, after
them, or before them.
-/

namespace Templating

/-- Where a fragment goes. -/
inductive Swap
  | replace
  | append
  | prepend
deriving DecidableEq

/-- A mode that is none of the known ones, without the blanks around it. -/
structure UnknownSwap where
  mode : String
deriving DecidableEq

namespace UnknownSwap

/-- The explanation of the error. -/
def message (error : UnknownSwap) : String :=
  let mode := error.mode
  s!"Unknown swap mode '{mode}', expected 'replace', 'append' or 'prepend'"

end UnknownSwap

namespace Swap

/-- The mode that a text names; a blank one is replacement. -/
def ofText (text : String) : Except UnknownSwap Swap :=
  let mode := String.ofList (Text.trim text.toList)
  if mode = "" ∨ mode = "replace" then .ok .replace
  else if mode = "append" then .ok .append
  else if mode = "prepend" then .ok .prepend
  else .error ⟨mode⟩

/-- Puts a fragment into a target. -/
def apply (swap : Swap) (target : Element) (fragment : List Node) : Element :=
  match swap with
  | .replace => { target with children := fragment }
  | .append => { target with children := target.children ++ fragment }
  | .prepend => { target with children := fragment ++ target.children }

end Swap

end Templating
