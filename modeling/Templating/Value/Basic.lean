import Templating.Catalog
import Templating.Number.Basic

/-!
# Data values

Templates are evaluated against structured data: null, truth values, numbers,
text, arrays, and objects whose members are sorted by name. `Value.object` holds
its members as they are given, and `Value.ofMembers` is the way to build an object
from members in any order. `Value.same` is equality of data, which differs from
equality of terms on the two zeros only.
-/

namespace Templating

/-- A datum. -/
inductive Value
  | null
  | bool (value : Bool)
  | number (value : Number)
  | text (content : String)
  | array (items : List Value)
  | object (members : List (String × Value))
deriving Inhabited

namespace Value

/-- An object from members in any order; the last one of a name counts. -/
def ofMembers (members : List (String × Value)) : Value :=
  .object (sortEntries members)

/-- An integer as a datum. -/
def int (value : Int) : Value :=
  .number (.int value)

mutual

/-- Equality of data. -/
def same : Value → Value → Bool
  | .null, .null => true
  | .bool left, .bool right => left == right
  | .number left, .number right => left.same right
  | .text left, .text right => left == right
  | .array left, .array right => sameItems left right
  | .object left, .object right => sameMembers left right
  | _, _ => false

/-- Equality of data, item by item. -/
def sameItems : List Value → List Value → Bool
  | [], [] => true
  | left :: lefts, right :: rights => same left right && sameItems lefts rights
  | _, _ => false

/-- Equality of data, member by member. -/
def sameMembers : List (String × Value) → List (String × Value) → Bool
  | [], [] => true
  | (leftName, left) :: lefts, (rightName, right) :: rights =>
    leftName == rightName && same left right && sameMembers lefts rights
  | _, _ => false

end

mutual

/-- Equality of values as terms is decidable. -/
def decEq : (left right : Value) → Decidable (left = right)
  | .null, .null => isTrue rfl
  | .bool left, .bool right => decidable_of_iff (left = right) (by simp)
  | .number left, .number right => decidable_of_iff (left = right) (by simp)
  | .text left, .text right => decidable_of_iff (left = right) (by simp)
  | .array left, .array right =>
    have := decEqItems left right
    decidable_of_iff (left = right) (by simp)
  | .object left, .object right =>
    have := decEqMembers left right
    decidable_of_iff (left = right) (by simp)
  | .null, .bool _ | .null, .number _ | .null, .text _ | .null, .array _ | .null, .object _
  | .bool _, .null | .bool _, .number _ | .bool _, .text _ | .bool _, .array _
  | .bool _, .object _ | .number _, .null | .number _, .bool _ | .number _, .text _
  | .number _, .array _ | .number _, .object _ | .text _, .null | .text _, .bool _
  | .text _, .number _ | .text _, .array _ | .text _, .object _ | .array _, .null
  | .array _, .bool _ | .array _, .number _ | .array _, .text _ | .array _, .object _
  | .object _, .null | .object _, .bool _ | .object _, .number _ | .object _, .text _
  | .object _, .array _ => isFalse (by simp)

/-- Equality of arrays of values is decidable. -/
def decEqItems : (left right : List Value) → Decidable (left = right)
  | [], [] => isTrue rfl
  | [], _ :: _ | _ :: _, [] => isFalse (by simp)
  | left :: lefts, right :: rights =>
    have := decEq left right
    have := decEqItems lefts rights
    decidable_of_iff (left = right ∧ lefts = rights) (by simp)

/-- Equality of members is decidable. -/
def decEqMembers : (left right : List (String × Value)) → Decidable (left = right)
  | [], [] => isTrue rfl
  | [], _ :: _ | _ :: _, [] => isFalse (by simp)
  | (leftName, left) :: lefts, (rightName, right) :: rights =>
    have := decEq left right
    have := decEqMembers lefts rights
    decidable_of_iff (leftName = rightName ∧ left = right ∧ lefts = rights)
      (by simp [and_assoc])

end

instance : DecidableEq Value :=
  decEq

end Value

end Templating
