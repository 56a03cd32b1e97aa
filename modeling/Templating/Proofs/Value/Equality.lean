import Templating.Value.Basic

/-!
# Equality of data

Data are equal when they are the same but for the signs of zeros: `Value.same_iff`. So
equality of data is equality of what `Value.settled` makes of them, and no law of it has to
be proved.
-/

namespace Templating

namespace Double

/-- The double with the sign of zero dropped. -/
def settled (d : Double) : Double :=
  if d.magnitude = 0 then zero false else d

/-- Doubles have the same key when they are the same but for the sign of zero. -/
theorem key_eq_iff {left right : Double} : left.key = right.key ↔ left.settled = right.settled := by
  obtain ⟨leftNegative, leftMagnitude, leftFinite⟩ := left
  obtain ⟨rightNegative, rightMagnitude, rightFinite⟩ := right
  simp only [key, settled, zero]
  cases leftNegative <;> cases rightNegative <;> grind

end Double

namespace Number

/-- The number with the sign of zero dropped. -/
def settled : Number → Number
  | .int value => .int value
  | .float value => .float value.settled

/-- Numbers are equal data when they are the same but for the sign of zero. -/
theorem same_iff {left right : Number} : left.same right = true ↔ left.settled = right.settled := by
  cases left with
  | int left =>
    cases right with
    | int right => simp [same, settled]
    | float right => simp [same, settled]
  | float left =>
    cases right with
    | int right => simp [same, settled]
    | float right => simp [same, settled, Double.key_eq_iff]

end Number

namespace Value

mutual

/-- The datum with the signs of all zeros dropped. -/
def settled : Value → Value
  | .null => .null
  | .bool truth => .bool truth
  | .number value => .number value.settled
  | .text content => .text content
  | .array items => .array (settledItems items)
  | .object members => .object (settledMembers members)

/-- The items of an array with the signs of all zeros dropped. -/
def settledItems : List Value → List Value
  | [] => []
  | item :: items => settled item :: settledItems items

/-- The members of an object with the signs of all zeros dropped. -/
def settledMembers : List (String × Value) → List (String × Value)
  | [] => []
  | (name, value) :: members => (name, settled value) :: settledMembers members

end

mutual

/-- Data are equal when they are the same but for the signs of zeros. -/
theorem same_iff : ∀ left right : Value, left.same right = true ↔ left.settled = right.settled
  | .null, right => by cases right <;> simp [same, settled]
  | .bool truth, right => by cases right <;> simp [same, settled]
  | .number value, right => by cases right <;> simp [same, settled, Number.same_iff]
  | .text content, right => by cases right <;> simp [same, settled]
  | .array items, right => by cases right <;> simp [same, settled, sameItems_iff items]
  | .object members, right => by cases right <;> simp [same, settled, sameMembers_iff members]

/-- Items are equal when they are the same but for the signs of zeros. -/
theorem sameItems_iff :
    ∀ lefts rights, sameItems lefts rights = true ↔ settledItems lefts = settledItems rights
  | [], [] => by simp [sameItems]
  | [], _ :: _ => by simp [sameItems, settledItems]
  | _ :: _, [] => by simp [sameItems, settledItems]
  | left :: lefts, right :: rights => by
    simp [sameItems, settledItems, same_iff left right, sameItems_iff lefts rights]

/-- Members are equal when they are the same but for the signs of zeros. -/
theorem sameMembers_iff :
    ∀ lefts rights, sameMembers lefts rights = true ↔ settledMembers lefts = settledMembers rights
  | [], [] => by simp [sameMembers]
  | [], _ :: _ => by simp [sameMembers, settledMembers]
  | _ :: _, [] => by simp [sameMembers, settledMembers]
  | (leftName, left) :: lefts, (rightName, right) :: rights => by
    simp [sameMembers, settledMembers, same_iff left right, sameMembers_iff lefts rights]

end

end Value

end Templating
