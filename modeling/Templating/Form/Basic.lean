import Templating.Catalog
import Templating.Value.Basic

/-!
# Forms

A form is the datum that a value of some type is stored as. A record is an object
with its fields, and may also be given as an array of their contents in order. A
variant is an object whose one member has the variant's name, or that name alone if
the variant holds nothing. Members that a record does not know are ignored.
-/

namespace Templating

/-- Types whose values are written as data and read back. -/
class Form (α : Type) where
  write : α → Value
  read? : Value → Option α

namespace Form

/-- The contents of the fields of a record, in the order of their names. An array
must have all of them. -/
def fields? (names : List String) : Value → Option (List (Option Value))
  | .object members => some (names.map fun name => members.lookup name)
  | .array items => if items.length = names.length then some (items.map some) else none
  | _ => none

/-- The contents of the fields of a record in which each of them may be missing; an
array may then stop early. -/
def partialFields? (names : List String) : Value → Option (List (Option Value))
  | .object members => some (names.map fun name => members.lookup name)
  | .array items =>
    if items.length ≤ names.length then
      some (items.map some ++ List.replicate (names.length - items.length) none)
    else none
  | _ => none

/-- A field that has to be there. -/
def required? {α : Type} [Form α] (content : Option Value) : Option α :=
  content.bind read?

/-- A field that may be missing or null. -/
def optional? {α : Type} [Form α] : Option Value → Option (Option α)
  | none => some none
  | some .null => some none
  | some content => (read? content).map some

/-- A field with a default for when it is missing; null is not missing. -/
def defaulted? {α : Type} [Form α] (default : α) : Option Value → Option α
  | none => some default
  | some content => read? content

/-- The form of something that may be absent. -/
def writeOptional {α : Type} [Form α] : Option α → Value
  | none => .null
  | some value => write value

/-- The name and the content of a variant. -/
def variant? : Value → Option (String × Option Value)
  | .text name => some (name, none)
  | .object [(name, content)] => some (name, some content)
  | _ => none

/-- The form of a variant with a content. -/
def writeVariant (name : String) (content : Value) : Value :=
  .object [(name, content)]

/-- The variant of a form, among variants that hold nothing. -/
def unit? {α : Type} (names : List (String × α)) (form : Value) : Option α :=
  match variant? form with
  | some (name, none) => names.lookup name
  | some (name, some .null) => names.lookup name
  | _ => none

/-- The contents of the fields that a variant holds, which have to be an object. -/
def variantFields? (names : List String) : Value → Option (List (Option Value))
  | .object members => some (names.map fun name => members.lookup name)
  | _ => none

/-- The values of some forms, all of which have to be right. -/
def readItems? {α : Type} [Form α] : List Value → Option (List α)
  | [] => some []
  | item :: items => do
    let value ← read? item
    let values ← readItems? items
    return value :: values

/-- The entries of some members, all of which have to be right. -/
def readEntries? {α : Type} [Form α] : List (String × Value) → Option (List (String × α))
  | [] => some []
  | (name, content) :: members => do
    let value ← read? content
    let entries ← readEntries? members
    return (name, value) :: entries

instance : Form Value where
  write value := value
  read? := some

instance : Form String where
  write := .text
  read?
    | .text content => some content
    | _ => none

instance : Form Nat where
  write n := .int n
  read?
    | .number (.int n) => if 0 ≤ n then some n.toNat else none
    | _ => none

instance {α : Type} [Form α] : Form (List α) where
  write values := .array (values.map write)
  read?
    | .array items => readItems? items
    | _ => none

instance {α : Type} [Form α] : Form (Catalog α) where
  write catalog := .object (catalog.entries.map fun entry => (entry.1, write entry.2))
  read?
    | .object members => (readEntries? members).map Catalog.ofList
    | _ => none

end Form

end Templating
