import Templating.Form.Basic
import Templating.Proofs.Catalog

/-!
# Reading forms back

A form is lawful when reading undoes writing: `LawfulForm` has that law. It holds of the
basic types, and of lists, options and catalogs of lawful forms.
-/

namespace Templating

/-- Forms from which the value that was written is read back. -/
class LawfulForm (α : Type) [Form α] : Prop where
  read?_write : ∀ value : α, Form.read? (Form.write value) = some value

attribute [simp] LawfulForm.read?_write

namespace Form

/-- A field that is kept is read, and one that is lost has its default. -/
theorem defaulted?_ite {α : Type} [Form α] {kept : Prop} [Decidable kept] {default value : α}
    {content : Value} (contentReads : read? content = some value) :
    defaulted? default (if kept then some content else none) =
      some (if kept then value else default) := by
  by_cases present : kept
  · rw [if_pos present, if_pos present]
    exact contentReads
  · rw [if_neg present, if_neg present]
    rfl

section Lawful

variable {α : Type} [Form α] [LawfulForm α]

/-- A field that was written is there. -/
@[simp] theorem required?_write {value : α} : required? (some (write value)) = some value :=
  LawfulForm.read?_write value

/-- The items of an array are read back one by one. -/
@[simp] theorem readItems?_map_write {values : List α} :
    readItems? (values.map write) = some values := by
  induction values with
  | nil => rfl
  | cons value values inductionHypothesis =>
    rw [List.map_cons, readItems?, LawfulForm.read?_write, inductionHypothesis]
    rfl

/-- The members of an object are read back one by one, under their names. -/
theorem readEntries?_map_write {entries : List (String × α)} :
    readEntries? (entries.map fun entry => (entry.1, write entry.2)) = some entries := by
  induction entries with
  | nil => rfl
  | cons entry entries inductionHypothesis =>
    rw [List.map_cons, readEntries?, LawfulForm.read?_write, inductionHypothesis]
    rfl

/-- What may be absent is read back, unless null stands for something else already. -/
theorem optional?_writeOptional (notNull : ∀ value : α, write value ≠ .null)
    {content : Option α} : optional? (some (writeOptional content)) = some content := by
  cases content with
  | none => rfl
  | some value =>
    rw [writeOptional, optional?.eq_3 _ (notNull value), LawfulForm.read?_write]
    rfl

end Lawful

instance : LawfulForm Value where
  read?_write _ := rfl

instance : LawfulForm String where
  read?_write _ := rfl

instance : LawfulForm Nat where
  read?_write n := by
    change (if (0 : Int) ≤ n then some (n : Int).toNat else none) = some n
    rw [if_pos (Int.natCast_nonneg n), Int.toNat_natCast]

instance {α : Type} [Form α] [LawfulForm α] : LawfulForm (List α) where
  read?_write _ := readItems?_map_write

instance {α : Type} [Form α] [LawfulForm α] : LawfulForm (Catalog α) where
  read?_write catalog := by
    calc (readEntries? (catalog.entries.map fun entry => (entry.1, write entry.2))).map
          Catalog.ofList
        = some (Catalog.ofList catalog.entries) := by rw [readEntries?_map_write]; rfl
      _ = some catalog := by rw [Catalog.ofList_entries]

end Form

end Templating
