import Templating.Markup.Node

/-!
# Setting attributes

What an attribute holds after others and it were set. `Attribute.value?_setAll` says that
the last write of a name counts, and `Attribute.forall_name_setAll` that no names come in
but those of the attributes and of the writes.
-/

namespace Templating.Attribute

variable {name other value : String} {entry : Attribute} {attributes writes : List Attribute}

@[simp] theorem value?_nil : value? name [] = none :=
  rfl

/-- The first attribute of a name counts. -/
theorem value?_cons :
    value? name (entry :: attributes) =
      if entry.name = name then some entry.value else value? name attributes := by
  by_cases same : entry.name = name
  · simp [value?, same]
  · simp [value?, same]

/-- Attributes before others count first. -/
theorem value?_append :
    value? name (attributes ++ writes) = (value? name attributes).or (value? name writes) := by
  induction attributes with
  | nil => simp
  | cons entry attributes inductionHypothesis =>
    rw [List.cons_append, value?_cons, value?_cons, inductionHypothesis]
    split
    · rfl
    · rfl

/-- A name holds nothing when no attribute has it. -/
theorem value?_eq_none_iff :
    value? name attributes = none ↔ ∀ entry ∈ attributes, entry.name ≠ name := by
  simp [value?]

/-- Setting a name changes what that name holds, and nothing else. -/
theorem value?_set :
    value? other (set name value attributes) =
      if name = other then some value else value? other attributes := by
  induction attributes with
  | nil => rw [set, value?_cons]
  | cons entry attributes inductionHypothesis =>
    rw [set]
    by_cases here : entry.name = name
    · rw [if_pos here, value?_cons, value?_cons, here]
      split
      · rfl
      · rfl
    · rw [if_neg here, value?_cons, inductionHypothesis]
      by_cases same : name = other
      · rw [if_pos same, if_pos same, if_neg (same ▸ here)]
      · rw [if_neg same, if_neg same, value?_cons]

/-- Setting a name brings in no other one. -/
theorem forall_name_set {holds : String → Prop} (isName : holds name)
    (areNames : ∀ entry ∈ attributes, holds entry.name) :
    ∀ entry ∈ set name value attributes, holds entry.name := by
  induction attributes with
  | nil => exact List.forall_mem_singleton.2 isName
  | cons entry attributes inductionHypothesis =>
    obtain ⟨entryIsName, restAreNames⟩ := List.forall_mem_cons.1 areNames
    rw [set]
    split
    · exact List.forall_mem_cons.2 ⟨isName, restAreNames⟩
    · exact List.forall_mem_cons.2 ⟨entryIsName, inductionHypothesis restAreNames⟩

/-- Sets one attribute after the other. -/
def setAll (writes attributes : List Attribute) : List Attribute :=
  writes.foldl (fun attributes entry => set entry.name entry.value attributes) attributes

/-- Setting attributes of an element one after the other sets them in its list. -/
theorem foldl_setAttribute (writes : List Attribute) (element : Element) :
    writes.foldl (fun element entry => element.setAttribute entry.name entry.value) element =
      ⟨element.tag, setAll writes element.attributes, element.children⟩ := by
  induction writes generalizing element with
  | nil => rfl
  | cons entry writes inductionHypothesis =>
    rw [List.foldl_cons, inductionHypothesis]
    rfl

/-- A name holds what was written last under it, and what it held before if nothing was. -/
theorem value?_setAll :
    value? name (setAll writes attributes) =
      (value? name writes.reverse).or (value? name attributes) := by
  induction writes generalizing attributes with
  | nil => rfl
  | cons entry writes inductionHypothesis =>
    have rest : setAll (entry :: writes) attributes =
        setAll writes (set entry.name entry.value attributes) := rfl
    rw [rest, inductionHypothesis, value?_set, List.reverse_cons, value?_append, value?_cons,
      value?_nil]
    cases value? name writes.reverse with
    | some written => rfl
    | none =>
      split
      · rfl
      · rfl

/-- The names after some writes are those of the attributes and of the writes. -/
theorem forall_name_setAll {holds : String → Prop} (areWritten : ∀ entry ∈ writes, holds entry.name)
    (areNames : ∀ entry ∈ attributes, holds entry.name) :
    ∀ entry ∈ setAll writes attributes, holds entry.name := by
  induction writes generalizing attributes with
  | nil => exact areNames
  | cons entry writes inductionHypothesis =>
    obtain ⟨entryIsWritten, restAreWritten⟩ := List.forall_mem_cons.1 areWritten
    exact inductionHypothesis restAreWritten (forall_name_set entryIsWritten areNames)

end Templating.Attribute
