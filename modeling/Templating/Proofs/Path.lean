import Templating.Path
import Templating.Proofs.Number.Digits
import Templating.Proofs.Text.Join

/-!
# Paths through items

A path that is followed from an item of an array can be followed from further out, when
the path to the array and the index of the item are put before it. `Path.under` does so,
and `Path.resolve?_under` says that nothing else changes.
-/

namespace Templating

/-- The decimal spelling of a number is the index of that number. -/
theorem arrayIndex?_decimalDigits (index : Nat) : arrayIndex? (decimalDigits index) = some index := by
  rw [arrayIndex?, ofDigits_decimalDigits]
  exact if_pos rfl

namespace Value

/-- The spelled index of an item leads to that item. -/
theorem child?_array {items : List Value} (index : Nat) :
    (Value.array items).child? (String.ofList (decimalDigits index)) = items[index]? := by
  rw [child?, String.toList_ofList, arrayIndex?_decimalDigits]
  rfl

end Value

namespace Path

variable {base path : Path} {context : Value} {items : List Value} {index : Nat}

/-- The path has the segments that it is written as. -/
def IsSpelled (path : Path) : Prop :=
  path.segments = segmentsOf path.raw

instance : DecidablePred IsSpelled :=
  fun path => inferInstanceAs (Decidable (path.segments = segmentsOf path.raw))

@[simp] theorem raw_ofText (raw : String) : (ofText raw).raw = raw :=
  rfl

/-- A path read from text is spelled. -/
theorem isSpelled_ofText (raw : String) : (ofText raw).IsSpelled :=
  rfl

/-- A spelled path is read from its text. -/
theorem IsSpelled.ofText_raw (isSpelled : path.IsSpelled) : ofText path.raw = path := by
  rw [ofText, ← isSpelled]

/-- The path that leads to an item of an array, and on from there: the segments of the
path to the array, the index, and the segments of the path below the item. -/
def under (base : Path) (index : Nat) (path : Path) : Path :=
  let segments := base.segments ++ String.ofList (decimalDigits index) :: path.segments
  ⟨String.ofList (List.intercalate ['.'] (segments.map String.toList)), segments⟩

@[simp] theorem segments_under : (under base index path).segments =
    base.segments ++ String.ofList (decimalDigits index) :: path.segments :=
  rfl

/-- A path that leads to an array passes no null at its end. -/
theorem descend?_of_resolve?_array (resolved : base.resolve? context = some (.array items)) :
    context.descend? base.segments = some (.array items) := by
  obtain ⟨value, found, present⟩ := Option.bind_eq_some_iff.1 resolved
  have same : value = .array items := by
    unfold Value.present? at present
    split at present
    · cases present
    · exact Option.some.inj present
  rw [found, same]

/-- Under the path to an array and an index, a path leads where it leads from the item. -/
theorem resolve?_under (resolved : base.resolve? context = some (.array items)) (path : Path) :
    (under base index path).resolve? context = items[index]?.bind path.resolve? := by
  have reached : context.descend? (under base index path).segments =
      items[index]?.bind (Value.descend? path.segments) := by
    rw [segments_under, Value.descend?_append, descend?_of_resolve?_array resolved,
      Option.bind_some, Value.descend?, Value.child?_array]
  rw [resolve?, reached, Option.bind_assoc]
  rfl

section Spelling

/-- No segment of a spelled path has a dot. -/
theorem IsSpelled.dot_not_mem (isSpelled : path.IsSpelled) {segment : String}
    (member : segment ∈ path.segments) : '.' ∉ segment.toList := by
  rw [isSpelled, segmentsOf] at member
  split at member
  · cases member
  · obtain ⟨part, partMember, rfl⟩ := List.mem_map.1 member
    rw [String.toList_ofList]
    exact Text.not_mem_of_mem_splitOn partMember

/-- No index has a dot. -/
theorem dot_not_mem_decimalDigits (index : Nat) : '.' ∉ decimalDigits index := by
  intro member
  have digit := isDigit_of_mem_decimalDigits member
  exact absurd digit (by decide)

/-- The text that some segments make up with dots between them. -/
def joined (segments : List String) : String :=
  String.ofList (List.intercalate ['.'] (segments.map String.toList))

/-- Segments without a dot are cut apart at the dots between them. -/
theorem map_splitOn_joined {segments : List String} (nonempty : segments ≠ [])
    (without : ∀ segment ∈ segments, '.' ∉ segment.toList) :
    (Text.splitOn '.' (joined segments).toList).map String.ofList = segments := by
  have partsWithout : ∀ part ∈ segments.map String.toList, '.' ∉ part := by
    intro part member
    obtain ⟨segment, segmentMember, rfl⟩ := List.mem_map.1 member
    exact without segment segmentMember
  rw [joined, String.toList_ofList, Text.splitOn_intercalate (by simpa using nonempty) partsWithout,
    List.map_map]
  simp [Function.comp_def]

/-- Segments that are joined by dots are those of the text that they make up, unless that is
the single dot. -/
theorem segmentsOf_joined {segments : List String} (nonempty : segments ≠ [])
    (without : ∀ segment ∈ segments, '.' ∉ segment.toList) (notItself : joined segments ≠ itself) :
    segmentsOf (joined segments) = segments := by
  rw [segmentsOf, if_neg notItself, map_splitOn_joined nonempty without]

/-- The segments of any text but the single dot make it up. -/
theorem joined_segmentsOf {raw : String} (notItself : raw ≠ itself) :
    joined (segmentsOf raw) = raw := by
  rw [segmentsOf, if_neg notItself, joined, List.map_map]
  simp [Function.comp_def, Text.intercalate_splitOn]

/-- Any text but the single dot has a segment. -/
theorem segmentsOf_ne_nil {raw : String} (notItself : raw ≠ itself) : segmentsOf raw ≠ [] := by
  rw [segmentsOf, if_neg notItself, ne_eq, List.map_eq_nil_iff]
  exact Text.splitOn_ne_nil '.' raw.toList

/-- Segments without a dot do not make up the single dot if one of them is not empty. -/
theorem joined_ne_itself {segments : List String} {segment : String} (member : segment ∈ segments)
    (nonempty : segment ≠ "") (without : ∀ segment ∈ segments, '.' ∉ segment.toList) :
    joined segments ≠ itself := by
  intro same
  have parts := map_splitOn_joined (List.ne_nil_of_mem member) without
  -- The parts of a dot alone are both empty.
  rw [same] at parts
  have empty : segment ∈ ["", ""] := by
    rw [show ["", ""] = segments from parts]
    exact member
  simp only [List.mem_cons, List.not_mem_nil, or_false, or_self] at empty
  exact nonempty empty

/-- Spelled paths make a spelled path. -/
theorem IsSpelled.under (baseSpelled : base.IsSpelled) (pathSpelled : path.IsSpelled) :
    (under base index path).IsSpelled := by
  have indexMember : String.ofList (decimalDigits index) ∈ (Path.under base index path).segments :=
    List.mem_append_right _ List.mem_cons_self
  have without : ∀ segment ∈ (Path.under base index path).segments, '.' ∉ segment.toList := by
    intro segment member
    rcases List.mem_append.1 member with before | after
    · exact baseSpelled.dot_not_mem before
    · rcases List.mem_cons.1 after with rfl | below
      · rw [String.toList_ofList]
        exact dot_not_mem_decimalDigits index
      · exact pathSpelled.dot_not_mem below
  have indexNonempty : String.ofList (decimalDigits index) ≠ "" := by
    simpa using decimalDigits_ne_nil index
  exact (segmentsOf_joined (List.ne_nil_of_mem indexMember) without
    (joined_ne_itself indexMember indexNonempty without)).symm

end Spelling

end Path

end Templating
