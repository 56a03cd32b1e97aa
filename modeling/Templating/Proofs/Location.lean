import Templating.Proofs.Path

/-!
# Locations

A location of a datum is a run of steps into it, each of them to a member whose name has
no dot or to an item. It is spelled by the names and the decimal indices with dots between
them. `Path.resolve?_location` says that following a path is going to the location that
it spells. There is no other one that it spells, what is there is found unless it is null,
and a path that spells no location is absent, because some segment leads nowhere:
`Value.Refuses` has the ways in which that can be.
-/

namespace Templating

/-- A step into a datum: to the member of a name, or to the item of an index. -/
inductive Step
  | member (name : String)
  | item (index : Nat)
deriving DecidableEq

namespace Step

/-- How a step is spelled. -/
def text : Step → String
  | .member name => name
  | .item index => String.ofList (decimalDigits index)

/-- How steps are spelled. -/
def spelling (steps : List Step) : String :=
  Path.joined (steps.map text)

/-- A step leads from a datum to a part of it. -/
inductive Leads : Step → Value → Value → Prop
  | member {members : List (String × Value)} {name : String} {child : Value}
      (noDot : '.' ∉ name.toList) (found : members.lookup name = some child) :
      Leads (.member name) (.object members) child
  | item {items : List Value} {index : Nat} {child : Value} (found : items[index]? = some child) :
      Leads (.item index) (.array items) child

/-- Steps lead from a datum to one inside it, each from where the last one led. -/
inductive Reaches : List Step → Value → Value → Prop
  | here (value : Value) : Reaches [] value value
  | cons {step : Step} {steps : List Step} {value child target : Value}
      (first : step.Leads value child) (others : Reaches steps child target) :
      Reaches (step :: steps) value target

end Step

namespace Value

/-- A location of a datum, how it is spelled, and what is there. -/
structure HasLocation (data : Value) (text : String) (steps : List Step) (target : Value) :
    Prop where
  nonempty : steps ≠ []
  reaches : Step.Reaches steps data target
  spelled : Step.spelling steps = text

/-- A segment leads nowhere: from a datum without parts, to a member that is not there, to
an item that is not there, or to an item that it does not spell the index of. An index that
is too large for a machine word is one of an item that is not there. -/
inductive Refuses : Value → String → Prop
  | null {segment : String} : Refuses .null segment
  | bool {truth : Bool} {segment : String} : Refuses (.bool truth) segment
  | number {number : Number} {segment : String} : Refuses (.number number) segment
  | text {content segment : String} : Refuses (.text content) segment
  | noMember {members : List (String × Value)} {segment : String}
      (missing : members.lookup segment = none) : Refuses (.object members) segment
  | noItem {items : List Value} {index : Nat} (outOfRange : items.length ≤ index) :
      Refuses (.array items) (String.ofList (decimalDigits index))
  | noIndex {items : List Value} {segment : String} (notCanonical : ¬ IsCanonical segment.toList) :
      Refuses (.array items) segment

/-- A text that steps spell up to some datum, from which the next segment leads nowhere. -/
inductive HasDeadEnd (data : Value) : String → Prop
  | intro {steps : List Step} {segment : String} {behind : List String} {reached : Value}
      (without : ∀ part ∈ segment :: behind, '.' ∉ part.toList)
      (reaches : Step.Reaches steps data reached) (refuses : reached.Refuses segment) :
      HasDeadEnd data (Path.joined (steps.map Step.text ++ segment :: behind))

end Value

/-- The index of a segment is the number that is written so. -/
theorem arrayIndex?_eq_some_iff {segment : List Char} {index : Nat} :
    arrayIndex? segment = some index ↔ decimalDigits index = segment := by
  constructor
  · intro found
    rw [arrayIndex?] at found
    split at found
    · next same =>
      cases found
      exact same
    · cases found
  · rintro rfl
    exact arrayIndex?_decimalDigits index

/-- A segment that is no number as it is written has no index. -/
theorem arrayIndex?_eq_none_iff {segment : List Char} :
    arrayIndex? segment = none ↔ ¬ IsCanonical segment := by
  simp only [Option.eq_none_iff_forall_ne_some, ne_eq, arrayIndex?_eq_some_iff, isCanonical_iff,
    not_exists]

namespace Value

variable {value child : Value} {segment : String}

/-- A segment without a dot leads where the step leads that is spelled so. -/
theorem child?_eq_some_iff (noDot : '.' ∉ segment.toList) :
    value.child? segment = some child ↔
      ∃ step : Step, step.text = segment ∧ step.Leads value child := by
  constructor
  · intro found
    cases value with
    | object members => exact ⟨.member segment, rfl, .member noDot found⟩
    | array items =>
      obtain ⟨index, isIndex, atIndex⟩ := Option.bind_eq_some_iff.1 found
      refine ⟨.item index, ?_, .item atIndex⟩
      rw [Step.text, arrayIndex?_eq_some_iff.1 isIndex, String.ofList_toList]
    | null => cases found
    | bool truth => cases found
    | number number => cases found
    | text content => cases found
  · rintro ⟨step, rfl, leads⟩
    cases leads with
    | member noDot found => exact found
    | item found => exact (child?_array _).trans found

/-- A segment leads nowhere in exactly these ways. -/
theorem child?_eq_none_iff : value.child? segment = none ↔ value.Refuses segment := by
  constructor
  · intro missing
    cases value with
    | object members => exact .noMember missing
    | array items =>
      cases isIndex : arrayIndex? segment.toList with
      | none => exact .noIndex (arrayIndex?_eq_none_iff.1 isIndex)
      | some index =>
        rw [child?, isIndex] at missing
        rw [← String.ofList_toList (s := segment), ← arrayIndex?_eq_some_iff.1 isIndex]
        exact .noItem (List.getElem?_eq_none_iff.1 missing)
    | null => exact .null
    | bool truth => exact .bool
    | number number => exact .number
    | text content => exact .text
  · intro refuses
    cases refuses with
    | noMember missing => exact missing
    | noItem outOfRange =>
      rw [child?_array]
      exact List.getElem?_eq_none_iff.2 outOfRange
    | noIndex notCanonical =>
      rw [child?, arrayIndex?_eq_none_iff.2 notCanonical]
      rfl
    | null => rfl
    | bool => rfl
    | number => rfl
    | text => rfl

end Value

namespace Step

variable {first second : Step} {steps others : List Step} {value child other target last : Value}

/-- No step is spelled with a dot. -/
theorem Leads.dot_not_mem (leads : first.Leads value child) : '.' ∉ first.text.toList := by
  cases leads with
  | member noDot found => exact noDot
  | item found =>
    rw [text, String.toList_ofList]
    exact Path.dot_not_mem_decimalDigits _

/-- From one datum, no two steps are spelled alike. -/
theorem Leads.eq_of_text (leads : first.Leads value child) (otherLeads : second.Leads value other)
    (same : first.text = second.text) : first = second := by
  cases leads with
  | member noDot found =>
    cases otherLeads with
    | member otherNoDot otherFound => exact congrArg Step.member same
  | item found =>
    cases otherLeads with
    | item otherFound =>
      exact congrArg Step.item (decimalDigits_injective (String.ofList_injective same))

/-- A step leads to one datum only. -/
theorem Leads.target_unique (leads : first.Leads value child)
    (otherLeads : first.Leads value other) : child = other := by
  cases leads with
  | member noDot found =>
    cases otherLeads with
    | member otherNoDot otherFound => exact Option.some.inj (found.symm.trans otherFound)
  | item found =>
    cases otherLeads with
    | item otherFound => exact Option.some.inj (found.symm.trans otherFound)

/-- Steps to a datum are spelled without dots, each by itself. -/
theorem Reaches.dot_not_mem (reaches : Reaches steps value target) :
    ∀ segment ∈ steps.map text, '.' ∉ segment.toList := by
  induction reaches with
  | here value => exact List.forall_mem_nil _
  | cons first others inductionHypothesis =>
    exact List.forall_mem_cons.2 ⟨first.dot_not_mem, inductionHypothesis⟩

/-- Two runs of steps from one datum are the same if their steps are spelled alike. -/
theorem Reaches.eq_of_map_text (reaches : Reaches steps value target)
    (otherReaches : Reaches others value last) (same : steps.map text = others.map text) :
    steps = others := by
  induction reaches generalizing others with
  | here value =>
    rw [List.map_nil, eq_comm, List.map_eq_nil_iff] at same
    exact same.symm
  | cons first further inductionHypothesis =>
    cases otherReaches with
    | here => cases same
    | cons otherFirst otherFurther =>
      obtain ⟨sameText, sameTexts⟩ := List.cons.inj same
      cases first.eq_of_text otherFirst sameText
      cases first.target_unique otherFirst
      rw [inductionHypothesis otherFurther sameTexts]

end Step

namespace Value

variable {value target : Value} {segments : List String}

/-- Segments without dots lead where the steps lead that are spelled so. -/
theorem descend?_eq_some_iff (without : ∀ segment ∈ segments, '.' ∉ segment.toList) :
    value.descend? segments = some target ↔
      ∃ steps, steps.map Step.text = segments ∧ Step.Reaches steps value target := by
  induction segments generalizing value with
  | nil =>
    constructor
    · intro found
      cases found
      exact ⟨[], rfl, .here _⟩
    · rintro ⟨steps, none, reaches⟩
      cases List.map_eq_nil_iff.1 none
      cases reaches
      rfl
  | cons segment segments inductionHypothesis =>
    obtain ⟨noDot, restWithout⟩ := List.forall_mem_cons.1 without
    rw [descend?, Option.bind_eq_some_iff]
    constructor
    · rintro ⟨child, atSegment, further⟩
      obtain ⟨step, rfl, leads⟩ := (child?_eq_some_iff noDot).1 atSegment
      obtain ⟨steps, rfl, reaches⟩ := (inductionHypothesis restWithout).1 further
      exact ⟨step :: steps, rfl, .cons leads reaches⟩
    · rintro ⟨steps, spelled, reaches⟩
      obtain ⟨step, others, rfl, rfl, rfl⟩ := List.map_eq_cons_iff.1 spelled
      cases reaches with
      | cons leads further =>
        exact ⟨_, (child?_eq_some_iff noDot).2 ⟨step, rfl, leads⟩,
          (inductionHypothesis restWithout).2 ⟨others, rfl, further⟩⟩

/-- Segments without dots lead nowhere exactly when the steps that some of them spell lead to
a datum from which the next one leads nowhere. -/
theorem descend?_eq_none_iff (without : ∀ segment ∈ segments, '.' ∉ segment.toList) :
    value.descend? segments = none ↔ ∃ steps segment behind reached,
      segments = steps.map Step.text ++ segment :: behind ∧ Step.Reaches steps value reached ∧
        reached.Refuses segment := by
  induction segments generalizing value with
  | nil => simp [descend?]
  | cons segment segments inductionHypothesis =>
    obtain ⟨noDot, restWithout⟩ := List.forall_mem_cons.1 without
    rw [descend?, Option.bind_eq_none_iff]
    constructor
    · intro missing
      cases atSegment : value.child? segment with
      | none =>
        exact ⟨[], segment, segments, value, rfl, .here value, child?_eq_none_iff.1 atSegment⟩
      | some child =>
        obtain ⟨step, rfl, leads⟩ := (child?_eq_some_iff noDot).1 atSegment
        obtain ⟨steps, next, behind, reached, rfl, reaches, refuses⟩ :=
          (inductionHypothesis restWithout).1 (missing child atSegment)
        exact ⟨step :: steps, next, behind, reached, rfl, .cons leads reaches, refuses⟩
    · rintro ⟨steps, next, behind, reached, parts, reaches, refuses⟩ child atSegment
      cases reaches with
      | here =>
        obtain ⟨rfl, rfl⟩ := List.cons.inj parts
        rw [child?_eq_none_iff.2 refuses] at atSegment
        cases atSegment
      | cons leads further =>
        obtain ⟨rfl, rfl⟩ := List.cons.inj parts
        rw [(child?_eq_some_iff noDot).2 ⟨_, rfl, leads⟩] at atSegment
        cases atSegment
        exact (inductionHypothesis restWithout).2 ⟨_, next, behind, reached, rfl, further, refuses⟩

/-- A datum is there unless it is null. -/
theorem present?_eq_ite (value : Value) :
    value.present? = if value = .null then none else some value := by
  cases value <;> simp [present?]

end Value

namespace Path

variable {data target : Value} {text : String} {steps : List Step}

/-- No segment of a text has a dot. -/
theorem dot_not_mem_segmentsOf : ∀ segment ∈ segmentsOf text, '.' ∉ segment.toList :=
  fun _ member => (isSpelled_ofText text).dot_not_mem member

/-- A text spells a location when its segments spell steps that lead there. -/
theorem hasLocation_iff (notItself : text ≠ itself) :
    data.HasLocation text steps target ↔
      steps.map Step.text = segmentsOf text ∧ Step.Reaches steps data target := by
  constructor
  · rintro ⟨nonempty, reaches, rfl⟩
    have without : ∀ segment ∈ steps.map Step.text, '.' ∉ segment.toList := reaches.dot_not_mem
    exact ⟨(segmentsOf_joined (by simpa using nonempty) without notItself).symm, reaches⟩
  · rintro ⟨spelled, reaches⟩
    refine ⟨?_, reaches, ?_⟩
    · rintro rfl
      exact segmentsOf_ne_nil notItself spelled.symm
    · rw [Step.spelling, spelled, joined_segmentsOf notItself]

/-- The segments of a text lead to what is at the location that it spells. -/
theorem descend?_segmentsOf_eq_some_iff (notItself : text ≠ itself) :
    data.descend? (segmentsOf text) = some target ↔
      ∃ steps, data.HasLocation text steps target := by
  rw [Value.descend?_eq_some_iff dot_not_mem_segmentsOf]
  simp only [hasLocation_iff notItself]

/-- The segments of a text lead nowhere when one of them does. -/
theorem descend?_segmentsOf_eq_none_iff (notItself : text ≠ itself) :
    data.descend? (segmentsOf text) = none ↔ data.HasDeadEnd text := by
  rw [Value.descend?_eq_none_iff dot_not_mem_segmentsOf]
  constructor
  · rintro ⟨steps, segment, behind, reached, parts, reaches, refuses⟩
    have without : ∀ part ∈ segment :: behind, '.' ∉ part.toList := by
      intro part member
      have isSegment : part ∈ segmentsOf text := by
        rw [parts]
        exact List.mem_append_right _ member
      exact dot_not_mem_segmentsOf part isSegment
    rw [← joined_segmentsOf notItself, parts]
    exact .intro without reaches refuses
  · rintro ⟨without, reaches, refuses⟩
    refine ⟨_, _, _, _, segmentsOf_joined (by simp) ?_ notItself, reaches, refuses⟩
    intro part member
    rcases List.mem_append.1 member with before | after
    · exact reaches.dot_not_mem part before
    · exact without part after

/-- A path leads to what is at the location that it spells, unless that is null. There is
one such location if the path leads anywhere, and it is absent only if there is null or if
it has a dead end. The single dot leads to the datum itself. -/
theorem resolve?_location (data : Value) :
    (∀ text, text ≠ itself →
      (∀ steps target, data.HasLocation text steps target →
        (ofText text).resolve? data = if target = .null then none else some target) ∧
      (∀ target, (ofText text).resolve? data = some target → target ≠ .null ∧
        ∃ steps, data.HasLocation text steps target ∧
          ∀ others last, data.HasLocation text others last → others = steps) ∧
      ((ofText text).resolve? data = none ↔
        (∃ steps, data.HasLocation text steps .null) ∨ data.HasDeadEnd text)) ∧
    (ofText itself).resolve? data = if data = .null then none else some data := by
  refine ⟨fun text notItself => ⟨?found, ?unique, ?absent⟩, data.present?_eq_ite⟩
  case found =>
    intro steps target location
    have descended := (descend?_segmentsOf_eq_some_iff notItself).2 ⟨steps, location⟩
    rw [resolve?, ofText, descended, Option.bind_some, Value.present?_eq_ite]
  case unique =>
    intro target resolved
    obtain ⟨value, descended, present⟩ := Option.bind_eq_some_iff.1 resolved
    rw [Value.present?_eq_ite] at present
    split at present
    · cases present
    · next notNull =>
      cases present
      obtain ⟨steps, location⟩ := (descend?_segmentsOf_eq_some_iff notItself).1 descended
      refine ⟨notNull, steps, location, ?_⟩
      intro others last other
      obtain ⟨spelled, reaches⟩ := (hasLocation_iff notItself).1 location
      obtain ⟨otherSpelled, otherReaches⟩ := (hasLocation_iff notItself).1 other
      exact otherReaches.eq_of_map_text reaches (otherSpelled.trans spelled.symm)
  case absent =>
    rw [← descend?_segmentsOf_eq_some_iff notItself, ← descend?_segmentsOf_eq_none_iff notItself,
      resolve?, ofText]
    cases data.descend? (segmentsOf text) with
    | none => simp
    | some value => simp [Value.present?_eq_ite]

/-- An item whose index is spelled without a zero in front is found, even below a member
without a name, and a name that looks like an index is one of a member. No other steps are
spelled so. -/
theorem resolve?_location_item :
    (".1.01" : String) ≠ itself ∧
      (ofText ".1.01").resolve? (.object [("", .array [.null, .object [("01", .bool false)]])]) =
        some (.bool false) ∧
      ∀ steps target,
        (Value.object [("", .array [.null, .object [("01", .bool false)]])]).HasLocation
          ".1.01" steps target → steps = [.member "", .item 1, .member "01"] := by
  have notItself : (".1.01" : String) ≠ itself := by decide
  have location : (Value.object [("", .array [.null, .object [("01", .bool false)]])]).HasLocation
      ".1.01" [.member "", .item 1, .member "01"] (.bool false) :=
    (hasLocation_iff notItself).2 ⟨by decide +kernel,
      .cons (.member (by decide) rfl) (.cons (.item rfl)
        (.cons (.member (by decide) rfl) (.here _)))⟩
  obtain ⟨found, unique, -⟩ := (resolve?_location _).1 _ notItself
  have resolved := found _ _ location
  obtain ⟨-, steps, -, only⟩ := unique _ resolved
  refine ⟨notItself, resolved, ?_⟩
  intro others last other
  rw [only _ _ other, only _ _ location]

end Path

end Templating
