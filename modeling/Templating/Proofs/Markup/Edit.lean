import Mathlib.Data.List.Nodup
import Templating.Proofs.Markup.Overlay

/-!
# Edits of elements

An element is made by edits, one after the other, from one that has only its tag. `Edit.Keeps` says
what edits leave of the attributes: no name stands twice, a name holds what it was set to last if it
has not been removed since, and names stand in the order in which they came in. A name comes in when
it is set while it is absent. Setting it again keeps its place, and removing it takes that away.
Each edit keeps this up, by `Edit.Keeps.step`, and so does every run of edits, by `Edit.run_keeps`.
-/

namespace Templating

namespace Attribute

variable {name other value : String} {entry : Attribute} {attributes : List Attribute}

/-- An attribute of the name is taken from the front, or else from what stands behind. -/
theorem take?_cons : take? name (entry :: attributes) =
    if entry.name = name then some (entry.value, attributes)
    else (take? name attributes).map fun taken => (taken.1, entry :: taken.2) := by
  rw [take?, List.findIdx?_cons]
  by_cases here : entry.name = name
  · simp [here]
  · rw [if_neg here, if_neg (by simpa using here), take?]
    cases attributes.findIdx? fun entry => entry.name = name with
    | none => rfl
    | some index => cases found : attributes[index]? <;> simp [found]

/-- A name that holds nothing is not there. -/
theorem value?_eq_none_iff_not_mem :
    value? name attributes = none ↔ name ∉ attributes.map Attribute.name := by
  rw [value?_eq_none_iff, List.mem_map]
  simp

/-- The attributes of other names. -/
def without (name : String) (attributes : List Attribute) : List Attribute :=
  attributes.filter fun entry => entry.name ≠ name

theorem without_cons : without name (entry :: attributes) =
    if entry.name = name then without name attributes else entry :: without name attributes := by
  by_cases here : entry.name = name
  · simp [without, here]
  · simp [without, here]

theorem names_without : (without name attributes).map Attribute.name =
    (attributes.map Attribute.name).filter fun other => other ≠ name := by
  rw [without, List.filter_map]
  rfl

/-- Without the attributes of a name, the others hold what they held. -/
theorem value?_without : value? other (without name attributes) =
    if name = other then none else value? other attributes := by
  induction attributes with
  | nil => simp [without]
  | cons entry attributes inductionHypothesis =>
    rw [without_cons, value?_cons]
    by_cases here : entry.name = name
    · rw [if_pos here, inductionHypothesis]
      split
      · rfl
      · next differ => rw [if_neg (here ▸ differ)]
    · rw [if_neg here, value?_cons, inductionHypothesis]
      split
      · next same => rw [if_neg fun isName => here (same.trans isName.symm)]
      · rfl

/-- Where no attribute has the name, nothing is left out. -/
theorem without_of_not_mem (absent : name ∉ attributes.map Attribute.name) :
    without name attributes = attributes := by
  apply List.filter_eq_self.2
  intro entry member
  apply decide_eq_true
  rintro rfl
  exact absent (List.mem_map_of_mem member)

/-- Where no name stands twice, all attributes of the name are taken. -/
theorem take?_eq (distinct : (attributes.map Attribute.name).Nodup) :
    take? name attributes =
      (value? name attributes).map fun value => (value, without name attributes) := by
  induction attributes with
  | nil => rfl
  | cons entry attributes inductionHypothesis =>
    obtain ⟨once, distinct⟩ := List.nodup_cons.1 distinct
    rw [take?_cons, value?_cons, without_cons]
    by_cases here : entry.name = name
    · rw [if_pos here, if_pos here, if_pos here, without_of_not_mem (here ▸ once)]
      rfl
    · rw [if_neg here, if_neg here, if_neg here, inductionHypothesis distinct, Option.map_map]
      rfl

end Attribute

/-- Where no name stands twice, taking one gives what it holds and leaves the other attributes. -/
theorem Element.takeAttribute_eq {element : Element}
    (distinct : (element.attributes.map Attribute.name).Nodup) (name : String) :
    element.takeAttribute name = (element.attribute? name,
      { element with attributes := Attribute.without name element.attributes }) := by
  rw [takeAttribute, attribute?, Attribute.take?_eq distinct]
  cases held : Attribute.value? name element.attributes with
  | some value => rfl
  | none =>
    rw [Attribute.without_of_not_mem (Attribute.value?_eq_none_iff_not_mem.1 held)]
    rfl

/-- The operations that change an element. -/
inductive Edit
  | set (name value : String)
  | remove (name : String)
  | setText (content : String)
  | appendChild (child : Node)
  | shell

namespace Edit

/-- The element after an edit. -/
def apply (element : Element) : Edit → Element
  | .set name value => element.setAttribute name value
  | .remove name => element.removeAttribute name
  | .setText content => element.setText content
  | .appendChild child => element.appendChild child
  | .shell => element.shell

/-- The element that some edits make of a new one. -/
def run (tag : String) (edits : List Edit) : Element :=
  edits.foldl apply (.ofTag tag)

/-- The value is the one that the name was set to last, and the name has not been removed since. -/
def LastSet (edits : List Edit) (name value : String) : Prop :=
  ∃ before after, edits = before ++ .set name value :: after ∧
    (∀ other, .set name other ∉ after) ∧ .remove name ∉ after

/-- The name came in with the edit at a position: it was absent there and was set, and it has not
been removed since. -/
def EntersAt (tag : String) (edits : List Edit) (name : String) (position : Nat) : Prop :=
  ∃ before value after, edits = before ++ .set name value :: after ∧ before.length = position ∧
    (run tag before).attribute? name = none ∧ .remove name ∉ after

/-- What edits leave of attributes: distinct names in the order in which they came in, each of which
holds what it was set to last. -/
structure Keeps (tag : String) (edits : List Edit) (attributes : List Attribute) : Prop where
  distinct : (attributes.map Attribute.name).Nodup
  held : ∀ name value, Attribute.value? name attributes = some value ↔ LastSet edits name value
  entered : ∀ name,
    name ∈ attributes.map Attribute.name ↔ ∃ position, EntersAt tag edits name position
  ordered : (attributes.map Attribute.name).Pairwise fun earlier later =>
    ∀ first second,
      EntersAt tag edits earlier first → EntersAt tag edits later second → first < second

section Concat

variable {tag name value : String} {edits : List Edit} {edit : Edit} {position : Nat}

/-- One more edit is made last. -/
theorem run_concat : run tag (edits ++ [edit]) = apply (run tag edits) edit := by
  rw [run, List.foldl_append]
  rfl

/-- With one more element, the parts around some element are those around the new one, or the new
one is the last one behind. -/
theorem concat_eq_append_cons_iff {α : Type} {items before after : List α} {item last : α} :
    items ++ [last] = before ++ item :: after ↔
      (items = before ∧ last = item ∧ after = []) ∨
        ∃ rest, items = before ++ item :: rest ∧ after = rest ++ [last] := by
  constructor
  · intro same
    obtain rfl | ⟨rest, final, rfl⟩ := List.eq_nil_or_concat' after
    · obtain ⟨sameItems, sameLast⟩ := List.append_inj' same rfl
      exact .inl ⟨sameItems, (List.cons.inj sameLast).1, rfl⟩
    · have assoc : items ++ [last] = (before ++ item :: rest) ++ [final] := by
        simpa using same
      obtain ⟨sameItems, sameLast⟩ := List.append_inj' assoc rfl
      exact .inr ⟨rest, sameItems, by rw [(List.cons.inj sameLast).1]⟩
  · rintro (⟨rfl, rfl, rfl⟩ | ⟨rest, rfl, rfl⟩)
    · rfl
    · simp

theorem not_mem_concat_iff {α : Type} {items : List α} {item last : α} :
    item ∉ items ++ [last] ↔ item ∉ items ∧ last ≠ item := by
  simp [eq_comm]

/-- An edit that sets a name sets it last. Any other edit leaves what was set last, unless it
removes the name. -/
theorem lastSet_concat_iff : LastSet (edits ++ [edit]) name value ↔
    edit = .set name value ∨
      LastSet edits name value ∧ (∀ other, edit ≠ .set name other) ∧ edit ≠ .remove name := by
  simp only [LastSet, concat_eq_append_cons_iff]
  constructor
  · rintro ⟨before, after, ⟨rfl, rfl, rfl⟩ | ⟨rest, rfl, rfl⟩, noSet, noRemove⟩
    · exact .inl rfl
    · simp only [not_mem_concat_iff, forall_and] at noSet noRemove
      exact .inr ⟨⟨before, rest, rfl, noSet.1, noRemove.1⟩, noSet.2, noRemove.2⟩
  · rintro (rfl | ⟨⟨before, rest, rfl, noSet, noRemove⟩, notSet, notRemove⟩)
    · exact ⟨edits, [], .inl ⟨rfl, rfl, rfl⟩, nofun, nofun⟩
    · exact ⟨before, _, .inr ⟨rest, rfl, rfl⟩,
        fun other => not_mem_concat_iff.2 ⟨noSet other, notSet other⟩,
        not_mem_concat_iff.2 ⟨noRemove, notRemove⟩⟩

/-- A name stays where it came in unless the edit removes it, and comes in with the edit if that
sets it and it was absent. -/
theorem entersAt_concat_iff : EntersAt tag (edits ++ [edit]) name position ↔
    (EntersAt tag edits name position ∧ edit ≠ .remove name) ∨
      position = edits.length ∧ (∃ value, edit = .set name value) ∧
        (run tag edits).attribute? name = none := by
  simp only [EntersAt, concat_eq_append_cons_iff]
  constructor
  · rintro ⟨before, value, after, ⟨rfl, rfl, rfl⟩ | ⟨rest, rfl, rfl⟩, place, absent, noRemove⟩
    · exact .inr ⟨place.symm, ⟨value, rfl⟩, absent⟩
    · obtain ⟨noRemove, notRemove⟩ := not_mem_concat_iff.1 noRemove
      exact .inl ⟨⟨before, value, rest, rfl, place, absent, noRemove⟩, notRemove⟩
  · rintro (⟨⟨before, value, rest, rfl, place, absent, noRemove⟩, notRemove⟩ |
      ⟨rfl, ⟨value, rfl⟩, absent⟩)
    · exact ⟨before, value, _, .inr ⟨rest, rfl, rfl⟩, place, absent,
        not_mem_concat_iff.2 ⟨noRemove, notRemove⟩⟩
    · exact ⟨edits, value, [], .inl ⟨rfl, rfl, rfl⟩, rfl, absent, nofun⟩

/-- A name comes in with an edit that is there. -/
theorem EntersAt.lt_length (entersAt : EntersAt tag edits name position) :
    position < edits.length := by
  obtain ⟨before, value, after, rfl, rfl, -⟩ := entersAt
  simp

end Concat

section Step

variable {tag name value : String} {edits : List Edit} {edit : Edit}

/-- When a name is set, it comes in at the end if it was not there, and no other name does. -/
theorem entersAt_set_iff {other : String} {position : Nat} :
    EntersAt tag (edits ++ [.set name value]) other position ↔ EntersAt tag edits other position ∨
      position = edits.length ∧ name = other ∧
        other ∉ (run tag edits).attributes.map Attribute.name := by
  rw [entersAt_concat_iff, Element.attribute?, Attribute.value?_eq_none_iff_not_mem]
  simp

section Set

variable (keeps : Keeps tag edits (run tag edits).attributes)
include keeps

/-- A name holds what it has just been set to, and the others hold what they held. -/
theorem Keeps.held_set (name value other written : String) :
    Attribute.value? other (Attribute.set name value (run tag edits).attributes) = some written ↔
      LastSet (edits ++ [.set name value]) other written := by
  rw [Attribute.value?_set, lastSet_concat_iff, ← keeps.held]
  by_cases same : name = other
  · simp [same]
  · simp [same]

/-- Setting a name that is there keeps its place. -/
theorem Keeps.set_of_mem (isThere : name ∈ (run tag edits).attributes.map Attribute.name) :
    Keeps tag (edits ++ [.set name value])
      (Attribute.set name value (run tag edits).attributes) := by
  have sameNames : (Attribute.set name value (run tag edits).attributes).map Attribute.name =
      (run tag edits).attributes.map Attribute.name := Attribute.names_set_of_mem isThere
  have sameEntered : ∀ other position, EntersAt tag (edits ++ [.set name value]) other position ↔
      EntersAt tag edits other position := by
    intro other position
    refine entersAt_set_iff.trans (or_iff_left ?_)
    rintro ⟨-, rfl, absent⟩
    exact absent isThere
  constructor
  · rw [sameNames]
    exact keeps.distinct
  · exact keeps.held_set name value
  · simpa only [sameNames, sameEntered] using keeps.entered
  · simpa only [sameNames, sameEntered] using keeps.ordered

/-- Setting a name that is not there adds it at the end. -/
theorem Keeps.set_of_not_mem (absent : name ∉ (run tag edits).attributes.map Attribute.name) :
    Keeps tag (edits ++ [.set name value])
      (Attribute.set name value (run tag edits).attributes) := by
  have moreNames : (Attribute.set name value (run tag edits).attributes).map Attribute.name =
      (run tag edits).attributes.map Attribute.name ++ [name] := by
    rw [Attribute.set_of_not_mem absent, List.map_append]
    rfl
  have notEntered : ∀ position, ¬ EntersAt tag edits name position :=
    fun position entersAt => absent ((keeps.entered name).2 ⟨position, entersAt⟩)
  have enteredBefore : ∀ other ∈ (run tag edits).attributes.map Attribute.name, ∀ position,
      EntersAt tag (edits ++ [.set name value]) other position →
        EntersAt tag edits other position :=
    fun other member position entersAt =>
      (entersAt_set_iff.1 entersAt).resolve_right fun new => new.2.2 member
  constructor
  · rw [moreNames, ← List.concat_eq_append]
    exact keeps.distinct.concat absent
  · exact keeps.held_set name value
  · intro other
    rw [moreNames, List.mem_append, List.mem_singleton, keeps.entered]
    constructor
    · rintro (⟨position, entersAt⟩ | rfl)
      · exact ⟨position, entersAt_set_iff.2 (.inl entersAt)⟩
      · exact ⟨_, entersAt_set_iff.2 (.inr ⟨rfl, rfl, absent⟩)⟩
    · rintro ⟨position, entersAt⟩
      obtain before | ⟨-, rfl, -⟩ := entersAt_set_iff.1 entersAt
      · exact .inl ⟨position, before⟩
      · exact .inr rfl
  · rw [moreNames, List.pairwise_append]
    refine ⟨?_, List.pairwise_singleton _ _, ?_⟩
    · refine keeps.ordered.imp_of_mem ?_
      intro earlier later earlierMember laterMember before first second firstEnters secondEnters
      exact before first second (enteredBefore earlier earlierMember first firstEnters)
        (enteredBefore later laterMember second secondEnters)
    · intro earlier earlierMember later isLast first second firstEnters secondEnters
      obtain rfl := List.mem_singleton.1 isLast
      obtain ⟨rfl, -⟩ := (entersAt_set_iff.1 secondEnters).resolve_left (notEntered second)
      exact (enteredBefore earlier earlierMember first firstEnters).lt_length

end Set

/-- Removing a name takes it and its place away. -/
theorem Keeps.remove (keeps : Keeps tag edits (run tag edits).attributes) (name : String) :
    Keeps tag (edits ++ [.remove name])
      (Attribute.without name (run tag edits).attributes) := by
  have enteredBefore : ∀ other position, EntersAt tag (edits ++ [.remove name]) other position ↔
      EntersAt tag edits other position ∧ other ≠ name := by
    intro other position
    simp [entersAt_concat_iff, eq_comm]
  constructor
  · rw [Attribute.names_without]
    exact keeps.distinct.filter _
  · intro other written
    rw [Attribute.value?_without, lastSet_concat_iff, ← keeps.held]
    by_cases same : name = other
    · simp [same]
    · simp [same]
  · intro other
    rw [Attribute.names_without, List.mem_filter, keeps.entered]
    simp only [enteredBefore, exists_and_right, decide_eq_true_eq]
  · rw [Attribute.names_without]
    refine (keeps.ordered.filter _).imp ?_
    intro earlier later before first second firstEnters secondEnters
    exact before first second ((enteredBefore _ _).1 firstEnters).1
      ((enteredBefore _ _).1 secondEnters).1

/-- Other edits change no attributes. -/
theorem Keeps.other (keeps : Keeps tag edits (run tag edits).attributes)
    (notSet : ∀ name value, edit ≠ .set name value) (notRemove : ∀ name, edit ≠ .remove name) :
    Keeps tag (edits ++ [edit]) (run tag edits).attributes := by
  have sameHeld : ∀ name value,
      LastSet (edits ++ [edit]) name value ↔ LastSet edits name value := by
    intro name value
    simp [lastSet_concat_iff, notSet, notRemove]
  have sameEntered : ∀ name position,
      EntersAt tag (edits ++ [edit]) name position ↔ EntersAt tag edits name position := by
    intro name position
    simp [entersAt_concat_iff, notSet, notRemove]
  obtain ⟨distinct, held, entered, ordered⟩ := keeps
  constructor
  · exact distinct
  · simpa only [sameHeld] using held
  · simpa only [sameEntered] using entered
  · simpa only [sameEntered] using ordered

end Step

section Run

variable {tag name value : String} {edits : List Edit} {edit : Edit}

/-- No edits leave no attributes. -/
theorem keeps_nil (tag : String) : Keeps tag [] (run tag []).attributes where
  distinct := .nil
  held name value := by
    refine iff_of_false nofun ?_
    rintro ⟨before, after, same, -⟩
    simp at same
  entered name := by
    refine iff_of_false nofun ?_
    rintro ⟨position, entersAt⟩
    cases entersAt.lt_length
  ordered := .nil

/-- Whatever an edit is, it keeps what the edits before it have kept. -/
theorem Keeps.step (keeps : Keeps tag edits (run tag edits).attributes) (edit : Edit) :
    Keeps tag (edits ++ [edit]) (run tag (edits ++ [edit])).attributes := by
  rw [run_concat]
  cases edit with
  | set name value =>
    by_cases isThere : name ∈ (run tag edits).attributes.map Attribute.name
    · exact keeps.set_of_mem isThere
    · exact keeps.set_of_not_mem isThere
  | remove name =>
    rw [apply, Element.removeAttribute, Element.takeAttribute_eq keeps.distinct]
    exact keeps.remove name
  | setText content => exact keeps.other nofun nofun
  | appendChild child => exact keeps.other nofun nofun
  | shell => exact keeps.other nofun nofun

/-- A run of edits keeps distinct names, what they were set to last, and their order. -/
theorem run_keeps (tag : String) (edits : List Edit) :
    Keeps tag edits (run tag edits).attributes := by
  induction edits using List.reverseRecOn with
  | nil => exact keeps_nil tag
  | append_singleton edits edit inductionHypothesis => exact inductionHypothesis.step edit

/-- The attributes of an element are a map from names to values that keeps the order in which names
come in. However it was made, its names are distinct, and each of them holds what it was set to
last. Taking an attribute gives what its name holds and leaves the other names in their order with
what they hold. Names stand in the order in which they were first set since they were absent, and
setting one again keeps its place. -/
theorem attributes_are_ordered_map (tag : String) (edits : List Edit) :
    let element := run tag edits
    let names := element.attributes.map Attribute.name
    names.Nodup ∧
    (∀ name value, element.attribute? name = some value ↔ LastSet edits name value) ∧
    (∀ name,
      (element.takeAttribute name).1 = element.attribute? name ∧
      (element.takeAttribute name).2 = run tag (edits ++ [.remove name]) ∧
      (element.takeAttribute name).2.attribute? name = none ∧
      (∀ other ≠ name,
        (element.takeAttribute name).2.attribute? other = element.attribute? other) ∧
      (element.takeAttribute name).2.attributes.map Attribute.name =
        names.filter fun other => other ≠ name) ∧
    (∀ name, name ∈ names ↔ ∃ position, EntersAt tag edits name position) ∧
    (names.Pairwise fun earlier later => ∀ first second,
      EntersAt tag edits earlier first → EntersAt tag edits later second → first < second) ∧
    ∀ name ∈ names, ∀ value,
      (element.setAttribute name value).attributes.map Attribute.name = names := by
  intro element names
  obtain ⟨distinct, held, entered, ordered⟩ := run_keeps tag edits
  refine ⟨distinct, held, fun name => ?_, entered, ordered,
    fun name isThere value => Attribute.names_set_of_mem isThere⟩
  have isRemoved : (element.takeAttribute name).2 = run tag (edits ++ [.remove name]) := by
    rw [run_concat]
    rfl
  refine ⟨?_, isRemoved, ?_⟩
  · rw [Element.takeAttribute_eq distinct]
  · rw [Element.takeAttribute_eq distinct]
    refine ⟨?_, fun other differ => ?_, Attribute.names_without⟩
    · exact Attribute.value?_without.trans (if_pos rfl)
    · exact Attribute.value?_without.trans (if_neg differ.symm)

/-- A name that is removed and set again stands behind one that was only set again. -/
theorem attributes_are_ordered_map_again :
    let edits : List Edit := [.set "a" "1", .set "b" "2", .remove "a", .setText "x", .set "b" "3",
      .set "a" "4", .shell]
    let element := run "p" edits
    element.attributes = [⟨"b", "3"⟩, ⟨"a", "4"⟩] ∧ LastSet edits "b" "3" ∧
    (∀ first second, EntersAt "p" edits "b" first → EntersAt "p" edits "a" second →
      first < second) ∧
    (element.takeAttribute "b").1 = some "3" ∧
    (element.takeAttribute "b").2.attribute? "a" = some "4" ∧
    (element.setAttribute "b" "5").attributes.map Attribute.name = ["b", "a"] := by
  intro edits element
  obtain ⟨-, held, taken, -, ordered, kept⟩ := attributes_are_ordered_map "p" edits
  obtain ⟨isHeld, -, -, others, -⟩ := taken "b"
  refine ⟨rfl, (held "b" "3").1 rfl, ?_, isHeld, others "a" (by decide), kept "b" ?_ "5"⟩
  · exact (List.pairwise_cons.1 ordered).1 "a" (List.mem_singleton_self "a")
  · exact List.mem_cons_self

end Run

end Edit

end Templating
