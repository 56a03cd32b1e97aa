import Mathlib.Data.List.Induction
import Templating.Proofs.Markup.Setting
import Templating.Proofs.Occurrence

/-!
# Writing over attributes

Attributes are set one after the other over those of a shell. `Attribute.Overlays` says what
comes of it: names stand where they stood, with the new ones behind them, the last write of
each name counts, and nothing else changes. `Attribute.overlays_iff` says that this is so, and
that there is nothing more to say.
-/

namespace Templating.Attribute

variable {name value : String} {entry : Attribute}
  {attributes before rest shell writes found : List Attribute}

/-- The attribute is the first one of its name. -/
def IsFirst (attributes : List Attribute) (entry : Attribute) : Prop :=
  ∃ before after, attributes = before ++ entry :: after ∧ entry.name ∉ before.map Attribute.name

/-- The attribute is the last one of its name. -/
def IsLast (attributes : List Attribute) (entry : Attribute) : Prop :=
  ∃ before after, attributes = before ++ entry :: after ∧ entry.name ∉ after.map Attribute.name

/-- The first attribute of a name is the one that is read. -/
theorem isFirst_iff :
    IsFirst attributes entry ↔ value? entry.name attributes = some entry.value := by
  constructor
  · rintro ⟨before, after, rfl, first⟩
    have noneBefore : value? entry.name before = none := by
      apply value?_eq_none_iff.2
      intro other member same
      exact first (same ▸ List.mem_map_of_mem member)
    rw [value?_append, noneBefore, Option.none_or, value?_cons, if_pos rfl]
  · intro isRead
    obtain ⟨⟨name, value⟩, isThere, sameValue⟩ := Option.map_eq_some_iff.1 isRead
    obtain ⟨sameName, before, after, parts, noneBefore⟩ := List.find?_eq_some_iff_append.1 isThere
    obtain ⟨entryName, entryValue⟩ := entry
    cases of_decide_eq_true sameName
    cases sameValue
    refine ⟨before, after, parts, ?_⟩
    intro member
    obtain ⟨earlier, earlierMember, isSame⟩ := List.mem_map.1 member
    simpa [isSame] using noneBefore earlier earlierMember

/-- The last attribute of a name is the first one from the end. -/
theorem isLast_iff_isFirst_reverse :
    IsLast attributes entry ↔ IsFirst attributes.reverse entry := by
  constructor
  · rintro ⟨before, after, rfl, last⟩
    exact ⟨after.reverse, before.reverse, by simp, by simpa using last⟩
  · rintro ⟨before, after, parts, first⟩
    refine ⟨after.reverse, before.reverse, ?_, by simpa using first⟩
    rw [← List.reverse_reverse attributes, parts]
    simp

/-- There is one first attribute of a name at most. -/
theorem IsFirst.unique {other : Attribute} (isFirst : IsFirst attributes entry)
    (otherIsFirst : IsFirst attributes other) (sameName : entry.name = other.name) :
    entry = other := by
  have isRead := isFirst_iff.1 isFirst
  rw [sameName, isFirst_iff.1 otherIsFirst] at isRead
  cases entry
  cases other
  cases sameName
  cases isRead
  rfl

/-- There is one last attribute of a name at most. -/
theorem IsLast.unique {other : Attribute} (isLast : IsLast attributes entry)
    (otherIsLast : IsLast attributes other) (sameName : entry.name = other.name) :
    entry = other :=
  (isLast_iff_isFirst_reverse.1 isLast).unique (isLast_iff_isFirst_reverse.1 otherIsLast) sameName

/-- The last attribute of a name is the one that is read from the end. -/
theorem isLast_iff :
    IsLast attributes entry ↔ value? entry.name attributes.reverse = some entry.value :=
  isLast_iff_isFirst_reverse.trans isFirst_iff

/-- Some attribute of a name is the last one. -/
theorem exists_isLast (member : name ∈ attributes.map Attribute.name) :
    ∃ entry, IsLast attributes entry ∧ entry.name = name := by
  cases isRead : value? name attributes.reverse with
  | some value => exact ⟨⟨name, value⟩, isLast_iff.2 isRead, rfl⟩
  | none =>
    obtain ⟨entry, entryMember, same⟩ := List.mem_map.1 member
    exact absurd same (value?_eq_none_iff.1 isRead entry (List.mem_reverse.2 entryMember))

/-- An attribute that is there is set where it is. -/
theorem set_append_of_mem (member : name ∈ before.map Attribute.name) :
    set name value (before ++ rest) = set name value before ++ rest := by
  induction before with
  | nil => cases member
  | cons entry before inductionHypothesis =>
    rw [List.cons_append, set, set]
    by_cases here : entry.name = name
    · rw [if_pos here, if_pos here, List.cons_append]
    · have later := (List.mem_cons.1 member).resolve_left (Ne.symm here)
      rw [if_neg here, if_neg here, inductionHypothesis later, List.cons_append]

/-- An attribute that is not there is set behind. -/
theorem set_append_of_not_mem (new : name ∉ before.map Attribute.name) :
    set name value (before ++ rest) = before ++ set name value rest := by
  induction before with
  | nil => rfl
  | cons entry before inductionHypothesis =>
    obtain ⟨notHere, notLater⟩ := not_or.1 (mt List.mem_cons.2 new)
    rw [List.cons_append, set, if_neg (Ne.symm notHere), inductionHypothesis notLater,
      List.cons_append]

/-- A new attribute is added at the end. -/
theorem set_of_not_mem (new : name ∉ attributes.map Attribute.name) :
    set name value attributes = attributes ++ [⟨name, value⟩] := by
  rw [← List.append_nil attributes, set_append_of_not_mem new, set, List.append_nil]

/-- Setting an attribute that is there leaves all names as they are. -/
theorem names_set_of_mem (member : name ∈ attributes.map Attribute.name) :
    (set name value attributes).map Attribute.name = attributes.map Attribute.name := by
  induction attributes with
  | nil => cases member
  | cons entry attributes inductionHypothesis =>
    rw [set]
    by_cases here : entry.name = name
    · rw [if_pos here, List.map_cons, List.map_cons, here]
    · have later := (List.mem_cons.1 member).resolve_left (Ne.symm here)
      rw [if_neg here, List.map_cons, List.map_cons, inductionHypothesis later]

/-- The last write is made last. -/
theorem setAll_concat : setAll (writes ++ [entry]) attributes =
    set entry.name entry.value (setAll writes attributes) := by
  rw [setAll, List.foldl_append]
  rfl

/-- The names that are written and are not those of the shell. -/
def newNames (writes shell : List Attribute) : List String :=
  (writes.map Attribute.name).filter fun name => name ∉ shell.map Attribute.name

/-- Attributes that come of a shell by writing over it. The names of the shell stand where they
stood, and the other names that are written follow in the order of their first writes. The
first attribute of a name holds what was written last under it. An attribute of the shell that
is not the first one of its name, or whose name is not written, stays as it was. -/
structure Overlays (writes shell found : List Attribute) : Prop where
  names : ∃ added, found.map Attribute.name = shell.map Attribute.name ++ added ∧
    FirstOccurrences (newNames writes shell) added
  written : ∀ entry, IsLast writes entry → IsFirst found entry
  kept : ∀ before static after, shell = before ++ static :: after →
    static.name ∈ before.map Attribute.name ∨ static.name ∉ writes.map Attribute.name →
      found[before.length]? = some static

/-- A write brings in a new name unless the shell has it. -/
theorem newNames_concat : newNames (writes ++ [entry]) shell = newNames writes shell ++
    if entry.name ∈ shell.map Attribute.name then [] else [entry.name] := by
  rw [newNames, List.map_append, List.filter_append, ← newNames]
  split
  · next static => rw [List.map_singleton, List.filter_cons_of_neg (by simpa using static)]; rfl
  · next new => rw [List.map_singleton, List.filter_cons_of_pos (by simpa using new)]; rfl

/-- New names are added in the order of their first writes. -/
theorem exists_names_setAll (writes shell : List Attribute) : ∃ added,
    (setAll writes shell).map Attribute.name = shell.map Attribute.name ++ added ∧
      FirstOccurrences (newNames writes shell) added := by
  induction writes using List.reverseRecOn with
  | nil => exact ⟨[], (List.append_nil _).symm, .nil⟩
  | append_singleton writes entry inductionHypothesis =>
    obtain ⟨added, names, isFirst⟩ := inductionHypothesis
    rw [setAll_concat, newNames_concat]
    by_cases static : entry.name ∈ shell.map Attribute.name
    · rw [if_pos static, List.append_nil, names_set_of_mem]
      · exact ⟨added, names, isFirst⟩
      · rw [names]
        exact List.mem_append_left _ static
    · have isNext := isFirst.concat entry.name
      rw [if_neg static]
      by_cases again : entry.name ∈ newNames writes shell
      · rw [if_pos again] at isNext
        rw [names_set_of_mem]
        · exact ⟨added, names, isNext⟩
        · rw [names]
          exact List.mem_append_right _ ((isFirst.mem_iff _).2 again)
      · rw [if_neg again] at isNext
        rw [set_of_not_mem]
        · exact ⟨added ++ [entry.name], by simp [names], isNext⟩
        · rw [names, List.mem_append, isFirst.mem_iff]
          exact not_or.2 ⟨static, again⟩

/-- An attribute that is not the first one of its name, or whose name is not written, stays as
and where it is. -/
theorem getElem?_setAll {before after : List Attribute} {static : Attribute}
    (notWritten : static.name ∈ before.map Attribute.name ∨
      static.name ∉ writes.map Attribute.name) :
    (setAll writes (before ++ static :: after))[before.length]? = some static := by
  induction writes generalizing before after with
  | nil => simp [setAll]
  | cons entry writes inductionHypothesis =>
    have next : setAll (entry :: writes) (before ++ static :: after) =
        setAll writes (set entry.name entry.value (before ++ static :: after)) := rfl
    rw [next]
    by_cases inFront : entry.name ∈ before.map Attribute.name
    · -- The write changes what stands before the attribute, but neither its names nor its length.
      have sameNames : (set entry.name entry.value before).map Attribute.name =
          before.map Attribute.name := names_set_of_mem inFront
      have sameLength := congrArg List.length sameNames
      rw [List.length_map, List.length_map] at sameLength
      rw [set_append_of_mem inFront, ← sameLength]
      apply inductionHypothesis
      rw [sameNames]
      exact notWritten.imp_right fun notIn member => notIn (List.mem_cons_of_mem _ member)
    · have other : static.name ≠ entry.name := by
        rintro same
        obtain isIn | notIn := notWritten
        · exact inFront (same ▸ isIn)
        · exact notIn (same ▸ List.mem_cons_self)
      rw [set_append_of_not_mem inFront, set, if_neg other]
      apply inductionHypothesis
      exact notWritten.imp_right fun notIn member => notIn (List.mem_cons_of_mem _ member)

/-- Setting attributes one after the other writes over those of the shell. -/
theorem overlays_setAll (writes shell : List Attribute) :
    Overlays writes shell (setAll writes shell) where
  names := exists_names_setAll writes shell
  written := by
    intro entry isLast
    apply isFirst_iff.2
    rw [value?_setAll, isLast_iff.1 isLast, Option.some_or]
  kept := by
    rintro before static after rfl notWritten
    exact getElem?_setAll notWritten

namespace Overlays

variable {others before after : List Attribute}

/-- An attribute stands in the place of one of the shell, or it is the first one of a name that is
written. -/
theorem static_or_new (overlays : Overlays writes shell found)
    (parts : found = before ++ entry :: after) :
    (∃ earlier static later, shell = earlier ++ static :: later ∧
      earlier.map Attribute.name = before.map Attribute.name ∧ static.name = entry.name) ∨
    entry.name ∉ before.map Attribute.name ∧ entry.name ∈ writes.map Attribute.name := by
  obtain ⟨added, names, isFirst⟩ := overlays.names
  have isNew : ∀ front back, before.map Attribute.name = shell.map Attribute.name ++ front →
      added = front ++ entry.name :: back →
      entry.name ∉ before.map Attribute.name ∧ entry.name ∈ writes.map Attribute.name := by
    rintro front back inFront rfl
    have isAdded : entry.name ∈ newNames writes shell := (isFirst.mem_iff _).1 (by simp)
    obtain ⟨isWritten, notStatic⟩ := List.mem_filter.1 isAdded
    have once : entry.name ∉ front := by
      have distinct := List.nodup_append.1 isFirst.nodup
      intro member
      exact distinct.2.2 _ member _ List.mem_cons_self rfl
    rw [inFront, List.mem_append]
    exact ⟨not_or.2 ⟨of_decide_eq_true notStatic, once⟩, isWritten⟩
  rw [parts, List.map_append, List.map_cons] at names
  obtain ⟨front, inShell, rest⟩ | ⟨front, inFront, rest⟩ := List.append_eq_append_iff.1 names
  · cases front with
    | nil => exact .inr (isNew [] _ (by simpa using inShell.symm) (by simpa using rest.symm))
    | cons name front =>
      obtain ⟨sameName, -⟩ := List.cons.inj rest
      obtain ⟨earlier, more, rfl, earlierNames, moreNames⟩ := List.map_eq_append_iff.1 inShell
      obtain ⟨static, later, rfl, staticName, -⟩ := List.map_eq_cons_iff.1 moreNames
      exact .inl ⟨earlier, static, later, rfl, earlierNames, staticName.trans sameName.symm⟩
  · exact .inr (isNew front _ inFront rest)

/-- The first attribute of a name that is written is the last write. -/
theorem isLast (overlays : Overlays writes shell found) (parts : found = before ++ entry :: after)
    (first : entry.name ∉ before.map Attribute.name)
    (isWritten : entry.name ∈ writes.map Attribute.name) : IsLast writes entry := by
  obtain ⟨write, writeIsLast, sameName⟩ := exists_isLast isWritten
  have entryIsFirst : IsFirst found entry := ⟨before, after, parts, first⟩
  have same : write = entry :=
    (overlays.written write writeIsLast).unique entryIsFirst sameName
  exact same ▸ writeIsLast

/-- Any other attribute is that of the shell in the same place. -/
theorem getElem?_shell (overlays : Overlays writes shell found)
    (parts : found = before ++ entry :: after)
    (notWritten : entry.name ∈ before.map Attribute.name ∨
      entry.name ∉ writes.map Attribute.name) :
    shell[before.length]? = some entry := by
  obtain ⟨earlier, static, later, shellParts, sameNames, sameName⟩ | ⟨first, isWritten⟩ :=
    overlays.static_or_new parts
  · have isKept := overlays.kept earlier static later shellParts (by rwa [sameNames, sameName])
    have sameLength := congrArg List.length sameNames
    rw [List.length_map, List.length_map] at sameLength
    rw [parts, sameLength, List.getElem?_append_right (Nat.le_refl _), Nat.sub_self] at isKept
    rw [shellParts, ← sameLength, List.getElem?_append_right (Nat.le_refl _), Nat.sub_self]
    exact isKept.symm
  · obtain again | notIn := notWritten
    · exact absurd again first
    · exact absurd isWritten notIn

/-- Writing over a shell comes to one thing only. -/
theorem unique (overlays : Overlays writes shell found)
    (othersOverlay : Overlays writes shell others) : found = others := by
  have names : found.map Attribute.name = others.map Attribute.name := by
    obtain ⟨added, names, isFirst⟩ := overlays.names
    obtain ⟨othersAdded, othersNames, othersAreFirst⟩ := othersOverlay.names
    rw [names, othersNames, isFirst.unique othersAreFirst]
  have lengths := congrArg List.length names
  rw [List.length_map, List.length_map] at lengths
  apply List.ext_getElem lengths
  intro index inFound inOthers
  have parts := (List.take_append_drop index found).symm
  have othersParts := (List.take_append_drop index others).symm
  rw [List.drop_eq_getElem_cons inFound] at parts
  rw [List.drop_eq_getElem_cons inOthers] at othersParts
  have sameFront : (found.take index).map Attribute.name =
      (others.take index).map Attribute.name := by
    rw [List.map_take, List.map_take, names]
  have sameName : found[index].name = others[index].name := by
    have atIndex := congrArg (fun names => names[index]?) names
    simpa [inFound, inOthers] using atIndex
  -- The names decide which of the two ways an attribute got there, and so they agree on it.
  by_cases isLastWrite : found[index].name ∉ (found.take index).map Attribute.name ∧
      found[index].name ∈ writes.map Attribute.name
  · obtain ⟨first, isWritten⟩ := isLastWrite
    apply (overlays.isLast parts first isWritten).unique _ sameName
    rw [sameFront, sameName] at first
    rw [sameName] at isWritten
    exact othersOverlay.isLast othersParts first isWritten
  · rw [not_and_or, not_not] at isLastWrite
    have isStatic := overlays.getElem?_shell parts isLastWrite
    rw [sameFront, sameName] at isLastWrite
    have otherIsStatic := othersOverlay.getElem?_shell othersParts isLastWrite
    rw [List.length_take_of_le (Nat.le_of_lt inFound)] at isStatic
    rw [List.length_take_of_le (Nat.le_of_lt inOthers), isStatic] at otherIsStatic
    exact Option.some.inj otherIsStatic

end Overlays

/-- Setting attributes one after the other is what writing over those of a shell comes to. -/
theorem overlays_iff : Overlays writes shell found ↔ found = setAll writes shell := by
  constructor
  · intro overlays
    exact overlays.unique (overlays_setAll writes shell)
  · rintro rfl
    exact overlays_setAll writes shell

end Templating.Attribute
