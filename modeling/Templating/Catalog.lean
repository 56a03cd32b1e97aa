/-!
# Catalogs

A catalog holds one entry for each of finitely many names, sorted by name in the
order of code points. Two catalogs with the same entries are therefore equal, in
whatever order the entries came. `insertSorted` and `List.lookup` work on plain
association lists, so that nested data can use them as well.
-/

namespace Templating

universe u

/-- Adds an entry to a sorted association list, or replaces the entry of that
name. -/
def insertSorted {α : Type u} (name : String) (entry : α) :
    List (String × α) → List (String × α)
  | [] => [(name, entry)]
  | (other, present) :: rest =>
    if name < other then (name, entry) :: (other, present) :: rest
    else if name = other then (name, entry) :: rest
    else (other, present) :: insertSorted name entry rest

/-- The sorted association list of some entries; the last one of a name counts. -/
def sortEntries {α : Type u} (entries : List (String × α)) : List (String × α) :=
  entries.foldl (fun sorted entry => insertSorted entry.1 entry.2 sorted) []

/-- Names stand in strictly ascending order. -/
def Ascending {α : Type u} (entries : List (String × α)) : Prop :=
  entries.Pairwise fun left right => left.1 < right.1

/-- A name is among those of an extended list exactly when it is the new one or
was there before. -/
theorem mem_insertSorted_names {α : Type u} {name other : String} {entry : α}
    {entries : List (String × α)}
    (member : other ∈ (insertSorted name entry entries).map Prod.fst) :
    other = name ∨ other ∈ entries.map Prod.fst := by
  induction entries with
  | nil => simpa [insertSorted] using member
  | cons head rest inductionHypothesis =>
    rw [insertSorted] at member
    split at member
    · simpa using member
    · split at member
      · next same => simp only [List.map_cons, List.mem_cons] at member ⊢; grind
      · simp only [List.map_cons, List.mem_cons] at member ⊢
        rcases member with here | later
        · exact .inr (.inl here)
        · rcases inductionHypothesis later with new | old
          · exact .inl new
          · exact .inr (.inr old)

/-- Insertion keeps the order. -/
theorem Ascending.insertSorted {α : Type u} {name : String} {entry : α}
    {entries : List (String × α)} (ascending : Ascending entries) :
    Ascending (Templating.insertSorted name entry entries) := by
  induction entries with
  | nil => simp [Templating.insertSorted, Ascending]
  | cons head rest inductionHypothesis =>
    obtain ⟨below, restAscending⟩ := List.pairwise_cons.1 ascending
    rw [Templating.insertSorted]
    split
    · next less =>
      refine List.pairwise_cons.2 ⟨?_, ascending⟩
      intro later member
      rcases List.mem_cons.1 member with rfl | inRest
      · exact less
      · exact String.lt_trans less (below later inRest)
    · split
      · next same =>
        refine List.pairwise_cons.2 ⟨?_, restAscending⟩
        intro later member
        simpa [same] using below later member
      · next notLess different =>
        refine List.pairwise_cons.2 ⟨?_, inductionHypothesis restAscending⟩
        intro later member
        have above : head.1 < name := by
          refine Decidable.byContradiction fun notAbove => different ?_
          exact String.le_antisymm (String.not_lt.1 notAbove) (String.not_lt.1 notLess)
        rcases mem_insertSorted_names (List.mem_map_of_mem member) with new | old
        · simpa [new] using above
        · obtain ⟨pair, inRest, samePair⟩ := List.mem_map.1 old
          simpa [← samePair] using below pair inRest

/-- One entry for each name, sorted by name. -/
structure Catalog (α : Type u) where
  entries : List (String × α)
  ascending : Ascending entries

namespace Catalog

variable {α : Type u}

/-- Catalogs are equal when their entries are. -/
@[ext]
theorem ext {left right : Catalog α} (entries : left.entries = right.entries) :
    left = right := by
  cases left
  cases right
  cases entries
  rfl

/-- The catalog without entries. -/
def empty : Catalog α :=
  ⟨[], List.Pairwise.nil⟩

/-- The entry of a name. -/
def find? (catalog : Catalog α) (name : String) : Option α :=
  catalog.entries.lookup name

/-- The catalog with one entry added, or replaced if the name is taken. -/
def insert (catalog : Catalog α) (name : String) (entry : α) : Catalog α :=
  ⟨insertSorted name entry catalog.entries, catalog.ascending.insertSorted⟩

/-- The catalog of some entries; the last one of a name counts. -/
def ofList (entries : List (String × α)) : Catalog α :=
  entries.foldl (fun catalog entry => catalog.insert entry.1 entry.2) empty

end Catalog

end Templating
