import Templating.Catalog

/-!
# Looking up entries

What is found under each name is all there is to a catalog. `Catalog.eq_of_find?` says so:
names stand in ascending order, so the entries determine the list that holds them. Adding
an entry changes what is found under its name, and nothing else.
-/

namespace Templating

universe u

variable {α : Type u} {name other : String} {entry : α} {entries : List (String × α)}

/-- The entry at the front is found under its name, and hides no other name. -/
theorem lookup_cons_eq_ite : ((other, entry) :: entries).lookup name =
    if name = other then some entry else entries.lookup name := by
  rw [List.lookup_cons]
  by_cases same : name = other
  · rw [if_pos same, beq_iff_eq.2 same]
  · rw [if_neg same, beq_eq_false_iff_ne.2 same]

/-- Insertion changes what is found under the name of the entry only. -/
theorem lookup_insertSorted : (insertSorted name entry entries).lookup other =
    if other = name then some entry else entries.lookup other := by
  induction entries with
  | nil => rw [insertSorted, lookup_cons_eq_ite]
  | cons head rest inductionHypothesis =>
    obtain ⟨present, content⟩ := head
    rw [insertSorted]
    split
    · rw [lookup_cons_eq_ite]
    · split
      · next taken =>
        rw [lookup_cons_eq_ite, lookup_cons_eq_ite, ← taken]
        by_cases same : other = name
        · rw [if_pos same, if_pos same]
        · rw [if_neg same, if_neg same, if_neg same]
      · next different =>
        rw [lookup_cons_eq_ite, lookup_cons_eq_ite, inductionHypothesis]
        by_cases atHead : other = present
        · have notNew : other ≠ name := fun same => different (same ▸ atHead)
          rw [if_pos atHead, if_neg notNew, if_pos atHead]
        · rw [if_neg atHead, if_neg atHead]

/-- An entry is put at the end when its name is above all others. -/
theorem insertSorted_of_above (above : ∀ present ∈ entries, present.1 < name) :
    insertSorted name entry entries = entries ++ [(name, entry)] := by
  induction entries with
  | nil => rfl
  | cons head rest inductionHypothesis =>
    obtain ⟨headBelow, restBelow⟩ := List.forall_mem_cons.1 above
    have notLess : ¬name < head.1 := String.lt_asymm headBelow
    have different : name ≠ head.1 := by
      rintro rfl
      exact String.lt_irrefl _ headBelow
    rw [insertSorted, if_neg notLess, if_neg different, inductionHypothesis restBelow,
      List.cons_append]

namespace Ascending

/-- An entry that is found is one of the list, and the other way round. -/
theorem lookup_eq_some_iff (ascending : Ascending entries) :
    entries.lookup name = some entry ↔ (name, entry) ∈ entries := by
  induction entries with
  | nil => simp
  | cons head rest inductionHypothesis =>
    obtain ⟨present, content⟩ := head
    obtain ⟨below, restAscending⟩ := List.pairwise_cons.1 ascending
    rw [lookup_cons_eq_ite, List.mem_cons, Prod.mk.injEq]
    by_cases atHead : name = present
    · subst atHead
      -- A name that stands at the head does not occur again behind it.
      have notLater : (name, entry) ∉ rest := fun member => String.lt_irrefl name (below _ member)
      simp [notLater, eq_comm]
    · simp [atHead, inductionHypothesis restAscending]

/-- No entry stands twice in an ascending list. -/
theorem nodup (ascending : Ascending entries) : entries.Nodup := by
  refine List.Pairwise.imp ?_ ascending
  rintro left right less rfl
  exact String.lt_irrefl _ less

/-- Ascending lists in which the same is found are equal. -/
theorem eq_of_lookup {others : List (String × α)} (ascending : Ascending entries)
    (othersAscending : Ascending others)
    (same : ∀ name, entries.lookup name = others.lookup name) : entries = others := by
  have members : ∀ pair, pair ∈ entries ↔ pair ∈ others := by
    rintro ⟨name, entry⟩
    rw [← ascending.lookup_eq_some_iff, ← othersAscending.lookup_eq_some_iff, same]
  have rearranged : entries.Perm others :=
    (List.perm_ext_iff_of_nodup ascending.nodup othersAscending.nodup).2 members
  refine rearranged.eq_of_pairwise ?_ ascending othersAscending
  intro left right _ _ less greater
  exact absurd greater (String.lt_asymm less)

end Ascending

namespace Catalog

/-- Nothing is found in the empty catalog. -/
@[simp] theorem find?_empty : (empty : Catalog α).find? name = none :=
  rfl

/-- Adding an entry changes what is found under its name only. -/
theorem find?_insert {catalog : Catalog α} : (catalog.insert name entry).find? other =
    if other = name then some entry else catalog.find? other :=
  lookup_insertSorted

/-- Catalogs in which the same is found under every name are equal. -/
theorem eq_of_find? {left right : Catalog α} (same : ∀ name, left.find? name = right.find? name) :
    left = right :=
  ext (left.ascending.eq_of_lookup right.ascending same)

/-- Entries whose names ascend from those of a catalog are added behind its own. -/
theorem entries_foldl_insert (catalog : Catalog α)
    (ascending : Ascending (catalog.entries ++ entries)) :
    (entries.foldl (fun catalog entry => catalog.insert entry.1 entry.2) catalog).entries =
      catalog.entries ++ entries := by
  induction entries generalizing catalog with
  | nil => simp
  | cons head rest inductionHypothesis =>
    obtain ⟨-, -, across⟩ := List.pairwise_append.1 ascending
    have inserted : (catalog.insert head.1 head.2).entries = catalog.entries ++ [head] :=
      insertSorted_of_above fun present member => across present member head List.mem_cons_self
    have split : catalog.entries ++ head :: rest =
        (catalog.insert head.1 head.2).entries ++ rest := by
      rw [inserted, List.append_assoc]
      rfl
    rw [split] at ascending ⊢
    exact inductionHypothesis _ ascending

/-- A catalog is the catalog of its entries. -/
theorem ofList_entries (catalog : Catalog α) : ofList catalog.entries = catalog :=
  ext (entries_foldl_insert empty catalog.ascending)

end Catalog

end Templating
