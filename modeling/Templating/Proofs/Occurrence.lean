import Mathlib.Data.List.Basic

/-!
# First occurrences

`FirstOccurrences` says which list has the values of a sequence, each of them once and in the
order in which they stand first. There is only one such list, by `FirstOccurrences.unique`,
and `FirstOccurrences.concat` says how it grows with the sequence: by each value that is new.
-/

namespace Templating

universe u

variable {α : Type u} [DecidableEq α]

/-- The values of a sequence without repetitions: a value stands before another one when its
first place in the sequence does. -/
structure FirstOccurrences (sequence found : List α) : Prop where
  mem_iff : ∀ value, value ∈ found ↔ value ∈ sequence
  ordered : found.Pairwise fun earlier later => sequence.idxOf earlier < sequence.idxOf later

namespace FirstOccurrences

variable {sequence found others : List α}

/-- Nothing occurs in the empty sequence. -/
theorem nil : FirstOccurrences ([] : List α) [] where
  mem_iff := fun _ => Iff.rfl
  ordered := .nil

/-- No value is found twice. -/
theorem nodup (isFirst : FirstOccurrences sequence found) : found.Nodup := by
  refine isFirst.ordered.imp ?_
  rintro earlier later before rfl
  exact Nat.lt_irrefl _ before

/-- A sequence has its first occurrences in one order only. -/
theorem unique (isFirst : FirstOccurrences sequence found)
    (othersAreFirst : FirstOccurrences sequence others) : found = others := by
  have rearranged : found.Perm others := by
    apply (List.perm_ext_iff_of_nodup isFirst.nodup othersAreFirst.nodup).2
    intro value
    rw [isFirst.mem_iff, othersAreFirst.mem_iff]
  refine rearranged.eq_of_pairwise ?_ isFirst.ordered othersAreFirst.ordered
  intro earlier later _ _ before after
  omega

/-- One more value is found at the end, unless it occurred before. -/
theorem concat (isFirst : FirstOccurrences sequence found) (value : α) :
    FirstOccurrences (sequence ++ [value])
      (if value ∈ sequence then found else found ++ [value]) := by
  have placeKept : ∀ other ∈ found, (sequence ++ [value]).idxOf other = sequence.idxOf other :=
    fun other member => List.idxOf_append_of_mem ((isFirst.mem_iff other).1 member)
  have ordered : found.Pairwise fun earlier later =>
      (sequence ++ [value]).idxOf earlier < (sequence ++ [value]).idxOf later := by
    refine isFirst.ordered.imp_of_mem ?_
    intro earlier later earlierMember laterMember before
    rw [placeKept earlier earlierMember, placeKept later laterMember]
    exact before
  split
  · next again =>
    refine ⟨fun other => ?_, ordered⟩
    rw [isFirst.mem_iff, List.mem_append, List.mem_singleton]
    constructor
    · exact .inl
    · rintro (member | rfl)
      · exact member
      · exact again
  · next new =>
    refine ⟨fun other => ?_, List.pairwise_append.2 ⟨ordered, List.pairwise_singleton _ _, ?_⟩⟩
    · rw [List.mem_append, List.mem_append, isFirst.mem_iff]
    · intro other member last isLast
      rw [List.mem_singleton.1 isLast, placeKept other member, List.idxOf_append_of_notMem new]
      have place := List.idxOf_lt_length_of_mem ((isFirst.mem_iff other).1 member)
      omega

end FirstOccurrences

end Templating
