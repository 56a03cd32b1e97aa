import Templating.Markup.Piece
import Templating.Proofs.Markup.Grammar

/-!
# The terminals of markup

The scanners know the characters of names, the void tags and the entities from functions and
tables of their own. They are those that the grammar spells.
-/

namespace Templating

open Grammar

theorem isTagChar_iff {c : Char} : isTagChar c = true ↔ IsTagChar c := by
  simp only [isTagChar, IsTagChar, Bool.or_eq_true, beq_iff_eq, or_assoc]

theorem isNameChar_iff {c : Char} : isNameChar c = true ↔ IsNameChar c := by
  simp only [isNameChar, IsNameChar, Bool.and_eq_true, Bool.not_eq_true', bne_iff_ne, and_assoc]

theorem isBareChar_iff {c : Char} : isBareChar c = true ↔ IsBareChar c := by
  simp only [isBareChar, IsBareChar, Bool.and_eq_true, Bool.not_eq_true', bne_iff_ne]

theorem isVoidTag_iff {tag : String} : isVoidTag tag = true ↔ IsVoid tag :=
  List.contains_iff_mem

theorem isVoidTag_eq_false_iff {tag : String} : isVoidTag tag = false ↔ ¬IsVoid tag := by
  rw [← isVoidTag_iff, Bool.not_eq_true]

/-- An opening tag has no content by its end or by its tag. -/
theorem isChildless_iff {closed : Bool} {tag : String} :
    (closed || isVoidTag tag) = true ↔ closed = true ∨ IsVoid tag := by
  rw [Bool.or_eq_true, isVoidTag_iff]

/-- A name ends at a blank, an equals sign, a closing bracket and a slash. -/
theorem isNameChar_eq_false_iff {c : Char} :
    isNameChar c = false ↔ Text.isBlank c = true ∨ c = '=' ∨ c = '>' ∨ c = '/' := by
  rw [← not_isNameChar_iff, ← isNameChar_iff, Bool.not_eq_true]

/-- A bare value ends at a blank and at a closing bracket. -/
theorem isBareChar_eq_false_iff {c : Char} :
    isBareChar c = false ↔ Text.isBlank c = true ∨ c = '>' := by
  rw [← not_isBareChar_iff, ← isBareChar_iff, Bool.not_eq_true]

/-- A tag ends at a blank. -/
theorem isTagChar_eq_false_of_isBlank {c : Char} (blank : Text.isBlank c = true) :
    isTagChar c = false := by
  rw [← Bool.not_eq_true, isTagChar_iff]
  exact not_isTagChar_of_isBlank blank

/-- A run ends where the grammar says so, if it accepts what the grammar does. -/
theorem Text.ends_iff {accepts : Char → Bool} {holds : Char → Prop} {text : List Char}
    (same : ∀ c, accepts c = true ↔ holds c) :
    Text.Ends accepts text ↔ ∀ c ∈ text.head?, ¬holds c :=
  forall₂_congr fun c _ => by rw [← same, Bool.not_eq_true]

theorem ends_isTagChar_iff {text : List Char} :
    Text.Ends isTagChar text ↔ ∀ c ∈ text.head?, ¬IsTagChar c :=
  Text.ends_iff fun _ => isTagChar_iff

theorem ends_isNameChar_iff {text : List Char} :
    Text.Ends isNameChar text ↔ ∀ c ∈ text.head?, ¬IsNameChar c :=
  Text.ends_iff fun _ => isNameChar_iff

/-- The table of entities has the six of the grammar, without their ampersands. -/
theorem Entity.isEntity_iff {written : List Char} {c : Char} :
    IsEntity written c ↔ ∃ name, (name, c) ∈ Entity.known ∧ written = '&' :: name := by
  constructor
  · intro isEntity
    cases isEntity with
    | ampersand => exact ⟨"amp;".toList, by decide, rfl⟩
    | opening => exact ⟨"lt;".toList, by decide, rfl⟩
    | closing => exact ⟨"gt;".toList, by decide, rfl⟩
    | quote => exact ⟨"quot;".toList, by decide, rfl⟩
    | apostrophe => exact ⟨"apos;".toList, by decide, rfl⟩
    | apostropheCode => exact ⟨"#39;".toList, by decide, rfl⟩
  · rintro ⟨name, member, rfl⟩
    simp only [known, List.mem_cons, Prod.mk.injEq, List.not_mem_nil, or_false] at member
    rcases member with ⟨rfl, rfl⟩ | ⟨rfl, rfl⟩ | ⟨rfl, rfl⟩ | ⟨rfl, rfl⟩ | ⟨rfl, rfl⟩ | ⟨rfl, rfl⟩
    · exact .ampersand
    · exact .opening
    · exact .closing
    · exact .quote
    · exact .apostropheCode
    · exact .apostrophe

end Templating
