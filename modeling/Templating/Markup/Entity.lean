import Templating.Text.Split

/-!
# Entities

Characters that would be markup are written as entities. Writing escapes the
ampersand and the two angle brackets, and inside attribute values the double quote
as well. Reading knows the apostrophe's two entities besides; an ampersand that
begins no known entity stands for itself.
-/

namespace Templating.Entity

/-- A text between tags, escaped. -/
def escapeText : List Char → List Char
  | [] => []
  | '&' :: rest => "&amp;".toList ++ escapeText rest
  | '<' :: rest => "&lt;".toList ++ escapeText rest
  | '>' :: rest => "&gt;".toList ++ escapeText rest
  | c :: rest => c :: escapeText rest

/-- An attribute value between double quotes, escaped. -/
def escapeValue : List Char → List Char
  | [] => []
  | '&' :: rest => "&amp;".toList ++ escapeValue rest
  | '<' :: rest => "&lt;".toList ++ escapeValue rest
  | '>' :: rest => "&gt;".toList ++ escapeValue rest
  | '"' :: rest => "&quot;".toList ++ escapeValue rest
  | c :: rest => c :: escapeValue rest

/-- The entities that reading knows, without the ampersand. -/
def known : List (List Char × Char) :=
  [("amp;".toList, '&'), ("lt;".toList, '<'), ("gt;".toList, '>'), ("quot;".toList, '"'),
    ("#39;".toList, '\''), ("apos;".toList, '\'')]

/-- The character of the entity that follows an ampersand, and what follows the
entity. -/
def decodeOne? (afterAmpersand : List Char) : Option (Char × List Char) :=
  known.findSome? fun (name, c) => (Text.after? name afterAmpersand).map (c, ·)

/-- An entity takes at least one character after the ampersand. -/
theorem length_of_decodeOne? {text rest : List Char} {c : Char}
    (decoded : decodeOne? text = some (c, rest)) : rest.length < text.length := by
  obtain ⟨⟨name, c'⟩, member, found⟩ := List.exists_of_findSome?_eq_some decoded
  simp only [Option.map_eq_some_iff, Prod.mk.injEq] at found
  obtain ⟨rest', after, rfl, rfl⟩ := found
  have nonempty : name ≠ [] := by
    rintro rfl
    simp [known] at member
  rw [Text.after?_eq_some_iff.1 after]
  have := List.length_pos_iff.2 nonempty
  simp only [List.length_append]
  omega

/-- Every known entity is replaced by its character, from the front on; what comes
out of one is not read again. -/
def decode : List Char → List Char
  | [] => []
  | c :: rest =>
    if c = '&' then
      match _found : decodeOne? rest with
      | some (decoded, rest') => decoded :: decode rest'
      | none => c :: decode rest
    else c :: decode rest
termination_by text => text.length
decreasing_by
  · have := length_of_decodeOne? _found
    simp only [List.length_cons]
    omega
  all_goals simp

end Templating.Entity
