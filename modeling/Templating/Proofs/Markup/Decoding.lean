import Templating.Proofs.Markup.Terminals

/-!
# Decoding entities

`Entity.decode` is the one pass that the grammar describes, and what escaping writes
for a character is read back as that character, whatever comes next.
-/

namespace Templating.Entity

open Grammar (Decodes IsEntity)

/-- No known entity begins with another one. -/
theorem known_prefix_free :
    ∀ entry ∈ known, ∀ other ∈ known, entry.1 <+: other.1 → entry = other := by
  decide

/-- An entity is found exactly when its name comes next. -/
theorem decodeOne?_eq_some_iff {text rest : List Char} {c : Char} :
    decodeOne? text = some (c, rest) ↔ ∃ name, (name, c) ∈ known ∧ text = name ++ rest := by
  have found : ∀ entry ∈ known, ∀ c' rest',
      (Text.after? entry.1 text).map (entry.2, ·) = some (c', rest') →
        entry.2 = c' ∧ text = entry.1 ++ rest' := by
    intro entry _ c' rest' same
    simp only [Option.map_eq_some_iff, Prod.mk.injEq] at same
    obtain ⟨after, begins, rfl, rfl⟩ := same
    exact ⟨rfl, Text.after?_eq_some_iff.1 begins⟩
  constructor
  · intro decoded
    obtain ⟨⟨name, c'⟩, member, same⟩ := List.exists_of_findSome?_eq_some decoded
    obtain ⟨rfl, parts⟩ := found _ member c rest same
    exact ⟨name, member, parts⟩
  · rintro ⟨name, member, rfl⟩
    have begins : Text.after? name (name ++ rest) = some rest := Text.after?_eq_some_iff.2 rfl
    cases decoded : decodeOne? (name ++ rest) with
    | none =>
      have nothing := List.findSome?_eq_none_iff.1 decoded (name, c) member
      simp [begins] at nothing
    | some pair =>
      obtain ⟨read, left⟩ := pair
      obtain ⟨⟨other, c'⟩, otherMember, same⟩ := List.exists_of_findSome?_eq_some decoded
      obtain ⟨rfl, parts⟩ := found _ otherMember read left same
      -- Two entities at one place begin the same text, so one begins the other.
      have entries : (name, c) = (other, c') := by
        rcases List.prefix_or_prefix_of_prefix ⟨rest, rfl⟩ ⟨left, parts.symm⟩ with
          begins | begins
        · exact known_prefix_free _ member _ otherMember begins
        · exact (known_prefix_free _ otherMember _ member begins).symm
      cases entries
      rw [List.append_cancel_left parts]

/-- An entity is replaced by its character. -/
theorem decode_entity {written rest : List Char} {c : Char} (isEntity : IsEntity written c) :
    decode (written ++ rest) = c :: decode rest := by
  obtain ⟨name, member, rfl⟩ := isEntity_iff.1 isEntity
  have found : decodeOne? (name ++ rest) = some (c, rest) :=
    decodeOne?_eq_some_iff.2 ⟨name, member, rfl⟩
  rw [List.cons_append, decode, if_pos rfl]
  split
  · next decoded rest' same =>
    rw [found] at same
    cases same
    rfl
  · next none =>
    rw [found] at none
    cases none

/-- A character that begins no entity is kept. -/
theorem decode_char {c : Char} {rest : List Char}
    (noEntity : ∀ written d after, IsEntity written d → c :: rest ≠ written ++ after) :
    decode (c :: rest) = c :: decode rest := by
  rw [decode]
  split
  · next ampersand =>
    split
    · next decoded rest' same =>
      obtain ⟨name, member, rfl⟩ := decodeOne?_eq_some_iff.1 same
      have isEntity : IsEntity ('&' :: name) decoded := isEntity_iff.2 ⟨name, member, rfl⟩
      exact absurd (by rw [ampersand]; rfl) (noEntity _ decoded rest' isEntity)
    · rfl
  · rfl

/-- A text that does not begin with an ampersand begins with no entity. -/
theorem ne_append_of_ne_ampersand {c : Char} {rest : List Char} (notAmpersand : c ≠ '&') :
    ∀ written d after, IsEntity written d → c :: rest ≠ written ++ after := by
  intro written d after isEntity same
  obtain ⟨name, -, rfl⟩ := isEntity_iff.1 isEntity
  exact notAmpersand (List.cons.inj same).1

/-- Decoding follows the grammar. -/
theorem decodes_decode (written : List Char) : Decodes written (decode written) := by
  fun_induction decode written with
  | case1 => exact .nil
  | case2 rest decoded rest' found inductionHypothesis =>
    obtain ⟨name, member, rfl⟩ := decodeOne?_eq_some_iff.1 found
    rw [← List.cons_append]
    exact .entity (isEntity_iff.2 ⟨name, member, rfl⟩) inductionHypothesis
  | case3 rest nothing inductionHypothesis =>
    refine .char ?_ inductionHypothesis
    intro written d after isEntity same
    obtain ⟨name, member, rfl⟩ := isEntity_iff.1 isEntity
    have found : decodeOne? rest = some (d, after) :=
      decodeOne?_eq_some_iff.2 ⟨name, member, (List.cons.inj same).2⟩
    rw [found] at nothing
    cases nothing
  | case4 c rest notAmpersand inductionHypothesis =>
    exact .char (ne_append_of_ne_ampersand notAmpersand) inductionHypothesis

/-- The grammar leaves decoding no choice. -/
theorem decode_of_decodes {written decoded : List Char} (decodes : Decodes written decoded) :
    decode written = decoded := by
  induction decodes with
  | nil => rw [decode]
  | entity isEntity _ inductionHypothesis => rw [decode_entity isEntity, inductionHypothesis]
  | char noEntity _ inductionHypothesis => rw [decode_char noEntity, inductionHypothesis]

/-- Characters that are read as one character, whatever comes next. -/
def StandsFor (written : List Char) (c : Char) : Prop :=
  ∀ rest decoded, Decodes rest decoded → Decodes (written ++ rest) (c :: decoded)

/-- A character other than the ampersand stands for itself. -/
theorem standsFor_self {c : Char} (notAmpersand : c ≠ '&') : StandsFor [c] c := by
  intro rest decoded decodes
  exact .char (ne_append_of_ne_ampersand notAmpersand) decodes

/-- An entity stands for its character. -/
theorem standsFor_entity {written : List Char} {c : Char} (isEntity : IsEntity written c) :
    StandsFor written c := by
  intro rest decoded decodes
  exact .entity isEntity decodes

/-- Escaping a text writes for each character something that stands for it and opens no
markup. -/
theorem escapeText_cons (c : Char) (rest : List Char) : ∃ escaped,
    escapeText (c :: rest) = escaped ++ escapeText rest ∧ StandsFor escaped c ∧ '<' ∉ escaped := by
  rw [escapeText.eq_def]
  split
  · next empty => cases empty
  · next same =>
    obtain ⟨rfl, rfl⟩ := List.cons.inj same
    exact ⟨_, rfl, standsFor_entity .ampersand, by decide⟩
  · next same =>
    obtain ⟨rfl, rfl⟩ := List.cons.inj same
    exact ⟨_, rfl, standsFor_entity .opening, by decide⟩
  · next same =>
    obtain ⟨rfl, rfl⟩ := List.cons.inj same
    exact ⟨_, rfl, standsFor_entity .closing, by decide⟩
  · next notAmpersand notOpening _ same =>
    obtain ⟨rfl, rfl⟩ := List.cons.inj same
    exact ⟨[c], rfl, standsFor_self notAmpersand, by simpa using Ne.symm notOpening⟩

/-- Escaping a value writes for each character something that stands for it and closes
no quotes. -/
theorem escapeValue_cons (c : Char) (rest : List Char) : ∃ escaped,
    escapeValue (c :: rest) = escaped ++ escapeValue rest ∧ StandsFor escaped c ∧ '"' ∉ escaped := by
  rw [escapeValue.eq_def]
  split
  · next empty => cases empty
  · next same =>
    obtain ⟨rfl, rfl⟩ := List.cons.inj same
    exact ⟨_, rfl, standsFor_entity .ampersand, by decide⟩
  · next same =>
    obtain ⟨rfl, rfl⟩ := List.cons.inj same
    exact ⟨_, rfl, standsFor_entity .opening, by decide⟩
  · next same =>
    obtain ⟨rfl, rfl⟩ := List.cons.inj same
    exact ⟨_, rfl, standsFor_entity .closing, by decide⟩
  · next same =>
    obtain ⟨rfl, rfl⟩ := List.cons.inj same
    exact ⟨_, rfl, standsFor_entity .quote, by decide⟩
  · next notAmpersand _ _ notQuote same =>
    obtain ⟨rfl, rfl⟩ := List.cons.inj same
    exact ⟨[c], rfl, standsFor_self notAmpersand, by simpa using Ne.symm notQuote⟩

/-- An escaped text is read back, whatever comes next. -/
theorem decodes_escapeText_append {rest decoded : List Char} (decodes : Decodes rest decoded)
    (content : List Char) : Decodes (escapeText content ++ rest) (content ++ decoded) := by
  induction content with
  | nil => exact decodes
  | cons c content inductionHypothesis =>
    obtain ⟨escaped, same, stands, -⟩ := escapeText_cons c content
    rw [same, List.append_assoc]
    exact stands _ _ inductionHypothesis

/-- An escaped attribute value is read back. -/
theorem decodes_escapeValue (content : List Char) : Decodes (escapeValue content) content := by
  induction content with
  | nil => exact .nil
  | cons c content inductionHypothesis =>
    obtain ⟨escaped, same, stands, -⟩ := escapeValue_cons c content
    rw [same]
    exact stands _ _ inductionHypothesis

/-- An escaped text has no bracket that could open markup. -/
theorem not_mem_escapeText (content : List Char) : '<' ∉ escapeText content := by
  induction content with
  | nil => simp [escapeText.eq_def]
  | cons c content inductionHypothesis =>
    obtain ⟨escaped, same, -, absent⟩ := escapeText_cons c content
    rw [same, List.mem_append]
    exact not_or.2 ⟨absent, inductionHypothesis⟩

/-- An escaped attribute value has no quote that could close it. -/
theorem not_mem_escapeValue (content : List Char) : '"' ∉ escapeValue content := by
  induction content with
  | nil => simp [escapeValue.eq_def]
  | cons c content inductionHypothesis =>
    obtain ⟨escaped, same, -, absent⟩ := escapeValue_cons c content
    rw [same, List.mem_append]
    exact not_or.2 ⟨absent, inductionHypothesis⟩

end Templating.Entity
