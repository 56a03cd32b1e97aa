import Templating.Markup.Node
import Templating.Proofs.Text.Run

/-!
# The grammar of markup

Which texts are markup, and which trees they stand for, said by inductive relations
that know nothing of the scanners: the entities, the void tags, the marks and the
characters of names are spelled here. A relation speaks of a part of a text as written;
where such a part must be as long as possible, the rule says what may come next.
`Derives` is the grammar of whole texts.
-/

namespace Templating.Grammar

open Text (Blanks Ends IsBeforeFirst)

/-- The characters of tags are ASCII letters and digits, hyphens, underscores and colons. -/
def IsTagChar (c : Char) : Prop :=
  c.isAlphanum = true ∨ c = '-' ∨ c = '_' ∨ c = ':'

/-- The characters of attribute names are all but blanks, equals signs, closing brackets and
slashes. -/
def IsNameChar (c : Char) : Prop :=
  Text.isBlank c = false ∧ c ≠ '=' ∧ c ≠ '>' ∧ c ≠ '/'

/-- The characters of bare values are all but blanks and closing brackets. -/
def IsBareChar (c : Char) : Prop :=
  Text.isBlank c = false ∧ c ≠ '>'

/-- The tags of the elements that have neither content nor a closing tag. -/
def IsVoid (tag : String) : Prop :=
  tag ∈ ["br", "hr", "img", "input", "link", "meta"]

/-- The six entities, each with the character that it stands for. -/
inductive IsEntity : (written : List Char) → Char → Prop
  | ampersand : IsEntity "&amp;".toList '&'
  | opening : IsEntity "&lt;".toList '<'
  | closing : IsEntity "&gt;".toList '>'
  | quote : IsEntity "&quot;".toList '"'
  | apostrophe : IsEntity "&apos;".toList '\''
  | apostropheCode : IsEntity "&#39;".toList '\''

/-- A tag is an ASCII letter, followed by characters of tags. -/
inductive IsTag : List Char → Prop
  | intro {letter : Char} {others : List Char} (isLetter : letter.isAlpha = true)
      (areTagChars : ∀ c ∈ others, IsTagChar c) : IsTag (letter :: others)

/-- The name of an attribute is a run of name characters that is not empty. -/
structure IsName (name : List Char) : Prop where
  nonempty : name ≠ []
  areNameChars : ∀ c ∈ name, IsNameChar c

/-- One pass over a text that replaces entities by their characters. An ampersand that
begins none of them is kept, as is every other character. -/
inductive Decodes : (written decoded : List Char) → Prop
  | nil : Decodes [] []
  | entity {written rest decoded : List Char} {c : Char} (isEntity : IsEntity written c)
      (more : Decodes rest decoded) : Decodes (written ++ rest) (c :: decoded)
  | char {c : Char} {rest decoded : List Char}
      (noEntity : ∀ written d after, IsEntity written d → c :: rest ≠ written ++ after)
      (more : Decodes rest decoded) : Decodes (c :: rest) (c :: decoded)

/-- A text without a bracket in front of an ASCII letter, a slash or an exclamation
mark. -/
def NoMarkup (text : List Char) : Prop :=
  ∀ before c after, text = before ++ '<' :: c :: after → ¬(c.isAlpha = true ∨ c = '/' ∨ c = '!')

/-- A run of text is not empty and opens no markup. -/
structure IsTextRun (run : List Char) : Prop where
  nonempty : run ≠ []
  noMarkup : NoMarkup run

/-- An attribute value as written, what it holds before entities are decoded, and what
comes next. A bare value does not begin with a quote; it goes on to the next blank or
closing bracket, and only the bracket may follow one that is empty. -/
inductive IsValue : (written content next : List Char) → Prop
  | quoted {quote : Char} {content next : List Char} (isQuote : quote = '"' ∨ quote = '\'')
      (unquoted : quote ∉ content) : IsValue (quote :: (content ++ [quote])) content next
  | bare {first c : Char} {others after : List Char} (noQuote : first ≠ '"' ∧ first ≠ '\'')
      (areBareChars : ∀ other ∈ first :: others, IsBareChar other)
      (ended : Text.isBlank c = true ∨ c = '>') :
      IsValue (first :: others) (first :: others) (c :: after)
  | empty {after : List Char} : IsValue [] [] ('>' :: after)

/-- What may follow an attribute that has no value: a blank, or the end of the tag. -/
inductive EndsBareName : List Char → Prop
  | blank {c : Char} {after : List Char} (isBlank : Text.isBlank c = true) :
      EndsBareName (c :: after)
  | opened {after : List Char} : EndsBareName ('>' :: after)
  | closed {after : List Char} : EndsBareName ('/' :: '>' :: after)

/-- An opening tag from behind its tag on: attributes, then the end of the tag, which
may close the element as well. -/
inductive TagRest : (written : List Char) → List Attribute → (closed : Bool) → Prop
  | opened {blanks : List Char} (areBlank : Blanks blanks) : TagRest (blanks ++ ['>']) [] false
  | closed {blanks : List Char} (areBlank : Blanks blanks) :
      TagRest (blanks ++ ['/', '>']) [] true
  | bareName {blanks name rest : List Char} {entries : List Attribute} {closed : Bool}
      (areBlank : Blanks blanks) (isName : IsName name) (ended : EndsBareName rest)
      (more : TagRest rest entries closed) :
      TagRest (blanks ++ name ++ rest) (⟨String.ofList name, ""⟩ :: entries) closed
  | valued {blanks name before after value content decoded rest : List Char}
      {entries : List Attribute} {closed : Bool} (areBlank : Blanks blanks)
      (isName : IsName name) (beforeBlank : Blanks before) (afterBlank : Blanks after)
      (isValue : IsValue value content rest) (decodes : Decodes content decoded)
      (more : TagRest rest entries closed) :
      TagRest (blanks ++ name ++ before ++ '=' :: (after ++ value ++ rest))
        (⟨String.ofList name, String.ofList decoded⟩ :: entries) closed

/-- An opening tag, whose tag is as long as possible. -/
inductive IsOpening : (written tag : List Char) → List Attribute → (closed : Bool) → Prop
  | intro {tag rest : List Char} {entries : List Attribute} {closed : Bool} (isTag : IsTag tag)
      (ended : ∀ c ∈ rest.head?, ¬IsTagChar c) (attributes : TagRest rest entries closed) :
      IsOpening ('<' :: (tag ++ rest)) tag entries closed

/-- The closing tag of an element. -/
inductive IsClosing (tag : List Char) : (written : List Char) → Prop
  | intro {blanks : List Char} (areBlank : Blanks blanks) :
      IsClosing tag ('<' :: '/' :: (tag ++ blanks ++ ['>']))

/-- A comment, which goes on to the first end mark. -/
inductive IsComment : (written : List Char) → Prop
  | intro {body : List Char} (isBody : IsBeforeFirst "-->".toList body) :
      IsComment ("<!--".toList ++ body ++ "-->".toList)

/-- A row of items and the sibling nodes that they stand for. `Fragment true` is what may
follow a run of text, so it does not begin with another one. -/
inductive Fragment : (afterText : Bool) → (written : List Char) → List Node → Prop
  | nil {afterText : Bool} : Fragment afterText [] []
  | comment {afterText : Bool} {comment rest : List Char} {nodes : List Node}
      (isComment : IsComment comment) (more : Fragment false rest nodes) :
      Fragment afterText (comment ++ rest) nodes
  | text {run decoded rest : List Char} {nodes : List Node} (isRun : IsTextRun run)
      (decodes : Decodes run decoded) (more : Fragment true rest nodes) :
      Fragment false (run ++ rest) (.text (String.ofList decoded) :: nodes)
  | childless {afterText : Bool} {opening tag rest : List Char} {entries : List Attribute}
      {closed : Bool} {nodes : List Node} (isOpening : IsOpening opening tag entries closed)
      (isChildless : closed = true ∨ IsVoid (String.ofList tag))
      (more : Fragment false rest nodes) :
      Fragment afterText (opening ++ rest) (.element (String.ofList tag) entries [] :: nodes)
  | element {afterText : Bool} {opening inner closing tag rest : List Char}
      {entries : List Attribute} {children nodes : List Node}
      (isOpening : IsOpening opening tag entries false)
      (notVoid : ¬IsVoid (String.ofList tag)) (content : Fragment false inner children)
      (isClosing : IsClosing tag closing) (more : Fragment false rest nodes) :
      Fragment afterText (opening ++ inner ++ closing ++ rest)
        (.element (String.ofList tag) entries children :: nodes)

/-- Markup derives the nodes that its items stand for. -/
def Derives (markup : String) (nodes : List Node) : Prop :=
  Fragment false markup.toList nodes

instance : DecidablePred IsTagChar := fun c =>
  inferInstanceAs (Decidable (c.isAlphanum = true ∨ c = '-' ∨ c = '_' ∨ c = ':'))

instance : DecidablePred IsNameChar := fun c =>
  inferInstanceAs (Decidable (Text.isBlank c = false ∧ c ≠ '=' ∧ c ≠ '>' ∧ c ≠ '/'))

instance (tag : List Char) : Decidable (IsTag tag) :=
  match tag with
  | [] => isFalse nofun
  | letter :: others =>
    have := List.decidableBAll IsTagChar others
    decidable_of_iff (letter.isAlpha = true ∧ ∀ c ∈ others, IsTagChar c)
      ⟨fun ⟨isLetter, areTagChars⟩ => .intro isLetter areTagChars,
        fun | .intro isLetter areTagChars => ⟨isLetter, areTagChars⟩⟩

instance (name : List Char) : Decidable (IsName name) :=
  have := List.decidableBAll IsNameChar name
  decidable_of_iff (name ≠ [] ∧ ∀ c ∈ name, IsNameChar c)
    ⟨fun ⟨nonempty, areNameChars⟩ => ⟨nonempty, areNameChars⟩,
      fun ⟨nonempty, areNameChars⟩ => ⟨nonempty, areNameChars⟩⟩

/-- A name ends at a blank, an equals sign, a closing bracket and a slash. -/
theorem not_isNameChar_iff {c : Char} :
    ¬IsNameChar c ↔ Text.isBlank c = true ∨ c = '=' ∨ c = '>' ∨ c = '/' := by
  simp only [IsNameChar, Decidable.not_and_iff_or_not, Bool.not_eq_false, ne_eq, Decidable.not_not]

/-- A bare value ends at a blank and at a closing bracket. -/
theorem not_isBareChar_iff {c : Char} :
    ¬IsBareChar c ↔ Text.isBlank c = true ∨ c = '>' := by
  simp only [IsBareChar, Decidable.not_and_iff_or_not, Bool.not_eq_false, ne_eq, Decidable.not_not]

/-- A tag ends at a blank. -/
theorem not_isTagChar_of_isBlank {c : Char} (blank : Text.isBlank c = true) : ¬IsTagChar c := by
  rintro (alphanumeric | rfl | rfl | rfl)
  · change (decide (c.val ≥ 65 ∧ c.val ≤ 90) ||
      decide (c.val ≥ 97) && decide (c.val ≤ 122) ||
      decide (c.val ≥ 48) && decide (c.val ≤ 57)) = true at alphanumeric
    simp only [Bool.or_eq_true, Bool.and_eq_true, decide_eq_true_eq, ge_iff_le,
      UInt32.le_iff_toNat_le, UInt32.reduceToNat] at alphanumeric
    simp only [Text.isBlank, Char.toNat, Bool.or_eq_true, Bool.and_eq_true, decide_eq_true_eq,
      beq_iff_eq] at blank
    omega
  · exact absurd blank (by decide)
  · exact absurd blank (by decide)
  · exact absurd blank (by decide)

/-- A tag is not empty. -/
theorem IsTag.ne_nil {tag : List Char} (isTag : IsTag tag) : tag ≠ [] := by
  cases isTag with
  | intro isLetter areTagChars => exact List.cons_ne_nil _ _

/-- A tag has characters of tags only, its letter among them. -/
theorem IsTag.areTagChars {tag : List Char} (isTag : IsTag tag) : ∀ c ∈ tag, IsTagChar c := by
  cases isTag with
  | @intro letter others isLetter areTagChars =>
    intro c member
    rcases List.mem_cons.1 member with rfl | inOthers
    · exact .inl (by simp [Char.isAlphanum, isLetter])
    · exact areTagChars c inOthers

/-- A name begins with one of its characters. -/
theorem IsName.exists_cons {name : List Char} (isName : IsName name) :
    ∃ c others, name = c :: others ∧ IsNameChar c := by
  obtain ⟨c, others, rfl⟩ := List.exists_cons_of_ne_nil isName.nonempty
  exact ⟨c, others, rfl, isName.areNameChars c List.mem_cons_self⟩

/-- A name begins with no blank. -/
theorem IsName.ends_blank {name rest : List Char} (isName : IsName name) :
    Ends Text.isBlank (name ++ rest) := by
  obtain ⟨c, others, rfl, accepted⟩ := isName.exists_cons
  exact Text.Ends.cons accepted.1

namespace TagRest

variable {written : List Char} {entries : List Attribute} {closed : Bool}

/-- Behind its first blanks, the rest of a tag is one of the two ends, or begins with a
name. -/
theorem shape (tagRest : TagRest written entries closed) :
    ∃ blanks rest, written = blanks ++ rest ∧ Blanks blanks ∧
      (rest = ['>'] ∨ rest = ['/', '>'] ∨ ∃ c others, rest = c :: others ∧ IsNameChar c) := by
  cases tagRest with
  | @opened blanks areBlank => exact ⟨blanks, _, rfl, areBlank, .inl rfl⟩
  | @closed blanks areBlank => exact ⟨blanks, _, rfl, areBlank, .inr (.inl rfl)⟩
  | @bareName blanks name rest _ _ areBlank isName =>
    obtain ⟨c, others, rfl, accepted⟩ := isName.exists_cons
    exact ⟨blanks, c :: (others ++ rest), by simp, areBlank, .inr (.inr ⟨c, _, rfl, accepted⟩)⟩
  | @valued blanks name before after value _ _ rest _ _ areBlank isName =>
    obtain ⟨c, others, rfl, accepted⟩ := isName.exists_cons
    exact ⟨blanks, c :: (others ++ before ++ '=' :: (after ++ value ++ rest)), by simp, areBlank,
      .inr (.inr ⟨c, _, rfl, accepted⟩)⟩

/-- Something is left of every tag. -/
theorem ne_nil (tagRest : TagRest written entries closed) : written ≠ [] := by
  obtain ⟨blanks, rest, rfl, -, rfl | rfl | ⟨c, others, rfl, -⟩⟩ := tagRest.shape
  · simp
  · simp
  · simp

/-- What is left of a tag begins neither with a blank nor with an equals sign when it is
trimmed. -/
theorem trimStart_append (tagRest : TagRest written entries closed) (next : List Char) :
    ∃ c others, Text.trimStart (written ++ next) = c :: others ∧
      Text.isBlank c = false ∧ c ≠ '=' := by
  obtain ⟨blanks, rest, rfl, areBlank, rfl | rfl | ⟨c, others, rfl, accepted⟩⟩ := tagRest.shape
  · refine ⟨'>', next, ?_, by decide, by decide⟩
    rw [List.append_assoc]
    exact Text.trimStart_blanks areBlank (Ends.cons (by decide))
  · refine ⟨'/', '>' :: next, ?_, by decide, by decide⟩
    rw [List.append_assoc]
    exact Text.trimStart_blanks areBlank (Ends.cons (by decide))
  · obtain ⟨notBlank, notEquals, -⟩ := accepted
    refine ⟨c, others ++ next, ?_, notBlank, notEquals⟩
    rw [List.append_assoc]
    exact Text.trimStart_blanks areBlank (Ends.cons notBlank)

/-- A slash that is left of a tag belongs to its end. -/
theorem slash {after : List Char} (tagRest : TagRest ('/' :: after) entries closed) :
    after = ['>'] := by
  obtain ⟨blanks, rest, parts, areBlank, shape⟩ := tagRest.shape
  cases blanks with
  | cons blank others =>
    have isBlank := areBlank blank List.mem_cons_self
    rw [← (List.cons.inj parts).1] at isBlank
    exact absurd isBlank (by decide)
  | nil =>
    rw [List.nil_append] at parts
    rcases shape with rfl | rfl | ⟨c, others, rfl, accepted⟩
    · exact absurd (List.cons.inj parts).1 (by decide)
    · exact (List.cons.inj parts).2
    · rw [← (List.cons.inj parts).1] at accepted
      exact absurd accepted (by decide)

/-- Blanks may come before the rest of a tag. -/
theorem blanks_append {blanks : List Char} (areBlank : Blanks blanks)
    (tagRest : TagRest written entries closed) : TagRest (blanks ++ written) entries closed := by
  cases tagRest with
  | opened moreBlank =>
    rw [← List.append_assoc]
    exact .opened (areBlank.append moreBlank)
  | closed moreBlank =>
    rw [← List.append_assoc]
    exact .closed (areBlank.append moreBlank)
  | bareName moreBlank isName ended more =>
    rw [← List.append_assoc, ← List.append_assoc]
    exact .bareName (areBlank.append moreBlank) isName ended more
  | valued moreBlank isName beforeBlank afterBlank isValue decodes more =>
    rw [← List.append_assoc, ← List.append_assoc, ← List.append_assoc]
    exact .valued (areBlank.append moreBlank) isName beforeBlank afterBlank isValue decodes more

/-- Where a name ends and no equals sign comes next, it may stand without a value. -/
theorem endsBareName (tagRest : TagRest written entries closed)
    (ended : ∀ c ∈ written.head?, ¬IsNameChar c) (noEquals : ∀ after, written ≠ '=' :: after) :
    EndsBareName written := by
  obtain ⟨c, others, rfl⟩ := List.exists_cons_of_ne_nil tagRest.ne_nil
  rcases not_isNameChar_iff.1 (ended c rfl) with blank | rfl | rfl | rfl
  · exact .blank blank
  · exact absurd rfl (noEquals others)
  · exact .opened
  · rw [tagRest.slash]
    exact .closed

end TagRest

end Templating.Grammar
