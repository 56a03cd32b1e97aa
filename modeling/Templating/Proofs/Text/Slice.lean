import Mathlib.Data.List.Basic

/-!
# Parts of a text between bytes

A byte of a text, counted in the UTF-8 encoding, stands between two characters or inside of one.
`Text.cutBytes?` and `Text.slice?` cut a text at bytes, and have no result where that would cut a
character. Two bytes at which a text can be cut have a part of it between them; `Text.Consumes` says
that this part is not empty.
-/

namespace Templating.Text

/-- A text before and behind a byte that stands between two of its characters. -/
def cutBytes? : (position : Nat) → List Char → Option (List Char × List Char)
  | 0, text => some ([], text)
  | _ + 1, [] => none
  | position + 1, c :: text =>
    if c.utf8Size ≤ position + 1 then
      (cutBytes? (position + 1 - c.utf8Size) text).map fun (before, rest) => (c :: before, rest)
    else none

/-- What stands between two bytes, if the first one comes first and both stand between two
characters. -/
def slice? (first last : Nat) (text : List Char) : Option (List Char) := do
  let (before, _) ← cutBytes? last text
  let (_, part) ← cutBytes? first before
  return part

/-- Between the two bytes stands at least one character of the text. -/
def Consumes (text : String) (first last : Nat) : Prop :=
  ∃ before part after : String, text = before ++ part ++ after ∧ part ≠ "" ∧
    before.utf8ByteSize = first ∧ (before ++ part).utf8ByteSize = last

/-- The bytes of some characters. -/
def byteSize (text : List Char) : Nat :=
  (String.ofList text).utf8ByteSize

@[simp]
theorem byteSize_nil : byteSize [] = 0 :=
  rfl

@[simp]
theorem byteSize_cons (c : Char) (text : List Char) :
    byteSize (c :: text) = c.utf8Size + byteSize text := by
  rw [byteSize, String.ofList_cons, String.utf8ByteSize_append, String.utf8ByteSize_singleton,
    byteSize]

@[simp]
theorem byteSize_append (first second : List Char) :
    byteSize (first ++ second) = byteSize first + byteSize second := by
  rw [byteSize, String.ofList_append, String.utf8ByteSize_append, byteSize, byteSize]

theorem byteSize_eq_zero_iff {text : List Char} : byteSize text = 0 ↔ text = [] := by
  cases text with
  | nil => simp
  | cons c text =>
    have positive := c.utf8Size_pos
    simp only [byteSize_cons, List.cons_ne_nil, iff_false]
    omega

theorem byteSize_pos_iff {text : List Char} : 0 < byteSize text ↔ text ≠ [] := by
  rw [Nat.pos_iff_ne_zero, ne_eq, byteSize_eq_zero_iff]

variable {text before rest part : List Char} {position first last : Nat}

/-- A text is cut at the byte behind some of its characters, and at no other. -/
theorem cutBytes?_eq_some_iff :
    cutBytes? position text = some (before, rest) ↔
      text = before ++ rest ∧ byteSize before = position := by
  fun_induction cutBytes? position text generalizing before rest with
  | case1 text =>
    rw [Option.some.injEq, Prod.mk.injEq, byteSize_eq_zero_iff]
    constructor
    · rintro ⟨rfl, rfl⟩
      exact ⟨rfl, rfl⟩
    · rintro ⟨rfl, rfl⟩
      exact ⟨rfl, rfl⟩
  | case2 position =>
    simp only [reduceCtorEq, List.nil_eq, List.append_eq_nil_iff, false_iff]
    rintro ⟨⟨rfl, -⟩, size⟩
    cases size
  | case3 position c text fits inductionHypothesis =>
    simp only [Option.map_eq_some_iff, Prod.mk.injEq, Prod.exists, inductionHypothesis]
    constructor
    · rintro ⟨front, others, ⟨rfl, size⟩, rfl, rfl⟩
      exact ⟨rfl, by rw [byteSize_cons]; omega⟩
    · rintro ⟨parts, size⟩
      cases before with
      | nil => cases size
      | cons other before =>
        obtain ⟨rfl, rfl⟩ := List.cons.inj parts
        rw [byteSize_cons] at size
        exact ⟨before, rest, ⟨rfl, by omega⟩, rfl, rfl⟩
  | case4 position c text wide =>
    simp only [reduceCtorEq, false_iff]
    rintro ⟨parts, size⟩
    cases before with
    | nil => cases size
    | cons other before =>
      obtain ⟨rfl, -⟩ := List.cons.inj parts
      rw [byteSize_cons] at size
      omega

/-- A part is sliced out by the bytes before it and behind it. -/
theorem slice?_eq_some_iff :
    slice? first last text = some part ↔
      ∃ before rest, text = before ++ part ++ rest ∧ byteSize before = first ∧
        byteSize (before ++ part) = last := by
  simp only [slice?, bind, Option.bind_eq_some_iff, Prod.exists, cutBytes?_eq_some_iff,
    Option.pure_def, Option.some.injEq]
  constructor
  · rintro ⟨front, rest, ⟨rfl, lastSize⟩, before, _, ⟨rfl, firstSize⟩, rfl⟩
    exact ⟨before, rest, rfl, firstSize, lastSize⟩
  · rintro ⟨before, rest, rfl, firstSize, lastSize⟩
    exact ⟨before ++ part, rest, ⟨rfl, lastSize⟩, before, part, ⟨rfl, firstSize⟩, rfl⟩

/-- A byte stands between two characters of a text exactly when the text can be cut there. -/
theorem isValid_iff {markup : String} :
    (⟨position⟩ : String.Pos.Raw).IsValid markup ↔
      ∃ before rest, markup.toList = before ++ rest ∧ byteSize before = position := by
  rw [String.Pos.Raw.isValid_iff_exists_append]
  constructor
  · rintro ⟨before, rest, rfl, same⟩
    refine ⟨before.toList, rest.toList, String.toList_append, ?_⟩
    rw [byteSize, String.ofList_toList]
    exact (congrArg String.Pos.Raw.byteIdx same).symm
  · rintro ⟨before, rest, parts, rfl⟩
    refine ⟨String.ofList before, String.ofList rest, ?_, rfl⟩
    rw [← String.ofList_append, ← parts, String.ofList_toList]

/-- Between two different bytes at which a text can be cut there is a character of it. -/
theorem consumes_of_lt {markup : String} (firstValid : (⟨first⟩ : String.Pos.Raw).IsValid markup)
    (lastValid : (⟨last⟩ : String.Pos.Raw).IsValid markup) (smaller : first < last) :
    Consumes markup first last := by
  obtain ⟨front, others, frontParts, rfl⟩ := isValid_iff.1 firstValid
  obtain ⟨before, rest, parts, rfl⟩ := isValid_iff.1 lastValid
  have isPrefix : front <+: before := by
    rcases List.prefix_or_prefix_of_prefix ⟨others, frontParts.symm⟩ ⟨rest, parts.symm⟩ with
      shorter | ⟨more, rfl⟩
    · exact shorter
    · rw [byteSize_append] at smaller
      omega
  obtain ⟨part, rfl⟩ := isPrefix
  refine ⟨String.ofList front, String.ofList part, String.ofList rest, ?_, ?_, rfl, ?_⟩
  · rw [← String.ofList_append, ← String.ofList_append, ← parts, String.ofList_toList]
  · intro empty
    have noPart : byteSize part = 0 := by rw [byteSize, empty]; rfl
    rw [byteSize_append, noPart] at smaller
    omega
  · rw [← String.ofList_append, byteSize]

end Templating.Text
