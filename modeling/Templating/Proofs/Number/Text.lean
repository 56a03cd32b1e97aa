import Templating.Proofs.Number.Numeral
import Templating.Proofs.Number.Rounding
import Templating.Proofs.Text.Words

/-!
# Texts of numbers

A number is written so that its text stands for it again. A double is laid out with a
point or with a power of ten, and either layout is a numeral of its shortest digits:
`Number.isWritten_float`. It is never taken for an integer, and an integer that sixty-four
bits hold is never taken for a double: `Number.isWritten_int`.
-/

namespace Templating

/-- Whether a text is a numeral without a sign, with a point or a power of ten, that has
the closest double of a decimal. -/
def SpellsDecimal (text : List Char) (d : Decimal) : Prop :=
  ∃ numeral : Numeral, numeral.Spells text ∧ numeral.sign = none ∧ numeral.isInteger = false ∧
    numeral.decimal.magnitude = d.magnitude

section Signs

open Numeral

/-- A negative integer is its absolute value behind a minus sign. -/
theorem Numeral.signed_minus {n : Int} (negative : n < 0) : signed (some '-') n.natAbs = n := by
  rw [signed, if_pos rfl]
  omega

/-- Any other integer is its absolute value. -/
theorem Numeral.signed_natAbs {n : Int} {sign : Option Char} (noMinus : sign ≠ some '-')
    (positive : ¬ n < 0) : signed sign n.natAbs = n := by
  rw [signed, if_neg noMinus]
  omega

/-- A minus sign in front of a numeral without a sign makes it negative. -/
theorem Numeral.Spells.minus {unsigned : List Char} {numeral : Numeral}
    (spells : numeral.Spells unsigned) (noSign : numeral.sign = none) :
    Spells ('-' :: unsigned) { numeral with sign := some '-' } := by
  cases spells with
  | intro isSign areDigits isFraction isPower nonempty =>
    subst noSign
    cases isSign
    exact .intro .minus areDigits isFraction isPower nonempty

/-- The sign of a power of ten is always written. -/
theorem isPower_exponent (power : Int) :
    IsPower ('e' :: (if power < 0 then '-' else '+') :: decimalDigits power.natAbs) (some power) := by
  have areDigits := digits_decimalDigits power.natAbs
  have nonempty := decimalDigits_ne_nil power.natAbs
  split
  · next negative =>
    have isPower := IsPower.letter (.inl rfl) .minus nonempty areDigits
    rwa [ofDigits_decimalDigits, signed_minus negative] at isPower
  · next positive =>
    have isPower := IsPower.letter (.inl rfl) .plus nonempty areDigits
    rwa [ofDigits_decimalDigits, signed_natAbs (by decide) positive] at isPower

end Signs

section Layouts

open Numeral

variable {d : Decimal} {digits : List Char}

/-- Digits around a point stand for all digits, of which those behind the point are
places below one. -/
theorem spellsDecimal_point {whole fraction : List Char} (wholeDigits : Digits whole)
    (fractionDigits : Digits fraction) (nonempty : whole ≠ [])
    (magnitude : Decimal.magnitude ⟨ofDigits (whole ++ fraction), -fraction.length⟩ = d.magnitude) :
    SpellsDecimal (whole ++ '.' :: fraction) d := by
  have spells : Spells (whole ++ ('.' :: fraction ++ [])) ⟨none, whole, some fraction, none⟩ :=
    .intro .absent wholeDigits (.point fractionDigits) .absent
      (List.append_ne_nil_of_left_ne_nil nonempty _)
  rw [List.append_nil] at spells
  refine ⟨_, spells, rfl, rfl, ?_⟩
  rw [← magnitude, decimal]
  simp only [Option.getD_some, Option.getD_none, Int.zero_sub]

/-- All digits behind the point, with zeros between. -/
theorem spellsDecimal_behind (areDigits : Digits digits) (spelled : ofDigits digits = d.digits)
    {zeros : Nat} (places : d.exponent = -((zeros + digits.length : Nat) : Int)) :
    SpellsDecimal (['0'] ++ '.' :: (List.replicate zeros '0' ++ digits)) d := by
  refine spellsDecimal_point (digits_zeros 1) ((digits_zeros zeros).append areDigits)
    (List.cons_ne_nil _ _) ?_
  have value : ofDigits (['0'] ++ (List.replicate zeros '0' ++ digits)) = d.digits := by
    rw [← spelled, ← ofDigits_zeros_append digits zeros]
    exact ofDigits_zeros_append _ 1
  rw [value, List.length_append, List.length_replicate, ← places]

/-- All digits before the point, with zeros up to it. -/
theorem spellsDecimal_before (areDigits : Digits digits) (nonempty : digits ≠ [])
    (spelled : ofDigits digits = d.digits) {zeros : Nat} (places : d.exponent = zeros) :
    SpellsDecimal (digits ++ List.replicate zeros '0' ++ ['.', '0']) d := by
  refine spellsDecimal_point (areDigits.append (digits_zeros zeros)) (digits_zeros 1)
    (List.append_ne_nil_of_left_ne_nil nonempty _) ?_
  have value : ofDigits (digits ++ List.replicate zeros '0' ++ ['0']) =
      d.digits * 10 ^ (zeros + 1) := by
    rw [← spelled, ← ofDigits_append_zeros, List.replicate_succ', List.append_assoc]
  have exponent : -1 + ((zeros + 1 : Nat) : Int) = d.exponent := by omega
  have moved := Decimal.magnitude_mul_pow d.digits (zeros + 1) (-1)
  rw [exponent, ← value] at moved
  exact moved

/-- The point between two digits. -/
theorem spellsDecimal_between (areDigits : Digits digits) (spelled : ofDigits digits = d.digits)
    {whole : Nat} (positive : 0 < whole) (fewer : whole < digits.length)
    (places : d.exponent = whole - digits.length) :
    SpellsDecimal (digits.take whole ++ '.' :: digits.drop whole) d := by
  refine spellsDecimal_point (areDigits.take whole) (areDigits.drop whole) ?nonempty ?magnitude
  case nonempty =>
    refine List.length_pos_iff.1 ?_
    rw [List.length_take]
    omega
  case magnitude =>
    have exponent : -((digits.drop whole).length : Int) = d.exponent := by
      rw [List.length_drop]
      omega
    rw [exponent, List.take_append_drop, spelled]

/-- The layout without a power of ten stands for the decimal. -/
theorem spellsDecimal_positional (d : Decimal) :
    SpellsDecimal
      (Double.positional (decimalDigits d.digits) ((decimalDigits d.digits).length + d.exponent))
      d := by
  have areDigits := digits_decimalDigits d.digits
  have nonempty := decimalDigits_ne_nil d.digits
  have spelled := ofDigits_decimalDigits d.digits
  simp only [Double.positional]
  split
  · exact spellsDecimal_behind areDigits spelled (by omega)
  · split
    · exact spellsDecimal_before areDigits nonempty spelled (by omega)
    · exact spellsDecimal_between areDigits spelled (by omega) (by omega) (by omega)

/-- Digits with a power of ten stand for all digits, of which those behind the point are
places below that power. -/
theorem spellsDecimal_power {whole fractionText powerText : List Char}
    {fraction : Option (List Char)} {power : Int} (wholeDigits : Digits whole)
    (isFraction : IsFraction fractionText fraction) (isPower : IsPower powerText (some power))
    (nonempty : whole ≠ []) (value : ofDigits (whole ++ fraction.getD []) = d.digits)
    (places : power - (fraction.getD []).length = d.exponent) :
    SpellsDecimal (whole ++ (fractionText ++ powerText)) d := by
  have spells : Spells (whole ++ (fractionText ++ powerText)) ⟨none, whole, fraction, some power⟩ :=
    .intro .absent wholeDigits isFraction isPower (List.append_ne_nil_of_left_ne_nil nonempty _)
  refine ⟨_, spells, rfl, Bool.and_false _, ?_⟩
  rw [decimal]
  simp only [Option.getD_some, value, places]

/-- The layout with a power of ten stands for the decimal. -/
theorem spellsDecimal_scientific (d : Decimal) :
    SpellsDecimal
      (Double.scientific (decimalDigits d.digits) ((decimalDigits d.digits).length + d.exponent))
      d := by
  have areDigits := digits_decimalDigits d.digits
  have someDigit := List.length_pos_iff.2 (decimalDigits_ne_nil d.digits)
  have spelled := ofDigits_decimalDigits d.digits
  have nonempty : (decimalDigits d.digits).take 1 ≠ [] := by
    simp [decimalDigits_ne_nil]
  simp only [Double.scientific]
  rw [List.append_assoc]
  split
  · -- A single digit stands without a point.
    next single =>
    refine spellsDecimal_power (areDigits.take 1) .absent (isPower_exponent _) nonempty
      ?value ?places
    case value =>
      rw [Option.getD_none, List.append_nil, List.take_of_length_le single, spelled]
    case places =>
      rw [Option.getD_none, List.length_nil]
      omega
  · next several =>
    refine spellsDecimal_power (areDigits.take 1) (.point (areDigits.drop 1))
      (isPower_exponent _) nonempty ?value ?places
    case value => rw [Option.getD_some, List.take_append_drop, spelled]
    case places =>
      rw [Option.getD_some, List.length_drop]
      omega

end Layouts

section Blanks

/-- No digit is blank. -/
theorem isBlank_of_isDigit {c : Char} (digit : isDigit c = true) : Text.isBlank c = false := by
  simp only [isDigit, Bool.and_eq_true, decide_eq_true_eq, Char.le_def,
    UInt32.le_iff_toNat_le] at digit
  obtain ⟨above, below⟩ := digit
  change 48 ≤ c.toNat at above
  change c.toNat ≤ 57 at below
  simp only [Text.isBlank, Bool.or_eq_false_iff, Bool.and_eq_false_iff, decide_eq_false_iff_not,
    beq_eq_false_iff_ne]
  omega

/-- A sign holds no blanks. -/
theorem Numeral.IsSign.visible {text : List Char} {sign : Option Char} (isSign : IsSign text sign)
    {c : Char} (member : c ∈ text) : Text.isBlank c = false := by
  cases isSign with
  | absent => cases member
  | plus | minus =>
    rw [List.mem_singleton.1 member]
    rfl

/-- A fraction holds no blanks. -/
theorem Numeral.IsFraction.visible {text : List Char} {fraction : Option (List Char)}
    (isFraction : IsFraction text fraction) {c : Char} (member : c ∈ text) :
    Text.isBlank c = false := by
  cases isFraction with
  | absent => cases member
  | point areDigits =>
    rcases List.mem_cons.1 member with rfl | isDigit
    · rfl
    · exact isBlank_of_isDigit (areDigits c isDigit)

/-- A power of ten holds no blanks. -/
theorem Numeral.IsPower.visible {text : List Char} {power : Option Int}
    (isPower : IsPower text power) {c : Char} (member : c ∈ text) : Text.isBlank c = false := by
  cases isPower with
  | absent => cases member
  | letter isLetter isSign nonempty areDigits =>
    rcases List.mem_cons.1 member with rfl | afterLetter
    · rcases isLetter with rfl | rfl <;> rfl
    · rcases List.mem_append.1 afterLetter with inSign | isDigit
      · exact isSign.visible inSign
      · exact isBlank_of_isDigit (areDigits c isDigit)

/-- A numeral is a word: it holds no blanks. -/
theorem Numeral.Spells.isWord {text : List Char} {numeral : Numeral}
    (spells : numeral.Spells text) : Text.IsWord text where
  nonempty := by
    cases spells.looksNumeric <;> simp
  visible := by
    intro c member
    cases spells with
    | intro isSign areDigits isFraction isPower nonempty =>
      rcases List.mem_append.1 member with inSign | afterSign
      · exact isSign.visible inSign
      rcases List.mem_append.1 afterSign with inWhole | afterWhole
      · exact isBlank_of_isDigit (areDigits c inWhole)
      rcases List.mem_append.1 afterWhole with inFraction | inPower
      · exact isFraction.visible inFraction
      · exact isPower.visible inPower

end Blanks

namespace Number

/-- An integer that sixty-four bits hold is written as that integer. -/
theorem isWritten_int {n : Int} (fits : FitsSigned64 n) :
    (Number.int n).IsWritten (Number.int n).text := by
  have areDigits := digits_decimalDigits n.natAbs
  have nonempty := decimalDigits_ne_nil n.natAbs
  refine .integer ?_ fits
  rw [text, integerText]
  split
  · next negative =>
    have spells := Numeral.SpellsInteger.intro .minus nonempty areDigits
    rwa [ofDigits_decimalDigits, Numeral.signed_minus negative] at spells
  · next positive =>
    have spells := Numeral.SpellsInteger.intro .absent nonempty areDigits
    rwa [ofDigits_decimalDigits, Numeral.signed_natAbs (by decide) positive] at spells

/-- A layout of the shortest digits, behind the sign of the double, is a numeral whose
closest double is the double itself. -/
theorem exists_spells_of_spellsDecimal {d : Double} {unsigned : List Char}
    (layout : SpellsDecimal unsigned d.shortest) :
    ∃ numeral : Numeral, numeral.Spells (if d.negative then '-' :: unsigned else unsigned) ∧
      numeral.isInteger = false ∧ numeral.decimal.nearest? numeral.isNegative = some d := by
  obtain ⟨numeral, spells, noSign, notInteger, magnitude⟩ := layout
  rw [Double.magnitude_shortest] at magnitude
  have itself := d.ofMagnitude?_magnitude
  split
  · next negative =>
    rw [negative] at itself
    refine ⟨_, spells.minus noSign, notInteger, ?_⟩
    rw [Decimal.nearest?_eq, ← itself, ← magnitude]
    rfl
  · next positive =>
    rw [Bool.eq_false_iff.2 positive] at itself
    refine ⟨_, spells, notInteger, ?_⟩
    rw [Decimal.nearest?_eq, magnitude, Numeral.isNegative, noSign]
    exact itself

/-- A double is written as that double. -/
theorem isWritten_float (d : Double) : (Number.float d).IsWritten (Number.float d).text := by
  have spelled : ∃ numeral : Numeral, numeral.Spells d.text ∧ numeral.isInteger = false ∧
      numeral.decimal.nearest? numeral.isNegative = some d := by
    rw [Double.text]
    refine exists_spells_of_spellsDecimal ?_
    split
    · exact spellsDecimal_positional d.shortest
    · exact spellsDecimal_scientific d.shortest
  obtain ⟨numeral, spells, notInteger, nearest⟩ := spelled
  refine .float ?_ spells.looksNumeric spells nearest
  -- A text is one numeral only, and this one is not written as an integer.
  intro n spellsInteger _
  obtain ⟨other, otherSpells, isInteger, -⟩ := Numeral.spellsInteger_iff.1 spellsInteger
  have same := (Numeral.ofText?_of_spells spells).symm.trans (Numeral.ofText?_of_spells otherSpells)
  cases same
  rw [notInteger] at isInteger
  cases isInteger

end Number

end Templating
