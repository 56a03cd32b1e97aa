import Mathlib.Algebra.Group.Int.Defs
import Templating.Number.Numeral
import Templating.Proofs.Number.Digits
import Templating.Proofs.Text.Run

/-!
# The grammar of numerals

A numeral is a sign, digits, a point with digits and a power of ten, of which only some
digit has to be there. `Numeral.Spells` says so as a grammar, and
`Numeral.ofText?_eq_some_iff` that exactly the texts of the grammar are read.
`Number.IsWritten` says which number a text stands for in a condition: an integer where
one of sixty-four bits is written, and the closest double to any other numeral.
-/

namespace Templating

/-- Whether sixty-four bits with a sign hold an integer. -/
def FitsSigned64 (n : Int) : Prop :=
  -(2 ^ 63) ≤ n ∧ n < 2 ^ 63

namespace Numeral

/-- A sign or none, and what is recorded of it. -/
inductive IsSign : List Char → Option Char → Prop
  | absent : IsSign [] none
  | plus : IsSign ['+'] (some '+')
  | minus : IsSign ['-'] (some '-')

/-- The integer of the given sign and absolute value. -/
def signed (sign : Option Char) (absolute : Nat) : Int :=
  if sign = some '-' then -(absolute : Int) else absolute

/-- A point with the digits after it, of which there may be none, or no point. -/
inductive IsFraction : List Char → Option (List Char) → Prop
  | absent : IsFraction [] none
  | point {digits : List Char} (areDigits : Digits digits) : IsFraction ('.' :: digits) (some digits)

/-- A power of ten with at least one digit, or none. -/
inductive IsPower : List Char → Option Int → Prop
  | absent : IsPower [] none
  | letter {e : Char} {signText digits : List Char} {sign : Option Char}
      (isLetter : e = 'e' ∨ e = 'E') (isSign : IsSign signText sign) (nonempty : digits ≠ [])
      (areDigits : Digits digits) :
      IsPower (e :: (signText ++ digits)) (some (signed sign (ofDigits digits)))

/-- The texts of a numeral, which has a digit before or after the point. -/
inductive Spells : List Char → Numeral → Prop
  | intro {signText whole fractionText powerText : List Char} {sign : Option Char}
      {fraction : Option (List Char)} {power : Option Int}
      (isSign : IsSign signText sign) (areDigits : Digits whole)
      (isFraction : IsFraction fractionText fraction) (isPower : IsPower powerText power)
      (nonempty : whole ++ fraction.getD [] ≠ []) :
      Spells (signText ++ (whole ++ (fractionText ++ powerText))) ⟨sign, whole, fraction, power⟩

/-- The texts of an integer: a sign or none, and at least one digit. -/
inductive SpellsInteger : List Char → Int → Prop
  | intro {signText digits : List Char} {sign : Option Char} (isSign : IsSign signText sign)
      (nonempty : digits ≠ []) (areDigits : Digits digits) :
      SpellsInteger (signText ++ digits) (signed sign (ofDigits digits))

/-- A text that begins like a number: with a digit, before which there may be a sign and
then a point. -/
inductive LooksNumeric : List Char → Prop
  | digit {signText rest : List Char} {sign : Option Char} {c : Char}
      (isSign : IsSign signText sign) (digit : isDigit c = true) :
      LooksNumeric (signText ++ (c :: rest))
  | point {signText rest : List Char} {sign : Option Char} {c : Char}
      (isSign : IsSign signText sign) (digit : isDigit c = true) :
      LooksNumeric (signText ++ ('.' :: c :: rest))

end Numeral

/-- The number that a text stands for in a condition. -/
inductive Number.IsWritten (text : List Char) : Number → Prop
  | integer {n : Int} (spells : Numeral.SpellsInteger text n) (fits : FitsSigned64 n) :
      IsWritten text (.int n)
  | float {numeral : Numeral} {d : Double}
      (noInteger : ∀ n, Numeral.SpellsInteger text n → ¬ FitsSigned64 n)
      (looksNumeric : Numeral.LooksNumeric text) (spells : numeral.Spells text)
      (nearest : numeral.decimal.nearest? numeral.isNegative = some d) :
      IsWritten text (.float d)

namespace Numeral

section Scan

variable {text rest digits : List Char} {sign : Option Char}

/-- A text whose first character is not a sign. -/
def Unsigned (text : List Char) : Prop :=
  ∀ c ∈ text.head?, c ≠ '+' ∧ c ≠ '-'

/-- A digit is neither a sign nor a point. -/
theorem ne_of_isDigit {c other : Char} (digit : isDigit c = true) (noDigit : isDigit other = false) :
    c ≠ other := by
  rintro rfl
  rw [digit] at noDigit
  cases noDigit

/-- Digits are no sign. -/
theorem unsigned_digits (nonempty : digits ≠ []) (areDigits : Digits digits) :
    Unsigned (digits ++ rest) := by
  obtain ⟨c, others, rfl⟩ := List.exists_cons_of_ne_nil nonempty
  intro other atFront
  cases atFront
  have digit := areDigits c List.mem_cons_self
  exact ⟨ne_of_isDigit digit rfl, ne_of_isDigit digit rfl⟩

/-- A sign in front of a text that has none is scanned. -/
theorem scanSign_append {signText : List Char} (isSign : IsSign signText sign)
    (unsigned : Unsigned rest) : scanSign (signText ++ rest) = (sign, rest) := by
  cases isSign with
  | plus => rfl
  | minus => rfl
  | absent =>
    rw [List.nil_append, scanSign]
    · intro others same
      exact (unsigned '+' (by rw [same]; rfl)).1 rfl
    · intro others same
      exact (unsigned '-' (by rw [same]; rfl)).2 rfl

/-- What is scanned for a sign is one, and nothing is lost. -/
theorem exists_isSign_of_scanSign (text : List Char) :
    ∃ signText, IsSign signText (scanSign text).1 ∧ text = signText ++ (scanSign text).2 := by
  rw [scanSign.eq_def]
  split
  · exact ⟨['+'], .plus, rfl⟩
  · exact ⟨['-'], .minus, rfl⟩
  · exact ⟨[], .absent, rfl⟩

/-- Digits in front of a text that does not go on them are scanned. -/
theorem scanDigits_append (areDigits : Digits digits) (ended : Text.Ends isDigit rest) :
    scanDigits (digits ++ rest) = (digits, rest) :=
  Prod.ext (Text.takeWhile_run areDigits ended) (Text.dropWhile_run areDigits ended)

/-- A fraction in front of a text that does not go on it is scanned. -/
theorem scanFraction_append {fractionText : List Char} {fraction : Option (List Char)}
    (isFraction : IsFraction fractionText fraction) (ended : Text.Ends isDigit rest)
    (noPoint : '.' ∉ rest.head?) : scanFraction (fractionText ++ rest) = (fraction, rest) := by
  cases isFraction with
  | point areDigits =>
    rw [List.cons_append, scanFraction, scanDigits_append areDigits ended]
  | absent =>
    rw [List.nil_append, scanFraction]
    intro others same
    exact noPoint (by rw [same]; rfl)

/-- What is scanned for a fraction is one, and nothing is lost. -/
theorem exists_isFraction_of_scanFraction (text : List Char) :
    ∃ fractionText, IsFraction fractionText (scanFraction text).1 ∧
      text = fractionText ++ (scanFraction text).2 := by
  rw [scanFraction.eq_def]
  split
  · next rest =>
    refine ⟨'.' :: (scanDigits rest).1, .point (Text.accepted_of_mem_takeWhile rest), ?_⟩
    rw [List.cons_append, scanDigits, List.takeWhile_append_dropWhile]
  · exact ⟨[], .absent, rfl⟩

/-- What is scanned for a power begins with a letter and has digits after its sign. -/
theorem scanPower_cons (e : Char) (tail : List Char) :
    scanPower (e :: tail) =
      if (e = 'e' ∨ e = 'E') ∧ (scanDigits (scanSign tail).2).1 ≠ [] then
        (some (signed (scanSign tail).1 (ofDigits (scanDigits (scanSign tail).2).1)),
          (scanDigits (scanSign tail).2).2)
      else (none, e :: tail) :=
  rfl

/-- A power at the end of a text is scanned. -/
theorem scanPower_of_isPower {powerText : List Char} {power : Option Int}
    (isPower : IsPower powerText power) : scanPower powerText = (power, []) := by
  cases isPower with
  | absent => rfl
  | letter isLetter isSign nonempty areDigits =>
    next e signText digits sign =>
    have signScanned : scanSign (signText ++ digits) = (sign, digits) := by
      have unsigned : Unsigned (digits ++ []) := unsigned_digits nonempty areDigits
      rw [List.append_nil] at unsigned
      exact scanSign_append isSign unsigned
    have digitsScanned : scanDigits digits = (digits, []) := by
      have scanned : scanDigits (digits ++ []) = (digits, []) :=
        scanDigits_append areDigits Text.Ends.nil
      rwa [List.append_nil] at scanned
    rw [scanPower_cons, signScanned, digitsScanned, if_pos ⟨isLetter, nonempty⟩]

/-- A power that is scanned up to the end of a text is one. -/
theorem isPower_of_scanPower (scanned : (scanPower text).2 = []) :
    IsPower text (scanPower text).1 := by
  cases text with
  | nil => exact .absent
  | cons e tail =>
    obtain ⟨signText, isSign, tailParts⟩ := exists_isSign_of_scanSign tail
    rw [scanPower_cons] at scanned ⊢
    split at scanned
    · next isPower =>
      obtain ⟨isLetter, nonempty⟩ := isPower
      have digitParts : (scanDigits (scanSign tail).2).1 ++ (scanDigits (scanSign tail).2).2 =
          (scanSign tail).2 := List.takeWhile_append_dropWhile
      rw [scanned, List.append_nil] at digitParts
      have areDigits : Digits (scanDigits (scanSign tail).2).1 :=
        Text.accepted_of_mem_takeWhile (scanSign tail).2
      have spelled := IsPower.letter isLetter isSign nonempty areDigits
      have whole : tail = signText ++ (scanDigits (scanSign tail).2).1 := by
        rwa [digitParts]
      rw [← whole] at spelled
      rwa [if_pos ⟨isLetter, nonempty⟩]
    · cases scanned

end Scan

section Grammar

variable {text : List Char} {numeral : Numeral}

/-- A power goes on neither digits nor a point. -/
theorem IsPower.ends {powerText : List Char} {power : Option Int}
    (isPower : IsPower powerText power) :
    Text.Ends isDigit powerText ∧ '.' ∉ powerText.head? := by
  cases isPower with
  | absent => exact ⟨Text.Ends.nil, nofun⟩
  | letter isLetter isSign nonempty areDigits =>
    rcases isLetter with rfl | rfl
    · exact ⟨Text.Ends.cons rfl, by simp⟩
    · exact ⟨Text.Ends.cons rfl, by simp⟩

/-- A fraction and what follows it go on no digits, if what follows does not. -/
theorem IsFraction.ends {fractionText rest : List Char} {fraction : Option (List Char)}
    (isFraction : IsFraction fractionText fraction) (ended : Text.Ends isDigit rest) :
    Text.Ends isDigit (fractionText ++ rest) := by
  cases isFraction with
  | absent => exact ended
  | point areDigits => exact Text.Ends.cons rfl

/-- The digits of a numeral and what follows them begin with no sign. -/
theorem unsigned_of_digits {whole fractionText rest : List Char} {fraction : Option (List Char)}
    (areDigits : Digits whole) (isFraction : IsFraction fractionText fraction)
    (nonempty : whole ++ fraction.getD [] ≠ []) : Unsigned (whole ++ (fractionText ++ rest)) := by
  by_cases empty : whole = []
  · subst empty
    cases isFraction with
    | absent => exact absurd rfl nonempty
    | point areDigits =>
      intro c atFront
      cases atFront
      exact ⟨by decide, by decide⟩
  · exact unsigned_digits empty areDigits

/-- A text is read when the scan gets to its end and has found a digit. -/
theorem ofText?_def (text : List Char) :
    ofText? text =
      if (scan text).2 = [] ∧ (scan text).1.whole ++ (scan text).1.fraction.getD [] ≠ [] then
        some (scan text).1
      else none :=
  rfl

/-- Every text of the grammar is read as the numeral it spells. -/
theorem ofText?_of_spells (spells : numeral.Spells text) : ofText? text = some numeral := by
  cases spells with
  | intro isSign areDigits isFraction isPower nonempty =>
    next signText whole fractionText powerText sign fraction power =>
    -- Each part ends where the next one begins, so that no scanner takes too much.
    obtain ⟨ended, noPoint⟩ := isPower.ends
    have scanned : scan (signText ++ (whole ++ (fractionText ++ powerText))) =
        (⟨sign, whole, fraction, power⟩, []) := by
      simp only [scan, scanSign_append isSign (unsigned_of_digits areDigits isFraction nonempty),
        scanDigits_append areDigits (isFraction.ends ended),
        scanFraction_append isFraction ended noPoint, scanPower_of_isPower isPower]
    rw [ofText?_def, scanned]
    exact if_pos ⟨rfl, nonempty⟩

/-- Only texts of the grammar are read. -/
theorem spells_of_ofText? (read : ofText? text = some numeral) : numeral.Spells text := by
  obtain ⟨signText, isSign, signParts⟩ := exists_isSign_of_scanSign text
  have wholeParts : (scanDigits (scanSign text).2).1 ++ (scanDigits (scanSign text).2).2 =
      (scanSign text).2 := List.takeWhile_append_dropWhile
  obtain ⟨fractionText, isFraction, fractionParts⟩ :=
    exists_isFraction_of_scanFraction (scanDigits (scanSign text).2).2
  rw [ofText?_def] at read
  split at read
  · next found =>
    obtain ⟨atEnd, nonempty⟩ := found
    cases read
    have areDigits : Digits (scan text).1.whole :=
      Text.accepted_of_mem_takeWhile (scanSign text).2
    have isPower : IsPower (scanFraction (scanDigits (scanSign text).2).2).2 (scan text).1.power :=
      isPower_of_scanPower atEnd
    have spelled := Spells.intro isSign areDigits isFraction isPower nonempty
    have parts : text = signText ++ ((scan text).1.whole ++
        (fractionText ++ (scanFraction (scanDigits (scanSign text).2).2).2)) := by
      rw [← fractionParts]
      exact signParts.trans (congrArg (signText ++ ·) wholeParts.symm)
    rwa [← parts] at spelled
  · cases read

/-- Exactly the texts of the grammar are read, each as the numeral it spells. -/
theorem ofText?_eq_some_iff : ofText? text = some numeral ↔ numeral.Spells text :=
  ⟨spells_of_ofText?, ofText?_of_spells⟩

/-- A numeral looks like a number. -/
theorem Spells.looksNumeric (spells : numeral.Spells text) : LooksNumeric text := by
  cases spells with
  | intro isSign areDigits isFraction isPower nonempty =>
    next signText whole fractionText powerText sign fraction power =>
    cases whole with
    | cons c others => exact .digit isSign (areDigits c List.mem_cons_self)
    | nil =>
      cases isFraction with
      | absent => exact absurd rfl nonempty
      | point fractionDigits =>
        obtain ⟨c, others, rfl⟩ := List.exists_cons_of_ne_nil nonempty
        exact .point isSign (fractionDigits c List.mem_cons_self)

/-- What looks like a number begins with no quote. -/
theorem LooksNumeric.ne_quote {c : Char} (looksNumeric : LooksNumeric text)
    (atFront : c ∈ text.head?) : c ≠ '\'' := by
  cases looksNumeric with
  | digit isSign digit =>
    cases isSign with
    | absent =>
      cases atFront
      exact ne_of_isDigit digit rfl
    | plus | minus =>
      cases atFront
      decide
  | point isSign digit =>
    cases isSign with
    | absent | plus | minus =>
      cases atFront
      decide

/-- An integer is spelled by a numeral without a point and without a power. -/
theorem spellsInteger_iff {n : Int} :
    SpellsInteger text n ↔
      ∃ numeral : Numeral, numeral.Spells text ∧ numeral.isInteger = true ∧ numeral.integer = n := by
  constructor
  · intro spells
    cases spells with
    | intro isSign nonempty areDigits =>
      next signText digits sign =>
      have numeralSpells : Spells (signText ++ (digits ++ ([] ++ []))) ⟨sign, digits, none, none⟩ :=
        .intro isSign areDigits .absent .absent (by simpa using nonempty)
      rw [List.append_nil, List.append_nil] at numeralSpells
      refine ⟨⟨sign, digits, none, none⟩, numeralSpells, rfl, ?_⟩
      simp only [integer, isNegative, signed, beq_iff_eq]
  · rintro ⟨numeral, spells, isInteger, rfl⟩
    cases spells with
    | intro isSign areDigits isFraction isPower nonempty =>
      next signText whole fractionText powerText sign fraction power =>
      cases isFraction with
      | point => cases isInteger
      | absent =>
        cases isPower with
        | letter => cases isInteger
        | absent =>
          have spelled := SpellsInteger.intro isSign (by simpa using nonempty) areDigits
          simpa only [integer, isNegative, signed, beq_iff_eq, List.append_nil] using spelled

end Grammar

section Literals

variable {text : List Char} {numeral : Numeral}

/-- An integer that fits is a literal of its own. -/
theorem literal?_of_fits (isInteger : numeral.isInteger = true) (fits : FitsSigned64 numeral.integer) :
    numeral.literal? = some (.int numeral.integer) := by
  obtain ⟨least, greatest⟩ := fits
  rw [literal?, if_pos]
  simp only [isInteger, Bool.true_and, Bool.and_eq_true, decide_eq_true_eq]
  exact ⟨by simpa using least, by simpa using greatest⟩

/-- Any other numeral stands for the closest double. -/
theorem literal?_of_not_fits
    (noInteger : numeral.isInteger = true → ¬ FitsSigned64 numeral.integer) :
    numeral.literal? = (numeral.decimal.nearest? numeral.isNegative).map .float := by
  rw [literal?, if_neg]
  simp only [Bool.and_eq_true, decide_eq_true_eq, not_and]
  rintro ⟨isInteger, least⟩ greatest
  exact noInteger isInteger ⟨by simpa using least, by simpa using greatest⟩

/-- A text is read as the number that it stands for, and a text that stands for none is
not read. -/
theorem literal?_eq_some_iff {number : Number} :
    (ofText? text).bind literal? = some number ↔ number.IsWritten text := by
  rw [Option.bind_eq_some_iff]
  constructor
  · rintro ⟨numeral, read, literal⟩
    have spells := ofText?_eq_some_iff.1 read
    by_cases fits : numeral.isInteger = true ∧ FitsSigned64 numeral.integer
    · rw [literal?_of_fits fits.1 fits.2] at literal
      cases literal
      exact .integer (spellsInteger_iff.2 ⟨numeral, spells, fits.1, rfl⟩) fits.2
    · rw [literal?_of_not_fits fun isInteger fitsToo => fits ⟨isInteger, fitsToo⟩,
        Option.map_eq_some_iff] at literal
      obtain ⟨d, nearest, rfl⟩ := literal
      refine .float ?_ spells.looksNumeric spells nearest
      intro n spellsInteger fitsToo
      obtain ⟨other, otherSpells, isInteger, rfl⟩ := spellsInteger_iff.1 spellsInteger
      have same := read.symm.trans (ofText?_of_spells otherSpells)
      cases same
      exact fits ⟨isInteger, fitsToo⟩
  · intro written
    cases written with
    | integer spells fits =>
      obtain ⟨numeral, numeralSpells, isInteger, rfl⟩ := spellsInteger_iff.1 spells
      exact ⟨numeral, ofText?_of_spells numeralSpells, literal?_of_fits isInteger fits⟩
    | float noInteger looksNumeric spells nearest =>
      next numeral d =>
      refine ⟨numeral, ofText?_of_spells spells, ?_⟩
      rw [literal?_of_not_fits, nearest]
      · rfl
      · intro isInteger
        exact noInteger numeral.integer (spellsInteger_iff.2 ⟨numeral, spells, isInteger, rfl⟩)

end Literals

end Numeral

/-- Every number is written as a numeral. -/
theorem Number.IsWritten.exists_spells {text : List Char} {number : Number}
    (isWritten : number.IsWritten text) : ∃ numeral : Numeral, numeral.Spells text := by
  cases isWritten with
  | integer spells fits =>
    obtain ⟨numeral, numeralSpells, -⟩ := Numeral.spellsInteger_iff.1 spells
    exact ⟨numeral, numeralSpells⟩
  | float noInteger looksNumeric spells nearest => exact ⟨_, spells⟩

end Templating
