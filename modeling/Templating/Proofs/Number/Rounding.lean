import Mathlib.Algebra.Group.Nat.Defs
import Templating.Number.Decimal
import Templating.Proofs.Number.Digits

/-!
# Rounding

What a ratio is rounded to depends on its value alone, and a double is rounded to
itself. From these two facts a decimal has the same closest double however its digits and
its power of ten share its value (`Decimal.magnitude_mul_pow`), the shortest digits of a
double stand for its absolute value (`Double.magnitude_shortest`), and the bounds beyond
which powers of ten are not computed change no result (`Decimal.nearest?_eq`).
-/

namespace Templating

section Ratios

variable {numerator denominator scale : Nat}

/-- Scaling both parts of a ratio does not change what it is rounded to. -/
theorem roundRatio_mul_right (positive : 0 < scale) :
    roundRatio (numerator * scale) (denominator * scale) = roundRatio numerator denominator := by
  have twice : 2 * (numerator % denominator * scale) = 2 * (numerator % denominator) * scale :=
    (Nat.mul_assoc _ _ _).symm
  simp only [roundRatio, Nat.mul_div_mul_right _ _ positive, Nat.mul_mod_mul_right, twice,
    Nat.mul_lt_mul_right positive, Nat.mul_left_inj (Nat.ne_of_gt positive)]

/-- A whole number is rounded to itself. -/
theorem roundRatio_mul_self (quotient : Nat) (positive : 0 < denominator) :
    roundRatio (quotient * denominator) denominator = quotient := by
  simp only [roundRatio, Nat.mul_div_cancel _ positive, Nat.mul_mod_left]
  exact if_pos (.inl positive)

/-- A ratio below one half is rounded to zero. -/
theorem roundRatio_eq_zero (small : 2 * numerator < denominator) :
    roundRatio numerator denominator = 0 := by
  have below : numerator < denominator := by omega
  simp only [roundRatio, Nat.div_eq_of_lt below, Nat.mod_eq_of_lt below]
  exact if_pos (.inl small)

/-- The closest magnitude in terms of the ratio in units. -/
theorem nearestMagnitude_def (numerator denominator : Nat) :
    nearestMagnitude numerator denominator =
      (Nat.log2 (numerator * 2 ^ unitScale / denominator) - 52) * 2 ^ 52 +
        roundRatio (numerator * 2 ^ unitScale)
          (denominator * 2 ^ (Nat.log2 (numerator * 2 ^ unitScale / denominator) - 52)) := by
  simp only [nearestMagnitude, Nat.pow_eq]

/-- The units of a magnitude: those below the first exponent count themselves. -/
theorem unitsOfMagnitude_def (magnitude : Nat) :
    unitsOfMagnitude magnitude =
      if magnitude / 2 ^ 52 = 0 then magnitude
      else (2 ^ 52 + magnitude % 2 ^ 52) * 2 ^ (magnitude / 2 ^ 52 - 1) := by
  simp only [unitsOfMagnitude, Nat.pow_eq]

/-- Scaling both parts of a ratio does not change the closest magnitude. -/
theorem nearestMagnitude_mul_right (positive : 0 < scale) :
    nearestMagnitude (numerator * scale) (denominator * scale) =
      nearestMagnitude numerator denominator := by
  rw [nearestMagnitude_def, nearestMagnitude_def, Nat.mul_right_comm numerator scale,
    Nat.mul_div_mul_right _ _ positive, Nat.mul_right_comm denominator scale,
    roundRatio_mul_right positive]

/-- Equal ratios have the same closest magnitude. -/
theorem nearestMagnitude_eq_of_ratio {otherNumerator otherDenominator : Nat}
    (positive : 0 < denominator) (otherPositive : 0 < otherDenominator)
    (same : numerator * otherDenominator = otherNumerator * denominator) :
    nearestMagnitude numerator denominator = nearestMagnitude otherNumerator otherDenominator :=
  calc nearestMagnitude numerator denominator
    _ = nearestMagnitude (numerator * otherDenominator) (denominator * otherDenominator) :=
        (nearestMagnitude_mul_right otherPositive).symm
    _ = nearestMagnitude (otherNumerator * denominator) (otherDenominator * denominator) := by
        rw [same, Nat.mul_comm denominator]
    _ = nearestMagnitude otherNumerator otherDenominator := nearestMagnitude_mul_right positive

/-- A ratio of less than half a unit is closest to zero. -/
theorem nearestMagnitude_eq_zero (small : 2 * (numerator * 2 ^ unitScale) < denominator) :
    nearestMagnitude numerator denominator = 0 := by
  have noUnits : numerator * 2 ^ unitScale / denominator = 0 := Nat.div_eq_of_lt (by omega)
  have noExponent : Nat.log2 0 - 52 = 0 := by decide
  rw [nearestMagnitude_def, noUnits, noExponent, Nat.zero_mul, Nat.pow_zero, Nat.mul_one,
    roundRatio_eq_zero small]

/-- A ratio from `2 ^ 1025` up is beyond every double. -/
theorem infiniteMagnitude_le_nearestMagnitude {power : Nat} (enough : 1025 ≤ power)
    (positive : 0 < denominator) (large : denominator * 2 ^ power ≤ numerator) :
    infiniteMagnitude ≤ nearestMagnitude numerator denominator := by
  have manyUnits : 2 ^ (power + unitScale) ≤ numerator * 2 ^ unitScale / denominator := by
    rw [Nat.le_div_iff_mul_le positive, Nat.mul_comm, Nat.pow_add, ← Nat.mul_assoc]
    exact Nat.mul_le_mul_right _ large
  have nonzero : numerator * 2 ^ unitScale / denominator ≠ 0 :=
    Nat.ne_of_gt (Nat.lt_of_lt_of_le (Nat.two_pow_pos _) manyUnits)
  have exponent := (Nat.le_log2 nonzero).2 manyUnits
  have scale : unitScale = 1074 := rfl
  rw [nearestMagnitude_def, infiniteMagnitude, Nat.pow_eq]
  exact Nat.le_add_right_of_le (Nat.mul_le_mul_right _ (by omega))

/-- Units below the first exponent are rounded to themselves. -/
theorem roundRatio_units {units : Nat} (small : units < 2 ^ 52) :
    (Nat.log2 units - 52) * 2 ^ 52 + roundRatio units (2 ^ (Nat.log2 units - 52)) = units := by
  have noExponent : Nat.log2 units - 52 = 0 := by
    by_cases zero : units = 0
    · rw [zero]
      decide
    · have := (Nat.log2_lt zero).2 small
      omega
  have exact := roundRatio_mul_self units Nat.one_pos
  rw [Nat.mul_one] at exact
  rw [noExponent, Nat.zero_mul, Nat.zero_add, Nat.pow_zero, exact]

/-- Units of fifty-three significant bits give their exponent and significand back. -/
theorem roundRatio_significand {fraction : Nat} (small : fraction < 2 ^ 52) (exponent : Nat) :
    (Nat.log2 ((2 ^ 52 + fraction) * 2 ^ exponent) - 52) * 2 ^ 52 +
        roundRatio ((2 ^ 52 + fraction) * 2 ^ exponent)
          (2 ^ (Nat.log2 ((2 ^ 52 + fraction) * 2 ^ exponent) - 52)) =
      exponent * 2 ^ 52 + (2 ^ 52 + fraction) := by
  have positive : 0 < 2 ^ exponent := Nat.two_pow_pos exponent
  have logarithm : Nat.log2 ((2 ^ 52 + fraction) * 2 ^ exponent) = 52 + exponent := by
    rw [Nat.log2_eq_iff (Nat.ne_of_gt (Nat.mul_pos (by omega) positive))]
    constructor
    · rw [Nat.pow_add]
      exact Nat.mul_le_mul_right _ (Nat.le_add_right _ _)
    · rw [Nat.add_right_comm, Nat.pow_add]
      exact Nat.mul_lt_mul_of_pos_right (by omega) positive
  rw [logarithm, Nat.add_sub_cancel_left, roundRatio_mul_self _ positive]

/-- Each magnitude is the closest one to what it stands for. -/
theorem nearestMagnitude_unitsOfMagnitude (magnitude : Nat) :
    nearestMagnitude (unitsOfMagnitude magnitude) (2 ^ unitScale) = magnitude := by
  have positive : 0 < 2 ^ unitScale := Nat.two_pow_pos unitScale
  rw [nearestMagnitude_def, Nat.mul_div_cancel _ positive, Nat.mul_comm (2 ^ unitScale),
    roundRatio_mul_right positive, unitsOfMagnitude_def]
  -- With the unit cancelled, the units are rounded to their own first fifty-three bits.
  split
  · next noField => exact roundRatio_units (by omega)
  · next field =>
    rw [roundRatio_significand (Nat.mod_lt _ (Nat.two_pow_pos 52))]
    omega

end Ratios

namespace Decimal

/-- The closest magnitude in terms of one ratio, whatever the sign of the exponent. -/
theorem magnitude_eq (d : Decimal) :
    d.magnitude =
      nearestMagnitude (d.digits * 10 ^ d.exponent.toNat) (10 ^ (-d.exponent).toNat) := by
  rw [magnitude]
  split
  · next whole =>
    have noDenominator : (-d.exponent).toNat = 0 := by omega
    rw [noDenominator]
    rfl
  · next below =>
    have noFactor : d.exponent.toNat = 0 := by omega
    rw [noFactor, Nat.pow_zero, Nat.mul_one]
    rfl

/-- Zeros at the end of the digits count as places of the exponent. -/
theorem magnitude_mul_pow (digits places : Nat) (exponent : Int) :
    magnitude ⟨digits * 10 ^ places, exponent⟩ = magnitude ⟨digits, exponent + places⟩ := by
  rw [magnitude_eq, magnitude_eq]
  refine nearestMagnitude_eq_of_ratio (Nat.pow_pos (by decide)) (Nat.pow_pos (by decide)) ?_
  -- Crosswise both ratios have the same power of ten, on whichever side of zero they are.
  have exponents : places + exponent.toNat + (-(exponent + places)).toNat =
      (exponent + places).toNat + (-exponent).toNat := by omega
  change digits * 10 ^ places * 10 ^ exponent.toNat * 10 ^ (-(exponent + places)).toNat =
    digits * 10 ^ (exponent + places).toNat * 10 ^ (-exponent).toNat
  rw [Nat.mul_assoc digits, ← Nat.pow_add, Nat.mul_assoc digits, ← Nat.pow_add, exponents,
    Nat.pow_add, Nat.mul_assoc]

/-- Moving zeros into the exponent keeps the closest magnitude. -/
theorem magnitude_reduced (d : Decimal) : d.reduced.magnitude = d.magnitude := by
  induction d using reduced.induct with
  | case1 d trailing inductionHypothesis =>
    have digits : d.digits / 10 * 10 ^ 1 = d.digits := by omega
    have moved := magnitude_mul_pow (d.digits / 10) 1 d.exponent
    rw [digits] at moved
    rw [reduced, dif_pos trailing, inductionHypothesis]
    exact moved.symm
  | case2 d noTrailing => rw [reduced, dif_neg noTrailing]

/-- No digits stand for zero. -/
theorem magnitude_eq_zero {d : Decimal} (zero : d.digits = 0) : d.magnitude = 0 := by
  rw [magnitude_eq, zero, Nat.zero_mul]
  refine nearestMagnitude_eq_zero ?_
  rw [Nat.zero_mul]
  exact Nat.pow_pos (by decide)

/-- Powers of ten against powers of two. -/
theorem two_pow_le_ten_pow {binary places : Nat} (enough : binary ≤ 3 * places) :
    2 ^ binary ≤ 10 ^ places :=
  calc 2 ^ binary ≤ 2 ^ (3 * places) := Nat.pow_le_pow_right (by decide) enough
    _ = 8 ^ places := Nat.pow_mul 2 3 places
    _ ≤ 10 ^ places := Nat.pow_le_pow_left (by decide) places

/-- Decimals below the lower bound are closest to zero. -/
theorem magnitude_eq_zero_of_place {d : Decimal}
    (low : (decimalDigits d.digits).length + d.exponent < -exponentBound) : d.magnitude = 0 := by
  rw [exponentBound] at low
  have noFactor : d.exponent.toNat = 0 := by omega
  have below : d.digits < 10 ^ (decimalDigits d.digits).length := lt_pow_length_decimalDigits d.digits
  obtain ⟨more, places⟩ : ∃ more, (-d.exponent).toNat = (decimalDigits d.digits).length + more :=
    Nat.exists_eq_add_of_le (by omega)
  have scale : unitScale = 1074 := rfl
  rw [magnitude_eq, noFactor, Nat.pow_zero, Nat.mul_one]
  refine nearestMagnitude_eq_zero ?_
  calc 2 * (d.digits * 2 ^ unitScale) = d.digits * 2 ^ (unitScale + 1) := by
        rw [Nat.pow_succ, Nat.mul_left_comm, Nat.mul_comm 2]
    _ ≤ d.digits * 10 ^ more := Nat.mul_le_mul_left _ (two_pow_le_ten_pow (by omega))
    _ < 10 ^ (decimalDigits d.digits).length * 10 ^ more :=
        Nat.mul_lt_mul_of_pos_right below (Nat.pow_pos (by decide))
    _ = 10 ^ (-d.exponent).toNat := by rw [places, Nat.pow_add]

/-- Decimals above the upper bound are beyond every double. -/
theorem infiniteMagnitude_le_of_place {d : Decimal} (nonzero : d.digits ≠ 0)
    (high : exponentBound < (decimalDigits d.digits).length + d.exponent) :
    infiniteMagnitude ≤ d.magnitude := by
  rw [exponentBound] at high
  have above : 10 ^ ((decimalDigits d.digits).length - 1) ≤ d.digits :=
    pow_length_decimalDigits_le nonzero
  obtain ⟨more, places⟩ : ∃ more, (decimalDigits d.digits).length - 1 + d.exponent.toNat =
      (-d.exponent).toNat + more :=
    Nat.exists_eq_add_of_le (by omega)
  rw [magnitude_eq]
  refine infiniteMagnitude_le_nearestMagnitude (Nat.le_refl 1025) (Nat.pow_pos (by decide)) ?_
  calc 10 ^ (-d.exponent).toNat * 2 ^ 1025 ≤ 10 ^ (-d.exponent).toNat * 10 ^ more :=
        Nat.mul_le_mul_left _ (two_pow_le_ten_pow (by omega))
    _ = 10 ^ ((decimalDigits d.digits).length - 1) * 10 ^ d.exponent.toNat := by
        rw [← Nat.pow_add, ← Nat.pow_add, places]
    _ ≤ d.digits * 10 ^ d.exponent.toNat := Nat.mul_le_mul_right _ above

/-- The bounds of the exponent change no result: a decimal is read as the double of its
closest magnitude, if that is finite. -/
theorem nearest?_eq (negative : Bool) (d : Decimal) :
    d.nearest? negative = Double.ofMagnitude? negative d.magnitude := by
  rw [nearest?]
  split
  · next low =>
    have zero : d.magnitude = 0 := low.elim magnitude_eq_zero magnitude_eq_zero_of_place
    rw [zero]
    rfl
  · next notLow =>
    split
    · next high =>
      have infinite := infiniteMagnitude_le_of_place (fun zero => notLow (.inl zero)) high
      rw [Double.ofMagnitude?, dif_neg (Nat.not_lt.2 infinite)]
    · rfl

end Decimal

namespace Double

/-- A double is its own magnitude with its own sign. -/
theorem ofMagnitude?_magnitude (d : Double) : ofMagnitude? d.negative d.magnitude = some d :=
  dif_pos d.magnitude_lt

/-- The exact decimal stands for the absolute value. -/
theorem magnitude_exactDecimal (d : Double) : d.exactDecimal.magnitude = d.magnitude := by
  have ratio : d.exactDecimal.magnitude = nearestMagnitude d.units (2 ^ unitScale) := by
    have noFactor : (-(unitScale : Int)).toNat = 0 := by omega
    have denominator : (- -(unitScale : Int)).toNat = unitScale := by omega
    rw [Decimal.magnitude_eq, exactDecimal, noFactor, denominator, Nat.pow_eq, Nat.pow_zero,
      Nat.mul_one]
    refine nearestMagnitude_eq_of_ratio (Nat.pow_pos (by decide)) (Nat.two_pow_pos _) ?_
    rw [Nat.mul_assoc, ← Nat.mul_pow]
  rw [ratio]
  exact nearestMagnitude_unitsOfMagnitude d.magnitude

/-- A neighbour is kept only if it is read back as the absolute value. -/
theorem magnitude_of_readBack? {d : Double} {exponent : Int} {neighbour : Decimal}
    (kept : d.readBack? exponent = some neighbour) : neighbour.magnitude = d.magnitude := by
  rw [readBack?] at kept
  have readBack := List.find?_some kept
  simpa using readBack

/-- The shortest digits stand for the absolute value. -/
theorem magnitude_shortest (d : Double) : d.shortest.magnitude = d.magnitude := by
  rw [shortest]
  split
  · next zero =>
    rw [zero]
    exact Decimal.magnitude_eq_zero rfl
  · rw [Decimal.magnitude_reduced]
    -- No bound on the number of digits is needed: without a candidate there is the exact decimal.
    cases found : (List.range' 1 enoughDigits).findSome?
        fun count : Nat => d.readBack? (d.decimalPlace - count) with
    | none => exact magnitude_exactDecimal d
    | some neighbour =>
      obtain ⟨count, -, kept⟩ := List.exists_of_findSome?_eq_some found
      exact magnitude_of_readBack? kept

end Double

end Templating
