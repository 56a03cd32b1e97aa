import Mathlib.Order.Monotone.Basic
import Templating.Proofs.Number.Rounding

/-!
# Nearest doubles

`nearestMagnitude_isNearest` says that ratios are rounded to the nearest double, and to the even one
of two that are equally close. It follows that a greater ratio is not rounded to a lesser magnitude,
and that integers up to `2 ^ 53` are not changed at all. For the keys of integers, which have a
sign, this is `nearestKey_mono` and `nearestKey_lt`.

The magnitudes of one exponent are multiples of one power of two, so that all of this is reduced to
the rounding of a ratio to a natural number. `IsSignificand` says which multiples they are.
-/

namespace Templating

section Ratios

variable {numerator denominator bound : Nat}

/-- A ratio is rounded by no more than a half, and by a half to an even number only. -/
theorem roundRatio_bounds (numerator : Nat) (positive : 0 < denominator) :
    (2 * (roundRatio numerator denominator * denominator) ≤ 2 * numerator + denominator ∧
      2 * numerator ≤ 2 * (roundRatio numerator denominator * denominator) + denominator) ∧
    (2 * (roundRatio numerator denominator * denominator) = 2 * numerator + denominator ∨
      2 * numerator = 2 * (roundRatio numerator denominator * denominator) + denominator →
      roundRatio numerator denominator % 2 = 0) := by
  have parts := Nat.div_add_mod numerator denominator
  have less := Nat.mod_lt numerator positive
  have next := Nat.succ_mul (numerator / denominator) denominator
  rw [Nat.mul_comm] at parts
  simp only [roundRatio]
  split
  · omega
  · rw [next]
    omega

/-- A ratio that is not above a number is not rounded to one above it. -/
theorem roundRatio_le (positive : 0 < denominator) (below : numerator ≤ bound * denominator) :
    roundRatio numerator denominator ≤ bound := by
  by_contra above
  have multiples := Nat.mul_le_mul_right denominator (Nat.lt_of_not_le above)
  have bounds := (roundRatio_bounds numerator positive).1
  rw [Nat.succ_mul] at multiples
  omega

/-- A ratio that is not below a number is not rounded to one below it. -/
theorem le_roundRatio (positive : 0 < denominator) (above : bound * denominator ≤ numerator) :
    bound ≤ roundRatio numerator denominator := by
  by_contra below
  have multiples := Nat.mul_le_mul_right denominator (Nat.lt_of_not_le below)
  have bounds := (roundRatio_bounds numerator positive).1
  rw [Nat.succ_mul] at multiples
  omega

end Ratios

section Units

variable {exponent significand other : Nat}

/-- What the magnitudes of an exponent are multiples by: numbers of fifty-three bits, and only for
the lowest exponent also smaller ones. The first magnitude of the next exponent counts as well. -/
structure IsSignificand (exponent significand : Nat) : Prop where
  upper : significand ≤ 2 ^ 53
  lower : exponent = 0 ∨ 2 ^ 52 ≤ significand

/-- The units of a magnitude from its exponent and significand. -/
theorem IsSignificand.units_eq (isSignificand : IsSignificand exponent significand) :
    unitsOfMagnitude (exponent * 2 ^ 52 + significand) = significand * 2 ^ exponent := by
  obtain ⟨upper, lower⟩ := isSignificand
  rw [unitsOfMagnitude_def]
  obtain small | normal | carried : significand < 2 ^ 52 ∨
      (2 ^ 52 ≤ significand ∧ significand < 2 ^ 53) ∨ significand = 2 ^ 53 := by omega
  · obtain rfl : exponent = 0 := by omega
    rw [if_pos (by omega)]
    omega
  · have field : (exponent * 2 ^ 52 + significand) / 2 ^ 52 = exponent + 1 := by omega
    have fraction : 2 ^ 52 + (exponent * 2 ^ 52 + significand) % 2 ^ 52 = significand := by omega
    rw [field, fraction, if_neg (Nat.succ_ne_zero exponent), Nat.add_sub_cancel]
  · have field : (exponent * 2 ^ 52 + significand) / 2 ^ 52 = exponent + 2 := by omega
    have fraction : (exponent * 2 ^ 52 + significand) % 2 ^ 52 = 0 := by omega
    have next : 2 ^ (exponent + 2 - 1) = 2 ^ exponent * 2 := Nat.pow_succ 2 exponent
    rw [field, fraction, if_neg (Nat.succ_ne_zero _), carried, next]
    omega

/-- Every magnitude has an exponent and a significand, and so has the next one. -/
theorem exists_isSignificand (magnitude : Nat) : ∃ exponent significand,
    magnitude = exponent * 2 ^ 52 + significand ∧ IsSignificand exponent significand ∧
      IsSignificand exponent (significand + 1) := by
  refine ⟨magnitude / 2 ^ 52 - 1, magnitude - (magnitude / 2 ^ 52 - 1) * 2 ^ 52, by omega, ?_, ?_⟩
  · constructor <;> omega
  · constructor <;> omega

/-- Greater magnitudes stand for more units. -/
theorem strictMono_unitsOfMagnitude : StrictMono unitsOfMagnitude := by
  apply strictMono_nat_of_lt_succ
  intro magnitude
  obtain ⟨exponent, significand, rfl, isSignificand, nextSignificand⟩ :=
    exists_isSignificand magnitude
  rw [Nat.add_assoc, isSignificand.units_eq, nextSignificand.units_eq]
  exact Nat.mul_lt_mul_of_pos_right (Nat.lt_succ_self significand) (Nat.two_pow_pos exponent)

/-- A lesser magnitude stands for less units by one step of the exponent, unless the significand
is the first one of it. -/
theorem IsSignificand.units_add_le (isSignificand : IsSignificand exponent significand)
    (notFirst : exponent = 0 ∨ 2 ^ 52 < significand)
    (less : other < exponent * 2 ^ 52 + significand) :
    unitsOfMagnitude other + 2 ^ exponent ≤ significand * 2 ^ exponent := by
  obtain ⟨upper, -⟩ := isSignificand
  obtain ⟨before, rfl⟩ : ∃ before, significand = before + 1 :=
    Nat.exists_eq_succ_of_ne_zero (by omega)
  have isBefore : IsSignificand exponent before := ⟨by omega, by omega⟩
  have bound : unitsOfMagnitude other ≤ before * 2 ^ exponent := by
    rw [← isBefore.units_eq]
    exact strictMono_unitsOfMagnitude.monotone (by omega)
  rw [Nat.succ_mul]
  omega

/-- A greater magnitude stands for more units by one step of the exponent, unless the significand
is the last one of it. -/
theorem IsSignificand.le_units (isSignificand : IsSignificand exponent significand)
    (notLast : significand < 2 ^ 53) (greater : exponent * 2 ^ 52 + significand < other) :
    significand * 2 ^ exponent + 2 ^ exponent ≤ unitsOfMagnitude other := by
  have isNext : IsSignificand exponent (significand + 1) :=
    ⟨notLast, isSignificand.lower.imp_right Nat.le_succ_of_le⟩
  rw [← Nat.succ_mul, ← isNext.units_eq]
  exact strictMono_unitsOfMagnitude.monotone greater

/-- An integer of fifty-three bits or less, scaled by a power of two, has an exponent and a
significand. -/
theorem exists_isSignificand_of_le {n : Nat} (small : n ≤ 2 ^ 53) (power : Nat) :
    ∃ exponent significand, n * 2 ^ power = significand * 2 ^ exponent ∧
      IsSignificand exponent significand := by
  induction power with
  | zero => exact ⟨0, n, rfl, small, .inl rfl⟩
  | succ power inductionHypothesis =>
    obtain ⟨exponent, significand, same, upper, lower⟩ := inductionHypothesis
    have doubled : n * 2 ^ (power + 1) = significand * 2 ^ exponent * 2 := by
      rw [Nat.pow_succ, ← Nat.mul_assoc, same]
    -- The significand is doubled if there is room for it, and otherwise the exponent grows.
    by_cases room : significand ≤ 2 ^ 52
    · refine ⟨exponent, significand * 2, ?_, by omega, by omega⟩
      rw [doubled, Nat.mul_right_comm]
    · refine ⟨exponent + 1, significand, ?_, upper, by omega⟩
      rw [doubled, Nat.pow_succ, Nat.mul_assoc]

end Units

section Nearest

variable {denominator other : Nat}

/-- How far a magnitude is from a ratio, in units and times the denominator. -/
def magnitudeDistance (numerator denominator magnitude : Nat) : Nat :=
  (((unitsOfMagnitude magnitude * denominator : Nat) : Int) -
    (numerator * 2 ^ unitScale : Nat)).natAbs

/-- A magnitude is the nearest one to a ratio: no other one is closer, and if another one is as
close, the magnitude is even. -/
structure IsNearest (numerator denominator magnitude : Nat) : Prop where
  closest : ∀ other, magnitudeDistance numerator denominator magnitude ≤
    magnitudeDistance numerator denominator other
  even : ∀ other ≠ magnitude, magnitudeDistance numerator denominator other =
    magnitudeDistance numerator denominator magnitude → magnitude % 2 = 0

/-- The nearest magnitude has the significand that the ratio is rounded to in its exponent. -/
theorem exists_isSignificand_nearestMagnitude (numerator : Nat) (positive : 0 < denominator) :
    ∃ exponent significand,
      nearestMagnitude numerator denominator = exponent * 2 ^ 52 + significand ∧
      IsSignificand exponent significand ∧
      significand = roundRatio (numerator * 2 ^ unitScale) (denominator * 2 ^ exponent) ∧
      numerator * 2 ^ unitScale < 2 ^ 53 * (denominator * 2 ^ exponent) ∧
      (exponent = 0 ∨ 2 ^ 52 * (denominator * 2 ^ exponent) ≤ numerator * 2 ^ unitScale) := by
  generalize units : numerator * 2 ^ unitScale = total
  obtain ⟨exponent, isExponent⟩ : ∃ exponent, exponent = Nat.log2 (total / denominator) - 52 :=
    ⟨_, rfl⟩
  have stepPositive : 0 < denominator * 2 ^ exponent := Nat.mul_pos positive (Nat.two_pow_pos _)
  -- The first bits of the ratio in units say where it is between two powers of two.
  have upper : total < 2 ^ 53 * (denominator * 2 ^ exponent) := by
    have bits : total / denominator < 2 ^ (53 + exponent) :=
      Nat.lt_of_lt_of_le Nat.lt_log2_self (Nat.pow_le_pow_right (by decide) (by omega))
    rw [Nat.div_lt_iff_lt_mul positive, Nat.pow_add] at bits
    rwa [Nat.mul_comm denominator, ← Nat.mul_assoc]
  have lower : exponent = 0 ∨ 2 ^ 52 * (denominator * 2 ^ exponent) ≤ total := by
    by_cases isLowest : exponent = 0
    · exact .inl isLowest
    · have logarithm : Nat.log2 (total / denominator) = 52 + exponent := by omega
      have filled : total / denominator ≠ 0 := by
        intro empty
        rw [empty] at logarithm
        have noBits : Nat.log2 0 = 0 := by decide
        omega
      have bits := Nat.log2_self_le filled
      rw [logarithm, Nat.le_div_iff_mul_le positive, Nat.pow_add] at bits
      rw [Nat.mul_comm denominator, ← Nat.mul_assoc]
      exact .inr bits
  refine ⟨exponent, _, ?_, ⟨roundRatio_le stepPositive upper.le,
    lower.imp_right (le_roundRatio stepPositive)⟩, rfl, upper, lower⟩
  rw [nearestMagnitude_def, units, isExponent]

/-- Another magnitude is not closer to a ratio than the one that it is rounded to, and as close only
if that one is even. -/
theorem magnitudeDistance_nearestMagnitude_le (numerator : Nat) (positive : 0 < denominator)
    (isOther : other ≠ nearestMagnitude numerator denominator) :
    magnitudeDistance numerator denominator (nearestMagnitude numerator denominator) ≤
      magnitudeDistance numerator denominator other ∧
    (magnitudeDistance numerator denominator other =
      magnitudeDistance numerator denominator (nearestMagnitude numerator denominator) →
      nearestMagnitude numerator denominator % 2 = 0) := by
  obtain ⟨exponent, significand, same, isSignificand, isRounded, below, above⟩ :=
    exists_isSignificand_nearestMagnitude numerator positive
  rw [same] at isOther ⊢
  have stepPositive : 0 < denominator * 2 ^ exponent := Nat.mul_pos positive (Nat.two_pow_pos _)
  have bounds := roundRatio_bounds (numerator * 2 ^ unitScale) stepPositive
  rw [← isRounded] at bounds
  have here : unitsOfMagnitude (exponent * 2 ^ 52 + significand) * denominator =
      significand * (denominator * 2 ^ exponent) := by
    rw [isSignificand.units_eq, Nat.mul_assoc, Nat.mul_comm denominator]
  have scaled : ∀ units, units * denominator + denominator * 2 ^ exponent =
      (units + 2 ^ exponent) * denominator := by
    intro units
    rw [Nat.add_mul, Nat.mul_comm denominator]
  simp only [magnitudeDistance, here]
  generalize numerator * 2 ^ unitScale = total at *
  -- The other magnitude is further away, unless the ratio lies between the two. Then they are at
  -- least one step of the exponent apart, and rounding goes no more than half a step.
  obtain less | greater := Nat.lt_or_gt_of_ne isOther
  · have fewer := Nat.mul_lt_mul_of_pos_right (strictMono_unitsOfMagnitude less) positive
    rw [here] at fewer
    by_cases reached : significand * (denominator * 2 ^ exponent) ≤ total
    · omega
    · have notFirst : exponent = 0 ∨ 2 ^ 52 < significand :=
        above.imp_right fun normal =>
          Nat.lt_of_mul_lt_mul_right (Nat.lt_of_le_of_lt normal (Nat.lt_of_not_le reached))
      have step := Nat.mul_le_mul_right denominator (isSignificand.units_add_le notFirst less)
      rw [← scaled, ← isSignificand.units_eq, here] at step
      omega
  · have more := Nat.mul_lt_mul_of_pos_right (strictMono_unitsOfMagnitude greater) positive
    rw [here] at more
    by_cases reached : total ≤ significand * (denominator * 2 ^ exponent)
    · omega
    · have notLast : significand < 2 ^ 53 :=
        Nat.lt_of_mul_lt_mul_right (Nat.lt_trans (Nat.lt_of_not_le reached) below)
      have step := Nat.mul_le_mul_right denominator (isSignificand.le_units notLast greater)
      rw [← scaled, ← isSignificand.units_eq, here] at step
      omega

/-- Rounding is to the nearest magnitude, and to the even one of two that are equally close. -/
theorem nearestMagnitude_isNearest (numerator : Nat) (positive : 0 < denominator) :
    IsNearest numerator denominator (nearestMagnitude numerator denominator) where
  closest other := by
    by_cases isOther : other = nearestMagnitude numerator denominator
    · rw [isOther]
    · exact (magnitudeDistance_nearestMagnitude_le numerator positive isOther).1
  even other isOther :=
    (magnitudeDistance_nearestMagnitude_le numerator positive isOther).2

/-- A greater ratio is not rounded to a lesser magnitude. -/
theorem nearestMagnitude_mono (positive : 0 < denominator) {first second : Nat}
    (le : first ≤ second) :
    nearestMagnitude first denominator ≤ nearestMagnitude second denominator := by
  by_contra inverted
  have differ : first ≠ second := by
    rintro rfl
    exact inverted (Nat.le_refl _)
  have lessUnits := Nat.mul_lt_mul_of_pos_right
    (strictMono_unitsOfMagnitude (Nat.lt_of_not_le inverted)) positive
  have lessTotal : first * 2 ^ unitScale < second * 2 ^ unitScale :=
    Nat.mul_lt_mul_of_pos_right (by omega) (Nat.two_pow_pos _)
  -- Each ratio would have to be nearer to the magnitude that lies on the side of the other one.
  have firstClosest := (nearestMagnitude_isNearest first positive).closest
    (nearestMagnitude second denominator)
  have secondClosest := (nearestMagnitude_isNearest second positive).closest
    (nearestMagnitude first denominator)
  simp only [magnitudeDistance] at firstClosest secondClosest
  generalize first * 2 ^ unitScale = firstTotal at *
  generalize second * 2 ^ unitScale = secondTotal at *
  omega

/-- Integers up to `2 ^ 53` are not changed by rounding. -/
theorem unitsOfMagnitude_nearestMagnitude {n : Nat} (small : n ≤ 2 ^ 53) :
    unitsOfMagnitude (nearestMagnitude n 1) = n * 2 ^ unitScale := by
  obtain ⟨exponent, significand, same, isSignificand⟩ :=
    exists_isSignificand_of_le small unitScale
  -- The integer is a magnitude, so the nearest one is not away from it.
  have closest := (nearestMagnitude_isNearest n Nat.one_pos).closest
    (exponent * 2 ^ 52 + significand)
  simp only [magnitudeDistance, isSignificand.units_eq, ← same, Nat.mul_one] at closest
  generalize n * 2 ^ unitScale = total at *
  omega

/-- Different integers up to `2 ^ 53` stay different. -/
theorem nearestMagnitude_lt {first second : Nat} (less : first < second)
    (small : second ≤ 2 ^ 53) : nearestMagnitude first 1 < nearestMagnitude second 1 := by
  apply strictMono_unitsOfMagnitude.lt_iff_lt.1
  rw [unitsOfMagnitude_nearestMagnitude (by omega), unitsOfMagnitude_nearestMagnitude small]
  exact Nat.mul_lt_mul_of_pos_right less (Nat.two_pow_pos unitScale)

end Nearest

section Keys

variable {first second : Int}

/-- A greater integer does not have a lesser key. -/
theorem nearestKey_mono (le : first ≤ second) : nearestKey first ≤ nearestKey second := by
  rw [nearestKey, nearestKey]
  -- Below zero, the order of absolute values is the other way round.
  split
  · split
    · have absolute : second.natAbs ≤ first.natAbs := by omega
      have magnitudes := nearestMagnitude_mono Nat.one_pos absolute
      omega
    · omega
  · rw [if_neg (by omega)]
    have absolute : first.natAbs ≤ second.natAbs := by omega
    have magnitudes := nearestMagnitude_mono Nat.one_pos absolute
    omega

/-- Up to `2 ^ 53`, a greater integer has a greater key. -/
theorem nearestKey_lt (less : first < second) (firstSmall : first.natAbs ≤ 2 ^ 53)
    (secondSmall : second.natAbs ≤ 2 ^ 53) : nearestKey first < nearestKey second := by
  rw [nearestKey, nearestKey]
  split
  · split
    · have absolute : second.natAbs < first.natAbs := by omega
      have magnitudes := nearestMagnitude_lt absolute firstSmall
      omega
    · have absolute : 0 < first.natAbs := by omega
      have magnitudes := nearestMagnitude_lt absolute firstSmall
      omega
  · rw [if_neg (by omega)]
    have absolute : first.natAbs < second.natAbs := by omega
    have magnitudes := nearestMagnitude_lt absolute secondSmall
    omega

end Keys

end Templating
