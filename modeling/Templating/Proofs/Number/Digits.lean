import Mathlib.Algebra.Group.Nat.Defs
import Mathlib.Data.List.Basic
import Mathlib.Data.List.Induction
import Templating.Number.Decimal

/-!
# Digits

Writing a natural number in digits loses nothing: `ofDigits_decimalDigits` reads the
digits back. Nothing but digits is written, and at least one of them is, the first of
which is a zero for zero only. `isCanonical_iff` says that these are all such texts.
-/

namespace Templating

/-- A text of digits only; it may be empty. -/
def Digits (text : List Char) : Prop :=
  ∀ c ∈ text, isDigit c = true

/-- Digits after digits are digits. -/
theorem Digits.append {front back : List Char} (frontDigits : Digits front)
    (backDigits : Digits back) : Digits (front ++ back) := by
  intro c member
  rcases List.mem_append.1 member with before | after
  · exact frontDigits c before
  · exact backDigits c after

/-- The first of some digits are digits. -/
theorem Digits.take {digits : List Char} (areDigits : Digits digits) (count : Nat) :
    Digits (digits.take count) :=
  fun c member => areDigits c (List.mem_of_mem_take member)

/-- The last of some digits are digits. -/
theorem Digits.drop {digits : List Char} (areDigits : Digits digits) (count : Nat) :
    Digits (digits.drop count) :=
  fun c member => areDigits c (List.mem_of_mem_drop member)

/-- A run of zeros is made of digits. -/
theorem digits_zeros (count : Nat) : Digits (List.replicate count '0') := by
  intro c member
  rw [List.eq_of_mem_replicate member]
  rfl

/-- The digit of a number below ten is the character that far after the zero. -/
theorem toNat_digitChar {n : Nat} (small : n < 10) : (digitChar n).toNat = '0'.toNat + n := by
  have valid : ('0'.toNat + n).isValidChar := .inl (by simp; omega)
  rw [digitChar, Char.ofNat, dif_pos valid]
  rfl

/-- The digit of a number below ten is a digit. -/
theorem isDigit_digitChar {n : Nat} (small : n < 10) : isDigit (digitChar n) = true := by
  have place := toNat_digitChar small
  simp only [isDigit, Bool.and_eq_true, decide_eq_true_eq, Char.le_def, UInt32.le_iff_toNat_le]
  change '0'.toNat ≤ (digitChar n).toNat ∧ (digitChar n).toNat ≤ '9'.toNat
  rw [place]
  exact ⟨Nat.le_add_right _ _, Nat.add_le_add_left (Nat.le_of_lt_succ small) _⟩

/-- One more digit counts for itself, and the digits before it for ten times as much. -/
theorem ofDigits_concat (digits : List Char) (c : Char) :
    ofDigits (digits ++ [c]) = ofDigits digits * 10 + (c.toNat - '0'.toNat) := by
  rw [ofDigits, List.foldl_append]
  rfl

/-- Zeros behind digits multiply by powers of ten. -/
theorem ofDigits_append_zeros (digits : List Char) (count : Nat) :
    ofDigits (digits ++ List.replicate count '0') = ofDigits digits * 10 ^ count := by
  induction count with
  | zero => simp
  | succ count inductionHypothesis =>
    rw [List.replicate_succ', ← List.append_assoc, ofDigits_concat, inductionHypothesis,
      Nat.pow_succ, Nat.mul_assoc, Nat.sub_self, Nat.add_zero]

/-- Zeros in front of digits count for nothing. -/
theorem ofDigits_zeros_append (digits : List Char) (count : Nat) :
    ofDigits (List.replicate count '0' ++ digits) = ofDigits digits := by
  have zeros := ofDigits_append_zeros [] count
  rw [List.nil_append] at zeros
  change ofDigits (List.replicate count '0') = 0 * 10 ^ count at zeros
  rw [ofDigits, List.foldl_append, ← ofDigits, zeros, Nat.zero_mul]
  rfl

/-- The digits of a number spell that number. -/
theorem ofDigits_decimalDigits (n : Nat) : ofDigits (decimalDigits n) = n := by
  induction n using Nat.strongRecOn with
  | ind n inductionHypothesis =>
    rw [decimalDigits]
    split
    · next small =>
      rw [← List.nil_append [digitChar n], ofDigits_concat, toNat_digitChar small]
      simp [ofDigits]
    · next large =>
      have lastSmall : n % 10 < 10 := Nat.mod_lt n (by decide)
      have fewer : n / 10 < n := by omega
      rw [ofDigits_concat, inductionHypothesis (n / 10) fewer, toNat_digitChar lastSmall,
        Nat.add_sub_cancel_left]
      omega

/-- Numbers are written in digits only. -/
theorem isDigit_of_mem_decimalDigits {n : Nat} {c : Char} (member : c ∈ decimalDigits n) :
    isDigit c = true := by
  induction n using Nat.strongRecOn with
  | ind n inductionHypothesis =>
    rw [decimalDigits] at member
    split at member
    · next small =>
      rw [List.mem_singleton.1 member]
      exact isDigit_digitChar small
    · next large =>
      rcases List.mem_append.1 member with before | last
      · exact inductionHypothesis (n / 10) (by omega) before
      · rw [List.mem_singleton.1 last]
        exact isDigit_digitChar (Nat.mod_lt n (by decide))

theorem digits_decimalDigits (n : Nat) : Digits (decimalDigits n) :=
  fun _ member => isDigit_of_mem_decimalDigits member

/-- Every number is written with a digit. -/
theorem decimalDigits_ne_nil (n : Nat) : decimalDigits n ≠ [] := by
  rw [decimalDigits]
  split
  · exact List.cons_ne_nil _ _
  · exact List.append_ne_nil_of_right_ne_nil _ (List.cons_ne_nil _ _)

/-- A number of so many digits is below that power of ten. -/
theorem lt_pow_length_decimalDigits (n : Nat) : n < 10 ^ (decimalDigits n).length := by
  induction n using Nat.strongRecOn with
  | ind n inductionHypothesis =>
    rw [decimalDigits]
    split
    · next small => exact small
    · next large =>
      have fewer := inductionHypothesis (n / 10) (by omega)
      rw [List.length_append, List.length_singleton, Nat.pow_succ]
      omega

/-- A number of so many digits is at least the power of ten before that one. -/
theorem pow_length_decimalDigits_le {n : Nat} (nonzero : n ≠ 0) :
    10 ^ ((decimalDigits n).length - 1) ≤ n := by
  induction n using Nat.strongRecOn with
  | ind n inductionHypothesis =>
    rw [decimalDigits]
    split
    · next small => exact Nat.pos_of_ne_zero nonzero
    · next large =>
      have fewer := inductionHypothesis (n / 10) (by omega) (by omega)
      have positive : 0 < (decimalDigits (n / 10)).length :=
        List.length_pos_iff.2 (decimalDigits_ne_nil (n / 10))
      have more : (decimalDigits (n / 10)).length =
          (decimalDigits (n / 10)).length - 1 + 1 := by omega
      rw [List.length_append, List.length_singleton, Nat.add_sub_cancel, more, Nat.pow_succ]
      omega

section Canonical

/-- A text of at least one digit, with no zero in front of others. -/
structure IsCanonical (text : List Char) : Prop where
  digits : Digits text
  nonempty : text ≠ []
  noLeadingZero : text.head? = some '0' → text = ['0']

/-- Every digit is that of a number below ten. -/
theorem exists_digitChar_of_isDigit {c : Char} (digit : isDigit c = true) :
    ∃ n, n < 10 ∧ digitChar n = c := by
  simp only [isDigit, Bool.and_eq_true, decide_eq_true_eq, Char.le_def,
    UInt32.le_iff_toNat_le] at digit
  change '0'.toNat ≤ c.toNat ∧ c.toNat ≤ '9'.toNat at digit
  have zero : '0'.toNat = 48 := rfl
  have nine : '9'.toNat = 57 := rfl
  have small : c.toNat - '0'.toNat < 10 := by omega
  refine ⟨c.toNat - '0'.toNat, small, Char.toNat_inj.1 ?_⟩
  rw [toNat_digitChar small]
  omega

/-- A number below ten is written as its digit. -/
theorem decimalDigits_of_lt {n : Nat} (small : n < 10) : decimalDigits n = [digitChar n] := by
  rw [decimalDigits, if_pos small]

/-- A number from ten on is written with the digits of its tenth in front. -/
theorem decimalDigits_mul_ten_add {n last : Nat} (positive : n ≠ 0) (small : last < 10) :
    decimalDigits (n * 10 + last) = decimalDigits n ++ [digitChar last] := by
  have large : ¬ n * 10 + last < 10 := by omega
  have front : (n * 10 + last) / 10 = n := by omega
  have back : (n * 10 + last) % 10 = last := by omega
  rw [decimalDigits, if_neg large, front, back]

/-- Only zero is written with a zero in front. -/
theorem eq_zero_of_head?_decimalDigits {n : Nat}
    (zeroInFront : (decimalDigits n).head? = some '0') :
    n = 0 := by
  induction n using Nat.strongRecOn with
  | ind n inductionHypothesis =>
    rw [decimalDigits] at zeroInFront
    split at zeroInFront
    · next small =>
      have place := toNat_digitChar small
      rw [Option.some.inj zeroInFront] at place
      omega
    · next large =>
      rw [List.head?_append_of_ne_nil _ (decimalDigits_ne_nil _)] at zeroInFront
      have tenth := inductionHypothesis (n / 10) (by omega) zeroInFront
      omega

theorem isCanonical_decimalDigits (n : Nat) : IsCanonical (decimalDigits n) where
  digits := digits_decimalDigits n
  nonempty := decimalDigits_ne_nil n
  noLeadingZero := by
    intro zeroInFront
    rw [eq_zero_of_head?_decimalDigits zeroInFront, decimalDigits_of_lt (by decide)]
    rfl

/-- Exactly the texts of digits without a zero in front of others are numbers as they are
written. -/
theorem isCanonical_iff {text : List Char} : IsCanonical text ↔ ∃ n, decimalDigits n = text := by
  constructor
  · intro canonical
    -- The last digit goes on a number that has no zero in front either.
    induction text using List.reverseRecOn with
    | nil => exact absurd rfl canonical.nonempty
    | append_singleton front c inductionHypothesis =>
      obtain ⟨digits, -, noLeadingZero⟩ := canonical
      obtain ⟨last, small, rfl⟩ := exists_digitChar_of_isDigit (digits c (by simp))
      by_cases empty : front = []
      · refine ⟨last, ?_⟩
        rw [empty, decimalDigits_of_lt small, List.nil_append]
      · have frontNoZero : front.head? ≠ some '0' := by
          intro zeroInFront
          have single := noLeadingZero (by rwa [List.head?_append_of_ne_nil _ empty])
          have lengths := congrArg List.length single
          have positive := List.length_pos_iff.2 empty
          simp only [List.length_append, List.length_singleton] at lengths
          omega
        obtain ⟨n, rfl⟩ := inductionHypothesis
          ⟨fun d member => digits d (List.mem_append_left _ member), empty,
            fun zeroInFront => absurd zeroInFront frontNoZero⟩
        have positive : n ≠ 0 := by
          rintro rfl
          rw [decimalDigits_of_lt (by decide)] at frontNoZero
          exact frontNoZero rfl
        exact ⟨n * 10 + last, decimalDigits_mul_ten_add positive small⟩
  · rintro ⟨n, rfl⟩
    exact isCanonical_decimalDigits n

/-- Different numbers are written differently. -/
theorem decimalDigits_injective {n m : Nat} (same : decimalDigits n = decimalDigits m) : n = m := by
  rw [← ofDigits_decimalDigits n, same, ofDigits_decimalDigits]

end Canonical

end Templating
