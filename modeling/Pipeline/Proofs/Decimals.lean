import Pipeline.Proofs.Doubles
import Pipeline.Proofs.Printing

/-! A natural is read back from its digits, and a finite double from the digits of what it
denotes. -/

set_option autoImplicit false

namespace Pipeline

/-! ## Naturals -/

theorem isDigit_of_mem_toDigits {n : Nat} {c : Char} (member : c ∈ Nat.toDigits 10 n) :
    isDigit c = true := by
  have digit := Nat.isDigit_of_mem_toDigits (by decide) (by decide) member
  rw [Char.isDigit, Bool.and_eq_true, decide_eq_true_iff, decide_eq_true_iff] at digit
  rw [isDigit, Bool.and_eq_true, Nat.ble_eq, Nat.ble_eq]
  exact digit

theorem digitsValue_eq (value : Nat) (digits : List Char) :
    digitsValue value digits = Nat.ofDigitChars 10 digits value := by
  induction digits generalizing value with
  | nil => rfl
  | cons digit digits ih => exact ih _

theorem digitsValue_toDigits (n : Nat) : digitsValue 0 (Nat.toDigits 10 n) = n := by
  rw [digitsValue_eq]
  exact Nat.ofDigitChars_toDigits (by decide) (by decide)

namespace Double

/-! ## Decimals that denote a double -/

theorem two_pow_le (n : Nat) : 2 ^ n ≤ 10 ^ (n / 3 + 1) := by
  calc 2 ^ n ≤ 2 ^ (3 * (n / 3 + 1)) := Nat.pow_le_pow_right (by decide) (by omega)
    _ = 8 ^ (n / 3 + 1) := Nat.pow_mul _ _ _
    _ ≤ 10 ^ (n / 3 + 1) := Nat.pow_le_pow_left (by decide) _

section

variable {x : Double} {coefficient places : Nat}
  (finite : x.isFinite = true)
  (same : coefficient * 2 ^ (-x.exponent).toNat =
    x.significand * 10 ^ places * 2 ^ x.exponent.toNat)

include finite same in
/-- What doubles denote is below `10 ^ 400`. -/
theorem length_toDigits_le : (Nat.toDigits 10 coefficient).length ≤ places + 400 := by
  have exponent := exponent_le finite
  rw [Nat.length_toDigits_le_iff (by decide) (by omega)]
  calc coefficient ≤ coefficient * 2 ^ (-x.exponent).toNat :=
        Nat.le_mul_of_pos_right _ (Nat.two_pow_pos _)
    _ = x.significand * 10 ^ places * 2 ^ x.exponent.toNat := same
    _ = x.significand * (10 ^ places * 2 ^ x.exponent.toNat) := Nat.mul_assoc _ _ _
    _ < 2 ^ 53 * (10 ^ places * 2 ^ x.exponent.toNat) :=
        Nat.mul_lt_mul_of_pos_right x.significand_lt (by positivity)
    _ = 10 ^ places * 2 ^ (53 + x.exponent.toNat) := by
        rw [Nat.pow_add, Nat.mul_left_comm]
    _ ≤ 10 ^ places * 10 ^ ((53 + x.exponent.toNat) / 3 + 1) :=
        Nat.mul_le_mul_left _ (two_pow_le _)
    _ = 10 ^ (places + ((53 + x.exponent.toNat) / 3 + 1)) := by rw [Nat.pow_add 10 places]
    _ ≤ 10 ^ (places + 400) := Nat.pow_le_pow_right (by decide) (by omega)

include same in
/-- What doubles other than zero denote is above `10 ^ (-401)`. -/
theorem places_le_length_toDigits (some : coefficient ≠ 0) :
    places ≤ (Nat.toDigits 10 coefficient).length + 400 := by
  by_contra long
  have exponent := x.exponent_eq_or.1
  have size : coefficient < 10 ^ (places - 401) := by
    have digits := @Nat.length_toDigits_pos 10 coefficient
    rw [← Nat.length_toDigits_le_iff (by decide) (by omega)]
    omega
  have significand : 0 < x.significand := by
    refine Nat.pos_of_ne_zero fun zero => some ?_
    rw [zero, Nat.zero_mul, Nat.zero_mul, Nat.mul_eq_zero] at same
    exact same.resolve_right (by positivity)
  have small : coefficient * 2 ^ (-x.exponent).toNat < 10 ^ places := by
    calc coefficient * 2 ^ (-x.exponent).toNat
        < 10 ^ (places - 401) * 2 ^ (-x.exponent).toNat :=
          Nat.mul_lt_mul_of_pos_right size (by positivity)
      _ ≤ 10 ^ (places - 401) * 10 ^ ((-x.exponent).toNat / 3 + 1) :=
          Nat.mul_le_mul_left _ (two_pow_le _)
      _ = 10 ^ (places - 401 + ((-x.exponent).toNat / 3 + 1)) := by
          rw [Nat.pow_add 10 (places - 401)]
      _ ≤ 10 ^ places := Nat.pow_le_pow_right (by decide) (by omega)
  have large : 10 ^ places ≤ x.significand * 10 ^ places * 2 ^ x.exponent.toNat := by
    rw [Nat.mul_right_comm]
    exact Nat.le_mul_of_pos_left _ (Nat.mul_pos significand (by positivity))
  rw [same] at small
  exact absurd large small.not_ge

include finite same in
theorem ofDecimal_of_eq : ofDecimal x.negative coefficient (-places) = x := by
  have magnitude : nearestMagnitude coefficient (10 ^ places) = x.magnitude :=
    nearestMagnitude_of_eq finite (by positivity) same
  unfold ofDecimal
  by_cases zero : coefficient = 0
  · rw [if_pos (.inl zero)]
    rw [zero, nearestMagnitude, if_pos rfl] at magnitude
    rw [magnitude, ofParts_self]
  · have low := places_le_length_toDigits same zero
    have high := length_toDigits_le finite same
    rw [if_neg (by omega), if_neg (by omega), nearest, Int.toNat_neg_natCast, Int.neg_neg,
      Int.toNat_natCast]
    change ofParts _ (nearestMagnitude (coefficient * 1) (10 ^ places)) = _
    rw [Nat.mul_one, magnitude, ofParts_self]

end

/-! ## The digits of a double -/

/-- A quotient by a power of two with its common factors cancelled, as the exponent and the
numerator. -/
def halve : Nat → Nat → Nat × Nat
  | 0, num => (0, num)
  | power + 1, num => if num % 2 = 0 then halve power (num / 2) else (power + 1, num)

theorem halve_eq (power num : Nat) :
    (halve power num).2 * 2 ^ power = num * 2 ^ (halve power num).1 := by
  fun_induction halve power num with
  | case1 num => rfl
  | case2 num power even ih =>
      rw [Nat.pow_succ, ← Nat.mul_assoc, ih, Nat.mul_right_comm,
        Nat.div_mul_cancel (Nat.dvd_of_mod_eq_zero even)]
  | case3 num power odd => rfl

/-- The double as a whole number over a power of two, in lowest terms. -/
def lowestTerms (x : Double) : Nat × Nat :=
  halve (-x.exponent).toNat (x.significand * 2 ^ x.exponent.toNat)

/-- The places behind the decimal point. -/
def places (x : Double) : Nat :=
  max x.lowestTerms.1 1

/-- What the double denotes, in units of the last place. -/
def decimal (x : Double) : Nat :=
  x.lowestTerms.2 * 2 ^ (x.places - x.lowestTerms.1) * 5 ^ x.places

theorem decimal_eq (x : Double) :
    x.decimal * 2 ^ (-x.exponent).toNat =
      x.significand * 10 ^ x.places * 2 ^ x.exponent.toNat := by
  have least : x.lowestTerms.1 ≤ x.places := Nat.le_max_left _ _
  have terms : x.lowestTerms.2 * 2 ^ (-x.exponent).toNat =
      x.significand * 2 ^ x.exponent.toNat * 2 ^ x.lowestTerms.1 := halve_eq _ _
  calc x.decimal * 2 ^ (-x.exponent).toNat
      = x.lowestTerms.2 * 2 ^ (-x.exponent).toNat *
          2 ^ (x.places - x.lowestTerms.1) * 5 ^ x.places := by
        rw [decimal]
        ring
    _ = x.significand * 2 ^ x.exponent.toNat *
          (2 ^ x.lowestTerms.1 * 2 ^ (x.places - x.lowestTerms.1)) * 5 ^ x.places := by
        rw [terms]
        ring
    _ = x.significand * 2 ^ x.exponent.toNat * (2 ^ x.places * 5 ^ x.places) := by
        rw [← Nat.pow_add, Nat.add_sub_cancel' least, Nat.mul_assoc]
    _ = x.significand * 10 ^ x.places * 2 ^ x.exponent.toNat := by
        rw [← Nat.mul_pow]
        ring

/-- The digits, with at least one in front of the point. -/
def digits (x : Double) : List Char :=
  List.leftpad (x.places + 1) '0' (Nat.toDigits 10 x.decimal)

theorem places_lt_length_digits (x : Double) : x.places < x.digits.length := by
  rw [digits, List.length_leftpad]
  omega

theorem isDigit_of_mem_digits {x : Double} {c : Char} (member : c ∈ x.digits) :
    isDigit c = true := by
  rcases List.mem_append.1 member with zero | digit
  · rw [List.eq_of_mem_replicate zero]
    rfl
  · exact isDigit_of_mem_toDigits digit

theorem digitsValue_digits (x : Double) : digitsValue 0 x.digits = x.decimal := by
  rw [digitsValue_eq, digits, List.leftpad, Nat.ofDigitChars_append,
    Nat.ofDigitChars_replicate_zero, Nat.mul_zero, ← digitsValue_eq, digitsValue_toDigits]

end Double

/-- Every place of what the double denotes is spelled out. -/
def Spelling.exact : Spelling where
  whole x := x.digits.take (x.digits.length - x.places)
  fraction x := x.digits.drop (x.digits.length - x.places)
  whole_ne_nil x := by
    have := x.places_lt_length_digits
    refine List.ne_nil_of_length_pos ?_
    rw [List.length_take]
    omega
  fraction_ne_nil x := by
    have := x.places_lt_length_digits
    have some : 0 < x.places := Nat.le_max_right _ _
    refine List.ne_nil_of_length_pos ?_
    rw [List.length_drop]
    omega
  isDigit_whole x c member := Double.isDigit_of_mem_digits (List.mem_of_mem_take member)
  isDigit_fraction x c member := Double.isDigit_of_mem_digits (List.mem_of_mem_drop member)
  reads_back x finite positive := by
    have long := x.places_lt_length_digits
    have count : (x.digits.drop (x.digits.length - x.places)).length = x.places := by
      rw [List.length_drop]
      omega
    rw [List.take_append_drop, Double.digitsValue_digits, count, ← positive]
    exact Double.ofDecimal_of_eq finite x.decimal_eq

end Pipeline
