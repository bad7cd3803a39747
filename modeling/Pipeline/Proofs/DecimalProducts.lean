import Pipeline.Proofs.Identities

/-! Products of decimals that stand beside an integer. A product is rounded at the most places that
fit, and becomes the integer exactly if it is not further from it than half a unit in the last of
the places that the integer itself leaves. -/

set_option autoImplicit false

namespace Pipeline

/-! ## Rounding to a number nearby -/

/-- An even number is also the one that a tie beside it is rounded to. -/
theorem roundHalfEven_eq_of_near {num den m : Nat} (positive : 0 < den) (even : m % 2 = 0)
    (near : |(num / den - m : ℚ)| ≤ 1 / 2) : roundHalfEven num den = m := by
  have cast : (0 : ℚ) < den := by exact_mod_cast positive
  have parts : den * (num / den) + num % den = num := Nat.div_add_mod num den
  have rest := Nat.mod_lt num positive
  obtain ⟨low, high⟩ : 2 * (den * m) ≤ 2 * num + den ∧ 2 * num ≤ 2 * (den * m) + den := by
    rw [abs_le, div_sub' cast.ne', le_div_iff₀ cast, div_le_iff₀ cast] at near
    constructor
    · exact_mod_cast (by linarith : (2 * (den * m) : ℚ) ≤ 2 * num + den)
    · exact_mod_cast (by linarith : (2 * num : ℚ) ≤ 2 * (den * m) + den)
  rcases lt_trichotomy m (num / den) with less | same | greater
  · have step := Nat.mul_le_mul_left den less
    rw [Nat.mul_succ] at step
    omega
  · rw [← same] at parts
    rw [roundHalfEven, ← same]
    split <;> omega
  · have next : m = num / den + 1 := by
      by_contra far
      have step := Nat.mul_le_mul_left den (by omega : num / den + 2 ≤ m)
      rw [Nat.mul_add] at step
      omega
    rw [next, Nat.mul_succ] at low
    rw [roundHalfEven]
    split <;> omega

namespace Decimal

section Search

variable {negative : Bool} {num den : Nat} {d : Decimal}

/-- The scale that is found is the greatest at which the quotient fits. -/
theorem fit?_eq_some_iff {scale : Nat} : fit? negative num den scale = some d ↔
    ∃ places ≤ scale, d = ofParts negative (roundHalfEven (num * 10 ^ places) den, places) ∧
      roundHalfEven (num * 10 ^ places) den < coefficientBound ∧
      ∀ more, places < more → more ≤ scale →
        coefficientBound ≤ roundHalfEven (num * 10 ^ more) den := by
  induction scale with
  | zero =>
      rw [fit?]
      constructor
      · intro found
        split at found
        · rename_i fits
          cases found
          refine ⟨0, le_rfl, by simp, by simpa using fits, by omega⟩
        · cases found
      · rintro ⟨places, none, rfl, fits, -⟩
        obtain rfl : places = 0 := Nat.le_zero.1 none
        rw [pow_zero, mul_one] at fits ⊢
        exact if_pos fits
  | succ scale ih =>
      rw [fit?]
      dsimp only [Nat.pow_eq]
      by_cases fits : roundHalfEven (num * 10 ^ (scale + 1)) den < coefficientBound
      · rw [if_pos fits]
        constructor
        · rintro ⟨⟩
          exact ⟨scale + 1, le_rfl, rfl, fits, by omega⟩
        · rintro ⟨places, few, rfl, -, most⟩
          have all : places = scale + 1 := by
            by_contra fewer
            exact (most (scale + 1) (by omega) le_rfl).not_gt fits
          rw [all]
      · rw [if_neg fits, ih]
        refine exists_congr fun places => ⟨?_, ?_⟩
        · rintro ⟨few, same, short, most⟩
          refine ⟨by omega, same, short, fun more greater within => ?_⟩
          rcases within.lt_or_eq with less | rfl
          · exact most more greater (by omega)
          · exact not_lt.1 fits
        · rintro ⟨few, same, short, most⟩
          have fewer : places ≠ scale + 1 := by
            rintro rfl
            exact fits short
          exact ⟨by omega, same, short, fun more greater within => most more greater (by omega)⟩

end Search

/-- The stride is the greatest by which the coefficient can be carried on. -/
theorem stride_spec {coefficient : Nat} (fits : coefficient < coefficientBound) (room : Nat) :
    stride coefficient room ≤ room ∧
      coefficient * 10 ^ stride coefficient room < coefficientBound ∧
      ∀ more, stride coefficient room < more → more ≤ room →
        coefficientBound ≤ coefficient * 10 ^ more := by
  fun_induction stride coefficient room with
  | case1 => exact ⟨le_rfl, by simpa using fits, by omega⟩
  | case2 room short => exact ⟨le_rfl, short, by omega⟩
  | case3 room long ih =>
      obtain ⟨few, short, most⟩ := ih
      refine ⟨by omega, short, fun more greater within => ?_⟩
      rcases within.lt_or_eq with less | rfl
      · exact most more greater (by omega)
      · exact not_lt.1 long

/-! ## Quotients near an integer -/

theorem abs_roundHalfEven_pow_sub_le (num places scale : Nat) :
    |(roundHalfEven (num * 10 ^ scale) (10 ^ places) : ℚ) - num / 10 ^ places * 10 ^ scale| ≤
      1 / 2 := by
  have near := Double.abs_roundHalfEven_sub_le (num * 10 ^ scale)
    (Nat.pow_pos (by decide) : 0 < 10 ^ places)
  have quotient : ((num * 10 ^ scale : Nat) / (10 ^ places : Nat) : ℚ) =
      num / 10 ^ places * 10 ^ scale := by
    push_cast
    exact mul_div_right_comm ..
  rwa [quotient] at near

theorem abs_sub_le_iff_scaled (p q : ℚ) (scale : Nat) :
    |p - q| ≤ 1 / 2 / 10 ^ scale ↔ |p * 10 ^ scale - q * 10 ^ scale| ≤ 1 / 2 := by
  have unit : (0 : ℚ) < 10 ^ scale := by positivity
  rw [le_div_iff₀ unit, ← sub_mul, abs_mul, abs_of_pos unit]

section Nearby

variable {num places whole : Nat} (bounded : whole ≤ 2 ^ 63)
include bounded

theorem fits_of_bounded : whole < coefficientBound :=
  bounded.trans_lt (by decide)

/-- Half a unit beyond the places that the integer leaves does not bring a quotient back to where it
fits. -/
theorem le_roundHalfEven_of_near
    (near : |(num / 10 ^ places * 10 ^ stride whole places - whole * 10 ^ stride whole places : ℚ)| ≤
      1 / 2) {more : Nat} (greater : stride whole places < more) (within : more ≤ places) :
    coefficientBound ≤ roundHalfEven (num * 10 ^ more) (10 ^ places) := by
  obtain ⟨-, short, most⟩ := stride_spec (fits_of_bounded bounded) places
  have bound : coefficientBound = 79228162514264337593543950336 := rfl
  generalize stride whole places = scale at *
  -- The integer fits at one place at least, so that a hundred divides it where it does not fit.
  obtain ⟨fewer, rfl⟩ : ∃ fewer, scale = fewer + 1 := by
    refine Nat.exists_eq_succ_of_ne_zero fun none => ?_
    have long := most 1 (by omega) (by omega)
    omega
  have long := most (fewer + 2) (by omega) (by omega)
  have hundred : coefficientBound + 64 ≤ whole * 10 ^ (fewer + 2) := by
    have product : whole * 10 ^ (fewer + 2) = 100 * (whole * 10 ^ fewer) := by ring
    omega
  have first : (coefficientBound + 59 : ℚ) ≤ num / 10 ^ places * 10 ^ (fewer + 2) := by
    have hundred : (coefficientBound + 64 : ℚ) ≤ whole * 10 ^ (fewer + 2) := by
      exact_mod_cast hundred
    rw [pow_succ _ (fewer + 1), ← mul_assoc] at hundred ⊢
    linarith [(abs_le.1 near).1]
  have next : (num / 10 ^ places * 10 ^ (fewer + 2) : ℚ) ≤ num / 10 ^ places * 10 ^ more :=
    mul_le_mul_of_nonneg_left (pow_le_pow_right₀ (by norm_num) greater) (by positivity)
  have rounded := (abs_le.1 (abs_roundHalfEven_pow_sub_le num places more)).1
  exact_mod_cast (by linarith :
    (coefficientBound : ℚ) ≤ roundHalfEven (num * 10 ^ more) (10 ^ places))

theorem roundHalfEven_of_near
    (near : |(num / 10 ^ places * 10 ^ stride whole places - whole * 10 ^ stride whole places : ℚ)| ≤
      1 / 2) : roundHalfEven (num * 10 ^ stride whole places) (10 ^ places) =
        whole * 10 ^ stride whole places := by
  obtain ⟨few, -, most⟩ := stride_spec (fits_of_bounded bounded) places
  have unit : 0 < 10 ^ places := Nat.pow_pos (by decide)
  rcases few.lt_or_eq with fewer | all
  · have bound : coefficientBound = 79228162514264337593543950336 := rfl
    have even : whole * 10 ^ stride whole places % 2 = 0 := by
      cases scale : stride whole places with
      | zero =>
          have long := most 1 (by omega) (by omega)
          omega
      | succ fewer =>
          rw [pow_succ, ← mul_assoc]
          omega
    refine roundHalfEven_eq_of_near unit even ?_
    push_cast
    rwa [mul_div_right_comm]
  · rw [all] at near ⊢
    have cast : (10 ^ places : ℚ) ≠ 0 := by positivity
    rw [div_mul_cancel₀ _ cast] at near
    have integer : |(num : Int) - whole * 10 ^ places| < 1 := by
      exact_mod_cast near.trans_lt one_half_lt_one
    rw [roundHalfEven_mul _ unit]
    exact_mod_cast sub_eq_zero.1 (Int.abs_lt_one_iff.1 integer)

/-- A quotient is found to be an integer exactly if it is not further from it than half a unit in
the last of the places that the integer leaves. -/
theorem fit?_denotes_iff (negative : Bool) :
    (∃ d, fit? negative num (10 ^ places) places = some d ∧
        d.mantissa.natAbs = whole * 10 ^ d.scale) ↔
      |(num / 10 ^ places - whole : ℚ)| ≤ 1 / 2 / 10 ^ stride whole places := by
  obtain ⟨few, short, most⟩ := stride_spec (fits_of_bounded bounded) places
  constructor
  · rintro ⟨d, found, same⟩
    obtain ⟨scale, within, rfl, fits, beyond⟩ := fit?_eq_some_iff.1 found
    rw [natAbs_mantissa_ofParts, ofParts] at same
    have near := abs_roundHalfEven_pow_sub_le num places scale
    dsimp only at same fits
    rw [same] at near fits
    have atMost : scale ≤ stride whole places := by
      by_contra greater
      exact (most scale (by omega) within).not_gt fits
    -- One place more would bring the integer beyond what fits, but no multiple of ten is that near.
    have all : scale = stride whole places := by
      by_contra fewer
      have next := beyond (scale + 1) (by omega) (by omega)
      have carried : whole * 10 ^ (scale + 1) < coefficientBound :=
        (Nat.mul_le_mul_left _ (Nat.pow_le_pow_right (by decide) (by omega))).trans_lt short
      have product : whole * 10 ^ (scale + 1) = 10 * (whole * 10 ^ scale) := by ring
      have rounded := abs_roundHalfEven_pow_sub_le num places (scale + 1)
      rw [pow_succ (10 : ℚ), ← mul_assoc] at rounded
      have high : roundHalfEven (num * 10 ^ (scale + 1)) (10 ^ places) <
          10 * (whole * 10 ^ scale) + 6 := by
        have cast : (roundHalfEven (num * 10 ^ (scale + 1)) (10 ^ places) : ℚ) <
            10 * (whole * 10 ^ scale : Nat) + 6 := by
          linarith [(abs_le.1 near).1, (abs_le.1 rounded).2]
        exact_mod_cast cast
      have bound : coefficientBound = 79228162514264337593543950336 := rfl
      omega
    rw [abs_sub_le_iff_scaled, abs_sub_comm, ← all]
    exact_mod_cast near
  · intro near
    rw [abs_sub_le_iff_scaled] at near
    have whole' := roundHalfEven_of_near bounded near
    refine ⟨_, fit?_eq_some_iff.2 ⟨_, few, rfl, whole'.trans_lt short,
      fun more greater within => le_roundHalfEven_of_near bounded near greater within⟩, ?_⟩
    rw [natAbs_mantissa_ofParts]
    exact whole'

end Nearby

/-! ## Decimals that denote integers -/

theorem integer?_eq_some_iff {d : Decimal} {n : Int} : d.integer? = some n ↔ d.toRat = n := by
  refine ⟨integer?_eq_some, fun value => ?_⟩
  have unit : (Nat.pow 10 d.scale : Int) ≠ 0 := by
    have positive : 0 < Nat.pow 10 d.scale := Nat.pow_pos (by decide)
    exact_mod_cast positive.ne'
  have product : d.mantissa = n * Nat.pow 10 d.scale := by
    rw [toRat, div_eq_iff (by positivity)] at value
    exact_mod_cast value
  rw [integer?, product, Int.mul_tmod_left, Int.mul_tdiv_cancel _ unit]
  exact if_pos rfl

theorem decimalValue?_eq_integer_iff {d : Decimal} {k : Int64} :
    Arithmetic.decimalValue? d = some (.integer k) ↔ d.toRat = k.toInt := by
  rw [← integer?_eq_some_iff, Arithmetic.decimalValue?]
  constructor
  · intro found
    split at found
    · rename_i m integral
      cases found
      obtain ⟨n, integer, bounded⟩ := Option.bind_eq_some_iff.1 integral
      rw [integer, boundedInteger?_eq_some_iff.1 bounded]
    · obtain ⟨_, -, kind⟩ := Option.map_eq_some_iff.1 found
      cases kind
  · intro integer
    rw [integer, Option.bind_some, boundedInteger?_toInt]

/-- Sums of integers are integers without places. -/
theorem add?_ofInt {m n : Int} (fits : (m + n).natAbs < coefficientBound) :
    (ofInt m).add? (ofInt n) = some (ofInt (m + n)) := by
  unfold add?
  by_cases left : m = 0
  · rw [left, zero_add]
    rfl
  by_cases right : n = 0
  · rw [right, add_zero, if_neg (by simpa [isZero, ofInt] using left)]
    rfl
  · rw [if_neg (by simpa [isZero, ofInt] using left), if_neg (by simpa [isZero, ofInt] using right)]
    have whole := fit?_of_lt (m + n < 0) 0 fits
    rw [show ofParts (m + n < 0) ((m + n).natAbs, 0) = ofInt (m + n) from
      ofParts_self (ofInt (m + n))] at whole
    simpa [mantissaAt, ofInt] using whole

theorem mul?_comm (a b : Decimal) : a.mul? b = b.mul? a := by
  rw [mul?, mul?, Bool.or_comm, Int.mul_comm, Nat.add_comm]

theorem mul?_ofInt {d : Decimal} (fits : d.Fits) (n : Int) :
    (ofInt n).mul? d = if n * d.mantissa = 0 then some ⟨0, 0⟩ else
      fit? (n * d.mantissa < 0) (n * d.mantissa).natAbs (10 ^ d.scale) d.scale := by
  have zero : ((ofInt n).isZero || d.isZero) = true ↔ n * d.mantissa = 0 := by simp [isZero, ofInt]
  have few : min d.scale maxScale = d.scale := Nat.min_eq_left fits.scale
  refine if_congr zero rfl ?_
  simp only [ofInt, Nat.zero_add, few]
  rfl

theorem abs_le_half_iff (k : Int) (scale : Nat) : |(k : ℚ)| ≤ 1 / 2 / 10 ^ scale ↔ k = 0 := by
  constructor
  · intro near
    have small : (1 / 2 / 10 ^ scale : ℚ) ≤ 1 / 2 :=
      div_le_self (by norm_num) (one_le_pow₀ (by norm_num))
    have less : |(k : ℚ)| < 1 := by linarith
    exact Int.abs_lt_one_iff.1 (by exact_mod_cast less)
  · rintro rfl
    rw [Int.cast_zero, abs_zero]
    positivity

section Product

variable {n k : Int} {d : Decimal} (sign : 0 ≤ k * (n * d.mantissa))
include sign

theorem eq_signed_natAbs (some : n * d.mantissa ≠ 0) :
    (k : ℚ) = (if n * d.mantissa < 0 then -1 else 1) * k.natAbs := by
  rcases lt_or_gt_of_ne some with negative | positive
  · have atMost : k ≤ 0 := nonpos_of_mul_nonneg_left sign negative
    rw [if_pos negative, Nat.cast_natAbs, abs_of_nonpos atMost]
    push_cast
    ring
  · have least : 0 ≤ k := nonneg_of_mul_nonneg_left sign positive
    rw [if_neg positive.not_gt, Nat.cast_natAbs, abs_of_nonneg least, one_mul]

/-- The product of an integer and a decimal, rounded as it is, denotes an integer exactly if it is
near enough to it. -/
theorem exists_mul?_iff (fits : d.Fits) (bounded : k.natAbs ≤ 2 ^ 63) :
    (∃ e, (ofInt n).mul? d = some e ∧ e.toRat = k) ↔
      |(n * d.toRat - k : ℚ)| ≤ 1 / 2 / 10 ^ stride k.natAbs d.scale := by
  have product : (n * d.toRat : ℚ) = (n * d.mantissa : Int) / 10 ^ d.scale := by
    rw [toRat, Int.cast_mul, mul_div_assoc]
  rw [mul?_ofInt fits, product]
  split
  · rename_i zero
    have none : (Decimal.mk 0 0).toRat = 0 := by rw [toRat, Int.cast_zero, zero_div]
    rw [zero, Int.cast_zero, zero_div, zero_sub, abs_neg, abs_le_half_iff]
    simp [none, eq_comm]
  · rename_i some
    have whole := Double.cast_eq_signed_natAbs (n * d.mantissa)
    simp only [decide_eq_true_eq] at whole
    rw [eq_signed_natAbs sign some, whole, mul_div_assoc, ← mul_sub, Double.abs_signed,
      ← fit?_denotes_iff bounded]
    refine exists_congr fun e => and_congr_right fun found => ?_
    obtain ⟨places, -, rfl, -⟩ := fit?_eq_some_iff.1 found
    have unit : (10 ^ places : ℚ) ≠ 0 := by positivity
    have signed : (if n * d.mantissa < 0 then (-1 : ℚ) else 1) ≠ 0 := by split <;> norm_num
    rw [natAbs_mantissa_ofParts, toRat_ofParts, Decimal.size]
    simp only [decide_eq_true_eq]
    rw [mul_right_inj' signed, div_eq_iff unit]
    norm_cast

end Product

end Decimal

end Pipeline
