import Pipeline.Proofs.NumberOrder

/-! The operations on doubles as roundings of exact ones. What is rounded comes out as it is where a
double denotes it, and else no further from it than half a unit in the last place. -/

set_option autoImplicit false

namespace Pipeline

namespace Double

/-! ## Doubles by their coefficients -/

theorem parts_of_magnitude {x : Double} {scale : Int} {coefficient : Nat}
    (least : -1074 ≤ scale) (short : coefficient < 2 ^ 53)
    (normal : scale = -1074 ∨ 2 ^ 52 ≤ coefficient)
    (written : x.magnitude = (scale + 1074).toNat * Nat.pow 2 52 + coefficient) :
    x.significand = coefficient ∧ x.exponent = scale := by
  have unit : Nat.pow 2 52 = 4503599627370496 := rfl
  simp only [significand, exponent, unit] at *
  constructor
  · split <;> omega
  · omega

/-- A coefficient that is rounded up to the next power of two is carried over to the scale. -/
theorem abs_toRat_of_magnitude {x : Double} {scale : Int} {coefficient : Nat}
    (least : -1074 ≤ scale) (long : 2 ^ 52 ≤ coefficient) (short : coefficient ≤ 2 ^ 53)
    (written : x.magnitude = (scale + 1074).toNat * Nat.pow 2 52 + coefficient) :
    |x.toRat| = coefficient * 2 ^ scale := by
  rcases short.lt_or_eq with fits | carry
  · obtain ⟨significand, exponent⟩ := parts_of_magnitude least fits (.inr long) written
    rw [abs_toRat, significand, exponent]
  · have carried : x.magnitude = (scale + 1 + 1074).toNat * Nat.pow 2 52 + 2 ^ 52 := by
      have unit : Nat.pow 2 52 = 4503599627370496 := rfl
      rw [written, carry, unit]
      omega
    obtain ⟨significand, exponent⟩ :=
      parts_of_magnitude (by omega) (by decide) (.inr le_rfl) carried
    rw [abs_toRat, significand, exponent, carry, zpow_add_one₀ two_ne_zero]
    norm_num
    ring

theorem cast_eq_signed_natAbs (n : Int) :
    (n : ℚ) = (if decide (n < 0) then -1 else 1) * n.natAbs := by
  rw [Nat.cast_natAbs]
  by_cases negative : n < 0
  · simp [negative, abs_of_neg negative]
  · simp [negative, abs_of_nonneg (not_lt.1 negative)]

/-- Every integer of 53 bits is denoted, at every scale that there is. -/
theorem exists_toRat_eq {n : Int} (short : n.natAbs < 2 ^ 53) {scale : Int}
    (least : -1074 ≤ scale) (most : scale ≤ 971) :
    ∃ x : Double, x.isFinite = true ∧ x.toRat = n * 2 ^ scale := by
  have unit : Nat.pow 2 52 = 4503599627370496 := rfl
  have limit : infinite = 9218868437227405312 := rfl
  -- The coefficient is made as long as the scale allows.
  let shift := min (52 - n.natAbs.log2) (scale + 1074).toNat
  let coefficient := n.natAbs * 2 ^ shift
  have long : coefficient < 2 ^ 53 := by
    have few : n.natAbs.log2 + 1 + shift ≤ 53 := by
      by_cases none : n.natAbs = 0
      · rw [none, Nat.log2_zero]
        omega
      · have := (Nat.log2_lt none).2 short
        omega
    calc coefficient < 2 ^ (n.natAbs.log2 + 1) * 2 ^ shift :=
          Nat.mul_lt_mul_of_pos_right Nat.lt_log2_self (by positivity)
      _ = 2 ^ (n.natAbs.log2 + 1 + shift) := (Nat.pow_add ..).symm
      _ ≤ 2 ^ 53 := Nat.pow_le_pow_right (by decide) few
  by_cases none : n = 0
  · refine ⟨ofParts false 0, by decide, ?_⟩
    rw [none, Int.cast_zero, zero_mul, toRat_eq_zero]
    decide
  have some : n.natAbs ≠ 0 := Int.natAbs_ne_zero.2 none
  have normal : scale - shift = -1074 ∨ 2 ^ 52 ≤ coefficient := by
    by_cases all : shift = (scale + 1074).toNat
    · left
      omega
    · right
      have full : n.natAbs.log2 + shift = 52 := by
        have := (Nat.log2_lt some).2 short
        omega
      calc 2 ^ 52 = 2 ^ n.natAbs.log2 * 2 ^ shift := by rw [← Nat.pow_add, full]
        _ ≤ coefficient := Nat.mul_le_mul_right _ (Nat.log2_self_le some)
  let magnitude := (scale - shift + 1074).toNat * Nat.pow 2 52 + coefficient
  have bound : magnitude < infinite := by
    simp only [magnitude, unit, limit]
    omega
  have unsigned : magnitude < Nat.pow 2 63 := bound.trans (by decide)
  refine ⟨ofParts (n < 0) magnitude, (isFinite_ofParts_iff _ bound.le).2 bound, ?_⟩
  have written : (ofParts (n < 0) magnitude).magnitude =
      (scale - shift + 1074).toNat * Nat.pow 2 52 + coefficient := magnitude_ofParts _ unsigned
  obtain ⟨significand, exponent⟩ := parts_of_magnitude (by omega) long normal written
  have size : (coefficient * 2 ^ (scale - shift) : ℚ) = n.natAbs * 2 ^ scale := by
    rw [zpow_sub₀ two_ne_zero, zpow_natCast, Nat.cast_mul, Nat.cast_pow, Nat.cast_ofNat]
    field_simp
  rw [toRat, significand, exponent, negative_ofParts _ unsigned, size, ← mul_assoc,
    ← cast_eq_signed_natAbs]

theorem abs_toRat_eq_of_magnitude_eq {x y : Double} (same : x.magnitude = y.magnitude) :
    |x.toRat| = |y.toRat| :=
  le_antisymm (abs_toRat_le_of_magnitude_le same.le) (abs_toRat_le_of_magnitude_le same.ge)

theorem toRat_neg (x : Double) : x.neg.toRat = -x.toRat := by
  have same : x.neg.magnitude = x.magnitude := magnitude_ofParts _ x.magnitude_lt
  rw [x.neg.toRat_eq_abs, abs_toRat_eq_of_magnitude_eq same, negative_neg]
  nth_rewrite 2 [x.toRat_eq_abs]
  cases x.negative <;> simp

theorem exists_toRat_of_up {x : Double} (up : 0 ≤ x.exponent) : ∃ n : Int, x.toRat = n := by
  obtain ⟨shift, exponent⟩ := Int.eq_ofNat_of_zero_le up
  refine ⟨(if x.negative then -1 else 1) * (x.significand * 2 ^ shift), ?_⟩
  rw [toRat, exponent, zpow_natCast]
  push_cast
  rfl

theorem toRat_abs (x : Double) : x.abs.toRat = |x.toRat| := by
  have same : x.abs.magnitude = x.magnitude := magnitude_ofParts _ x.magnitude_lt
  have sign : x.abs.negative = false := negative_ofParts _ x.magnitude_lt
  rw [toRat_eq_abs, sign, abs_toRat_eq_of_magnitude_eq same]
  exact one_mul _

/-- No two finite doubles but the zeros denote the same. -/
theorem eq_of_toRat_eq {x y : Double} (finiteX : x.isFinite = true) (finiteY : y.isFinite = true)
    (same : x.toRat = y.toRat) (some : y.toRat ≠ 0) : x = y := by
  have equal := (numericEq_iff finiteX finiteY).2 same
  have visible : y.isZero = false := by
    rw [isZero, beq_eq_false_iff_ne]
    exact toRat_eq_zero.not.1 some
  simpa [numericEq, visible, isNaN_of_isFinite finiteX, isNaN_of_isFinite finiteY] using equal

/-! ## What rounds -/

/-- A double that a rational is rounded to. -/
def Rounds (q : ℚ) (x : Double) : Prop :=
  ∃ (negative : Bool) (num den : Nat), den ≠ 0 ∧
    q = (if negative then -1 else 1) * (num / den) ∧ x = nearest negative num den

/-- A result that a rational is rounded to, if it is finite. -/
def RoundsTo (q : ℚ) (result : Option Double) : Prop :=
  ∃ x, Rounds q x ∧ result = x.finite?

theorem abs_roundHalfEven_sub_le (num : Nat) {den : Nat} (positive : 0 < den) :
    |(roundHalfEven num den : ℚ) - num / den| ≤ 1 / 2 := by
  have cast : (0 : ℚ) < den := by exact_mod_cast positive
  have parts : den * (num / den) + num % den = num := Nat.div_add_mod num den
  have bounds : 2 * (roundHalfEven num den * den) ≤ 2 * num + den ∧
      2 * num ≤ 2 * (roundHalfEven num den * den) + den := by
    unfold roundHalfEven
    dsimp only
    split
    · rw [Nat.mul_comm _ den, Nat.mul_succ]
      have rest := Nat.mod_lt num positive
      omega
    · rw [Nat.mul_comm _ den]
      omega
  obtain ⟨high, low⟩ := bounds
  have high : (2 * (roundHalfEven num den * den) : ℚ) ≤ 2 * num + den := by exact_mod_cast high
  have low : (2 * num : ℚ) ≤ 2 * (roundHalfEven num den * den) + den := by exact_mod_cast low
  have whole : (num : ℚ) / den * den = num := div_mul_cancel₀ _ cast.ne'
  rw [abs_le]
  constructor
  · refine le_of_mul_le_mul_right ?_ cast
    linarith
  · refine le_of_mul_le_mul_right ?_ cast
    linarith

theorem abs_roundHalfEven_scaled_sub_le (num : Nat) {den : Nat} (denSome : den ≠ 0)
    (scale : Int) : |(roundHalfEven (num * Nat.pow 2 (-scale).toNat)
      (den * Nat.pow 2 scale.toNat) : ℚ) - num / den / 2 ^ scale| ≤ 1 / 2 := by
  have near := abs_roundHalfEven_sub_le (num * Nat.pow 2 (-scale).toNat)
    (Nat.mul_pos (Nat.pos_of_ne_zero denSome) (Nat.two_pow_pos scale.toNat))
  have quotient : ((num * Nat.pow 2 (-scale).toNat : Nat) / (den * Nat.pow 2 scale.toNat : Nat) :
      ℚ) = num / den / 2 ^ scale := by
    push_cast [Nat.pow_eq]
    rw [two_pow_toNat scale]
    field_simp
  rw [← quotient]
  exact near

/-- What comes of a quotient that is neither subnormal nor near the infinities. -/
theorem nearestMagnitude_near {num den : Nat} (denSome : den ≠ 0)
    (normal : (2 : ℚ) ^ (-1022 : Int) ≤ num / den) (small : (num / den : ℚ) < 2 ^ 1023) :
    ∃ (scale : Int) (coefficient : Nat), nearestMagnitude num den < infinite ∧
      -1074 ≤ scale ∧ 2 ^ 52 ≤ coefficient ∧ coefficient ≤ 2 ^ 53 ∧
      nearestMagnitude num den = (scale + 1074).toNat * Nat.pow 2 52 + coefficient ∧
      |(coefficient * 2 ^ scale - num / den : ℚ)| ≤ num / den / 2 ^ 53 := by
  have positive : (0 : ℚ) < den := by exact_mod_cast Nat.pos_of_ne_zero denSome
  have finite : nearestMagnitude num den < infinite := by
    rw [← isFinite_ofParts_iff false (nearestMagnitude_le num den)]
    refine (isFinite_nearest_iff false denSome).2 ?_
    rw [div_lt_iff₀ positive] at small
    calc num < 2 ^ 1023 * den := by exact_mod_cast small
      _ ≤ overflow * den := Nat.mul_le_mul_right den (two_pow_le_halfBeyond (Nat.le_refl 1023))
  have numSome : num ≠ 0 := by
    rintro rfl
    rw [Nat.cast_zero, zero_div] at normal
    exact absurd normal (zpow_pos two_pos _).not_ge
  obtain ⟨low, high⟩ := binaryOrder_bounds numSome denSome
  rw [← le_div_iff₀ positive] at low
  rw [← div_lt_iff₀ positive] at high
  have least : -1022 ≤ binaryOrder num den := by
    have exponents := (zpow_lt_zpow_iff_right₀ one_lt_two).1 (normal.trans_lt high)
    omega
  let scale := binaryOrder num den - 52
  have power : (0 : ℚ) < 2 ^ scale := zpow_pos two_pos _
  have shift : (2 : ℚ) ^ binaryOrder num den = 2 ^ 52 * 2 ^ scale := by
    rw [← zpow_natCast, ← zpow_add₀ two_ne_zero]
    congr 1
    omega
  rw [shift] at low
  rw [zpow_add_one₀ two_ne_zero, shift] at high
  have long : 2 ^ 52 ≤ roundHalfEven (num * Nat.pow 2 (-scale).toNat)
      (den * Nat.pow 2 scale.toNat) := by
    refine le_roundHalfEven_scaled denSome _ ?_
    rw [← le_div_iff₀ positive]
    exact_mod_cast low
  have short : roundHalfEven (num * Nat.pow 2 (-scale).toNat) (den * Nat.pow 2 scale.toNat) ≤
      2 ^ 53 := by
    refine roundHalfEven_scaled_le denSome _ ?_
    rw [← div_lt_iff₀ positive]
    refine high.trans_eq ?_
    norm_num
    ring
  have error := abs_roundHalfEven_scaled_sub_le num denSome scale
  refine ⟨scale, _, finite, by omega, long, short, ?_, ?_⟩
  · rw [nearestMagnitude, if_neg numSome] at finite ⊢
    rw [show max (binaryOrder num den - 52) (-1074) = scale from max_eq_left (by omega)] at finite ⊢
    exact Nat.min_eq_left ((min_lt_iff.1 finite).resolve_right (Nat.lt_irrefl _)).le
  · generalize roundHalfEven _ _ = coefficient at error ⊢
    have scaled : (coefficient * 2 ^ scale - num / den : ℚ) =
        (coefficient - num / den / 2 ^ scale) * 2 ^ scale := by
      rw [sub_mul, div_mul_cancel₀ _ power.ne']
    rw [scaled, abs_mul, abs_of_pos power]
    calc |(coefficient : ℚ) - num / den / 2 ^ scale| * 2 ^ scale ≤ 1 / 2 * 2 ^ scale :=
          mul_le_mul_of_nonneg_right error power.le
      _ = 2 ^ 52 * 2 ^ scale / 2 ^ 53 := by ring
      _ ≤ num / den / 2 ^ 53 := div_le_div_of_nonneg_right low (by positivity)

theorem abs_signed (negative : Prop) [Decidable negative] (q : ℚ) :
    |(if negative then -1 else 1) * q| = |q| := by
  split <;> simp

section Rounded

variable {q : ℚ} {x : Double} (rounds : Rounds q x)
include rounds

theorem Rounds.exact {y : Double} (finite : y.isFinite = true) (denotes : y.toRat = q) :
    x.isFinite = true ∧ x.toRat = q := by
  obtain ⟨negative, num, den, denSome, rfl, rfl⟩ := rounds
  have size : |y.toRat| = num / den := by rw [denotes, abs_signed, abs_of_nonneg (by positivity)]
  have positive : (den : ℚ) ≠ 0 := Nat.cast_ne_zero.2 denSome
  have magnitude : nearestMagnitude num den = y.magnitude := by
    refine nearestMagnitude_of_eq finite denSome ?_
    rw [abs_toRat, eq_div_iff positive] at size
    have cast : (num * 2 ^ (-y.exponent).toNat : ℚ) =
        y.significand * den * 2 ^ y.exponent.toNat := by
      rw [two_pow_toNat y.exponent, ← size]
      ring
    exact_mod_cast cast
  have bound : y.magnitude < infinite := by simpa [isFinite, Nat.blt_eq] using finite
  have same : (nearest negative num den).magnitude = y.magnitude := by
    rw [nearest, magnitude, magnitude_ofParts _ y.magnitude_lt]
  have sign : (nearest negative num den).negative = negative := by
    rw [nearest, magnitude, negative_ofParts _ y.magnitude_lt]
  constructor
  · rw [nearest, magnitude]
    exact (isFinite_ofParts_iff negative bound.le).2 bound
  · rw [toRat_eq_abs, sign, abs_toRat_eq_of_magnitude_eq same, size]

/-- Between the least normal double and the greatest power of two, half a unit is lost at most. -/
theorem Rounds.near (normal : q = 0 ∨ (2 : ℚ) ^ (-1022 : Int) ≤ |q|) (small : |q| < 2 ^ 1023) :
    x.isFinite = true ∧ |x.toRat - q| ≤ |q| / 2 ^ 53 := by
  rcases normal with zero | normal
  · have least : (ofParts false 0).toRat = q := by
      rw [zero, toRat_eq_zero]
      decide
    obtain ⟨finite, same⟩ := rounds.exact (by decide) least
    rw [same, sub_self, abs_zero]
    exact ⟨finite, by positivity⟩
  · obtain ⟨negative, num, den, denSome, rfl, rfl⟩ := rounds
    have size : (0 : ℚ) ≤ num / den := div_nonneg (Nat.cast_nonneg _) (Nat.cast_nonneg _)
    rw [abs_signed, abs_of_nonneg size] at normal small ⊢
    obtain ⟨scale, coefficient, bound, least, long, short, written, near⟩ :=
      nearestMagnitude_near denSome normal small
    have unsigned := nearestMagnitude_lt num den
    refine ⟨(isFinite_ofParts_iff negative bound.le).2 bound, ?_⟩
    have value := abs_toRat_of_magnitude least long short
      ((magnitude_ofParts negative unsigned).trans written)
    rwa [toRat_eq_abs, nearest, value, negative_ofParts _ unsigned, ← mul_sub, abs_signed]

end Rounded

theorem RoundsTo.exact {q : ℚ} {result : Option Double} (rounds : RoundsTo q result)
    {y : Double} (finite : y.isFinite = true) (denotes : y.toRat = q) :
    ∃ x, result = some x ∧ x.isFinite = true ∧ x.toRat = q := by
  obtain ⟨x, rounds, rfl⟩ := rounds
  obtain ⟨kept, same⟩ := rounds.exact finite denotes
  exact ⟨x, if_pos kept, kept, same⟩

/-! ## The operations -/

theorem ofInt_rounds (n : Int) : Rounds n (ofInt n) := by
  refine ⟨n < 0, n.natAbs, 1, Nat.one_ne_zero, ?_, rfl⟩
  rw [Nat.cast_one, div_one, ← cast_eq_signed_natAbs]

theorem ofInt_exact {n : Int} (short : n.natAbs < 2 ^ 53) :
    (ofInt n).isFinite = true ∧ (ofInt n).toRat = n := by
  obtain ⟨x, finite, denotes⟩ :=
    exists_toRat_eq short (by decide : -1074 ≤ (0 : Int)) (by decide)
  rw [zpow_zero, mul_one] at denotes
  exact (ofInt_rounds n).exact finite denotes

/-- What is beyond 53 bits is rounded to a multiple of two or more. -/
theorem exists_toRat_ofInt {n : Int} (finite : (ofInt n).isFinite = true) :
    ∃ m : Int, (ofInt n).toRat = m := by
  rcases Nat.lt_or_ge n.natAbs (2 ^ 53) with short | long
  · exact ⟨n, (ofInt_exact short).2⟩
  · have unit : Nat.pow 2 52 = 4503599627370496 := rfl
    have some : n.natAbs ≠ 0 := by omega
    obtain ⟨-, high⟩ := binaryOrder_bounds some Nat.one_ne_zero
    have order : 53 ≤ binaryOrder n.natAbs 1 := by
      have powers : (2 : ℚ) ^ (53 : Int) < 2 ^ (binaryOrder n.natAbs 1 + 1) := by
        rw [Nat.cast_one, mul_one] at high
        exact lt_of_le_of_lt (by exact_mod_cast long) high
      have exponents := (zpow_lt_zpow_iff_right₀ one_lt_two).1 powers
      omega
    have bound := nearestMagnitude_lt n.natAbs 1
    rw [isFinite, ofInt, nearest, magnitude_ofParts _ bound, Nat.blt_eq] at finite
    have magnitude : (ofInt n).magnitude = nearestMagnitude n.natAbs 1 :=
      magnitude_ofParts _ bound
    have up : 0 ≤ (ofInt n).exponent := by
      rw [nearestMagnitude, if_neg some] at finite magnitude
      simp only [exponent, magnitude, unit] at finite ⊢
      omega
    exact exists_toRat_of_up up

theorem ofBinary_rounds (negative : Bool) (coefficient : Nat) (exponent : Int) :
    Rounds ((if negative then -1 else 1) * (coefficient * 2 ^ exponent))
      (ofBinary negative coefficient exponent) := by
  refine ⟨negative, _, _, (Nat.two_pow_pos (-exponent).toNat).ne', ?_, rfl⟩
  have power := two_pow_toNat exponent
  push_cast [Nat.pow_eq]
  rw [power]
  field_simp

theorem inUnits_eq (x : Double) {unit : Int} (fits : unit ≤ x.exponent) :
    (x.inUnits unit : ℚ) * 2 ^ unit = x.toRat := by
  obtain ⟨shift, exponent⟩ := Int.eq_ofNat_of_zero_le (a := x.exponent - unit) (by omega)
  have exponent : x.exponent = shift + unit := by omega
  rw [inUnits, toRat, exponent, Int.add_sub_cancel, Int.toNat_natCast, zpow_add₀ two_ne_zero,
    zpow_natCast]
  cases x.negative
  · push_cast [Nat.pow_eq]
    simp [mul_assoc]
  · push_cast [Nat.pow_eq]
    simp [mul_assoc]

section Operands

variable {x y : Double} (finiteX : x.isFinite = true) (finiteY : y.isFinite = true)
include finiteX finiteY

theorem add?_rounds : RoundsTo (x.toRat + y.toRat) (x.add? y) := by
  let unit := min x.exponent y.exponent
  let sum := x.inUnits unit + y.inUnits unit
  let sign := if sum = 0 then x.negative && y.negative else decide (sum < 0)
  have added : x.add? y = (ofBinary sign sum.natAbs unit).finite? := by
    rw [add?, finiteX, finiteY]
    rfl
  have signed : (sum : ℚ) = (if sign then -1 else 1) * sum.natAbs := by
    by_cases zero : sum = 0
    · simp [zero]
    · rw [show sign = decide (sum < 0) from if_neg zero]
      exact cast_eq_signed_natAbs sum
  have value : x.toRat + y.toRat = (if sign then -1 else 1) * (sum.natAbs * 2 ^ unit) := by
    rw [← x.inUnits_eq (min_le_left _ y.exponent), ← y.inUnits_eq (min_le_right x.exponent _),
      ← mul_assoc, ← signed, ← add_mul, Int.cast_add]
  exact ⟨_, value ▸ ofBinary_rounds _ _ _, added⟩

theorem sub?_rounds : RoundsTo (x.toRat - y.toRat) (x.sub? y) := by
  have negated : y.neg.isFinite = true := by rw [isFinite_neg, finiteY]
  rw [sub_eq_add_neg, ← toRat_neg]
  exact add?_rounds finiteX negated

theorem mul?_rounds : RoundsTo (x.toRat * y.toRat) (x.mul? y) := by
  have multiplied : x.mul? y = (ofBinary (x.negative != y.negative)
      (x.significand * y.significand) (x.exponent + y.exponent)).finite? := by
    rw [mul?, finiteX, finiteY]
    rfl
  have value : x.toRat * y.toRat = (if x.negative != y.negative then -1 else 1) *
      ((x.significand * y.significand : Nat) * 2 ^ (x.exponent + y.exponent)) := by
    rw [toRat, toRat, zpow_add₀ two_ne_zero, Nat.cast_mul]
    cases x.negative <;> cases y.negative <;> simp <;> ring
  exact ⟨_, value ▸ ofBinary_rounds _ _ _, multiplied⟩

theorem div?_rounds (some : y.toRat ≠ 0) : RoundsTo (x.toRat / y.toRat) (x.div? y) := by
  let shift := x.exponent - y.exponent
  have divided : x.div? y = (nearest (x.negative != y.negative)
      (x.significand * Nat.pow 2 shift.toNat)
      (y.significand * Nat.pow 2 (-shift).toNat)).finite? := by
    rw [div?, finiteX, finiteY]
    rfl
  have long : y.significand ≠ 0 := fun zero => some (by rw [toRat, zero]; simp)
  have value : x.toRat / y.toRat = (if x.negative != y.negative then -1 else 1) *
      ((x.significand * Nat.pow 2 shift.toNat : Nat) /
        (y.significand * Nat.pow 2 (-shift).toNat : Nat)) := by
    have power := two_pow_toNat shift
    have exponents : (2 : ℚ) ^ x.exponent = 2 ^ shift * 2 ^ y.exponent := by
      rw [← zpow_add₀ two_ne_zero, Int.sub_add_cancel]
    have nonzero : (y.significand : ℚ) ≠ 0 := Nat.cast_ne_zero.2 long
    push_cast [Nat.pow_eq]
    rw [toRat, toRat, power, exponents]
    cases x.negative <;> cases y.negative <;> simp <;> field_simp
  refine ⟨_, ⟨_, _, _, ?_, value, rfl⟩, divided⟩
  exact Nat.mul_ne_zero long (Nat.two_pow_pos _).ne'

end Operands

/-- The integer that a double is rounded to is not further from it than a half, and becomes a double
again. -/
theorem roundHalfAway_rounds (x : Double) : ∃ n : Nat,
    Rounds ((if x.negative then -1 else 1) * n) x.roundHalfAway ∧
      (n : ℚ) ≤ |x.toRat| + 1 / 2 ∧ |x.toRat| < n + 1 / 2 := by
  let unit := Nat.pow 2 (-x.exponent).toNat
  let size := 2 * x.significand * Nat.pow 2 x.exponent.toNat
  have positive : 0 < unit := Nat.two_pow_pos _
  have cast : (0 : ℚ) < unit := by exact_mod_cast positive
  have scaled : (size : ℚ) = 2 * |x.toRat| * unit := by
    have power := two_pow_toNat x.exponent
    simp only [size, unit]
    push_cast [Nat.pow_eq]
    rw [abs_toRat, power]
    ring
  have low : 2 * unit * ((size + unit) / (2 * unit)) ≤ size + unit := Nat.mul_div_le _ _
  have high : size + unit < 2 * unit * ((size + unit) / (2 * unit) + 1) :=
    Nat.lt_mul_div_succ _ (by omega)
  refine ⟨(size + unit) / (2 * unit), ⟨x.negative, _, 1, Nat.one_ne_zero, ?_, rfl⟩, ?_, ?_⟩
  · rw [Nat.cast_one, div_one]
  · generalize (size + unit) / (2 * unit) = n at low ⊢
    have low : (2 * unit * n : ℚ) ≤ 2 * |x.toRat| * unit + unit := by
      rw [← scaled]
      exact_mod_cast low
    refine le_of_mul_le_mul_left ?_ (by positivity : (0 : ℚ) < 2 * unit)
    linarith
  · generalize (size + unit) / (2 * unit) = n at high ⊢
    have high : (2 * |x.toRat| * unit + unit : ℚ) < 2 * unit * (n + 1) := by
      rw [← scaled]
      exact_mod_cast high
    refine lt_of_mul_lt_mul_left ?_ (by positivity : (0 : ℚ) ≤ 2 * unit)
    linarith

theorem roundHalfAway_exact {x : Double} {n : Nat} (value : x.toRat = n) (short : n < 2 ^ 53) :
    x.roundHalfAway.isFinite = true ∧ x.roundHalfAway.toRat = n := by
  obtain ⟨m, rounds, near, far⟩ := x.roundHalfAway_rounds
  have same : m = n := by
    rw [value, Nat.abs_cast] at near far
    have near : m < n + 1 := by exact_mod_cast (by linarith : (m : ℚ) < n + 1)
    have far : n < m + 1 := by exact_mod_cast (by linarith : (n : ℚ) < m + 1)
    omega
  have positive := x.toRat_eq_abs
  rw [value, Nat.abs_cast] at positive
  rw [same, ← positive] at rounds
  obtain ⟨finite, integer⟩ := @ofInt_exact n short
  exact rounds.exact finite integer

end Double

end Pipeline
