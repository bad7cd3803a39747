import Pipeline.Proofs.Denotation
import Pipeline.Proofs.Except
import Pipeline.Run.Arithmetic

/-! Rounding overflows exactly from half a unit beyond the greatest finite double on, and the
operators on numbers overflow by failing: whatever number they result in is finite. -/

set_option autoImplicit false

namespace Pipeline

theorem div_le_roundHalfEven (num den : Nat) : num / den ≤ roundHalfEven num den := by
  unfold roundHalfEven
  dsimp only
  split <;> omega

theorem roundHalfEven_le (num den : Nat) : roundHalfEven num den ≤ num / den + 1 := by
  unfold roundHalfEven
  dsimp only
  split <;> omega

/-- A tie behind an odd number is rounded away from it. -/
theorem roundHalfEven_le_iff_of_odd {num den bound : Nat} (positive : 0 < den)
    (odd : bound % 2 = 1) : roundHalfEven num den ≤ bound ↔ 2 * num < (2 * bound + 1) * den := by
  have parts : den * (num / den) + num % den = num := Nat.div_add_mod num den
  have rest : num % den < den := Nat.mod_lt num positive
  have expand : (2 * bound + 1) * den = 2 * (den * bound) + den := by ring
  rw [expand]
  rcases Nat.lt_trichotomy (num / den) bound with less | same | greater
  · have low : den * (num / den + 1) ≤ den * bound := Nat.mul_le_mul_left den less
    have rounded : roundHalfEven num den ≤ bound := (roundHalfEven_le num den).trans less
    refine iff_of_true rounded ?_
    rw [Nat.mul_succ] at low
    omega
  · rw [same] at parts
    rw [roundHalfEven, same]
    split <;> omega
  · have high : den * (bound + 1) ≤ den * (num / den) := Nat.mul_le_mul_left den greater
    have rounded : ¬ roundHalfEven num den ≤ bound :=
      Nat.not_le.2 (greater.trans_le (div_le_roundHalfEven num den))
    refine iff_of_false rounded ?_
    rw [Nat.mul_succ] at high
    omega

namespace Double

/-! ## The bound of the finite doubles -/

/-- The greatest coefficient and a half, in units of `2 ^ (power + 1)`. -/
def halfBeyond (power : Nat) : Nat :=
  (2 ^ 54 - 1) * Nat.pow 2 power

/-- The greatest finite double and half a unit. -/
def overflow : Nat :=
  halfBeyond 970

theorem halfBeyond_pos (power : Nat) : 0 < halfBeyond power :=
  Nat.mul_pos (by decide) (Nat.two_pow_pos power)

theorem two_pow_le_halfBeyond {power top : Nat} (fits : power ≤ 53 + top) :
    2 ^ power ≤ halfBeyond top := by
  calc 2 ^ power ≤ 2 ^ (53 + top) := Nat.pow_le_pow_right Nat.two_pos fits
    _ = 2 ^ 53 * 2 ^ top := Nat.pow_add ..
    _ ≤ halfBeyond top := Nat.mul_le_mul_right _ (by decide)

/-- The greatest coefficient is rounded up from half a unit on. -/
theorem roundHalfEven_lt_iff (num : Nat) {den : Nat} (denPositive : 0 < den) (power : Nat) :
    roundHalfEven num (den * Nat.pow 2 (power + 1)) < 2 ^ 53 ↔ num < halfBeyond power * den := by
  have positive : 0 < den * Nat.pow 2 (power + 1) := Nat.mul_pos denPositive (Nat.two_pow_pos _)
  have odd : (2 ^ 53 - 1) % 2 = 1 := by decide
  have units : (2 * (2 ^ 53 - 1) + 1) * (den * Nat.pow 2 (power + 1)) =
      2 * (halfBeyond power * den) := by
    rw [halfBeyond, show Nat.pow 2 (power + 1) = Nat.pow 2 power * 2 from rfl]
    ring
  have tie : roundHalfEven num (den * Nat.pow 2 (power + 1)) ≤ 2 ^ 53 - 1 ↔ 2 * num < _ :=
    roundHalfEven_le_iff_of_odd positive odd
  rw [units, Nat.mul_lt_mul_left (by decide)] at tie
  rw [← tie]
  exact Nat.lt_iff_le_pred (by decide)

theorem mul_le_scaled_iff (coefficient num den : Nat) (scale : Int) :
    coefficient * (den * Nat.pow 2 scale.toNat) ≤ num * Nat.pow 2 (-scale).toNat ↔
      (coefficient * 2 ^ scale * den : ℚ) ≤ num := by
  have regroup : coefficient * (den * Nat.pow 2 scale.toNat) =
      coefficient * den * Nat.pow 2 scale.toNat := (Nat.mul_assoc _ _ _).symm
  have cast :
      (coefficient * 2 ^ scale * den : ℚ) = 2 ^ scale * ((coefficient * den : Nat) : ℚ) := by
    push_cast
    ring
  rw [regroup, cast]
  exact two_pow_mul_le_iff num (coefficient * den) scale

section Scaled

variable {bound num den : Nat} (denSome : den ≠ 0) (scale : Int)
include denSome

theorem le_roundHalfEven_scaled (reached : (bound * 2 ^ scale * den : ℚ) ≤ num) :
    bound ≤ roundHalfEven (num * Nat.pow 2 (-scale).toNat) (den * Nat.pow 2 scale.toNat) := by
  have positive : 0 < den * Nat.pow 2 scale.toNat :=
    Nat.mul_pos (Nat.pos_of_ne_zero denSome) (Nat.two_pow_pos _)
  have whole := (mul_le_scaled_iff bound num den scale).2 reached
  exact ((Nat.le_div_iff_mul_le positive).2 whole).trans (div_le_roundHalfEven _ _)

theorem roundHalfEven_scaled_le (missed : (num : ℚ) < bound * 2 ^ scale * den) :
    roundHalfEven (num * Nat.pow 2 (-scale).toNat) (den * Nat.pow 2 scale.toNat) ≤ bound := by
  have positive : 0 < den * Nat.pow 2 scale.toNat :=
    Nat.mul_pos (Nat.pos_of_ne_zero denSome) (Nat.two_pow_pos _)
  have whole := (mul_le_scaled_iff bound num den scale).not.2 missed.not_ge
  have short := (Nat.div_lt_iff_lt_mul positive).2 (Nat.not_le.1 whole)
  exact (roundHalfEven_le _ _).trans short

end Scaled

theorem lt_halfBeyond_iff (num den power : Nat) :
    num < halfBeyond power * den ↔ (num : ℚ) < (2 ^ 54 - 1 : Nat) * 2 ^ (power : Int) * den := by
  have compare := mul_le_scaled_iff (2 ^ 54 - 1) num den power
  rw [Int.toNat_natCast, Int.toNat_neg_natCast, Nat.mul_comm den, ← Nat.mul_assoc] at compare
  rw [← Nat.not_le, ← not_le, ← compare]
  exact (congrArg (¬ _ ≤ ·) (Nat.mul_one num).symm).to_iff

theorem isFinite_ofParts_iff (negative : Bool) {magnitude : Nat} (bound : magnitude ≤ infinite) :
    (ofParts negative magnitude).isFinite = true ↔ magnitude < infinite := by
  have unsigned : magnitude < Nat.pow 2 63 := Nat.lt_of_le_of_lt bound (by decide)
  rw [isFinite, magnitude_ofParts negative unsigned, Nat.blt_eq]

theorem nearestMagnitude_le (num den : Nat) : nearestMagnitude num den ≤ infinite := by
  unfold nearestMagnitude
  split
  · exact Nat.zero_le _
  · exact Nat.min_le_right _ _

theorem nearestMagnitude_lt (num den : Nat) : nearestMagnitude num den < Nat.pow 2 63 :=
  Nat.lt_of_le_of_lt (nearestMagnitude_le num den) (by decide)

/-- A quotient is rounded to a finite double exactly below the bound. -/
theorem isFinite_nearest_iff (negative : Bool) {num den : Nat} (denSome : den ≠ 0) :
    (nearest negative num den).isFinite = true ↔ num < overflow * den := by
  have denPositive : 0 < den := Nat.pos_of_ne_zero denSome
  have unit : Nat.pow 2 52 = 4503599627370496 := rfl
  have limit : infinite = 9218868437227405312 := rfl
  rw [nearest, isFinite_ofParts_iff negative (nearestMagnitude_le num den)]
  by_cases none : num = 0
  · rw [none, nearestMagnitude, if_pos rfl]
    exact iff_of_true (by decide) (Nat.mul_pos (halfBeyond_pos _) denPositive)
  · obtain ⟨low, high⟩ := binaryOrder_bounds none denSome
    have positive : (0 : ℚ) < den := by exact_mod_cast denPositive
    have shift : ∀ g h : Int, (2 : ℚ) ^ g * 2 ^ h = 2 ^ (g + h) :=
      fun g h => (zpow_add₀ two_ne_zero g h).symm
    have scaled : ∀ {g h : Int}, g ≤ h → (2 : ℚ) ^ g * den ≤ 2 ^ h * den := fun less =>
      mul_le_mul_of_nonneg_right (zpow_le_zpow_right₀ one_le_two less) positive.le
    rw [nearestMagnitude, if_neg none]
    generalize binaryOrder num den = order at low high
    dsimp only
    rw [min_lt_iff, or_iff_left (Nat.lt_irrefl _)]
    rcases lt_trichotomy order 1023 with less | rfl | greater
    · have size : (num : ℚ) < (2 ^ 53 : Nat) * 2 ^ max (order - 52) (-1074) * den := by
        refine high.trans_le ((scaled (?_ : order + 1 ≤ 53 + max (order - 52) (-1074))).trans ?_)
        · omega
        · rw [← shift]
          norm_num
      have short := roundHalfEven_scaled_le denSome _ size
      refine iff_of_true (by rw [unit, limit]; omega) ((lt_halfBeyond_iff _ _ _).2 ?_)
      refine high.trans_le ((scaled (?_ : order + 1 ≤ 53 + (970 : Nat))).trans ?_)
      · omega
      · rw [← shift]
        gcongr
        norm_num
    · have scale : max ((1023 : Int) - 52) (-1074) = 971 := rfl
      have shifted : (971 : Int).toNat = 970 + 1 := rfl
      have unshifted : (-971 : Int).toNat = 0 := rfl
      have tie : ∀ power : Nat,
          roundHalfEven (num * Nat.pow 2 0) (den * Nat.pow 2 (power + 1)) < 2 ^ 53 ↔
            num < halfBeyond power * den := fun power => by
        rw [show num * Nat.pow 2 0 = num from Nat.mul_one num]
        exact roundHalfEven_lt_iff num denPositive power
      rewrite [unit, limit, scale, shifted, unshifted, overflow, ← tie 970]
      omega
    · have scale : max (order - 52) (-1074) = order - 52 := max_eq_left (by omega)
      have size : ((2 ^ 52 : Nat) : ℚ) * 2 ^ (order - 52) * den ≤ num := by
        refine le_trans (le_of_eq ?_) low
        rw [← Int.add_sub_cancel order 52, Int.add_comm order, Int.add_sub_assoc, ← shift]
        norm_num
      have long := le_roundHalfEven_scaled denSome _ size
      rw [scale]
      refine iff_of_false (by rw [unit, limit]; omega) ((lt_halfBeyond_iff _ _ _).not.2 ?_)
      refine not_lt.2 (le_trans ?_ low)
      refine le_trans ?_ (scaled (?_ : 54 + (970 : Nat) ≤ order))
      · rw [← shift]
        gcongr
        norm_num
      · omega

/-- A decimal is read as a finite double exactly below the bound. -/
theorem isFinite_ofDecimal_iff (negative : Bool) (coefficient : Nat) (exponent : Int) :
    (ofDecimal negative coefficient exponent).isFinite = true ↔
      coefficient * 10 ^ exponent.toNat < overflow * 10 ^ (-exponent).toNat := by
  obtain ⟨limit, few, reached⟩ : ∃ limit ≤ 400, overflow ≤ 10 ^ limit :=
    ⟨400, Nat.le_refl _, by decide +kernel⟩
  have positive : 0 < overflow := halfBeyond_pos _
  unfold ofDecimal
  dsimp only
  split
  · rename_i small
    refine iff_of_true ((isFinite_ofParts_iff _ (Nat.zero_le _)).2 (by decide)) ?_
    obtain rfl | low := small
    · rw [Nat.zero_mul]
      exact Nat.mul_pos positive (Nat.pow_pos (by decide))
    · have short : coefficient < 10 ^ (-exponent).toNat := by
        rw [← Nat.length_toDigits_le_iff (by decide) (by omega)]
        omega
      rw [show exponent.toNat = 0 by omega, Nat.pow_zero, Nat.mul_one]
      exact short.trans_le (Nat.le_mul_of_pos_left _ positive)
  · rename_i some
    rw [not_or] at some
    split
    · rename_i high
      refine iff_of_false ?_ ?_
      · rw [isFinite_ofParts_iff _ (Nat.le_refl _)]
        exact Nat.lt_irrefl _
      · have length := @Nat.length_toDigits_pos 10 coefficient
        have large : 10 ^ ((Nat.toDigits 10 coefficient).length - 1) ≤ coefficient := by
          by_contra short
          by_cases one : (Nat.toDigits 10 coefficient).length = 1
          · rw [one, Nat.sub_self, Nat.pow_zero] at short
            omega
          · rw [not_le, ← Nat.length_toDigits_le_iff (by decide) (by omega)] at short
            omega
        rw [not_lt]
        calc overflow * 10 ^ (-exponent).toNat
            ≤ 10 ^ limit * 10 ^ (-exponent).toNat := Nat.mul_le_mul_right _ reached
          _ = 10 ^ (limit + (-exponent).toNat) := (Nat.pow_add ..).symm
          _ ≤ 10 ^ ((Nat.toDigits 10 coefficient).length - 1 + exponent.toNat) :=
              Nat.pow_le_pow_right (by decide) (by omega)
          _ = 10 ^ ((Nat.toDigits 10 coefficient).length - 1) * 10 ^ exponent.toNat :=
            Nat.pow_add ..
          _ ≤ coefficient * 10 ^ exponent.toNat := Nat.mul_le_mul_right _ large
    · exact isFinite_nearest_iff negative (Nat.pow_pos (by decide)).ne'

/-! ## What the operations result in -/

theorem isFinite_of_finite? {x y : Double} (found : x.finite? = some y) : y.isFinite = true := by
  unfold finite? at found
  split at found
  · cases found
    assumption
  · cases found

theorem isFinite_of_add? {x y z : Double} (found : x.add? y = some z) : z.isFinite = true := by
  unfold add? at found
  split at found
  · exact isFinite_of_finite? found
  · cases found

theorem isFinite_of_mul? {x y z : Double} (found : x.mul? y = some z) : z.isFinite = true := by
  unfold mul? at found
  split at found
  · exact isFinite_of_finite? found
  · cases found

theorem isFinite_of_div? {x y z : Double} (found : x.div? y = some z) : z.isFinite = true := by
  unfold div? at found
  dsimp only at found
  split at found
  · exact isFinite_of_finite? found
  · split at found
    · cases found
      exact (isFinite_ofParts_iff _ (Nat.zero_le _)).2 (by decide)
    · cases found

theorem isFinite_of_isZero {x : Double} (zero : x.isZero = true) : x.isFinite = true := by
  rw [isFinite, beq_iff_eq.1 zero]
  rfl

theorem isFinite_abs (x : Double) : x.abs.isFinite = x.isFinite := by
  rw [isFinite, abs, magnitude_ofParts _ x.magnitude_lt]
  rfl

theorem natAbs_inUnits (x : Double) (unit : Int) :
    (x.inUnits unit).natAbs = x.significand * Nat.pow 2 (x.exponent - unit).toNat := by
  unfold inUnits
  dsimp only
  split
  · rw [Int.natAbs_neg]
    exact Int.natAbs_natCast _
  · exact Int.natAbs_natCast _

/-- What a finite double denotes is below the bound, in whatever units. -/
theorem natAbs_inUnits_lt {x : Double} (finite : x.isFinite = true) {unit : Int}
    (fits : unit ≤ x.exponent) :
    (x.inUnits unit).natAbs * Nat.pow 2 unit.toNat < overflow * Nat.pow 2 (-unit).toNat := by
  have denSome : Nat.pow 2 (-unit).toNat ≠ 0 := (Nat.two_pow_pos _).ne'
  have itself : nearestMagnitude ((x.inUnits unit).natAbs * Nat.pow 2 unit.toNat)
      (Nat.pow 2 (-unit).toNat) = x.magnitude := by
    refine nearestMagnitude_of_eq finite denSome ?_
    have exponents : (x.exponent - unit).toNat + unit.toNat + (-x.exponent).toNat =
        (-unit).toNat + x.exponent.toNat := by omega
    simp only [natAbs_inUnits, Nat.pow_eq, Nat.mul_assoc, ← Nat.pow_add]
    rw [← exponents, Nat.add_assoc]
  rw [← isFinite_nearest_iff x.negative denSome, nearest, itself, ofParts_self]
  exact finite

theorem isFinite_of_rem? {x y z : Double} (found : x.rem? y = some z) : z.isFinite = true := by
  unfold rem? at found
  split at found
  · rename_i finite
    cases found
    have fits : min x.exponent y.exponent ≤ x.exponent := min_le_left _ _
    have denSome : Nat.pow 2 (-min x.exponent y.exponent).toNat ≠ 0 := (Nat.two_pow_pos _).ne'
    refine (isFinite_nearest_iff _ denSome).2 (Nat.lt_of_le_of_lt ?_
      (natAbs_inUnits_lt (Bool.and_eq_true_iff.1 finite).1 fits))
    exact Nat.mul_le_mul_right _ (Nat.mod_le _ _)
  · split at found
    · rename_i finite
      cases found
      exact (Bool.and_eq_true_iff.1 finite).1
    · cases found

/-- An integer far below the bound becomes a finite double. -/
theorem isFinite_ofInt {n : Int} (small : n.natAbs < overflow) : (ofInt n).isFinite = true := by
  rw [ofInt, isFinite_nearest_iff _ Nat.one_ne_zero, Nat.mul_one]
  exact small

end Double

namespace Decimal

/-! ## Decimals on the way to doubles -/

/-- The decimal is no longer than decimals are. -/
structure Fits (d : Decimal) : Prop where
  coefficient : d.mantissa.natAbs < coefficientBound
  scale : d.scale ≤ maxScale

theorem natAbs_mantissa_ofParts (negative : Bool) (parts : Nat × Nat) :
    (ofParts negative parts).mantissa.natAbs = parts.1 := by
  cases negative <;> simp [ofParts]

theorem tradeHalves_lt {steps coefficient : Nat} {power : Int}
    (fits : coefficient < coefficientBound) :
    (tradeHalves steps coefficient power).1 < coefficientBound := by
  fun_induction tradeHalves steps coefficient power with
  | case1 => exact fits
  | case2 coefficient power steps odd ih => exact ih odd.2
  | case3 coefficient power steps _ ih => exact ih (Nat.lt_of_le_of_lt (Nat.div_le_self _ _) fits)

theorem tradeDoubles_lt {steps coefficient : Nat} {power : Int}
    (fits : coefficient < coefficientBound) :
    (tradeDoubles steps coefficient power).1 < coefficientBound := by
  fun_induction tradeDoubles steps coefficient power with
  | case1 => exact fits
  | case2 coefficient power steps short ih =>
      have bound : coefficientBound = 2 * Nat.pow 2 95 := rfl
      exact ih (by omega)
  | case3 coefficient power steps _ ih => exact ih (Nat.lt_of_le_of_lt (Nat.div_le_self _ _) fits)

theorem raise?_lt {steps coefficient raised : Nat} (fits : coefficient < coefficientBound)
    (found : raise? steps coefficient = some raised) : raised < coefficientBound := by
  fun_induction raise? steps coefficient with
  | case1 =>
      cases found
      exact fits
  | case2 coefficient steps short ih => exact ih short found
  | case3 => cases found

theorem dropPlaces_le (excess coefficient : Nat) : dropPlaces excess coefficient ≤ coefficient := by
  fun_induction dropPlaces excess coefficient with
  | case1 => exact Nat.le_refl _
  | case2 => exact Nat.zero_le _
  | case3 coefficient excess kept some ih =>
      refine ih.trans ?_
      split <;> omega

theorem partsOfDouble?_fits {x : Double} {parts : Nat × Nat}
    (found : partsOfDouble? x = some parts) :
    parts.1 < coefficientBound ∧ parts.2 ≤ maxScale := by
  unfold partsOfDouble? at found
  split at found
  · cases found
    decide
  · have start : x.significand < coefficientBound := x.significand_lt.trans (by decide)
    have traded : (if x.exponent < 0 then
        tradeHalves (-x.exponent).toNat x.significand x.exponent
        else tradeDoubles x.exponent.toNat x.significand x.exponent).1 < coefficientBound := by
      split
      · exact tradeHalves_lt start
      · exact tradeDoubles_lt start
    obtain ⟨raised, raise, found⟩ := Option.bind_eq_some_iff.1 found
    cases found
    refine ⟨Nat.lt_of_le_of_lt (dropPlaces_le _ _) (raise?_lt traded raise), ?_⟩
    dsimp only
    split
    · exact Nat.zero_le _
    · exact Nat.min_le_right _ _

theorem shorten_le (scale coefficient : Nat) :
    (shorten scale coefficient).1 ≤ coefficient ∧ (shorten scale coefficient).2 ≤ scale := by
  fun_induction shorten scale coefficient with
  | case1 => exact ⟨Nat.le_refl _, Nat.le_refl _⟩
  | case2 => exact ⟨Nat.le_refl _, Nat.le_refl _⟩
  | case3 scale coefficient long ih =>
      have some : Nat.pow 2 52 ≤ coefficient := Nat.not_lt.1 long
      have unit : Nat.pow 2 52 = 4503599627370496 := rfl
      refine ⟨ih.1.trans ?_, ih.2.trans (Nat.le_succ _)⟩
      split <;> omega

theorem stripZeros_le (scale coefficient : Nat) :
    (stripZeros scale coefficient).1 ≤ coefficient ∧ (stripZeros scale coefficient).2 ≤ scale := by
  fun_induction stripZeros scale coefficient with
  | case1 => exact ⟨Nat.le_refl _, Nat.le_refl _⟩
  | case2 coefficient scale zero ih =>
      exact ⟨ih.1.trans (Nat.div_le_self _ _), ih.2.trans (Nat.le_succ _)⟩
  | case3 => exact ⟨Nat.le_refl _, Nat.le_refl _⟩

theorem rounded?_fits {x : Double} {d : Decimal} (found : rounded? x = some d) : d.Fits := by
  unfold rounded? at found
  split at found
  · obtain ⟨⟨coefficient, scale⟩, parts, rfl⟩ := Option.map_eq_some_iff.1 found
    obtain ⟨fits, few⟩ := partsOfDouble?_fits parts
    have short := shorten_le scale coefficient
    have stripped := stripZeros_le (shorten scale coefficient).2 (shorten scale coefficient).1
    constructor
    · rw [natAbs_mantissa_ofParts]
      exact Nat.lt_of_le_of_lt (stripped.1.trans short.1) fits
    · exact (stripped.2.trans short.2).trans few
  · cases found

theorem ofInt_fits (n : Int64) : (ofInt n.toInt).Fits := by
  have low : integerMin ≤ n.toInt := Int64.le_toInt n
  have high : n.toInt ≤ integerMax := Int64.toInt_le n
  constructor
  · have bound : coefficientBound = 79228162514264337593543950336 := rfl
    have unit : Nat.pow 2 63 = 9223372036854775808 := rfl
    simp only [ofInt, bound]
    simp only [integerMin, integerMax, unit] at low high
    omega
  · exact Nat.zero_le _

theorem fit?_lt {negative : Bool} {num den scale : Nat} {d : Decimal}
    (found : fit? negative num den scale = some d) : d.mantissa.natAbs < coefficientBound := by
  fun_induction fit? negative num den scale with
  | case1 coefficient short =>
      cases found
      rw [natAbs_mantissa_ofParts]
      exact short
  | case2 => cases found
  | case3 scale coefficient short =>
      cases found
      rw [natAbs_mantissa_ofParts]
      exact short
  | case4 scale coefficient _ ih => exact ih found

theorem trimQuotient_le (parts : Nat × Nat) : (trimQuotient parts).1 ≤ parts.1 := by
  have dropped : ∀ (count : Nat) (parts : Nat × Nat), (dropZeros count parts).1 ≤ parts.1 := by
    intro count parts
    unfold dropZeros
    split
    · exact Nat.div_le_self _ _
    · exact Nat.le_refl _
  have eight : ∀ parts : Nat × Nat, (dropEightZeros parts).1 ≤ parts.1 := by
    intro parts
    unfold dropEightZeros
    split
    · exact dropped 8 parts
    · exact Nat.le_refl _
  calc (trimQuotient parts).1
      ≤ (dropEightZeros (dropEightZeros (dropEightZeros parts))).1 :=
        (dropped 1 _).trans ((dropped 2 _).trans (dropped 4 _))
    _ ≤ parts.1 := (eight _).trans ((eight _).trans (eight parts))

theorem add?_lt {a b d : Decimal} (fitsA : a.mantissa.natAbs < coefficientBound)
    (fitsB : b.mantissa.natAbs < coefficientBound) (found : a.add? b = some d) :
    d.mantissa.natAbs < coefficientBound := by
  unfold add? at found
  split at found
  · cases found
    exact fitsB
  · split at found
    · cases found
      exact fitsA
    · exact fit?_lt found

theorem mul?_lt {a b d : Decimal} (found : a.mul? b = some d) :
    d.mantissa.natAbs < coefficientBound := by
  unfold mul? at found
  split at found
  · cases found
    decide
  · exact fit?_lt found

theorem div?_lt {a b d : Decimal} (found : a.div? b = some d) :
    d.mantissa.natAbs < coefficientBound := by
  unfold div? at found
  split at found
  · cases found
    decide
  · obtain ⟨quotient, fits, found⟩ := Option.bind_eq_some_iff.1 found
    split at found
    · cases found
      exact fit?_lt fits
    · cases found
      rw [natAbs_mantissa_ofParts]
      exact Nat.lt_of_le_of_lt (trimQuotient_le _) (fit?_lt fits)

theorem rem_lt {a b : Decimal} (fitsA : a.Fits) (fitsB : b.Fits) :
    (a.rem b).mantissa.natAbs < coefficientBound * Nat.pow 10 maxScale := by
  have few : max a.scale b.scale - a.scale ≤ maxScale :=
    (Nat.sub_le _ _).trans (Nat.max_le.2 ⟨fitsA.scale, fitsB.scale⟩)
  calc (a.rem b).mantissa.natAbs
      ≤ (a.mantissaAt (max a.scale b.scale)).natAbs := by
        rw [rem, Int.natAbs_tmod]
        exact Nat.mod_le _ _
    _ = a.mantissa.natAbs * Nat.pow 10 (max a.scale b.scale - a.scale) := by
        rw [mantissaAt, Int.natAbs_mul, Int.natAbs_natCast]
    _ < coefficientBound * Nat.pow 10 maxScale :=
        Nat.mul_lt_mul_of_lt_of_le fitsA.coefficient (Nat.pow_le_pow_right (by decide) few)
          (Nat.pow_pos (by decide))

/-- The size of a decimal result is far below what doubles reach. -/
theorem decimal?_lt (op : Arithmetic) {a b d : Decimal} (fitsA : a.Fits) (fitsB : b.Fits)
    (found : op.decimal? a b = some d) :
    d.mantissa.natAbs < coefficientBound * Nat.pow 10 maxScale := by
  have wider : coefficientBound ≤ coefficientBound * Nat.pow 10 maxScale :=
    Nat.le_mul_of_pos_right _ (Nat.pow_pos (by decide))
  cases op with
  | add => exact (add?_lt fitsA.coefficient fitsB.coefficient found).trans_le wider
  | subtract =>
      have negated : (-b.mantissa).natAbs < coefficientBound := by
        rw [Int.natAbs_neg]
        exact fitsB.coefficient
      exact (add?_lt fitsA.coefficient negated found).trans_le wider
  | multiply => exact (mul?_lt found).trans_le wider
  | divide => exact (div?_lt found).trans_le wider
  | modulo =>
      cases found
      exact rem_lt fitsA fitsB

theorem isFinite_of_toDouble? {d : Decimal} {x : Double}
    (small : d.mantissa.natAbs < coefficientBound * Nat.pow 10 maxScale)
    (found : d.toDouble? = some x) : x.isFinite = true := by
  have reached : coefficientBound * Nat.pow 10 maxScale < Double.overflow :=
    lt_of_lt_of_le (by decide) (Double.two_pow_le_halfBeyond (by decide : 190 ≤ 53 + 970))
  have integer : ∀ n : Int, n.natAbs ≤ d.mantissa.natAbs → (Double.ofInt n).isFinite = true :=
    fun n less => Double.isFinite_ofInt ((less.trans_lt small).trans reached)
  unfold toDouble? at found
  dsimp only at found
  split at found
  · cases found
    exact integer _ (Nat.le_refl _)
  · obtain ⟨fraction, _, found⟩ := Option.bind_eq_some_iff.1 found
    have sized : ∀ size : Double, size.isFinite = true →
        (if d.mantissa < 0 then size.neg else size).isFinite = true := by
      intro size finite
      split
      · rw [Double.isFinite_neg, finite]
      · exact finite
    split at found
    · cases found
      refine sized _ (integer _ ?_)
      rw [Int.natAbs_natCast]
      exact Nat.div_le_self _ _
    · obtain ⟨sum, _, found⟩ := Option.bind_eq_some_iff.1 found
      obtain ⟨power, _, found⟩ := Option.bind_eq_some_iff.1 found
      obtain ⟨scaled, _, found⟩ := Option.bind_eq_some_iff.1 found
      obtain ⟨size, divided, found⟩ := Option.bind_eq_some_iff.1 found
      cases found
      exact sized _ (Double.isFinite_of_div? divided)

end Decimal

end Pipeline
