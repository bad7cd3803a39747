import Mathlib.Algebra.Order.Field.Power
import Mathlib.Algebra.Order.Field.Rat
import Mathlib.Tactic.Linarith
import Mathlib.Tactic.Positivity
import Mathlib.Tactic.Ring
import Pipeline.Number.Double

/-! A double is its sign and its magnitude, and the double nearest to what a finite double denotes
is that double. -/

set_option autoImplicit false

namespace Pipeline

theorem roundHalfEven_mul (n : Nat) {den : Nat} (positive : 0 < den) :
    roundHalfEven (n * den) den = n := by
  unfold roundHalfEven
  rw [Nat.mul_div_cancel _ positive, Nat.mul_mod_left, Nat.mul_zero, if_neg]
  omega

namespace Double

/-! ## Sign and magnitude -/

theorem magnitude_lt (x : Double) : x.magnitude < Nat.pow 2 63 :=
  Nat.mod_lt _ (by decide)

theorem ofParts_self (x : Double) : ofParts x.negative x.magnitude = x := by
  obtain ⟨bits⟩ := x
  have bound : bits.toNat < 2 ^ 64 := bits.toNat_lt
  have unit : Nat.pow 2 63 = 9223372036854775808 := rfl
  rw [ofParts, mk.injEq, ← @UInt64.ofNat_toNat bits]
  congr 1
  simp only [negative, magnitude, UInt64.ofNat_toNat, Nat.ble_eq, unit]
  split <;> omega

theorem toNat_ofParts (negative : Bool) {magnitude : Nat} (bound : magnitude < Nat.pow 2 63) :
    (ofParts negative magnitude).bits.toNat =
      if negative then Nat.pow 2 63 + magnitude else magnitude := by
  have unit : Nat.pow 2 63 = 9223372036854775808 := rfl
  rw [ofParts, UInt64.toNat_ofNat', Nat.mod_eq_of_lt]
  split <;> omega

theorem negative_ofParts (negative : Bool) {magnitude : Nat}
    (bound : magnitude < Nat.pow 2 63) : (ofParts negative magnitude).negative = negative := by
  rw [Double.negative, toNat_ofParts negative bound, Bool.eq_iff_iff, Nat.ble_eq]
  cases negative
  · simpa using bound
  · simp

theorem magnitude_ofParts (negative : Bool) {magnitude : Nat}
    (bound : magnitude < Nat.pow 2 63) : (ofParts negative magnitude).magnitude = magnitude := by
  rw [Double.magnitude, toNat_ofParts negative bound]
  cases negative
  · exact Nat.mod_eq_of_lt bound
  · rw [if_pos rfl, Nat.add_mod_left, Nat.mod_eq_of_lt bound]

theorem neg_neg (x : Double) : x.neg.neg = x := by
  have bound := x.magnitude_lt
  rw [neg, neg, negative_ofParts _ bound, magnitude_ofParts _ bound, Bool.not_not, ofParts_self]

theorem negative_neg (x : Double) : x.neg.negative = !x.negative :=
  negative_ofParts _ x.magnitude_lt

theorem isFinite_neg (x : Double) : x.neg.isFinite = x.isFinite := by
  rw [isFinite, neg, magnitude_ofParts _ x.magnitude_lt]
  rfl

/-! ## Powers of two -/

theorem two_pow_toNat (g : Int) : (2 : ℚ) ^ g.toNat = 2 ^ g * 2 ^ (-g).toNat := by
  rw [← zpow_natCast, ← zpow_natCast, ← zpow_add₀ two_ne_zero]
  congr 1
  omega

/-- A comparison of quotients with a power of two, as it is made without fractions. -/
theorem two_pow_mul_le_iff (num den : Nat) (g : Int) :
    den * Nat.pow 2 g.toNat ≤ num * Nat.pow 2 (-g).toNat ↔ (2 : ℚ) ^ g * den ≤ num := by
  have positive : (0 : ℚ) < 2 ^ (-g).toNat := by positivity
  have cast : ((den * 2 ^ g.toNat : Nat) : ℚ) = 2 ^ g * den * 2 ^ (-g).toNat := by
    rw [Nat.cast_mul, Nat.cast_pow, Nat.cast_ofNat, two_pow_toNat]
    ring
  rw [← mul_le_mul_iff_left₀ positive, ← cast]
  exact_mod_cast Iff.rfl

theorem log2_bounds {n : Nat} (some : n ≠ 0) :
    (2 : ℚ) ^ (n.log2 : Int) ≤ n ∧ (n : ℚ) < 2 ^ (n.log2 + 1 : Int) := by
  have low : 2 ^ n.log2 ≤ n := Nat.log2_self_le some
  have high : n < 2 ^ (n.log2 + 1) := Nat.lt_log2_self
  constructor
  · rw [zpow_natCast]
    exact_mod_cast low
  · rw [← Nat.cast_succ, zpow_natCast]
    exact_mod_cast high

/-- The order is the power of two that is reached but not doubled. -/
theorem binaryOrder_bounds {num den : Nat} (numSome : num ≠ 0) (denSome : den ≠ 0) :
    (2 : ℚ) ^ binaryOrder num den * den ≤ num ∧
      (num : ℚ) < 2 ^ (binaryOrder num den + 1) * den := by
  obtain ⟨numLow, numHigh⟩ := log2_bounds numSome
  obtain ⟨denLow, denHigh⟩ := log2_bounds denSome
  have power : ∀ g h : Int, (2 : ℚ) ^ g * 2 ^ h = 2 ^ (g + h) :=
    fun g h => (zpow_add₀ two_ne_zero g h).symm
  have positive : ∀ g : Int, (0 : ℚ) ≤ 2 ^ g := fun g => by positivity
  unfold binaryOrder
  dsimp only
  split
  · rename_i reached
    refine ⟨(two_pow_mul_le_iff _ _ _).1 reached, ?_⟩
    calc (num : ℚ) < 2 ^ (num.log2 + 1 : Int) := numHigh
      _ = 2 ^ ((num.log2 : Int) - den.log2 + 1) * 2 ^ (den.log2 : Int) := by
          rw [power]
          congr 1
          omega
      _ ≤ _ := mul_le_mul_of_nonneg_left denLow (positive _)
  · rename_i missed
    rw [two_pow_mul_le_iff, not_le] at missed
    constructor
    · calc (2 : ℚ) ^ ((num.log2 : Int) - den.log2 - 1) * den ≤
            2 ^ ((num.log2 : Int) - den.log2 - 1) * 2 ^ (den.log2 + 1 : Int) :=
          mul_le_mul_of_nonneg_left denHigh.le (positive _)
        _ = 2 ^ (num.log2 : Int) := by
          rw [power]
          congr 1
          omega
        _ ≤ num := numLow
    · rwa [Int.sub_add_cancel]

theorem binaryOrder_eq {num den : Nat} (numSome : num ≠ 0) (denSome : den ≠ 0) {order : Int}
    (low : (2 : ℚ) ^ order * den ≤ num) (high : (num : ℚ) < 2 ^ (order + 1) * den) :
    binaryOrder num den = order := by
  obtain ⟨ownLow, ownHigh⟩ := binaryOrder_bounds numSome denSome
  have positive : (0 : ℚ) < den := by exact_mod_cast Nat.pos_of_ne_zero denSome
  have below : ∀ {g h : Int}, (2 : ℚ) ^ g * den ≤ num → (num : ℚ) < 2 ^ (h + 1) * den → g ≤ h := by
    intro g h reached missed
    have less := lt_of_mul_lt_mul_right (reached.trans_lt missed) positive.le
    have exponents := (zpow_lt_zpow_iff_right₀ one_lt_two).1 less
    omega
  exact le_antisymm (below ownLow high) (below low ownHigh)

/-! ## Rounding what needs no rounding -/

theorem significand_lt (x : Double) : x.significand < 2 ^ 53 := by
  have unit : Nat.pow 2 52 = 4503599627370496 := rfl
  simp only [significand, unit]
  split <;> omega

theorem magnitude_eq (x : Double) :
    (x.exponent + 1074).toNat * Nat.pow 2 52 + x.significand = x.magnitude := by
  have unit : Nat.pow 2 52 = 4503599627370496 := rfl
  simp only [significand, exponent, unit]
  split <;> omega

/-- A coefficient is short only where the exponent cannot be less. -/
theorem exponent_eq_or (x : Double) :
    -1074 ≤ x.exponent ∧ (x.exponent = -1074 ∨ 2 ^ 52 ≤ x.significand) := by
  have unit : Nat.pow 2 52 = 4503599627370496 := rfl
  simp only [significand, exponent, unit]
  split <;> omega

theorem exponent_le {x : Double} (finite : x.isFinite = true) : x.exponent ≤ 971 := by
  have unit : Nat.pow 2 52 = 4503599627370496 := rfl
  have bounded : x.magnitude < 9218868437227405312 := by
    simpa [isFinite, infinite, Nat.blt_eq] using finite
  simp only [exponent, unit]
  omega

/-- The scale at which a double is rounded is its own exponent. -/
theorem scale_eq {x : Double} (some : x.significand ≠ 0) :
    max ((x.significand.log2 : Int) + x.exponent - 52) (-1074) = x.exponent := by
  have short : x.significand.log2 < 53 := (Nat.log2_lt some).2 x.significand_lt
  obtain ⟨least, subnormal | normal⟩ := x.exponent_eq_or
  · omega
  · have long : 52 ≤ x.significand.log2 := (Nat.le_log2 some).2 normal
    omega

/-- The quotient is what the double denotes. -/
theorem nearestMagnitude_of_eq {x : Double} (finite : x.isFinite = true) {num den : Nat}
    (denSome : den ≠ 0)
    (same : num * 2 ^ (-x.exponent).toNat = x.significand * den * 2 ^ x.exponent.toNat) :
    nearestMagnitude num den = x.magnitude := by
  have parts := x.magnitude_eq
  by_cases zero : x.significand = 0
  · have least : x.exponent = -1074 := by
      rcases x.exponent_eq_or.2 with least | long
      · exact least
      · rw [zero] at long
        exact absurd long (by decide)
    rw [zero, Nat.zero_mul, Nat.zero_mul, Nat.mul_eq_zero] at same
    have none : num = 0 := same.resolve_right (by positivity)
    rw [zero, least] at parts
    rw [nearestMagnitude, if_pos none]
    exact parts
  · have numSome : num ≠ 0 := by
      rintro rfl
      rw [Nat.zero_mul] at same
      exact absurd same.symm (by positivity)
    have value : (num : ℚ) = x.significand * 2 ^ x.exponent * den := by
      have positive : (2 : ℚ) ^ (-x.exponent).toNat ≠ 0 := by positivity
      have cast : ((num * 2 ^ (-x.exponent).toNat : Nat) : ℚ) =
          ((x.significand * den * 2 ^ x.exponent.toNat : Nat) : ℚ) := congrArg _ same
      push_cast at cast
      rw [two_pow_toNat x.exponent] at cast
      refine mul_right_cancel₀ positive (cast.trans ?_)
      ring
    have order : binaryOrder num den = x.significand.log2 + x.exponent := by
      obtain ⟨low, high⟩ := log2_bounds zero
      have positive : (0 : ℚ) < 2 ^ x.exponent * den := by positivity
      refine binaryOrder_eq numSome denSome ?_ ?_
      · calc (2 : ℚ) ^ (x.significand.log2 + x.exponent : Int) * den
            = 2 ^ (x.significand.log2 : Int) * (2 ^ x.exponent * den) := by
              rw [zpow_add₀ two_ne_zero, mul_assoc]
          _ ≤ x.significand * (2 ^ x.exponent * den) :=
              mul_le_mul_of_nonneg_right low positive.le
          _ = num := by rw [value, mul_assoc]
      · calc (num : ℚ) = x.significand * (2 ^ x.exponent * den) := by rw [value, mul_assoc]
          _ < 2 ^ (x.significand.log2 + 1 : Int) * (2 ^ x.exponent * den) :=
              mul_lt_mul_of_pos_right high positive
          _ = 2 ^ (x.significand.log2 + x.exponent + 1 : Int) * den := by
              rw [add_right_comm, zpow_add₀ two_ne_zero (x.significand.log2 + 1 : Int), mul_assoc]
    have bounded : x.magnitude < infinite := by simpa [isFinite, Nat.blt_eq] using finite
    have rounded : roundHalfEven (num * Nat.pow 2 (-x.exponent).toNat)
        (den * Nat.pow 2 x.exponent.toNat) = x.significand := by
      have whole : num * Nat.pow 2 (-x.exponent).toNat =
          x.significand * (den * Nat.pow 2 x.exponent.toNat) := by
        rw [← Nat.mul_assoc]
        exact same
      rw [whole]
      exact roundHalfEven_mul _ (Nat.mul_pos (Nat.pos_of_ne_zero denSome) (Nat.pow_pos (by decide)))
    rw [nearestMagnitude, if_neg numSome]
    simp only [order, scale_eq zero, rounded, parts]
    exact Nat.min_eq_left bounded.le

end Double

end Pipeline
