import Mathlib.Algebra.Order.Ring.Abs
import Pipeline.Number
import Pipeline.Proofs.Doubles

/-! The rational that a number denotes. The comparisons of numbers, of which those of a double with
an integer and of the two zeros are cases of their own, are the equality of these rationals. -/

set_option autoImplicit false

namespace Pipeline

namespace Double

/-- What a finite double denotes. -/
def toRat (x : Double) : ℚ :=
  (if x.negative then -1 else 1) * (x.significand * 2 ^ x.exponent)

theorem abs_toRat (x : Double) : |x.toRat| = x.significand * 2 ^ x.exponent := by
  have size : (0 : ℚ) ≤ x.significand * 2 ^ x.exponent := by positivity
  rw [toRat, abs_mul, abs_of_nonneg size]
  split <;> simp

/-- The magnitude of a finite double is found from the size of what it denotes. -/
theorem magnitude_eq_of_abs_toRat {x y : Double} (finiteX : x.isFinite = true)
    (finiteY : y.isFinite = true) (same : |x.toRat| = |y.toRat|) : x.magnitude = y.magnitude := by
  rw [abs_toRat, abs_toRat] at same
  have denSome : 2 ^ (-x.exponent).toNat ≠ 0 := by positivity
  have found : ∀ z : Double, z.isFinite = true →
      (x.significand * 2 ^ x.exponent : ℚ) = z.significand * 2 ^ z.exponent →
      nearestMagnitude (x.significand * 2 ^ x.exponent.toNat) (2 ^ (-x.exponent).toNat) =
        z.magnitude := by
    intro z finite equal
    refine nearestMagnitude_of_eq finite denSome ?_
    have cast : (x.significand * 2 ^ x.exponent.toNat * 2 ^ (-z.exponent).toNat : ℚ) =
        z.significand * 2 ^ (-x.exponent).toNat * 2 ^ z.exponent.toNat := by
      rw [two_pow_toNat x.exponent, two_pow_toNat z.exponent, ← mul_assoc, equal]
      ring
    exact_mod_cast cast
  exact (found x finiteX rfl).symm.trans (found y finiteY same)

theorem significand_eq_zero {x : Double} : x.significand = 0 ↔ x.magnitude = 0 := by
  have unit : Nat.pow 2 52 = 4503599627370496 := rfl
  simp only [significand, unit]
  split <;> omega

theorem toRat_eq_zero {x : Double} : x.toRat = 0 ↔ x.magnitude = 0 := by
  rw [← abs_eq_zero, abs_toRat, mul_eq_zero, Nat.cast_eq_zero, significand_eq_zero]
  exact or_iff_left (by positivity)

theorem negative_iff_toRat {x : Double} (some : x.magnitude ≠ 0) :
    x.negative = true ↔ x.toRat < 0 := by
  have positive : (0 : ℚ) < x.significand * 2 ^ x.exponent := by
    have long : 0 < x.significand := Nat.pos_of_ne_zero (significand_eq_zero.not.2 some)
    positivity
  rw [toRat]
  cases x.negative
  · simpa using positive.le
  · simpa using positive

theorem isNaN_of_isFinite {x : Double} (finite : x.isFinite = true) : x.isNaN = false := by
  rw [isFinite, Nat.blt_eq] at finite
  rw [isNaN, Bool.eq_false_iff, ne_eq, Nat.blt_eq]
  omega

/-- The zeros apart, a finite double is the only one that denotes what it does. -/
theorem numericEq_iff {x y : Double} (finiteX : x.isFinite = true) (finiteY : y.isFinite = true) :
    x.numericEq y = true ↔ x.toRat = y.toRat := by
  simp only [numericEq, isNaN_of_isFinite finiteX, isNaN_of_isFinite finiteY, isZero,
    Bool.not_false, Bool.true_and, Bool.or_eq_true, Bool.and_eq_true, beq_iff_eq]
  constructor
  · rintro (rfl | ⟨zeroX, zeroY⟩)
    · rfl
    · rw [toRat_eq_zero.2 zeroX, toRat_eq_zero.2 zeroY]
  · intro same
    have magnitudes := magnitude_eq_of_abs_toRat finiteX finiteY (congrArg (|·|) same)
    by_cases zero : x.magnitude = 0
    · exact .inr ⟨zero, magnitudes ▸ zero⟩
    · have signs : x.negative = y.negative := by
        rw [Bool.eq_iff_iff, negative_iff_toRat zero, negative_iff_toRat (magnitudes ▸ zero), same]
      left
      rw [← ofParts_self x, ← ofParts_self y, signs, magnitudes]

/-- A double denotes an integer exactly if its coefficient is a multiple of its unit. -/
theorem integer?_eq_some_iff {x : Double} (finite : x.isFinite = true) {n : Int} :
    x.integer? = some n ↔ x.toRat = n := by
  let unit := Nat.pow 2 (-x.exponent).toNat
  let power := Nat.pow 2 x.exponent.toNat
  have unitSome : (unit : ℚ) ≠ 0 := by
    have : 0 < unit := Nat.pow_pos (by decide)
    positivity
  have scaled : x.toRat * unit = (if x.negative then -1 else 1) * (x.significand * power) := by
    have powers : (power : ℚ) = 2 ^ x.exponent * unit := by
      simpa [unit, power] using two_pow_toNat x.exponent
    rw [powers, toRat]
    ring
  have integer : x.integer? = if x.significand % unit = 0 then
      some (if x.negative then -((x.significand / unit * power : Nat) : Int)
        else (x.significand / unit * power : Nat)) else none := by
    simp [integer?, finite, unit, power]
  rw [integer]
  split
  · rename_i divides
    obtain ⟨quotient, multiple⟩ := Nat.dvd_of_mod_eq_zero divides
    have unitPositive : 0 < unit := Nat.pow_pos (by decide)
    have whole : x.toRat = (if x.negative then -1 else 1) * (quotient * power) := by
      refine mul_right_cancel₀ unitSome (scaled.trans ?_)
      rw [multiple, Nat.cast_mul]
      ring
    rw [multiple, Nat.mul_div_cancel_left _ unitPositive, Option.some.injEq, whole,
      ← @Int.cast_inj ℚ]
    cases x.negative <;> simp [eq_comm]
  · rename_i remainder
    simp only [reduceCtorEq, false_iff]
    intro denotes
    -- The unit and the power are not both greater than one.
    have sizes : n.natAbs * unit = x.significand * power := by
      have absolute := congrArg (|·|) scaled
      rw [denotes, abs_mul, abs_mul, Nat.abs_cast, ← Int.cast_abs, Int.abs_eq_natAbs,
        abs_of_nonneg (by positivity : (0 : ℚ) ≤ x.significand * power)] at absolute
      have sign : |(if x.negative then -1 else 1 : ℚ)| = 1 := by split <;> simp
      rw [sign, one_mul] at absolute
      exact_mod_cast absolute
    rcases le_total 0 x.exponent with up | down
    · have one : unit = 1 := by simp [unit, up]
      exact remainder (by rw [one, Nat.mod_one])
    · have one : power = 1 := by simp [power, down]
      rw [one, Nat.mul_one] at sizes
      exact remainder (by rw [← sizes, Nat.mul_mod_left])

end Double

namespace Number

/-- Whether a number is neither an infinity nor no number at all. -/
def IsFinite : Number → Prop
  | integer _ => True
  | float x => x.isFinite = true

/-- What a finite number denotes. -/
def toRat : Number → ℚ
  | integer n => n.toInt
  | float x => x.toRat

theorem equals_iff {a b : Number} (finiteA : a.IsFinite) (finiteB : b.IsFinite) :
    a.equals b = true ↔ a.toRat = b.toRat := by
  cases a with
  | integer a =>
      cases b with
      | integer b => simp [equals, toRat, Int64.toInt_inj]
      | float y =>
          rw [equals, beq_iff_eq, Double.integer?_eq_some_iff finiteB]
          exact eq_comm
  | float x =>
      cases b with
      | integer b => rw [equals, beq_iff_eq, Double.integer?_eq_some_iff finiteA, toRat, toRat]
      | float y => exact Double.numericEq_iff finiteA finiteB

end Number

end Pipeline
