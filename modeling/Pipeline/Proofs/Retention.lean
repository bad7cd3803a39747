import Mathlib.Data.Nat.Cast.Field
import Mathlib.Tactic.FieldSimp
import Mathlib.Tactic.NormNum
import Pipeline.Proofs.Overflow
import Pipeline.Proofs.Trading

/-! What a comparison with an integer sees of a double. The decimal that stands for the double lies
between the same two integers, and is the double itself where that denotes an integer. Only doubles
near zero are lost: all of them are zero for the comparison. -/

set_option autoImplicit false

namespace Pipeline

theorem compare_eq_compare {α β : Type} [LinearOrder α] [LinearOrder β] {a b : α} {c d : β}
    (below : a < b ↔ c < d) (above : b < a ↔ d < c) : compare a b = compare c d := by
  rcases lt_trichotomy a b with less | same | greater
  · rw [compare_lt_iff_lt.2 less, compare_lt_iff_lt.2 (below.1 less)]
  · have equal : c = d := by
      refine le_antisymm ?_ ?_
      · exact not_lt.1 (above.not.1 same.le.not_gt)
      · exact not_lt.1 (below.not.1 same.ge.not_gt)
    rw [compare_eq_iff_eq.2 same, compare_eq_iff_eq.2 equal]
  · rw [compare_gt_iff_gt.2 greater, compare_gt_iff_gt.2 (above.1 greater)]

/-! ## Numbers that integers do not tell apart -/

/-- Whether no integer of 64 bits is between two numbers or at one of them. -/
def Alike (p q : ℚ) : Prop :=
  ∀ n : Int, n.natAbs ≤ 2 ^ 63 → ((n : ℚ) < p ↔ (n : ℚ) < q) ∧ (p < n ↔ q < n)

namespace Alike

theorem refl (p : ℚ) : Alike p p :=
  fun _ _ => ⟨.rfl, .rfl⟩

theorem neg {p q : ℚ} (alike : Alike p q) : Alike (-p) (-q) := by
  intro n small
  obtain ⟨below, above⟩ := alike (-n) (by rwa [Int.natAbs_neg])
  rw [Int.cast_neg] at below above
  constructor
  · rw [lt_neg, above, lt_neg]
  · rw [neg_lt, below, neg_lt]

theorem of_between {p q : ℚ} (m : Nat) (lowP : (m : ℚ) < p) (highP : p < m + 1)
    (lowQ : (m : ℚ) < q) (highQ : q < m + 1) : Alike p q := by
  intro n _
  rcases lt_or_ge (m : Int) n with above | below
  · have above : ((m : Int) : ℚ) + 1 ≤ n := by exact_mod_cast above
    rw [Int.cast_natCast] at above
    constructor <;> constructor <;> intro <;> linarith
  · have below : (n : ℚ) ≤ ((m : Int) : ℚ) := by exact_mod_cast below
    rw [Int.cast_natCast] at below
    constructor <;> constructor <;> intro <;> linarith

theorem of_large {p q : ℚ} (largeP : 2 ^ 63 < p) (largeQ : 2 ^ 63 < q) : Alike p q := by
  intro n small
  have size : (n : ℚ) ≤ 2 ^ 63 := by
    exact_mod_cast (by omega : n ≤ 2 ^ 63)
  exact ⟨iff_of_true (by linarith) (by linarith), iff_of_false (by linarith) (by linarith)⟩

theorem compare_eq {p q : ℚ} (alike : Alike p q) {n : Int} (small : n.natAbs ≤ 2 ^ 63) :
    compare (n : ℚ) p = compare (n : ℚ) q :=
  compare_eq_compare (alike n small).1 (alike n small).2

end Alike

namespace Double

/-- Whether a double is rounded to zero where it is compared with integers: as it is rounded at each
place, up to seventeen parts in eighteen of the last one are not enough. -/
def IsNegligible (x : Double) : Prop :=
  18 * 10 ^ 28 * |x.toRat| < 17

instance (x : Double) : Decidable x.IsNegligible :=
  inferInstanceAs (Decidable (_ < _))

/-- What a comparison with an integer sees of a finite double. -/
def seen (x : Double) : ℚ :=
  if x.IsNegligible then 0 else x.toRat

/-- The size of what a comparison with an integer sees. -/
def seenSize (x : Double) : ℚ :=
  if x.IsNegligible then 0 else |x.toRat|

theorem seenSize_of_visible {x : Double} (large : 1 / 10 ^ 28 ≤ |x.toRat|) :
    x.seenSize = |x.toRat| := by
  refine if_neg (not_lt.2 ?_)
  linarith

theorem seen_eq (x : Double) : x.seen = (if x.negative then -1 else 1) * x.seenSize := by
  rw [seen, seenSize, abs_toRat, toRat]
  split <;> simp

end Double

namespace Decimal

/-! ## Decimals -/

/-- What a decimal denotes. -/
def toRat (d : Decimal) : ℚ :=
  d.mantissa / 10 ^ d.scale

theorem mantissaAt_eq (d : Decimal) {scale : Nat} (fits : d.scale ≤ scale) :
    (d.mantissaAt scale : ℚ) = d.toRat * 10 ^ scale := by
  obtain ⟨places, rfl⟩ := Nat.exists_eq_add_of_le fits
  have cast : (d.mantissaAt (d.scale + places) : ℚ) = d.mantissa * 10 ^ places := by
    rw [mantissaAt, Nat.add_sub_cancel_left]
    push_cast [Nat.pow_eq]
    rfl
  rw [cast, toRat, pow_add]
  field_simp

theorem order_eq (a b : Decimal) : a.order b = compare a.toRat b.toRat := by
  have unit : (0 : ℚ) < 10 ^ max a.scale b.scale := by positivity
  have scaledA := a.mantissaAt_eq (le_max_left a.scale b.scale)
  have scaledB := b.mantissaAt_eq (le_max_right a.scale b.scale)
  refine compare_eq_compare ?_ ?_
  · rw [← @Int.cast_lt ℚ, scaledA, scaledB, mul_lt_mul_iff_left₀ unit]
  · rw [← @Int.cast_lt ℚ, scaledA, scaledB, mul_lt_mul_iff_left₀ unit]

theorem toRat_ofInt (n : Int) : (ofInt n).toRat = n := by
  simp [ofInt, toRat]

/-- What a coefficient and its number of places denote. -/
def size (parts : Nat × Nat) : ℚ :=
  parts.1 / 10 ^ parts.2

theorem toRat_ofParts (negative : Bool) (parts : Nat × Nat) :
    (ofParts negative parts).toRat = (if negative then -1 else 1) * size parts := by
  cases negative
  · simp [ofParts, toRat, size]
  · simp [ofParts, toRat, size, neg_div]

/-! ## What is kept -/

theorem le_keptShare_pow (steps : Nat) : 1 - steps / 2 ^ 93 ≤ keptShare ^ steps := by
  calc (1 : ℚ) - steps / 2 ^ 93 = 1 + steps * (-(1 / 2 ^ 93)) := by ring
    _ ≤ (1 + -(1 / 2 ^ 93)) ^ steps := one_add_mul_le_pow (by norm_num) steps
    _ = keptShare ^ steps := by rw [keptShare, sub_eq_add_neg]

theorem tradeHalves_near (steps coefficient : Nat) : ∃ traded scale : Nat,
    tradeHalves steps coefficient (-steps) = (traded, -(scale : Int)) ∧
      keptShare ^ steps * (coefficient / 2 ^ steps) ≤ traded / 10 ^ scale ∧
      (traded / 10 ^ scale : ℚ) ≤ coefficient / 2 ^ steps := by
  obtain ⟨_, atMost⟩ := tradeHalves_power steps coefficient (-steps)
  obtain ⟨low, high⟩ := tradeHalves_bounds steps coefficient (-steps)
  obtain ⟨scale, power⟩ :=
    Int.eq_ofNat_of_zero_le (a := -(tradeHalves steps coefficient (-steps)).2) (by omega)
  have power : (tradeHalves steps coefficient (-steps)).2 = -(scale : Int) := by omega
  rw [power, zpow_neg, zpow_neg, zpow_natCast, zpow_natCast, ← div_eq_mul_inv, ← div_eq_mul_inv,
    ten_pow steps] at low high
  refine ⟨(tradeHalves steps coefficient (-steps)).1, scale, Prod.ext rfl power, ?_, ?_⟩
  · refine le_of_eq_of_le ?_ low
    rw [mul_pow]
    field_simp
  · refine high.trans_eq ?_
    field_simp

theorem dropPlaces_share {excess coefficient kept : Nat}
    (dropped : dropPlaces excess coefficient = kept) :
    (kept : ℚ) ≤ coefficient / 10 ^ excess + 1 ∧
      (kept ≠ 0 → (coefficient / 10 ^ excess : ℚ) ≤ kept + 1) ∧
      (kept = 0 ↔ 18 * (coefficient / 10 ^ excess : ℚ) < 17) := by
  obtain ⟨high, low⟩ := dropPlaces_bounds excess coefficient
  have zero := dropPlaces_eq_zero_iff excess coefficient
  rw [dropped] at high low zero
  have unit : (0 : ℚ) < 10 ^ excess := by positivity
  have whole : (coefficient : ℚ) = coefficient / 10 ^ excess * 10 ^ excess := by field_simp
  generalize (coefficient / 10 ^ excess : ℚ) = share at whole ⊢
  refine ⟨le_of_mul_le_mul_right ?_ unit, fun some => le_of_mul_le_mul_right ?_ unit, ?_⟩
  · have high : (9 * (kept * 10 ^ excess) + 5 : ℚ) ≤ 9 * coefficient + 5 * 10 ^ excess := by
      exact_mod_cast high
    linarith
  · have low : (9 * coefficient + 4 : ℚ) ≤ 9 * (kept * 10 ^ excess) + 4 * 10 ^ excess := by
      exact_mod_cast low some
    linarith
  · have cast : kept = 0 ↔ (18 * coefficient : ℚ) < 17 * 10 ^ excess := by
      rw [zero]
      exact_mod_cast Iff.rfl
    rw [cast, whole, ← mul_assoc, mul_lt_mul_iff_left₀ unit]

theorem dropPlaces_near {scale coefficient kept : Nat}
    (dropped : dropPlaces (scale - maxScale) coefficient = kept) :
    (kept / 10 ^ min scale maxScale : ℚ) ≤ coefficient / 10 ^ scale + 1 / 10 ^ 28 ∧
      (kept ≠ 0 → (coefficient / 10 ^ scale : ℚ) ≤ kept / 10 ^ min scale maxScale + 1 / 10 ^ 28) ∧
      (kept = 0 ↔ 18 * 10 ^ 28 * (coefficient / 10 ^ scale : ℚ) < 17) := by
  rcases le_total scale 28 with short | long
  · have none : scale - maxScale = 0 := Nat.sub_eq_zero_of_le short
    have all : min scale maxScale = scale := Nat.min_eq_left short
    rw [none, dropPlaces] at dropped
    rw [dropped, all]
    refine ⟨by linarith, fun _ => by linarith, fun zero => by simp [zero], fun small => ?_⟩
    by_contra nonzero
    have least : (1 : ℚ) ≤ kept := by exact_mod_cast Nat.one_le_iff_ne_zero.2 nonzero
    have large : (1 / 10 ^ 28 : ℚ) ≤ kept / 10 ^ scale := by
      gcongr
      norm_num
    linarith
  · obtain ⟨excess, rfl⟩ := Nat.exists_eq_add_of_le long
    have places : 28 + excess - maxScale = excess := Nat.add_sub_cancel_left ..
    have all : min (28 + excess) maxScale = 28 := Nat.min_eq_right long
    have shifted :
        (coefficient / 10 ^ (28 + excess) : ℚ) = coefficient / 10 ^ excess / 10 ^ 28 := by
      rw [pow_add]
      field_simp
    rw [places] at dropped
    obtain ⟨high, low, zero⟩ := dropPlaces_share dropped
    rw [all, shifted]
    refine ⟨by linarith, fun some => ?_, zero.trans ?_⟩
    · have near := low some
      linarith
    · constructor <;> intro <;> linarith

/-! ## Doubles with halves -/

/-- An integer is kept as it is. -/
theorem alike_of_whole {x : Double} {n : Nat} (value : |x.toRat| = n) :
    Alike (size (n, 0)) x.seenSize := by
  have same : size (n, 0) = n := by simp [size]
  rw [same]
  by_cases none : n = 0
  · rw [Double.seenSize, value, none, Nat.cast_zero, ite_self]
    exact .refl 0
  · have least : (1 : ℚ) ≤ n := by exact_mod_cast Nat.one_le_iff_ne_zero.2 none
    rw [Double.seenSize_of_visible (by linarith), value]
    exact .refl n

/-- What is not an integer is at least a unit away from both integers around it. -/
theorem div_two_pow_bounds {n steps : Nat} (remainder : n % 2 ^ steps ≠ 0) :
    (n / 2 ^ steps : Nat) + 1 / 2 ^ steps ≤ (n / 2 ^ steps : ℚ) ∧
      (n / 2 ^ steps : ℚ) ≤ (n / 2 ^ steps : Nat) + 1 - 1 / 2 ^ steps := by
  have unit : (0 : ℚ) < 2 ^ steps := by positivity
  have whole := Nat.div_add_mod n (2 ^ steps)
  have less := Nat.mod_lt n (Nat.two_pow_pos steps)
  generalize n / 2 ^ steps = quotient at whole ⊢
  have low : (quotient * 2 ^ steps + 1 : ℚ) ≤ n := by
    exact_mod_cast (by rw [Nat.mul_comm]; omega : quotient * 2 ^ steps + 1 ≤ n)
  have high : (n + 1 : ℚ) ≤ quotient * 2 ^ steps + 2 ^ steps := by
    exact_mod_cast (by rw [Nat.mul_comm]; omega : n + 1 ≤ quotient * 2 ^ steps + 2 ^ steps)
  constructor
  · rw [le_div_iff₀ unit, add_mul, one_div_mul_cancel unit.ne']
    exact low
  · rw [div_le_iff₀ unit, sub_mul, add_mul, one_mul, one_div_mul_cancel unit.ne']
    linarith

section Halves

variable {x : Double} (nonzero : x.significand ≠ 0) (down : x.exponent < 0)

include down in
theorem abs_toRat_halves : |x.toRat| = x.significand / 2 ^ (-x.exponent).toNat := by
  obtain ⟨steps, exponent⟩ := Int.eq_ofNat_of_zero_le (a := -x.exponent) (by omega)
  have exponent : x.exponent = -(steps : Int) := by omega
  rw [Double.abs_toRat, exponent, neg_neg, Int.toNat_natCast, zpow_neg, zpow_natCast,
    div_eq_mul_inv]

include nonzero down

theorem partsOfDouble?_halves : ∃ (parts : Nat × Nat) (share : ℚ),
    partsOfDouble? x = some parts ∧
      keptShare ^ (-x.exponent).toNat * |x.toRat| ≤ share ∧ share ≤ |x.toRat| ∧
      size parts ≤ share + 1 / 10 ^ 28 ∧ (parts.1 ≠ 0 → share ≤ size parts + 1 / 10 ^ 28) ∧
      (parts.1 = 0 ↔ 18 * 10 ^ 28 * share < 17) := by
  obtain ⟨steps, exponent⟩ := Int.eq_ofNat_of_zero_le (a := -x.exponent) (by omega)
  obtain ⟨traded, scale, trade, low, high⟩ := tradeHalves_near steps x.significand
  obtain ⟨above, below, zero⟩ := @dropPlaces_near scale traded _ rfl
  have parts : partsOfDouble? x = some (dropPlaces (scale - maxScale) traded,
      if dropPlaces (scale - maxScale) traded = 0 then 0 else min scale maxScale) := by
    have power : x.exponent = -(steps : Int) := by omega
    have none : (-(scale : Int)).toNat = 0 := by omega
    rw [partsOfDouble?, if_neg nonzero, if_pos down, exponent, Int.toNat_natCast, power, trade]
    simp [none, raise?]
  rw [abs_toRat_halves down, exponent, Int.toNat_natCast]
  generalize dropPlaces (scale - maxScale) traded = kept at parts above below zero
  have whole : size (kept, if kept = 0 then 0 else min scale maxScale) =
      kept / 10 ^ min scale maxScale := by
    by_cases none : kept = 0
    · simp [size, none]
    · rw [size, if_neg none]
  refine ⟨_, traded / 10 ^ scale, parts, low, high, ?_, ?_, zero⟩
  · rwa [whole]
  · rwa [whole]

theorem partsOfDouble?_whole_halves (whole : x.significand % 2 ^ (-x.exponent).toNat = 0) :
    partsOfDouble? x = some (x.significand / 2 ^ (-x.exponent).toNat, 0) := by
  have power : x.exponent + (-x.exponent).toNat = 0 := by omega
  rw [partsOfDouble?, if_neg nonzero, if_pos down, tradeHalves_exact _ whole, power]
  simp [raise?, dropPlaces]

/-- What is cut off does not make a double negligible. -/
theorem negligible_of_kept
    (small : 18 * 10 ^ 28 * (keptShare ^ (-x.exponent).toNat * |x.toRat|) < 17) :
    x.IsNegligible := by
  by_contra enough
  rw [Double.IsNegligible, not_lt] at enough
  rw [abs_toRat_halves down] at small enough
  have short := x.significand_lt
  have normal := x.exponent_eq_or.2
  obtain ⟨steps, exponent⟩ := Int.eq_ofNat_of_zero_le (a := -x.exponent) (by omega)
  rw [exponent, Int.toNat_natCast] at small enough
  have kept := le_keptShare_pow steps
  -- The last place of a double is the one that decides only at the power in the middle.
  rcases lt_trichotomy steps 146 with above | rfl | below
  · have long : (2 ^ 52 : ℚ) ≤ x.significand := by
      exact_mod_cast normal.resolve_left (by omega)
    have power : (2 : ℚ) ^ steps ≤ 2 ^ 145 := pow_le_pow_right₀ (by norm_num) (by omega)
    have few : (steps : ℚ) ≤ 145 := by exact_mod_cast (by omega : steps ≤ 145)
    have large : (2 ^ 52 / 2 ^ 145 : ℚ) ≤ x.significand / 2 ^ steps := by gcongr
    have most : (1 - 145 / 2 ^ 93 : ℚ) ≤ keptShare ^ steps := by linarith
    have product : (1 - 145 / 2 ^ 93 : ℚ) * (2 ^ 52 / 2 ^ 145) ≤
        keptShare ^ steps * (x.significand / 2 ^ steps) := by
      refine mul_le_mul most large (by positivity) (le_trans (by norm_num) most)
    linarith
  · have least : 8424725963889347 ≤ x.significand := by
      have whole : (17 * 2 ^ 146 : ℚ) ≤ 18 * 10 ^ 28 * x.significand := by linarith
      have whole : 17 * 2 ^ 146 ≤ 18 * 10 ^ 28 * x.significand := by exact_mod_cast whole
      omega
    have least : (8424725963889347 : ℚ) ≤ x.significand := by exact_mod_cast least
    have product : (1 - (146 : Nat) / 2 ^ 93 : ℚ) * (8424725963889347 / 2 ^ 146) ≤
        keptShare ^ 146 * (x.significand / 2 ^ 146) := by
      refine mul_le_mul kept (by gcongr) (by positivity) (le_trans (by norm_num) kept)
    linarith
  · have short : (x.significand : ℚ) ≤ 2 ^ 53 := by exact_mod_cast short.le
    have power : (2 : ℚ) ^ 147 ≤ 2 ^ steps := pow_le_pow_right₀ (by norm_num) below
    have tiny : (x.significand / 2 ^ steps : ℚ) ≤ 2 ^ 53 / 2 ^ 147 := by gcongr
    linarith

/-- With a few halves the double is further from integers than what is cut off and rounded. -/
theorem alike_of_few_halves (remainder : x.significand % 2 ^ (-x.exponent).toNat ≠ 0)
    (few : (-x.exponent).toNat ≤ 52) {parts : Nat × Nat}
    (found : partsOfDouble? x = some parts) : Alike (size parts) x.seenSize := by
  obtain ⟨_, share, same, low, high, above, below, zero⟩ := partsOfDouble?_halves nonzero down
  cases found.symm.trans same
  have value := abs_toRat_halves down
  have short : (x.significand : ℚ) ≤ 2 ^ 53 := by exact_mod_cast x.significand_lt.le
  generalize (-x.exponent).toNat = steps at remainder few low value
  obtain ⟨first, last⟩ := div_two_pow_bounds remainder
  rw [← value] at first last
  have start : (0 : ℚ) ≤ (x.significand / 2 ^ steps : Nat) := by positivity
  have unit : (1 / 2 ^ 52 : ℚ) ≤ 1 / 2 ^ steps := by
    gcongr
    norm_num
  have low : |x.toRat| - 52 / 2 ^ 40 * (1 / 2 ^ steps) ≤ share := by
    have most : (steps : ℚ) / 2 ^ 93 ≤ 52 / 2 ^ 93 := by
      gcongr
      exact_mod_cast few
    have size : |x.toRat| ≤ 2 ^ 53 * (1 / 2 ^ steps) := by
      rw [value, div_eq_mul_one_div]
      gcongr
    calc |x.toRat| - 52 / 2 ^ 40 * (1 / 2 ^ steps)
        = |x.toRat| - 52 / 2 ^ 93 * (2 ^ 53 * (1 / 2 ^ steps)) := by ring
      _ ≤ |x.toRat| - 52 / 2 ^ 93 * |x.toRat| := by gcongr
      _ = (1 - 52 / 2 ^ 93) * |x.toRat| := by ring
      _ ≤ keptShare ^ steps * |x.toRat| := by
          gcongr
          linarith [le_keptShare_pow steps]
      _ ≤ share := low
  have kept : parts.1 ≠ 0 := by
    rw [ne_eq, zero]
    linarith
  have near := below kept
  rw [Double.seenSize_of_visible (by linarith)]
  refine .of_between (x.significand / 2 ^ steps) ?_ ?_ ?_ ?_ <;> linarith

theorem alike_of_many_halves (many : 53 ≤ (-x.exponent).toNat) {parts : Nat × Nat}
    (found : partsOfDouble? x = some parts) :
    Alike (size parts) x.seenSize := by
  obtain ⟨_, share, same, low, high, above, below, zero⟩ := partsOfDouble?_halves nonzero down
  cases found.symm.trans same
  have value := abs_toRat_halves down
  have positive : 0 < |x.toRat| := by
    rw [value]
    positivity
  have below : |x.toRat| ≤ (2 ^ 53 - 1) / 2 ^ 53 := by
    have short : (x.significand : ℚ) ≤ 2 ^ 53 - 1 := by
      have short : (x.significand : ℚ) + 1 ≤ 2 ^ 53 := by exact_mod_cast x.significand_lt
      linarith
    have power : (2 : ℚ) ^ 53 ≤ 2 ^ (-x.exponent).toNat := pow_le_pow_right₀ (by norm_num) many
    rw [value]
    gcongr
  by_cases negligible : x.IsNegligible
  · have none : parts.1 = 0 := by
      rw [zero]
      exact lt_of_le_of_lt (by gcongr) negligible
    rw [Double.seenSize, if_pos negligible, size, none, Nat.cast_zero, zero_div]
    exact .refl 0
  · have kept : 0 < parts.1 := by
      refine Nat.pos_of_ne_zero fun none => negligible (negligible_of_kept nonzero down ?_)
      exact lt_of_le_of_lt (by gcongr) (zero.1 none)
    have least : 0 < size parts := by
      rw [size]
      positivity
    rw [Double.seenSize, if_neg negligible]
    refine .of_between 0 ?_ ?_ ?_ ?_
    · simpa using least
    · rw [Nat.cast_zero]
      linarith
    · simpa using positive
    · rw [Nat.cast_zero]
      linarith

end Halves

/-! ## Doubles without halves -/

section Doubles

variable {x : Double} (nonzero : x.significand ≠ 0) (up : 0 ≤ x.exponent)

include up

theorem abs_toRat_doubles : |x.toRat| = x.significand * 2 ^ x.exponent.toNat := by
  obtain ⟨steps, exponent⟩ := Int.eq_ofNat_of_zero_le up
  rw [Double.abs_toRat, exponent, Int.toNat_natCast, zpow_natCast]

include nonzero

theorem partsOfDouble?_doubles : partsOfDouble? x =
    (raise? (tradeDoubles x.exponent.toNat x.significand x.exponent).2.toNat
      (tradeDoubles x.exponent.toNat x.significand x.exponent).1).map
        fun raised => (raised, 0) := by
  have positive := tradeDoubles_power x.exponent.toNat x.significand x.exponent
  have noScale : (-(tradeDoubles x.exponent.toNat x.significand x.exponent).2).toNat = 0 := by omega
  rw [partsOfDouble?, if_neg nonzero, if_neg up.not_gt]
  simp only [noScale, Nat.zero_sub, dropPlaces, Nat.zero_min, ite_self]
  exact (Option.map_eq_bind ..).symm

theorem partsOfDouble?_few_doubles (small : |x.toRat| < 2 ^ 96) :
    partsOfDouble? x = some (x.significand * 2 ^ x.exponent.toNat, 0) := by
  have short : x.significand * 2 ^ x.exponent.toNat < 2 ^ 96 := by
    rw [abs_toRat_doubles up] at small
    exact_mod_cast small
  have power : x.exponent - x.exponent.toNat = 0 := by omega
  rw [partsOfDouble?_doubles nonzero up, tradeDoubles_exact _ short, power]
  rfl

theorem le_size_of_doubles {parts : Nat × Nat} (found : partsOfDouble? x = some parts) :
    keptShare ^ x.exponent.toNat * |x.toRat| ≤ size parts := by
  have positive := tradeDoubles_power x.exponent.toNat x.significand x.exponent
  have bound := (tradeDoubles_bounds x.exponent.toNat x.significand x.exponent).1
  rw [partsOfDouble?_doubles nonzero up] at found
  generalize tradeDoubles x.exponent.toNat x.significand x.exponent = traded
    at found positive bound
  obtain ⟨raised, raise, rfl⟩ := Option.map_eq_some_iff.1 found
  obtain ⟨places, power⟩ := Int.eq_ofNat_of_zero_le (a := traded.2) (by omega)
  rw [power, Int.toNat_natCast] at raise
  have whole : size (raised, 0) = traded.1 * 10 ^ places := by
    rw [raise?_eq raise]
    simp [size]
  obtain ⟨steps, same⟩ := Int.eq_ofNat_of_zero_le up
  rw [power, same, Int.toNat_natCast, zpow_natCast, zpow_natCast] at bound
  rw [whole, abs_toRat_doubles up, same, Int.toNat_natCast]
  refine le_of_eq_of_le ?_ bound
  rw [ten_pow, mul_pow, div_pow, one_pow]
  field_simp

end Doubles

/-! ## Doubles beyond the coefficients -/

section Large

variable {x : Double}

theorem exponent_nonneg_of_large (large : 2 ^ 96 ≤ |x.toRat|) : 0 ≤ x.exponent := by
  by_contra down
  have short : (x.significand / 2 ^ (-x.exponent).toNat : ℚ) ≤ x.significand :=
    div_le_self (Nat.cast_nonneg _) (one_le_pow₀ (by norm_num))
  have less : (x.significand : ℚ) < 2 ^ 53 := by exact_mod_cast x.significand_lt
  rw [abs_toRat_halves (not_le.1 down)] at large
  linarith

theorem many_doubles_of_large (large : 2 ^ 96 ≤ |x.toRat|) :
    x.significand ≠ 0 ∧ 44 ≤ x.exponent.toNat ∧ 2 ^ 52 ≤ x.significand := by
  have up := exponent_nonneg_of_large large
  have many : 44 ≤ x.exponent.toNat := by
    by_contra few
    have power : (2 : ℚ) ^ x.exponent.toNat ≤ 2 ^ 43 :=
      pow_le_pow_right₀ (by norm_num) (by omega)
    have short : (x.significand : ℚ) < 2 ^ 53 := by exact_mod_cast x.significand_lt
    have product : (x.significand * 2 ^ x.exponent.toNat : ℚ) < 2 ^ 53 * 2 ^ 43 :=
      mul_lt_mul short power (by positivity) (by positivity)
    rw [abs_toRat_doubles up] at large
    linarith
  have normal : 2 ^ 52 ≤ x.significand := x.exponent_eq_or.2.resolve_left (by omega)
  exact ⟨by omega, many, normal⟩

/-- The first double beyond the coefficients is the only one that is traded: it is divided by five
once, which cuts off as much as there is too much of it. -/
theorem partsOfDouble?_two_pow (value : |x.toRat| = 2 ^ 96) :
    partsOfDouble? x = some (10 * (2 ^ 95 / 5), 0) := by
  have up := exponent_nonneg_of_large value.ge
  obtain ⟨nonzero, many, long⟩ := many_doubles_of_large value.ge
  obtain ⟨more, steps⟩ := Nat.exists_eq_add_of_le many
  have product : x.significand * 2 ^ more = 2 ^ 52 := by
    rw [abs_toRat_doubles up, steps, pow_add] at value
    have whole : (x.significand * 2 ^ more : ℚ) = 2 ^ 52 := by linarith
    exact_mod_cast whole
  have none : more = 0 := by
    by_contra some
    have twice : 2 ^ 1 ≤ 2 ^ more := Nat.pow_le_pow_right (by decide) (by omega)
    have least := Nat.mul_le_mul long twice
    omega
  subst none
  have significand : x.significand = 2 ^ 52 := by simpa using product
  have power : x.exponent = 44 := by omega
  have traded : tradeDoubles 44 (2 ^ 52) 44 = (2 ^ 95 / 5, 1) := by decide
  rw [partsOfDouble?_doubles nonzero up, steps, significand, power, traded]
  rfl

/-- No other one is, however its coefficient is cut on the way. -/
theorem partsOfDouble?_eq_none (finite : x.isFinite = true) (beyond : 2 ^ 96 < |x.toRat|) :
    partsOfDouble? x = none := by
  have up := exponent_nonneg_of_large beyond.le
  obtain ⟨nonzero, many, -⟩ := many_doubles_of_large beyond.le
  by_contra traded
  obtain ⟨parts, found⟩ := Option.ne_none_iff_exists'.1 traded
  have exponent := x.exponent_le finite
  have kept : (1 - 971 / 2 ^ 93 : ℚ) ≤ keptShare ^ x.exponent.toNat := by
    have most : (x.exponent.toNat : ℚ) ≤ 971 := by
      exact_mod_cast (by omega : x.exponent.toNat ≤ 971)
    have least := le_keptShare_pow x.exponent.toNat
    linarith
  have fits : size parts < 2 ^ 96 := by
    have short : (parts.1 : ℚ) < 2 ^ 96 := by exact_mod_cast (partsOfDouble?_fits found).1
    exact (div_le_self (by positivity) (one_le_pow₀ (by norm_num))).trans_lt short
  -- The next double is greater by more than is cut off.
  have value : (2 ^ 52 + 1) * 2 ^ 44 ≤ |x.toRat| := by
    rw [abs_toRat_doubles up, ← Nat.sub_add_cancel many, pow_add, ← mul_assoc] at beyond ⊢
    have more : (2 ^ 52 : ℚ) < x.significand * 2 ^ (x.exponent.toNat - 44) := by linarith
    have more : 2 ^ 52 < x.significand * 2 ^ (x.exponent.toNat - 44) := by exact_mod_cast more
    gcongr
    exact_mod_cast more
  have bound := mul_le_mul kept value (by norm_num) (le_trans (by norm_num) kept)
  have share := le_size_of_doubles nonzero up found
  linarith

/-- A double without halves is traded exactly, unless it is the first one beyond the
coefficients. -/
theorem partsOfDouble?_doubles_cases (finite : x.isFinite = true) (nonzero : x.significand ≠ 0)
    (up : 0 ≤ x.exponent) {parts : Nat × Nat} (found : partsOfDouble? x = some parts) :
    parts = (x.significand * 2 ^ x.exponent.toNat, 0) ∨
      |x.toRat| = 2 ^ 96 ∧ parts = (10 * (2 ^ 95 / 5), 0) := by
  rcases lt_trichotomy |x.toRat| (2 ^ 96) with small | first | beyond
  · exact .inl (Option.some.inj
      (found.symm.trans (partsOfDouble?_few_doubles nonzero up small)))
  · exact .inr ⟨first, Option.some.inj (found.symm.trans (partsOfDouble?_two_pow first))⟩
  · cases found.symm.trans (partsOfDouble?_eq_none finite beyond)

end Large

/-! ## Retained doubles -/

section Retained

variable {x : Double} (finite : x.isFinite = true)
include finite

/-- Integers do not tell what is kept of a double from what the double denotes, unless it is
negligible. -/
theorem alike_size {parts : Nat × Nat} (found : partsOfDouble? x = some parts) :
    Alike (size parts) x.seenSize := by
  by_cases zero : x.significand = 0
  · have denotes : |x.toRat| = 0 := by rw [Double.abs_toRat, zero, Nat.cast_zero, zero_mul]
    rw [partsOfDouble?, if_pos zero] at found
    cases found
    rw [Double.seenSize, denotes, ite_self, size, Nat.cast_zero, zero_div]
    exact .refl 0
  · rcases lt_or_ge x.exponent 0 with down | up
    · by_cases whole : x.significand % 2 ^ (-x.exponent).toNat = 0
      · cases found.symm.trans (partsOfDouble?_whole_halves zero down whole)
        refine alike_of_whole ?_
        rw [abs_toRat_halves down, Nat.cast_div (Nat.dvd_of_mod_eq_zero whole) (by positivity),
          Nat.cast_pow, Nat.cast_ofNat]
      · rcases Nat.lt_or_ge (-x.exponent).toNat 53 with few | many
        · exact alike_of_few_halves zero down whole (by omega) found
        · exact alike_of_many_halves zero down many found
    · rcases partsOfDouble?_doubles_cases finite zero up found with rfl | ⟨first, rfl⟩
      · refine alike_of_whole ?_
        rw [abs_toRat_doubles up, Nat.cast_mul, Nat.cast_pow, Nat.cast_ofNat]
      · rw [Double.seenSize_of_visible (by rw [first]; norm_num), first]
        exact .of_large (by norm_num [size]) (by norm_num)

/-- Only doubles beyond all integers of 64 bits are not kept. -/
theorem le_exponent_of_retained?_eq_none (none : retained? x = none) :
    44 ≤ x.exponent ∧ 2 ^ 96 < |x.toRat| := by
  rw [retained?, if_pos finite, Option.map_eq_none_iff] at none
  by_cases zero : x.significand = 0
  · rw [partsOfDouble?, if_pos zero] at none
    cases none
  · rcases lt_or_ge x.exponent 0 with down | up
    · obtain ⟨parts, _, found, _⟩ := partsOfDouble?_halves zero down
      cases none.symm.trans found
    · rcases lt_trichotomy |x.toRat| (2 ^ 96) with small | first | beyond
      · cases none.symm.trans (partsOfDouble?_few_doubles zero up small)
      · cases none.symm.trans (partsOfDouble?_two_pow first)
      · have many := (many_doubles_of_large beyond.le).2.1
        exact ⟨by omega, beyond⟩

theorem retained?_alike {decimal : Decimal} (found : retained? x = some decimal) :
    Alike decimal.toRat x.seen := by
  rw [retained?, if_pos finite] at found
  obtain ⟨parts, kept, rfl⟩ := Option.map_eq_some_iff.1 found
  have alike := alike_size finite kept
  rw [toRat_ofParts, Double.seen_eq]
  cases x.negative
  · exact (one_mul (size parts)).symm ▸ (one_mul (_ : ℚ)).symm ▸ alike
  · exact (neg_one_mul (size parts)).symm ▸ (neg_one_mul (_ : ℚ)).symm ▸ alike.neg

end Retained

end Decimal

end Pipeline
