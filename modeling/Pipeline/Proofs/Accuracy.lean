import Pipeline.Proofs.KeptDoubles

/-! How far a decimal is from the double behind it, and the double in front of it from the decimal.
Every stage rounds something of the size of a decimal, so the errors add up to a few units in the
last place. -/

set_option autoImplicit false

namespace Pipeline

/-- Whether two rationals are as near to each other as some roundings to 53 bits leave them. -/
def Near (roundings : Nat) (p q : ℚ) : Prop :=
  |p - q| ≤ roundings / 2 ^ 53 * |q|

instance (roundings : Nat) (p q : ℚ) : Decidable (Near roundings p q) :=
  inferInstanceAs (Decidable (_ ≤ _))

namespace Near

variable {j k : Nat} {p q r p' q' : ℚ}

theorem mono (near : Near j p q) (atMost : j ≤ k) : Near k p q := by
  have shares : (j : ℚ) / 2 ^ 53 ≤ k / 2 ^ 53 := by gcongr
  exact near.trans (mul_le_mul_of_nonneg_right shares (abs_nonneg q))

theorem of_eq (same : p = q) : Near 0 p q := by
  rw [Near, same, sub_self, abs_zero]
  positivity

theorem abs_le (near : Near k p q) : |p| ≤ (1 + k / 2 ^ 53) * |q| := by
  have apart := abs_sub_abs_le_abs_sub p q
  rw [Near] at near
  linarith

theorem le_abs (near : Near k p q) : (1 - k / 2 ^ 53) * |q| ≤ |p| := by
  have apart := abs_sub_abs_le_abs_sub q p
  rw [abs_sub_comm] at apart
  rw [Near] at near
  linarith

/-- Errors add up, as long as their product is less than one more. -/
theorem share_mul_le (few : j * k ≤ 2 ^ 53) :
    (j / 2 ^ 53 * (1 + k / 2 ^ 53) + k / 2 ^ 53 : ℚ) ≤ (j + k + 1 : Nat) / 2 ^ 53 := by
  have product : (j * k / 2 ^ 53 : ℚ) ≤ 1 := by
    rw [div_le_one (by positivity)]
    exact_mod_cast few
  calc (j / 2 ^ 53 * (1 + k / 2 ^ 53) + k / 2 ^ 53 : ℚ) = (j + k + j * k / 2 ^ 53) / 2 ^ 53 := by
        ring
    _ ≤ (j + k + 1) / 2 ^ 53 := by gcongr
    _ = (j + k + 1 : Nat) / 2 ^ 53 := by push_cast; rfl

theorem trans (first : Near j p q) (second : Near k q r) (few : j * k ≤ 2 ^ 53) :
    Near (j + k + 1) p r := by
  have size := second.abs_le
  calc |p - r| ≤ |p - q| + |q - r| := abs_sub_le p q r
    _ ≤ j / 2 ^ 53 * |q| + k / 2 ^ 53 * |r| := add_le_add first second
    _ ≤ j / 2 ^ 53 * ((1 + k / 2 ^ 53) * |r|) + k / 2 ^ 53 * |r| := by gcongr
    _ = (j / 2 ^ 53 * (1 + k / 2 ^ 53) + k / 2 ^ 53) * |r| := by ring
    _ ≤ (j + k + 1 : Nat) / 2 ^ 53 * |r| :=
        mul_le_mul_of_nonneg_right (share_mul_le few) (abs_nonneg r)

theorem mul (first : Near j p q) (second : Near k p' q') (few : j * k ≤ 2 ^ 53) :
    Near (j + k + 1) (p * p') (q * q') := by
  have size := second.abs_le
  calc |p * p' - q * q'| = |(p - q) * p' + q * (p' - q')| := by
        congr 1
        ring
    _ ≤ |p - q| * |p'| + |q| * |p' - q'| := by
        rw [← abs_mul, ← abs_mul]
        exact abs_add_le _ _
    _ ≤ j / 2 ^ 53 * |q| * ((1 + k / 2 ^ 53) * |q'|) + |q| * (k / 2 ^ 53 * |q'|) :=
        add_le_add (mul_le_mul first size (abs_nonneg _) (by positivity))
          (mul_le_mul_of_nonneg_left second (abs_nonneg q))
    _ = (j / 2 ^ 53 * (1 + k / 2 ^ 53) + k / 2 ^ 53) * |q * q'| := by
        rw [abs_mul]
        ring
    _ ≤ (j + k + 1 : Nat) / 2 ^ 53 * |q * q'| :=
        mul_le_mul_of_nonneg_right (share_mul_le few) (abs_nonneg _)

theorem add (first : Near k p q) (second : Near k p' q') (least : 0 ≤ q) (least' : 0 ≤ q') :
    Near k (p + p') (q + q') := by
  rw [Near, abs_of_nonneg (add_nonneg least least')]
  rw [Near, abs_of_nonneg least] at first
  rw [Near, abs_of_nonneg least'] at second
  have sum := abs_add_le (p - q) (p' - q')
  rw [show p + p' - (q + q') = p - q + (p' - q') by ring]
  linarith

theorem le_two_mul (near : Near k p q) (few : 2 * k ≤ 2 ^ 53) : |q| ≤ 2 * |p| := by
  have half : (k : ℚ) / 2 ^ 53 ≤ 1 / 2 := by
    rw [div_le_div_iff₀ (by positivity) (by norm_num)]
    exact_mod_cast (by omega : k * 2 ≤ 1 * 2 ^ 53)
  have share : 1 / 2 * |q| ≤ (1 - k / 2 ^ 53) * |q| := by
    gcongr
    linarith
  linarith [near.le_abs]

theorem ne_zero (near : Near k p q) (few : 2 * k ≤ 2 ^ 53) (some : q ≠ 0) : p ≠ 0 := by
  rintro rfl
  have size := near.le_two_mul few
  rw [abs_zero, mul_zero] at size
  exact some (abs_nonpos_iff.1 size)

theorem div (first : Near j p q) (second : Near k p' q') (few : 2 * k ≤ 2 ^ 53)
    (some : q' ≠ 0) : Near (2 * (j + k)) (p / p') (q / q') := by
  have nonzero := second.ne_zero few some
  have size := second.le_two_mul few
  refine le_of_mul_le_mul_right ?_ (abs_pos.2 nonzero)
  calc |p / p' - q / q'| * |p'| = |(p - q) + q / q' * (q' - p')| := by
        rw [← abs_mul]
        congr 1
        field_simp
        ring
    _ ≤ |p - q| + |q / q'| * |p' - q'| := by
        rw [abs_sub_comm p' q', ← abs_mul]
        exact abs_add_le _ _
    _ ≤ j / 2 ^ 53 * |q| + |q / q'| * (k / 2 ^ 53 * |q'|) :=
        add_le_add first (mul_le_mul_of_nonneg_left second (abs_nonneg _))
    _ = (j + k) / 2 ^ 53 * |q / q'| * |q'| := by
        rw [abs_div]
        field_simp
    _ ≤ (j + k) / 2 ^ 53 * |q / q'| * (2 * |p'|) := by gcongr
    _ = (2 * (j + k) : Nat) / 2 ^ 53 * |q / q'| * |p'| := by
        push_cast
        ring

theorem signed (near : Near k p q) (negative : Prop) [Decidable negative] :
    Near k ((if negative then -1 else 1) * p) ((if negative then -1 else 1) * q) := by
  rw [Near, ← mul_sub, Double.abs_signed, Double.abs_signed]
  exact near

end Near

namespace Double

/-! ## Roundings of what is of the size of a decimal -/

section Sized

variable {p q : ℚ} {steps n scale : Nat} (close : Near steps p q) (few : steps ≤ 1000)
  (size : |q| = n / 10 ^ scale) (short : n < 10 ^ 30) (places : scale ≤ 28)
include close few size short places

theorem normal_of_near : (p = 0 ∨ (2 : ℚ) ^ (-1022 : Int) ≤ |p|) ∧ |p| < 2 ^ 1023 := by
  constructor
  · by_cases none : n = 0
    · left
      rw [none, Nat.cast_zero, zero_div, abs_eq_zero] at size
      have apart := close.abs_le
      rw [size, abs_zero, mul_zero] at apart
      exact abs_nonpos_iff.1 apart
    · right
      have large : (1 : ℚ) / 10 ^ 28 ≤ |q| := by
        have least : (1 : ℚ) ≤ n := by exact_mod_cast Nat.one_le_iff_ne_zero.2 none
        rw [size]
        gcongr
        norm_num
      have kept := close.le_two_mul (by omega)
      calc (2 : ℚ) ^ (-1022 : Int) ≤ 2 ^ (-100 : Int) := zpow_le_zpow_right₀ one_le_two (by decide)
        _ ≤ 1 / 10 ^ 28 / 2 := by norm_num
        _ ≤ |p| := by linarith
  · have small : |q| < 10 ^ 30 := by
      rw [size]
      refine (div_le_self (by positivity) (one_le_pow₀ (by norm_num))).trans_lt ?_
      exact_mod_cast short
    have share : (steps : ℚ) / 2 ^ 53 ≤ 1000 / 2 ^ 53 := by
      gcongr
      exact_mod_cast few
    calc |p| ≤ (1 + steps / 2 ^ 53) * |q| := close.abs_le
      _ ≤ (1 + 1000 / 2 ^ 53) * 10 ^ 30 := by gcongr
      _ < 2 ^ 101 := by norm_num
      _ ≤ 2 ^ 1023 := pow_le_pow_right₀ one_le_two (by decide)

theorem Rounds.near_sized {x : Double} (rounds : Rounds p x) :
    x.isFinite = true ∧ Near (steps + 2) x.toRat q := by
  obtain ⟨normal, small⟩ := normal_of_near close few size short places
  obtain ⟨finite, near⟩ := rounds.near normal small
  have once : Near 1 x.toRat p := by
    rw [Near, Nat.cast_one, one_div_mul_eq_div]
    exact near
  refine ⟨finite, (once.trans close (by omega)).mono (by omega)⟩

theorem RoundsTo.near_sized {result : Option Double} (rounds : RoundsTo p result) :
    ∃ x, result = some x ∧ x.isFinite = true ∧ Near (steps + 2) x.toRat q := by
  obtain ⟨x, rounds, rfl⟩ := rounds
  obtain ⟨finite, near⟩ := rounds.near_sized close few size short places
  exact ⟨x, if_pos finite, finite, near⟩

end Sized

theorem abs_natCast_eq (n : Nat) : |(n : ℚ)| = n / 10 ^ 0 := by
  rw [Nat.abs_cast, pow_zero, div_one]

theorem ofInt_near {n : Nat} (short : n < 10 ^ 30) :
    (ofInt n).isFinite = true ∧ Near 2 (ofInt n).toRat n := by
  have same : Near 0 ((n : Int) : ℚ) n := .of_eq (Int.cast_natCast n)
  exact (ofInt_rounds n).near_sized same (by decide) (abs_natCast_eq n) short (by decide)

/-- Rounding to an integer at most doubles the error: no other integer is nearer. -/
theorem roundHalfAway_near {x : Double} {steps n : Nat} (close : Near steps x.toRat n)
    (few : steps ≤ 500) (short : n < 10 ^ 30) :
    x.roundHalfAway.isFinite = true ∧ Near (2 * steps + 2) x.roundHalfAway.toRat n := by
  obtain ⟨m, rounds, low, high⟩ := x.roundHalfAway_rounds
  let signed : Int := (if x.negative then -1 else 1) * m
  have cast : ((if x.negative then -1 else 1) * m : ℚ) = signed := by
    simp only [signed]
    push_cast
    rfl
  have half : |(signed : ℚ) - x.toRat| ≤ 1 / 2 := by
    rw [← cast, x.toRat_eq_abs, ← mul_sub, abs_signed, abs_le]
    constructor <;> linarith
  have nearer : |(signed : ℚ) - x.toRat| ≤ |x.toRat - n| := by
    by_cases same : signed = n
    · rw [same, Int.cast_natCast, abs_sub_comm]
    · have apart : (1 : ℚ) ≤ |(signed : ℚ) - n| := by
        exact_mod_cast Int.one_le_abs (sub_ne_zero.2 same)
      have sum := abs_sub_le (signed : ℚ) x.toRat n
      linarith
  have twice : Near (2 * steps) (signed : ℚ) n := by
    have sum := abs_sub_le (signed : ℚ) x.toRat n
    rw [Near] at close ⊢
    push_cast
    linarith
  rw [cast] at rounds
  exact rounds.near_sized twice (by omega) (abs_natCast_eq n) short (by decide)

end Double

namespace Decimal

/-! ## From decimals to doubles -/

theorem powerOfTen?_near {exponent : Nat} (few : exponent ≤ 28) :
    ∃ power, powerOfTen? exponent = some power ∧ power.isFinite = true ∧
      Near 2 power.toRat (10 ^ exponent) := by
  have all : ∀ exponent < 29, (powerOfTen? exponent).any
      (fun power => power.isFinite && decide (Near 2 power.toRat (10 ^ exponent))) = true := by
    decide +kernel
  obtain ⟨power, raised, near⟩ := (Option.any_eq_true _ _).1 (all exponent (Nat.lt_succ_of_le few))
  rw [Bool.and_eq_true, decide_eq_true_iff] at near
  exact ⟨power, raised, near⟩

theorem abs_abs_toRat (d : Decimal) : |(|d.toRat|)| = d.mantissa.natAbs / 10 ^ d.scale := by
  rw [abs_abs, abs_toRat]

section Fitting

variable {d : Decimal} (fits : d.Fits)
include fits

theorem fraction_near : ∃ fraction, d.rest.div? d.unit = some fraction ∧
    fraction.isFinite = true ∧ Near 10 fraction.toRat
      ((d.mantissa.natAbs % Nat.pow 10 d.scale : Nat) / 10 ^ d.scale) := by
  have unitShort : Nat.pow 10 d.scale < 10 ^ 30 :=
    Nat.pow_lt_pow_right (by decide) (Nat.lt_of_le_of_lt fits.scale (by decide))
  have restShort : d.mantissa.natAbs % Nat.pow 10 d.scale < 10 ^ 30 :=
    (Nat.mod_lt _ (Nat.pow_pos (by decide))).trans unitShort
  have cast : ((Nat.pow 10 d.scale : Nat) : ℚ) = 10 ^ d.scale := by
    rw [Nat.pow_eq, Nat.cast_pow, Nat.cast_ofNat]
  obtain ⟨finiteUnit, unit⟩ := Double.ofInt_near unitShort
  obtain ⟨finiteRest, rest⟩ := Double.ofInt_near restShort
  rw [cast] at unit
  have some : (10 : ℚ) ^ d.scale ≠ 0 := by positivity
  have quotient := rest.div unit (by decide) some
  exact (Double.div?_rounds finiteRest finiteUnit (unit.ne_zero (by decide) some)).near_sized
    quotient (by decide) (abs_of_nonneg (by positivity)) restShort fits.scale

theorem whole_near : d.whole.isFinite = true ∧
    Near 2 d.whole.toRat (d.mantissa.natAbs / Nat.pow 10 d.scale : Nat) :=
  Double.ofInt_near ((Nat.div_le_self _ _).trans_lt (fits.coefficient.trans (by decide)))

theorem sum_near {fraction : Double} (finite : fraction.isFinite = true)
    (near : Near 10 fraction.toRat
      ((d.mantissa.natAbs % Nat.pow 10 d.scale : Nat) / 10 ^ d.scale)) :
    ∃ sum, d.whole.add? fraction = some sum ∧ sum.isFinite = true ∧
      Near 12 sum.toRat |d.toRat| := by
  obtain ⟨finiteWhole, whole⟩ := whole_near fits
  have parts := (whole.mono (by decide)).add near (by positivity) (by positivity)
  rw [← d.abs_toRat_split.1] at parts
  exact (Double.add?_rounds finiteWhole finite).near_sized parts (by decide) d.abs_abs_toRat
    (fits.coefficient.trans (by decide)) fits.scale

/-- The sum is rounded to the places of the decimal. -/
theorem reduced_near {sum : Double} (finite : sum.isFinite = true)
    (near : Near 12 sum.toRat |d.toRat|) : ∃ power scaled last,
      powerOfTen? d.scale = some power ∧ sum.mul? power = some scaled ∧
        scaled.roundHalfAway.div? power = some last ∧ Near 78 last.toRat |d.toRat| := by
  have short : d.mantissa.natAbs < 10 ^ 30 := fits.coefficient.trans (by decide)
  have unit : (10 : ℚ) ^ d.scale ≠ 0 := by positivity
  obtain ⟨power, raised, finitePower, nearPower⟩ := powerOfTen?_near fits.scale
  have product := near.mul nearPower (by decide)
  rw [abs_toRat, div_mul_cancel₀ _ unit] at product
  obtain ⟨scaled, multiplied, -, nearScaled⟩ :=
    (Double.mul?_rounds finite finitePower).near_sized product (by decide)
      (Double.abs_natCast_eq _) short (by decide)
  obtain ⟨finiteRounded, nearRounded⟩ := Double.roundHalfAway_near nearScaled (by decide) short
  have quotient := nearRounded.div nearPower (by decide) unit
  rw [← abs_toRat] at quotient
  obtain ⟨last, reduced, -, nearLast⟩ :=
    (Double.div?_rounds finiteRounded finitePower (nearPower.ne_zero (by decide) unit)).near_sized
      quotient (by decide) d.abs_abs_toRat short fits.scale
  exact ⟨power, scaled, last, raised, multiplied, reduced, nearLast⟩

/-- On the way from a decimal to a double there are few roundings. -/
theorem toDouble?_near : ∃ x, d.toDouble? = some x ∧ Near 78 x.toRat d.toRat := by
  by_cases places : d.scale = 0
  · have value : d.toRat = d.mantissa := by rw [toRat, places, pow_zero, div_one]
    obtain ⟨-, near⟩ := (Double.ofInt_rounds d.mantissa).near_sized (.of_eq value.symm) (by decide)
      d.abs_toRat (fits.coefficient.trans (by decide)) fits.scale
    exact ⟨_, if_pos places, near.mono (by decide)⟩
  obtain ⟨fraction, divided, finiteFraction, nearFraction⟩ := fraction_near fits
  obtain ⟨sum, added, finiteSum, nearSum⟩ := sum_near fits finiteFraction nearFraction
  obtain ⟨power, scaled, last, raised, multiplied, reduced, nearLast⟩ :=
    reduced_near fits finiteSum nearSum
  obtain ⟨x, found, signed⟩ := toDouble?_of_stages places divided added raised multiplied reduced
  refine ⟨x, found, ?_⟩
  rw [signed, toRat_eq_abs]
  refine Near.signed ?_ _
  split
  · rename_i zero
    -- No other fraction becomes zero.
    have none : ((d.mantissa.natAbs % Nat.pow 10 d.scale : Nat) / 10 ^ d.scale : ℚ) = 0 := by
      by_contra some
      exact nearFraction.ne_zero (by decide) some (Double.toRat_eq_zero.2 (beq_iff_eq.1 zero))
    rw [d.abs_toRat_split.1, none, add_zero]
    exact (whole_near fits).2.mono (by decide)
  · exact nearLast

end Fitting

/-! ## From doubles to decimals -/

theorem size_succ_near {scale coefficient kept : Nat} (high : 10 * kept ≤ coefficient + 5)
    (low : coefficient ≤ 10 * kept + 5) :
    |size (kept, scale) - size (coefficient, scale + 1)| ≤ 1 / 2 * (1 / 10 ^ scale) := by
  have unit : (0 : ℚ) < 10 ^ (scale + 1) := by positivity
  have high : (10 * kept : ℚ) ≤ coefficient + 5 := by exact_mod_cast high
  have low : (coefficient : ℚ) ≤ 10 * kept + 5 := by exact_mod_cast low
  have apart : |(10 * kept - coefficient : ℚ)| ≤ 5 := by
    rw [abs_le]
    constructor <;> linarith
  calc |size (kept, scale) - size (coefficient, scale + 1)|
      = |(10 * kept - coefficient : ℚ)| / 10 ^ (scale + 1) := by
        rw [size, size, ← abs_of_pos unit, ← abs_div, abs_of_pos unit, sub_div, pow_succ]
        congr 2
        field_simp
    _ ≤ 5 / 10 ^ (scale + 1) := by gcongr
    _ = 1 / 2 * (1 / 10 ^ scale) := by
        rw [pow_succ]
        field_simp
        norm_num

/-- What is lost at a place is half of a unit of the place in front of it at most. -/
theorem shorten_near (scale coefficient : Nat) :
    |size (shorten scale coefficient) - size (coefficient, scale)| ≤
      5 / 9 * (1 / 10 ^ (shorten scale coefficient).2 - 1 / 10 ^ scale) := by
  fun_induction shorten scale coefficient with
  | case1 | case2 => simp
  | case3 scale coefficient long ih =>
      let kept := if 5 ≤ coefficient % 10 then coefficient / 10 + 1 else coefficient / 10
      have place : |size (kept, scale) - size (coefficient, scale + 1)| ≤
          1 / 2 * (1 / 10 ^ scale) := by
        refine size_succ_near ?_ ?_ <;> simp only [kept] <;> split <;> omega
      have sum := abs_sub_le (size (shorten scale kept)) (size (kept, scale))
        (size (coefficient, scale + 1))
      have tenth : (1 / 10 ^ (scale + 1) : ℚ) = 1 / 10 ^ scale / 10 := by
        rw [pow_succ]
        field_simp
      rw [tenth]
      change |size (shorten scale kept) - _| ≤ 5 / 9 * (1 / 10 ^ (shorten scale kept).2 - _)
      linarith

theorem shorten_long (scale coefficient : Nat) :
    shorten scale coefficient = (coefficient, scale) ∨
      2 ^ 52 ≤ 10 * (shorten scale coefficient).1 + 5 := by
  fun_induction shorten scale coefficient with
  | case1 | case2 => exact .inl rfl
  | case3 scale coefficient long ih =>
      right
      have unit : Nat.pow 2 52 = 4503599627370496 := rfl
      rcases ih with same | long
      · rw [same]
        dsimp only
        split <;> omega
      · exact long

theorem shorten_share (scale coefficient : Nat) :
    Near 13 (size (shorten scale coefficient)) (size (coefficient, scale)) := by
  rcases shorten_long scale coefficient with same | long
  · exact (Near.of_eq (congrArg size same)).mono (by decide)
  · have near := shorten_near scale coefficient
    generalize shorten scale coefficient = short at near long
    have unit : (0 : ℚ) < 10 ^ short.2 := by positivity
    have long : (2 ^ 52 : ℚ) ≤ 10 * short.1 + 5 := by exact_mod_cast long
    have units : (2 ^ 52 - 5) / 10 * (1 / 10 ^ short.2) ≤ size short := by
      rw [size, div_eq_mul_one_div (short.1 : ℚ)]
      gcongr
      linarith
    have least : (0 : ℚ) ≤ 1 / 10 ^ scale := by positivity
    have positive : 0 ≤ size (coefficient, scale) := by
      rw [size]
      positivity
    rw [Near, abs_of_nonneg positive]
    have high := (abs_le.1 near).2
    push_cast
    linarith

theorem size_stripZeros (scale coefficient : Nat) :
    size (stripZeros scale coefficient) = size (coefficient, scale) := by
  fun_induction stripZeros scale coefficient with
  | case1 | case3 => rfl
  | case2 coefficient scale zero ih =>
      obtain ⟨tens, rfl⟩ := Nat.dvd_of_mod_eq_zero zero
      rw [ih, Nat.mul_div_cancel_left _ (by decide), size, size, pow_succ]
      push_cast
      field_simp

theorem partsOfDouble?_near {x : Double} (finite : x.isFinite = true) {parts : Nat × Nat}
    (found : partsOfDouble? x = some parts) :
    |size parts - (|x.toRat|)| ≤ |x.toRat| / 2 ^ 82 + 1 / 10 ^ 28 := by
  by_cases zero : x.significand = 0
  · rw [partsOfDouble?, if_pos zero] at found
    cases found
    rw [Double.abs_toRat, zero, size]
    norm_num
  rcases lt_or_ge x.exponent 0 with down | up
  · obtain ⟨_, share, same, low, high, above, below, none⟩ := partsOfDouble?_halves zero down
    cases found.symm.trans same
    have least := x.exponent_eq_or.1
    have few : ((-x.exponent).toNat : ℚ) ≤ 2 ^ 11 := by
      exact_mod_cast (by omega : (-x.exponent).toNat ≤ 2 ^ 11)
    have most : 1 - 1 / 2 ^ 82 ≤ keptShare ^ (-x.exponent).toNat := by
      have kept := le_keptShare_pow (-x.exponent).toNat
      linarith
    have low : (1 - 1 / 2 ^ 82) * |x.toRat| ≤ share :=
      (mul_le_mul_of_nonneg_right most (abs_nonneg _)).trans low
    rw [abs_le]
    constructor
    · by_cases lost : parts.1 = 0
      · have small := none.1 lost
        rw [size, lost, Nat.cast_zero, zero_div]
        linarith
      · have near := below lost
        linarith
    · have size : 0 ≤ |x.toRat| / 2 ^ 82 := by positivity
      linarith
  · rcases partsOfDouble?_doubles_cases finite zero up found with rfl | ⟨first, rfl⟩
    · have same : size (x.significand * 2 ^ x.exponent.toNat, 0) = |x.toRat| := by
        rw [abs_toRat_doubles up, size, pow_zero, div_one]
        push_cast
        rfl
      rw [same, sub_self, abs_zero]
      positivity
    · rw [first, size]
      norm_num [abs_le]

/-- Digits that a double is not sure of are lost, and places behind the last one that there is. -/
theorem rounded?_near {x : Double} {d : Decimal} (found : rounded? x = some d) :
    |d.toRat - x.toRat| ≤ |x.toRat| / 2 ^ 49 + 2 / 10 ^ 28 := by
  unfold rounded? at found
  split at found
  · rename_i finite
    obtain ⟨⟨coefficient, scale⟩, parts, rfl⟩ := Option.map_eq_some_iff.1 found
    have near := partsOfDouble?_near finite parts
    have short := shorten_share scale coefficient
    have positive : 0 ≤ size (coefficient, scale) := by
      rw [size]
      positivity
    have size := (abs_le.1 near).2
    rw [Near, abs_of_nonneg positive] at short
    have sum := abs_sub_le (Decimal.size (shorten scale coefficient))
      (Decimal.size (coefficient, scale)) |x.toRat|
    rw [toRat_ofParts, size_stripZeros, x.toRat_eq_abs, ← mul_sub, Double.abs_signed,
      Double.abs_signed, abs_abs]
    push_cast at short
    linarith [abs_nonneg x.toRat]
  · cases found

end Decimal

end Pipeline
