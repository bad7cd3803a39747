import Mathlib.Data.Nat.Factorization.Basic
import Pipeline.Proofs.Rounding

/-! Doubles that become decimals and then doubles again. Every double that denotes an integer or a
decimal of few digits is the one that comes back. -/

set_option autoImplicit false

namespace Pipeline

namespace Decimal

/-! ## From decimals to doubles -/

/-- The powers of ten with at most 53 bits, their factors of two apart. -/
theorem powerOfTen?_exact {exponent : Nat} (few : exponent ≤ 22) :
    powerOfTen? exponent = some (Double.ofInt (Nat.pow 10 exponent : Nat)) := by
  have all : ∀ exponent < 23,
      powerOfTen? exponent = some (Double.ofInt (Nat.pow 10 exponent : Nat)) := by
    decide
  exact all exponent (Nat.lt_succ_of_le few)

theorem abs_toRat (d : Decimal) : |d.toRat| = d.mantissa.natAbs / 10 ^ d.scale := by
  have unit : (0 : ℚ) < 10 ^ d.scale := by positivity
  rw [toRat, abs_div, abs_of_pos unit, Nat.cast_natAbs, Int.cast_abs]

theorem toRat_eq_abs (d : Decimal) :
    d.toRat = (if d.mantissa < 0 then -1 else 1) * |d.toRat| := by
  rw [abs_toRat, toRat, Double.cast_eq_signed_natAbs d.mantissa]
  by_cases negative : d.mantissa < 0 <;> simp [negative, neg_div]

theorem abs_toRat_split (d : Decimal) :
    |d.toRat| = (d.mantissa.natAbs / Nat.pow 10 d.scale : Nat) +
        (d.mantissa.natAbs % Nat.pow 10 d.scale : Nat) / 10 ^ d.scale ∧
      ((d.mantissa.natAbs % Nat.pow 10 d.scale : Nat) / 10 ^ d.scale : ℚ) < 1 := by
  have unit : (0 : ℚ) < 10 ^ d.scale := by positivity
  have cast : ((Nat.pow 10 d.scale : Nat) : ℚ) = 10 ^ d.scale := by
    rw [Nat.pow_eq, Nat.cast_pow, Nat.cast_ofNat]
  constructor
  · rw [abs_toRat, eq_comm, eq_div_iff unit.ne', add_mul, div_mul_cancel₀ _ unit.ne', ← cast]
    exact_mod_cast Nat.div_add_mod' d.mantissa.natAbs (Nat.pow 10 d.scale)
  · rw [div_lt_one unit, ← cast]
    exact_mod_cast Nat.mod_lt d.mantissa.natAbs (Nat.pow_pos (by decide))

/-- The integral part of the size, as a double. -/
def whole (d : Decimal) : Double :=
  .ofInt (d.mantissa.natAbs / Nat.pow 10 d.scale : Nat)

/-- What is left of the size in units of the last place, as a double. -/
def rest (d : Decimal) : Double :=
  .ofInt (d.mantissa.natAbs % Nat.pow 10 d.scale : Nat)

/-- The number of units of the last place in one, as a double. -/
def unit (d : Decimal) : Double :=
  .ofInt (Nat.pow 10 d.scale : Nat)

/-- The stages on the way to a double. -/
theorem toDouble?_of_stages {d : Decimal} (places : d.scale ≠ 0)
    {fraction sum power scaled size : Double} (divided : d.rest.div? d.unit = some fraction)
    (added : d.whole.add? fraction = some sum) (raised : powerOfTen? d.scale = some power)
    (multiplied : sum.mul? power = some scaled)
    (reduced : scaled.roundHalfAway.div? power = some size) :
    ∃ x, d.toDouble? = some x ∧ x.toRat = (if d.mantissa < 0 then -1 else 1) *
      (if fraction.isZero then d.whole else size).toRat := by
  let last := if fraction.isZero then d.whole else size
  refine ⟨if d.mantissa < 0 then last.neg else last, ?_, ?_⟩
  · rw [toDouble?, if_neg places]
    change (d.rest.div? d.unit >>= fun fraction => _) = _
    rw [divided, Option.bind_eq_bind, Option.bind_some]
    by_cases zero : fraction.isZero = true
    · simp only [last, zero, if_true]
      rfl
    · rw [whole] at added
      rw [if_neg zero, added]
      simp [raised, multiplied, reduced, last, zero]
  · by_cases negative : d.mantissa < 0
    · rw [if_pos negative, if_pos negative, Double.toRat_neg, neg_one_mul]
    · rw [if_neg negative, if_neg negative, one_mul]

theorem exists_toRat_fraction {x : Double} (finite : x.isFinite = true) {whole : Nat}
    (low : (whole : ℚ) ≤ |x.toRat|) (high : |x.toRat| < whole + 1) :
    ∃ y : Double, y.isFinite = true ∧ y.toRat = |x.toRat| - whole := by
  rcases lt_or_ge x.exponent 0 with down | up
  · have unit : (0 : ℚ) < 2 ^ (-x.exponent).toNat := by positivity
    have power : (2 : ℚ) ^ x.exponent = 1 / 2 ^ (-x.exponent).toNat := by
      have same := Double.two_pow_toNat x.exponent
      rw [show x.exponent.toNat = 0 by omega, pow_zero] at same
      rw [same, mul_div_cancel_right₀ _ unit.ne']
    rw [abs_toRat_halves down, le_div_iff₀ unit] at low
    have fits : whole * 2 ^ (-x.exponent).toNat ≤ x.significand := by exact_mod_cast low
    have short : ((x.significand : Int) - (whole * 2 ^ (-x.exponent).toNat : Nat)).natAbs <
        2 ^ 53 := by
      have := x.significand_lt
      omega
    obtain ⟨y, finiteY, denotes⟩ :=
      Double.exists_toRat_eq short x.exponent_eq_or.1 (Double.exponent_le finite)
    refine ⟨y, finiteY, denotes.trans ?_⟩
    rw [power, abs_toRat_halves down]
    push_cast
    field_simp
  · rw [abs_toRat_doubles up] at low high ⊢
    have same : x.significand * 2 ^ x.exponent.toNat = whole := by
      have low : whole ≤ x.significand * 2 ^ x.exponent.toNat := by exact_mod_cast low
      have high : x.significand * 2 ^ x.exponent.toNat < whole + 1 := by exact_mod_cast high
      omega
    refine ⟨.ofParts false 0, by decide, ?_⟩
    have zero : (Double.ofParts false 0).toRat = 0 := Double.toRat_eq_zero.2 (by decide)
    rw [zero, ← same]
    push_cast
    exact (sub_self _).symm

section Short

variable {d : Decimal} (short : d.mantissa.natAbs < 2 ^ 53) (few : d.scale ≤ 22) {x : Double}
  (finite : x.isFinite = true) (denotes : x.toRat = d.toRat)

include few in
theorem unit_exact : d.unit.isFinite = true ∧ d.unit.toRat = 10 ^ d.scale := by
  have factor : ((5 ^ d.scale : Nat) : Int).natAbs < 2 ^ 53 :=
    (Nat.pow_le_pow_right (by decide) few).trans_lt (by decide)
  obtain ⟨y, finiteY, power⟩ := Double.exists_toRat_eq factor
    (by omega : -1074 ≤ (d.scale : Int)) (by omega)
  have ten : y.toRat = 10 ^ d.scale := by
    rw [power, zpow_natCast, ten_pow]
    push_cast
    rfl
  have cast : (((Nat.pow 10 d.scale : Nat) : Int) : ℚ) = 10 ^ d.scale := by
    push_cast [Nat.pow_eq]
    rfl
  rw [← cast]
  exact (Double.ofInt_rounds _).exact finiteY (ten.trans cast.symm)

include short few finite denotes

theorem exists_fraction : ∃ fraction, d.rest.div? d.unit = some fraction ∧
    fraction.isFinite = true ∧
    |d.toRat| = (d.mantissa.natAbs / Nat.pow 10 d.scale : Nat) + fraction.toRat := by
  obtain ⟨split, less⟩ := d.abs_toRat_split
  have least : (0 : ℚ) ≤ (d.mantissa.natAbs % Nat.pow 10 d.scale : Nat) / 10 ^ d.scale := by
    positivity
  obtain ⟨finiteRest, rest⟩ : d.rest.isFinite = true ∧
      d.rest.toRat = (d.mantissa.natAbs % Nat.pow 10 d.scale : Nat) :=
    Double.ofInt_exact ((Nat.mod_le _ _).trans_lt short)
  obtain ⟨finiteUnit, unit⟩ := unit_exact few
  have nonzero : d.unit.toRat ≠ 0 := by
    rw [unit]
    positivity
  rw [← denotes] at split
  obtain ⟨y, finiteY, fractional⟩ :=
    exists_toRat_fraction finite (le_of_le_of_eq (le_add_of_nonneg_right least) split.symm)
      (split.trans_lt (by linarith))
  have quotient : y.toRat = d.rest.toRat / d.unit.toRat := by
    rw [fractional, split, rest, unit, add_sub_cancel_left]
  obtain ⟨fraction, divided, finiteFraction, value⟩ :=
    (Double.div?_rounds finiteRest finiteUnit nonzero).exact finiteY quotient
  refine ⟨fraction, divided, finiteFraction, ?_⟩
  rw [value, ← quotient, fractional, ← denotes, add_sub_cancel]

/-- A decimal of few digits and places that a double denotes becomes a double without loss: no stage
on the way rounds. -/
theorem toDouble?_exact : ∃ y, d.toDouble? = some y ∧ y.toRat = d.toRat := by
  by_cases places : d.scale = 0
  · refine ⟨_, if_pos places, (Double.ofInt_exact short).2.trans ?_⟩
    rw [toRat, places, pow_zero, div_one]
  obtain ⟨finiteWhole, whole⟩ : d.whole.isFinite = true ∧
      d.whole.toRat = (d.mantissa.natAbs / Nat.pow 10 d.scale : Nat) :=
    Double.ofInt_exact ((Nat.div_le_self _ _).trans_lt short)
  obtain ⟨finiteUnit, unit⟩ := unit_exact few
  obtain ⟨fraction, divided, finiteFraction, split⟩ :=
    exists_fraction short few finite denotes
  rw [← whole] at split
  have nonzero : (10 : ℚ) ^ d.scale ≠ 0 := by positivity
  have finiteSize : x.abs.isFinite = true := by rw [Double.isFinite_abs, finite]
  have size : x.abs.toRat = |d.toRat| := by rw [Double.toRat_abs, denotes]
  obtain ⟨sum, added, finiteSum, sumValue⟩ :=
    (Double.add?_rounds finiteWhole finiteFraction).exact finiteSize (size.trans split)
  obtain ⟨finiteInteger, integer⟩ : (Double.ofInt d.mantissa.natAbs).isFinite = true ∧
      (Double.ofInt d.mantissa.natAbs).toRat = d.mantissa.natAbs := Double.ofInt_exact short
  have product : (Double.ofInt d.mantissa.natAbs).toRat = sum.toRat * d.unit.toRat := by
    rw [integer, sumValue, ← split, unit, abs_toRat, div_mul_cancel₀ _ nonzero]
  obtain ⟨scaled, multiplied, -, scaledValue⟩ :=
    (Double.mul?_rounds finiteSum finiteUnit).exact finiteInteger product
  rw [← product, integer] at scaledValue
  obtain ⟨finiteRounded, rounded⟩ := Double.roundHalfAway_exact scaledValue short
  have reduction : x.abs.toRat = scaled.roundHalfAway.toRat / d.unit.toRat := by
    rw [size, rounded, unit, abs_toRat]
  obtain ⟨last, reduced, -, value⟩ :=
    (Double.div?_rounds finiteRounded finiteUnit (unit ▸ nonzero)).exact finiteSize reduction
  rw [← reduction, size] at value
  obtain ⟨y, found, signed⟩ :=
    toDouble?_of_stages places divided added (powerOfTen?_exact few) multiplied reduced
  refine ⟨y, found, signed.trans ?_⟩
  have unsigned : (if fraction.isZero then d.whole else last).toRat = |d.toRat| := by
    split
    · rename_i zero
      rw [split, Double.toRat_eq_zero.2 (beq_iff_eq.1 zero), add_zero]
    · exact value
  rw [unsigned, ← toRat_eq_abs]

end Short

/-! ## From doubles to decimals -/

/-- The first double beyond the coefficients becomes the decimal of another integer. -/
theorem rounded?_two_pow {x : Double} (finite : x.isFinite = true) (value : |x.toRat| = 2 ^ 96) :
    rounded? x = some (ofParts x.negative (10 * (2 ^ 95 / 5), 0)) := by
  rw [rounded?, if_pos finite, partsOfDouble?_two_pow value]
  rfl

/-- A double that denotes any other integer becomes the decimal of it. -/
theorem rounded?_of_integer {x : Double} (finite : x.isFinite = true) {n : Int}
    (value : x.toRat = n) (other : |x.toRat| ≠ 2 ^ 96) {d : Decimal}
    (found : rounded? x = some d) : d = ofInt n := by
  rw [rounded?, if_pos finite] at found
  obtain ⟨parts, traded, rfl⟩ := Option.map_eq_some_iff.1 found
  have size : |x.toRat| = n.natAbs := by rw [value, Nat.cast_natAbs, Int.cast_abs]
  have whole : parts = (n.natAbs, 0) := by
    by_cases zero : x.significand = 0
    · have none : n.natAbs = 0 := by
        rw [Double.abs_toRat, zero, Nat.cast_zero, zero_mul] at size
        exact_mod_cast size.symm
      rw [partsOfDouble?, if_pos zero] at traded
      cases traded
      rw [none]
    · rcases lt_or_ge x.exponent 0 with down | up
      · have multiple : x.significand = n.natAbs * 2 ^ (-x.exponent).toNat := by
          rw [abs_toRat_halves down, div_eq_iff (by positivity)] at size
          exact_mod_cast size
        have remainder : x.significand % 2 ^ (-x.exponent).toNat = 0 := by
          rw [multiple, Nat.mul_mod_left]
        cases traded.symm.trans (partsOfDouble?_whole_halves zero down remainder)
        nth_rewrite 1 [multiple]
        rw [Nat.mul_div_cancel _ (by positivity)]
      · obtain rfl := (partsOfDouble?_doubles_cases finite zero up traded).resolve_right
          fun first => other first.1
        rw [abs_toRat_doubles up] at size
        congr 1
        exact_mod_cast size
  cases whole
  have signed : (ofParts x.negative (n.natAbs, 0)).toRat = n := by
    rw [toRat_ofParts, Decimal.size, pow_zero, div_one, ← size, ← x.toRat_eq_abs, value]
  have mantissa : (ofParts x.negative (n.natAbs, 0)).mantissa = n := by
    rw [toRat, ofParts, pow_zero, div_one] at signed
    exact_mod_cast signed
  exact congrArg (Decimal.mk · 0) mantissa

theorem shorten_of_short {scale coefficient : Nat} (short : coefficient < Nat.pow 2 52) :
    shorten scale coefficient = (coefficient, scale) := by
  cases scale with
  | zero => rfl
  | succ scale => rw [shorten, if_pos short]

theorem stripZeros_of_odd {scale coefficient : Nat} (odd : coefficient % 2 = 1) :
    stripZeros scale coefficient = (coefficient, scale) := by
  cases scale with
  | zero => rfl
  | succ scale => rw [stripZeros, if_neg (by omega)]

/-- A quotient by a power of two that is one by a power of ten needs as many places as it has
halves. -/
theorem mul_five_pow_le {numerator halves coefficient places : Nat} (odd : numerator % 2 = 1)
    (same : numerator * 10 ^ places = coefficient * 2 ^ halves) :
    numerator * 5 ^ halves ≤ coefficient := by
  have factors : numerator * 10 ^ places = 2 ^ places * (numerator * 5 ^ places) := by
    rw [show 10 = 2 * 5 from rfl, Nat.mul_pow]
    ring
  have coprime : Nat.Coprime (2 ^ halves) (numerator * 5 ^ places) := by
    refine Nat.Coprime.pow_left _ (Nat.coprime_two_left.2 (Odd.mul ?_ (Odd.pow (by decide))))
    exact Nat.odd_iff.2 odd
  have divides : 2 ^ halves ∣ 2 ^ places := by
    refine coprime.dvd_of_dvd_mul_right (factors ▸ ?_)
    exact Dvd.intro_left _ same.symm
  have fewer : halves ≤ places := (Nat.pow_dvd_pow_iff_le_right (by decide)).1 divides
  obtain ⟨more, rfl⟩ := Nat.exists_eq_add_of_le fewer
  have whole : numerator * 5 ^ halves * 10 ^ more = coefficient := by
    refine Nat.eq_of_mul_eq_mul_right (Nat.two_pow_pos halves) (same ▸ ?_)
    rw [Nat.pow_add, show 10 ^ halves = 5 ^ halves * 2 ^ halves by rw [← Nat.mul_pow]]
    ring
  exact whole ▸ Nat.le_mul_of_pos_right _ (by positivity)

theorem exists_lowest_terms {x : Double} (fractional : ∀ n : Int, x.toRat ≠ n) :
    x.significand ≠ 0 ∧ x.exponent < 0 ∧ ∃ evens halves numerator : Nat, numerator % 2 = 1 ∧
      x.significand = 2 ^ evens * numerator ∧ (-x.exponent).toNat = evens + halves ∧
      |x.toRat| = numerator / 2 ^ halves := by
  have nonzero : x.significand ≠ 0 := fun zero =>
    fractional 0 (by rw [Double.toRat, zero, Nat.cast_zero, zero_mul, mul_zero, Int.cast_zero])
  have down : x.exponent < 0 := by
    by_contra up
    obtain ⟨n, integer⟩ := Double.exists_toRat_of_up (not_lt.1 up)
    exact fractional n integer
  obtain ⟨evens, numerator, odd, factored⟩ := Nat.exists_eq_two_pow_mul_odd nonzero
  have size := abs_toRat_halves down
  have fewer : evens ≤ (-x.exponent).toNat := by
    by_contra many
    obtain ⟨more, same⟩ := Nat.exists_eq_add_of_lt (not_le.1 many)
    have whole : |x.toRat| = (2 ^ (more + 1) * numerator : Nat) := by
      rw [size, div_eq_iff (by positivity), factored, same]
      push_cast
      ring
    refine fractional ((if x.negative then -1 else 1) * (2 ^ (more + 1) * numerator : Nat)) ?_
    rw [x.toRat_eq_abs, whole]
    push_cast
    rfl
  obtain ⟨halves, steps⟩ := Nat.exists_eq_add_of_le fewer
  refine ⟨nonzero, down, evens, halves, numerator, Nat.odd_iff.1 odd, factored, steps, ?_⟩
  rw [size, factored, steps, pow_add]
  push_cast
  field_simp

theorem rounded?_of_short {x : Double} (finite : x.isFinite = true)
    (fractional : ∀ n : Int, x.toRat ≠ n) {coefficient places : Nat}
    (value : |x.toRat| = coefficient / 10 ^ places) (short : coefficient < 2 ^ 52) :
    ∃ d, rounded? x = some d ∧ d.toRat = x.toRat ∧ d.mantissa.natAbs < 2 ^ 52 ∧
      d.scale ≤ 22 := by
  obtain ⟨nonzero, down, evens, halves, numerator, odd, factored, steps, terms⟩ :=
    exists_lowest_terms fractional
  have same : numerator * 10 ^ places = coefficient * 2 ^ halves := by
    have equal := value.symm.trans terms
    rw [div_eq_div_iff (by positivity) (by positivity)] at equal
    exact_mod_cast equal.symm
  have fits : numerator * 5 ^ halves < 2 ^ 52 := (mul_five_pow_le odd same).trans_lt short
  have few : halves ≤ 22 := by
    by_contra many
    have long : 5 ^ 23 ≤ numerator * 5 ^ halves :=
      (Nat.pow_le_pow_right (by decide) (by omega)).trans
        (Nat.le_mul_of_pos_left _ (by omega))
    omega
  have oddProduct : numerator * 5 ^ halves % 2 = 1 := by
    rw [Nat.mul_mod, odd, Nat.pow_mod]
    simp
  have traded : partsOfDouble? x = some (numerator * 5 ^ halves, halves) := by
    have power : x.exponent + evens = -(halves : Int) := by omega
    have none : (-(halves : Int)).toNat = 0 := by omega
    have some : numerator * 5 ^ halves ≠ 0 := by omega
    have bound : numerator * 5 ^ halves < coefficientBound := fits.trans (by decide)
    rw [partsOfDouble?, if_neg nonzero, if_pos down, steps, factored, tradeHalves_two_pow_mul,
      power, tradeHalves_of_odd _ odd bound]
    have kept : halves - maxScale = 0 := Nat.sub_eq_zero_of_le (few.trans (by decide))
    have most : min halves maxScale = halves := Nat.min_eq_left (few.trans (by decide))
    simp [none, raise?, kept, dropPlaces, some, most]
  refine ⟨ofParts x.negative (numerator * 5 ^ halves, halves), ?_, ?_, ?_, few⟩
  · rw [rounded?, if_pos finite, traded, Option.map_some]
    simp only [shorten_of_short fits, stripZeros_of_odd oddProduct]
  · rw [toRat_ofParts, x.toRat_eq_abs, terms, Decimal.size, ten_pow]
    push_cast
    congr 1
    field_simp
  · rw [natAbs_mantissa_ofParts]
    exact fits

end Decimal

namespace Double

/-- Whether the decimal with the digits that a double is sure of becomes the double again. -/
def IsKept (x : Double) : Prop :=
  ∀ d, Decimal.rounded? x = some d → ∃ y, d.toDouble? = some y ∧ y.toRat = x.toRat

/-- The integer that stands for the first double beyond the coefficients is nearest to it again. -/
theorem isKept_two_pow {x : Double} (finite : x.isFinite = true) (value : |x.toRat| = 2 ^ 96) :
    x.IsKept := by
  intro d found
  cases found.symm.trans (Decimal.rounded?_two_pow finite value)
  have denotes := x.toRat_eq_abs
  rw [value] at denotes
  cases sign : x.negative with
  | false =>
      have nearest : (ofInt (10 * (2 ^ 95 / 5))).toRat = 2 ^ 96 := by decide +kernel
      rw [sign, if_neg Bool.false_ne_true, one_mul] at denotes
      exact ⟨_, rfl, nearest.trans denotes.symm⟩
  | true =>
      have nearest : (ofInt (-(10 * (2 ^ 95 / 5)))).toRat = -1 * 2 ^ 96 := by decide +kernel
      rw [sign, if_pos rfl] at denotes
      exact ⟨_, rfl, nearest.trans denotes.symm⟩

theorem isKept_of_integer {x : Double} (finite : x.isFinite = true) {n : Int}
    (value : x.toRat = n) : x.IsKept := by
  by_cases first : |x.toRat| = 2 ^ 96
  · exact isKept_two_pow finite first
  · intro d found
    obtain rfl := Decimal.rounded?_of_integer finite value first found
    obtain ⟨-, same⟩ := (ofInt_rounds n).exact finite value
    exact ⟨ofInt n, rfl, same.trans value.symm⟩

/-- Doubles that are decimals of few digits are kept, however many places these have. -/
theorem isKept_of_short {x : Double} (finite : x.isFinite = true) {coefficient places : Nat}
    (value : |x.toRat| = coefficient / 10 ^ places) (short : coefficient < 2 ^ 52) :
    x.IsKept := by
  by_cases fractional : ∀ n : Int, x.toRat ≠ n
  · intro d found
    obtain ⟨e, same, denotes, fits, few⟩ := Decimal.rounded?_of_short finite fractional value short
    obtain rfl := Option.some.inj (found.symm.trans same)
    obtain ⟨y, back, kept⟩ :=
      Decimal.toDouble?_exact (fits.trans (by decide)) few finite denotes.symm
    exact ⟨y, back, kept.trans denotes⟩
  · simp only [ne_eq, not_forall, not_not] at fractional
    obtain ⟨n, integer⟩ := fractional
    exact isKept_of_integer finite integer

end Double

end Pipeline
