import Pipeline.Proofs.DecimalProducts
import Pipeline.Proofs.IntegerArithmetic

/-! Sums, differences and products of an integer and a double whose exact results are integers. A
sum or difference is this integer. A product is if the digits that the double loses as a decimal do
not reach the last place of the product; a double beyond the decimals has only the product zero,
which stays a double. -/

set_option autoImplicit false

namespace Pipeline

namespace Decimal

/-! ## The decimal behind a double -/

theorem not_fits_of_large {n : Int} (large : (2 : ℚ) ^ 96 ≤ |(n : ℚ)|) :
    ¬n.natAbs < coefficientBound := by
  rw [← Int.cast_abs, Int.abs_eq_natAbs] at large
  exact not_lt.2 (by exact_mod_cast large : 2 ^ 96 ≤ n.natAbs)

theorem rounded?_eq_none_iff {x : Double} (finite : x.isFinite = true) :
    rounded? x = none ↔ 2 ^ 96 < |x.toRat| := by
  refine ⟨lt_abs_toRat_of_rounded?_eq_none finite, fun beyond => ?_⟩
  rw [rounded?, if_pos finite, partsOfDouble?_eq_none finite beyond]
  rfl

theorem rounded?_eq_ofInt {x : Double} (finite : x.isFinite = true) {n : Int}
    (value : x.toRat = n) (fits : n.natAbs < coefficientBound) : rounded? x = some (ofInt n) := by
  have small : |x.toRat| < 2 ^ 96 := by
    by_contra large
    exact not_fits_of_large (value ▸ not_lt.1 large) fits
  cases found : rounded? x with
  | some d => rw [rounded?_of_integer finite value small.ne found]
  | none => exact absurd ((rounded?_eq_none_iff finite).1 found) small.not_gt

/-- The decimal of a double is not on the other side of zero. -/
theorem rounded?_sign {x : Double} {d : Decimal} (found : rounded? x = some d) :
    0 ≤ x.toRat * d.mantissa := by
  unfold rounded? at found
  split at found
  · obtain ⟨⟨coefficient, scale⟩, -, rfl⟩ := Option.map_eq_some_iff.1 found
    rw [x.toRat_eq_abs]
    cases x.negative <;> simp [ofParts] <;> positivity
  · cases found

/-- Doubles that denote an integer or a decimal of few digits lose none. -/
theorem exists_rounded?_exact {x : Double} (finite : x.isFinite = true)
    (small : |x.toRat| < 2 ^ 96) (exact : (∃ n : Int, x.toRat = n) ∨
      ∃ coefficient places : Nat, coefficient < 2 ^ 52 ∧ |x.toRat| = coefficient / 10 ^ places) :
    ∃ d, rounded? x = some d ∧ d.toRat = x.toRat := by
  by_cases fractional : ∀ n : Int, x.toRat ≠ n
  · obtain ⟨n, integer⟩ | ⟨coefficient, places, short, value⟩ := exact
    · exact absurd integer (fractional n)
    · obtain ⟨d, found, same, -, -⟩ := rounded?_of_short finite fractional value short
      exact ⟨d, found, same⟩
  · simp only [ne_eq, not_forall, not_not] at fractional
    obtain ⟨n, integer⟩ := fractional
    have some := (rounded?_eq_none_iff finite).not.2 small.not_gt
    obtain ⟨d, found⟩ := Option.ne_none_iff_exists'.1 some
    refine ⟨d, found, ?_⟩
    rw [rounded?_of_integer finite integer small.ne found, integer, toRat, ofInt, pow_zero, div_one]

end Decimal

/-- Whether the digits that a double loses as a decimal reach the last place that its product with
an integer has, if the product should be an integer. Doubles without a decimal lose all. -/
def Double.LosesProduct (x : Double) (n product : Int64) : Prop :=
  ∀ d, Decimal.rounded? x = some d →
    1 / 2 / 10 ^ Decimal.stride product.toInt.natAbs d.scale < |n.toInt * (d.toRat - x.toRat)|

namespace Arithmetic

/-! ## An integer and a double as operands -/

/-- An operator that computes with decimals as with rationals, but for rounding. -/
def IsRing (op : Arithmetic) : Prop :=
  op = .add ∨ op = .subtract ∨ op = .multiply

/-- An integer and a double, in either order. -/
def Mixed (n : Int64) (x : Double) (a b : Number) : Prop :=
  a = .integer n ∧ b = .float x ∨ a = .float x ∧ b = .integer n

theorem onDecimals_eq_ok_iff {op : Arithmetic} (ring : op.IsRing) {a b : Decimal} {value : Value} :
    op.onDecimals a b = .ok value ↔ (op.decimal? a b).bind decimalValue? = some value := by
  have safe : ¬((op = .divide ∨ op = .modulo) ∧ b.isZero = true) := by
    rintro ⟨rfl | rfl, -⟩ <;> simp [IsRing] at ring
  rw [onDecimals, if_neg safe]
  split
  · rename_i found
    rw [found, Except.ok.injEq, Option.some.injEq]
  · rename_i none
    rw [none]
    simp

section Mixed

variable {n : Int64} {x : Double} {a b : Number} (mixed : Mixed n x a b)
include mixed

theorem multiply_exact : multiply.exact a.toRat b.toRat = n.toInt * x.toRat := by
  obtain ⟨rfl, rfl⟩ | ⟨rfl, rfl⟩ := mixed
  · rfl
  · exact mul_comm ..

theorem multiply_onNumbers_iff {d : Decimal} (found : Decimal.rounded? x = some d) {k : Int64} :
    multiply.onNumbers a b = .ok (.integer k) ↔
      ∃ e, (Decimal.ofInt n.toInt).mul? d = some e ∧ e.toRat = k.toInt := by
  have ring : multiply.IsRing := .inr (.inr rfl)
  simp only [← Decimal.decimalValue?_eq_integer_iff, ← Option.bind_eq_some_iff]
  obtain ⟨rfl, rfl⟩ | ⟨rfl, rfl⟩ := mixed
  · simp only [onNumbers, found]
    exact onDecimals_eq_ok_iff ring
  · simp only [onNumbers, found, Decimal.mul?_comm (Decimal.ofInt _)]
    exact onDecimals_eq_ok_iff ring

/-- Where a sum or difference is an integer, both operands are. -/
theorem exists_integers_of_sum {op : Arithmetic} (sum : op = .add ∨ op = .subtract) {k : Int64}
    (exact : op.exact a.toRat b.toRat = k.toInt) :
    ∃ p q : Int, a.toRat = p ∧ b.toRat = q ∧ p.natAbs ≤ 2 ^ 64 ∧ q.natAbs ≤ 2 ^ 64 := by
  have sizeN := Number.natAbs_toInt_le n
  have sizeK := Number.natAbs_toInt_le k
  obtain ⟨rfl, rfl⟩ | ⟨rfl, rfl⟩ := mixed <;> obtain rfl | rfl := sum <;>
    simp only [Arithmetic.exact, Number.toRat] at exact ⊢
  · exact ⟨n.toInt, k.toInt - n.toInt, rfl, by push_cast; linarith, by omega, by omega⟩
  · exact ⟨n.toInt, n.toInt - k.toInt, rfl, by push_cast; linarith, by omega, by omega⟩
  · exact ⟨k.toInt - n.toInt, n.toInt, by push_cast; linarith, rfl, by omega, by omega⟩
  · exact ⟨k.toInt + n.toInt, n.toInt, by push_cast; linarith, rfl, by omega, by omega⟩

/-- A double of more digits than coefficients have stands beside zero, where the result is an
integer of 64 bits. -/
theorem zero_of_large {op : Arithmetic} (ring : op.IsRing) {k : Int64}
    (exact : op.exact a.toRat b.toRat = k.toInt) (large : 2 ^ 96 ≤ |x.toRat|) : n.toInt = 0 := by
  obtain rfl | rfl | rfl := ring
  case inr.inr =>
    rw [multiply_exact mixed] at exact
    by_contra some
    have least : (1 : ℚ) ≤ |(n.toInt : ℚ)| := by exact_mod_cast Int.one_le_abs some
    have size : |(n.toInt : ℚ)| * |x.toRat| ≤ 2 ^ 63 := by
      rw [← abs_mul, exact, ← Int.cast_abs, Int.abs_eq_natAbs]
      exact_mod_cast Number.natAbs_toInt_le k
    nlinarith
  all_goals
    obtain ⟨p, q, valueA, valueB, sizeA, sizeB⟩ :=
      exists_integers_of_sum mixed (by tauto) exact
    have small : ∀ m : Int, m.natAbs ≤ 2 ^ 64 → x.toRat ≠ m := by
      rintro m short same
      rw [same, ← Int.cast_abs, Int.abs_eq_natAbs] at large
      have large : 2 ^ 96 ≤ m.natAbs := by exact_mod_cast large
      omega
    obtain ⟨rfl, rfl⟩ | ⟨rfl, rfl⟩ := mixed
    · exact absurd valueB (small q sizeB)
    · exact absurd valueA (small p sizeA)

/-- Beyond the decimals only zero has a product that is an integer of 64 bits, and it stays a
double. -/
theorem multiply_onNumbers_large (finite : x.isFinite = true) {k : Int64}
    (exact : multiply.exact a.toRat b.toRat = k.toInt) (beyond : 2 ^ 96 < |x.toRat|) :
    ∃ z : Double, z.isZero = true ∧ multiply.onNumbers a b = .ok (.float z) := by
  have found := (Decimal.rounded?_eq_none_iff finite).2 beyond
  have zero := zero_of_large mixed (.inr (.inr rfl)) exact beyond.le
  obtain ⟨finiteZero, none⟩ := @Double.ofInt_exact 0 (by decide)
  rw [Int.cast_zero] at none
  have denoted : (Double.ofParts false 0).toRat = 0 := Double.toRat_eq_zero.2 (by decide)
  have result : ∀ {q : ℚ} {z : Option Double}, Double.RoundsTo q z → q = 0 →
      ∃ y : Double, y.isZero = true ∧ z = some y := by
    rintro q z rounds rfl
    obtain ⟨y, rounded, -, value⟩ := rounds.exact (by decide) denoted
    exact ⟨y, Double.isZero_iff.2 value, rounded⟩
  obtain ⟨rfl, rfl⟩ | ⟨rfl, rfl⟩ := mixed
  · obtain ⟨z, zeroZ, product⟩ :=
      result (Double.mul?_rounds finiteZero finite) (by rw [none, zero_mul])
    refine ⟨z, zeroZ, ?_⟩
    simp only [onNumbers, found, zero]
    exact onDoubles_of_some (by simp) product
  · obtain ⟨z, zeroZ, product⟩ :=
      result (Double.mul?_rounds finite finiteZero) (by rw [none, mul_zero])
    refine ⟨z, zeroZ, ?_⟩
    simp only [onNumbers, found, zero]
    exact onDoubles_of_some (by simp) product

theorem multiply_onNumbers_eq_iff (finite : x.isFinite = true) {k : Int64}
    (exact : multiply.exact a.toRat b.toRat = k.toInt) :
    multiply.onNumbers a b = .ok (.integer k) ↔ ¬x.LosesProduct n k := by
  have product := (multiply_exact mixed).symm.trans exact
  cases found : Decimal.rounded? x with
  | some d =>
      have sign : 0 ≤ k.toInt * (n.toInt * d.mantissa) := by
        have square : (0 : ℚ) ≤ n.toInt * n.toInt * (x.toRat * d.mantissa) :=
          mul_nonneg (mul_self_nonneg _) (Decimal.rounded?_sign found)
        have cast : (0 : ℚ) ≤ k.toInt * (n.toInt * d.mantissa) := by
          rw [← product]
          linarith
        exact_mod_cast cast
      rw [multiply_onNumbers_iff mixed found,
        Decimal.exists_mul?_iff sign (Decimal.rounded?_fits found) (Number.natAbs_toInt_le k),
        Double.LosesProduct, ← product, ← mul_sub]
      simp [found]
  | none =>
      obtain ⟨z, -, result⟩ :=
        multiply_onNumbers_large mixed finite exact ((Decimal.rounded?_eq_none_iff finite).1 found)
      refine iff_of_false ?_ (not_not.2 ?_)
      · rw [result]
        simp
      · simp [Double.LosesProduct, found]

theorem onNumbers_of_integers (finite : x.isFinite = true) {p q : Int} (valueA : a.toRat = p)
    (valueB : b.toRat = q) (sizeA : p.natAbs ≤ 2 ^ 64) (sizeB : q.natAbs ≤ 2 ^ 64)
    (op : Arithmetic) : op.onNumbers a b = op.onDecimals (.ofInt p) (.ofInt q) := by
  have fits : 2 ^ 64 < Decimal.coefficientBound := by decide
  obtain ⟨rfl, rfl⟩ | ⟨rfl, rfl⟩ := mixed
  · obtain rfl : n.toInt = p := Int.cast_injective valueA
    simp only [onNumbers, Decimal.rounded?_eq_ofInt finite valueB (sizeB.trans_lt fits)]
  · obtain rfl : n.toInt = q := Int.cast_injective valueB
    simp only [onNumbers, Decimal.rounded?_eq_ofInt finite valueA (sizeA.trans_lt fits)]

/-- Sums and differences that are integers are computed without loss. -/
theorem sum_onNumbers (finite : x.isFinite = true) {op : Arithmetic}
    (sum : op = .add ∨ op = .subtract) {k : Int64}
    (exact : op.exact a.toRat b.toRat = k.toInt) : op.onNumbers a b = .ok (.integer k) := by
  obtain ⟨p, q, valueA, valueB, sizeA, sizeB⟩ := exists_integers_of_sum mixed sum exact
  have size := Number.natAbs_toInt_le k
  have fits : 2 ^ 63 < Decimal.coefficientBound := by decide
  have value : decimalValue? (.ofInt k.toInt) = some (.integer k) := by
    rw [Decimal.decimalValue?_eq_integer_iff, Decimal.toRat, Decimal.ofInt, pow_zero, div_one]
  rw [onNumbers_of_integers mixed finite valueA valueB sizeA sizeB,
    onDecimals_eq_ok_iff (by rw [IsRing]; tauto)]
  rw [valueA, valueB] at exact
  obtain rfl | rfl := sum <;> simp only [Arithmetic.exact] at exact
  · obtain total : p + q = k.toInt := by exact_mod_cast exact
    rw [decimal?, Decimal.add?_ofInt (by omega), total]
    exact value
  · obtain total : p + -q = k.toInt := by
      rw [← sub_eq_add_neg]
      exact_mod_cast exact
    change ((Decimal.ofInt p).add? (.ofInt (-q))).bind decimalValue? = _
    rw [Decimal.add?_ofInt (by omega), total]
    exact value

end Mixed

end Arithmetic

/-- An integer and a double whose sum, difference or product is an integer of 64 bits. It is the
result, unless it is a product whose last place is reached by the digits that the double loses as a
decimal. A double beyond the decimals loses them all, so that zero times it is no integer; one that
denotes an integer or a decimal of few digits loses none. -/
theorem Expr.mixedArithmetic_iff {cap : Nat} {parameter : String} {element : Value}
    {left right : Expr} {a b : Number} (first : left.eval cap parameter element = .ok (.number a))
    (second : right.eval cap parameter element = .ok (.number b)) {n : Int64} {x : Double}
    (mixed : Arithmetic.Mixed n x a b) (finite : x.isFinite = true) {op : Arithmetic}
    (ring : op.IsRing) {k : Int64} (exact : op.exact a.toRat b.toRat = k.toInt) :
    let result := (Expr.binary (.arithmetic op) left right).eval cap parameter element
    (result = .ok (.integer k) ↔ ¬(op = .multiply ∧ x.LosesProduct n k)) ∧
      (op = .multiply → 2 ^ 96 < |x.toRat| →
        ∃ z : Double, z.isZero = true ∧ result = .ok (.float z)) ∧
      (|x.toRat| ≤ 2 ^ 96 → ((∃ m : Int, x.toRat = m) ∨ ∃ coefficient places : Nat,
        coefficient < 2 ^ 52 ∧ |x.toRat| = coefficient / 10 ^ places) → ¬x.LosesProduct n k) := by
  intro result
  have computed : result = op.onNumbers a b := eval_arithmetic first second op
  rw [computed]
  refine ⟨?_, ?_, ?_⟩
  · by_cases product : op = .multiply
    · rw [and_iff_right product]
      subst product
      exact Arithmetic.multiply_onNumbers_eq_iff mixed finite exact
    · have sum : op = .add ∨ op = .subtract := by
        rw [Arithmetic.IsRing] at ring
        tauto
      exact iff_of_true (Arithmetic.sum_onNumbers mixed finite sum exact) fun lost => product lost.1
  · rintro rfl beyond
    exact Arithmetic.multiply_onNumbers_large mixed finite exact beyond
  · intro atMost short lost
    obtain ⟨d, found, none⟩ : ∃ d, Decimal.rounded? x = some d ∧
        (n.toInt * (d.toRat - x.toRat) : ℚ) = 0 := by
      rcases atMost.lt_or_eq with small | first
      · obtain ⟨d, found, same⟩ := Decimal.exists_rounded?_exact finite small short
        exact ⟨d, found, by rw [same, sub_self, mul_zero]⟩
      · refine ⟨_, Decimal.rounded?_two_pow finite first, ?_⟩
        rw [Arithmetic.zero_of_large mixed ring exact first.ge, Int.cast_zero, zero_mul]
    have less := lost d found
    rw [none, abs_zero] at less
    exact absurd less (not_lt.2 (by positivity))

/-- The least power of two whose digits fit, times its inverse. -/
theorem Expr.mixedArithmetic_iff_twoPow :
    let x := Double.ofBinary false 1 (-22)
    let literal : Expr := .literal (.number (.integer 4194304))
    let reference : Expr := .reference "x"
    (literal.eval 10 "x" (.float x) = .ok (.integer 4194304) ∧
        reference.eval 10 "x" (.float x) = .ok (.float x) ∧
        Arithmetic.Mixed 4194304 x (.integer 4194304) (.float x) ∧ x.isFinite = true ∧
        Arithmetic.multiply.IsRing ∧
        Arithmetic.multiply.exact ((4194304 : Int64).toInt : ℚ) x.toRat = (1 : Int64).toInt) ∧
      (Expr.binary (.arithmetic .multiply) literal reference).eval 10 "x" (.float x) =
        .ok (.integer 1) := by
  intro x literal reference
  have value : x.toRat = 2384185791015625 / 10 ^ 22 := by decide +kernel
  have finite : x.isFinite = true := by decide +kernel
  have size : |x.toRat| = 2384185791015625 / 10 ^ 22 := by rw [value, abs_of_nonneg (by norm_num)]
  have whole : Arithmetic.multiply.exact ((4194304 : Int64).toInt : ℚ) x.toRat =
      (1 : Int64).toInt := by
    rw [Arithmetic.exact, value]
    norm_num [show (4194304 : Int64).toInt = 4194304 from rfl, show (1 : Int64).toInt = 1 from rfl]
  have ring : Arithmetic.multiply.IsRing := .inr (.inr rfl)
  have left : literal.eval 10 "x" (.float x) = .ok (.integer 4194304) := rfl
  have right : reference.eval 10 "x" (.float x) = .ok (.float x) := if_pos rfl
  have mixed : Arithmetic.Mixed 4194304 x (.integer 4194304) (.float x) := .inl ⟨rfl, rfl⟩
  obtain ⟨result, -, kept⟩ := Expr.mixedArithmetic_iff left right mixed finite ring whole
  refine ⟨⟨left, right, mixed, finite, ring, whole⟩, result.2 fun lost => ?_⟩
  refine kept ?_ (.inr ⟨2384185791015625, 22, by decide, ?_⟩) lost.2
  · rw [size]
    norm_num
  · rw [size]
    norm_num

/-- Half of a power of two is found where a little more is denoted, and zero as a double. -/
theorem Expr.mixedArithmetic_changed :
    let x := Double.ofDecimal false 5000000000000001 (-16)
    let y := Double.ofDecimal false 1 30
    let power : Expr := .literal (.number (.integer 9007199254740992))
    let zero : Expr := .literal (.number (.integer 0))
    (x.isFinite = true ∧
      Arithmetic.multiply.exact x.toRat ((9007199254740992 : Int64).toInt : ℚ) =
        (4503599627370497 : Int64).toInt ∧
      (Expr.binary (.arithmetic .multiply) (.reference "x") power).eval 10 "x" (.float x) =
        .ok (.integer 4503599627370496)) ∧
    (y.isFinite = true ∧
      Arithmetic.multiply.exact y.toRat ((0 : Int64).toInt : ℚ) = (0 : Int64).toInt ∧
      ∃ z : Double, z.isZero = true ∧
        (Expr.binary (.arithmetic .multiply) (.reference "x") zero).eval 10 "x" (.float y) =
          .ok (.float z)) := by
  intro x y power zero
  have element : ∀ z : Double, (Expr.reference "x").eval 10 "x" (.float z) = .ok (.float z) :=
    fun _ => if_pos rfl
  have value : x.toRat = 4503599627370497 / 9007199254740992 := by decide +kernel
  have found : Decimal.rounded? x = some ⟨5, 1⟩ := by decide +kernel
  have half : (Decimal.ofInt (9007199254740992 : Int64).toInt).mul? ⟨5, 1⟩ =
      some ⟨45035996273704960, 1⟩ := by decide +kernel
  have finite : y.isFinite = true := by decide +kernel
  have beyond : 2 ^ 96 < |y.toRat| := by decide +kernel
  refine ⟨⟨by decide +kernel, ?_, ?_⟩, finite, ?_, ?_⟩
  · rw [Arithmetic.exact, value]
    norm_num [show (9007199254740992 : Int64).toInt = 9007199254740992 from rfl,
      show (4503599627370497 : Int64).toInt = 4503599627370497 from rfl]
  · rw [eval_arithmetic (element x) rfl]
    refine (Arithmetic.multiply_onNumbers_iff (.inr ⟨rfl, rfl⟩) found).2 ⟨_, half, ?_⟩
    norm_num [Decimal.toRat, show (4503599627370496 : Int64).toInt = 4503599627370496 from rfl]
  · simp [Arithmetic.exact]
  · rw [eval_arithmetic (element y) rfl]
    refine Arithmetic.multiply_onNumbers_large (n := 0) (.inr ⟨rfl, rfl⟩) finite (k := 0) ?_ beyond
    simp [Arithmetic.exact, Number.toRat]

end Pipeline
