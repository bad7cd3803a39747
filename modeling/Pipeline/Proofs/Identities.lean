import Pipeline.Proofs.Accuracy
import Pipeline.Proofs.BoundedIntegers
import Pipeline.Proofs.ZeroDivisors
import Pipeline.Run.Flow

/-! Arithmetic of a double with an integer that should leave it as it is. It results in one number
near the double however it is written, and this is the double exactly if the decimal that stands for
the double leads back to it. -/

set_option autoImplicit false

namespace Pipeline

namespace Arithmetic

/-- Sums and a difference with zero, products and a quotient with one. -/
def identities {α β : Type} (apply : Arithmetic → α → α → β) (zero one a : α) : List β :=
  [apply .add a zero, apply .add zero a, apply .subtract a zero, apply .multiply a one,
    apply .multiply one a, apply .divide a one]

theorem forall_identities {α β : Type} {apply : Arithmetic → α → α → β} {zero one a : α}
    {holds : β → Prop} : (∀ result ∈ identities apply zero one a, holds result) ↔
      holds (apply .add a zero) ∧ holds (apply .add zero a) ∧ holds (apply .subtract a zero) ∧
        holds (apply .multiply a one) ∧ holds (apply .multiply one a) ∧
        holds (apply .divide a one) := by
  simp [identities]

end Arithmetic

namespace Decimal

/-! ## Decimals -/

theorem fit?_of_lt (negative : Bool) {coefficient : Nat} (scale : Nat)
    (fits : coefficient < coefficientBound) :
    fit? negative coefficient (Nat.pow 10 scale) scale =
      some (ofParts negative (coefficient, scale)) := by
  cases scale with
  | zero =>
      have whole : roundHalfEven coefficient (Nat.pow 10 0) = coefficient := by
        simpa using roundHalfEven_mul coefficient Nat.one_pos
      rw [fit?, whole]
      exact if_pos fits
  | succ scale =>
      have positive : 0 < Nat.pow 10 (scale + 1) := Nat.pow_pos (by decide)
      rw [fit?, roundHalfEven_mul _ positive]
      exact if_pos fits

theorem ofParts_self (d : Decimal) :
    ofParts (d.mantissa < 0) (d.mantissa.natAbs, d.scale) = d := by
  obtain ⟨mantissa, scale⟩ := d
  rw [ofParts]
  congr 1
  by_cases negative : mantissa < 0
  · simp [negative, abs_of_neg negative]
  · simp [negative, abs_of_nonneg (not_lt.1 negative)]

theorem integer?_eq_some {d : Decimal} {n : Int} (found : d.integer? = some n) : d.toRat = n := by
  unfold integer? at found
  dsimp only at found
  split at found
  · rename_i whole
    obtain rfl := Option.some.inj found
    have unit : ((10 : ℚ) ^ d.scale) ≠ 0 := by positivity
    rw [toRat, div_eq_iff unit]
    have product := Int.tdiv_mul_cancel (Int.dvd_of_tmod_eq_zero whole)
    exact_mod_cast product.symm
  · cases found

theorem stripZeros_ends (scale coefficient : Nat) :
    (stripZeros scale coefficient).2 = 0 ∨ (stripZeros scale coefficient).1 % 10 ≠ 0 := by
  fun_induction stripZeros scale coefficient with
  | case1 => exact .inl rfl
  | case2 _ _ _ ih => exact ih
  | case3 _ _ ends => exact .inr ends

/-- What is integral behind a double has no places. -/
theorem eq_ofInt_of_rounded? {x : Double} {d : Decimal} (found : rounded? x = some d) {n : Int}
    (integer : d.integer? = some n) : d = ofInt n := by
  have value := integer?_eq_some integer
  have ends : d.scale = 0 ∨ d.mantissa.natAbs % 10 ≠ 0 := by
    unfold rounded? at found
    split at found
    · obtain ⟨⟨coefficient, scale⟩, -, rfl⟩ := Option.map_eq_some_iff.1 found
      rw [natAbs_mantissa_ofParts]
      exact stripZeros_ends _ _
    · cases found
  have none : d.scale = 0 := by
    rcases ends with none | last
    · exact none
    · by_contra places
      obtain ⟨scale, more⟩ := Nat.exists_eq_succ_of_ne_zero places
      have product : d.mantissa = n * (10 ^ scale * 10) := by
        rw [toRat, more, div_eq_iff (by positivity), pow_succ] at value
        exact_mod_cast value
      rw [← mul_assoc] at product
      omega
  rw [toRat, none, pow_zero, div_one] at value
  obtain ⟨mantissa, scale⟩ := d
  have same : mantissa = n := by exact_mod_cast value
  rw [ofInt, ← same, ← none]

theorem decimalValue?_of_isZero {d : Decimal} (zero : d.isZero = true) :
    Arithmetic.decimalValue? d = some (.integer 0) := by
  have none : d.mantissa = 0 := beq_iff_eq.1 zero
  have integer : d.integer? = some 0 := by
    rw [integer?, none, Int.zero_tmod, Int.zero_tdiv]
    rfl
  rw [Arithmetic.decimalValue?, integer]
  rfl

theorem sub?_zero (d : Decimal) : d.sub? (ofInt 0) = d.add? (ofInt 0) :=
  rfl

theorem quotientScale_one (steps num scale : Nat) : quotientScale 1 steps num scale = scale := by
  cases steps with
  | zero => rfl
  | succ steps => simp [quotientScale, Nat.mod_one]

section Fitting

variable {d : Decimal} (fits : d.Fits)
include fits

theorem fit?_self : fit? (d.mantissa < 0) d.mantissa.natAbs (Nat.pow 10 d.scale)
    (min d.scale maxScale) = some d := by
  rw [Nat.min_eq_left fits.scale, fit?_of_lt _ _ fits.coefficient, ofParts_self]

theorem mul?_one (some : d.isZero = false) : d.mul? (ofInt 1) = Option.some d := by
  have one : (ofInt 1).isZero = false := rfl
  rw [mul?, some, one]
  simpa [ofInt] using fit?_self fits

theorem one_mul? (some : d.isZero = false) : (ofInt 1).mul? d = Option.some d := by
  have one : (ofInt 1).isZero = false := rfl
  rw [mul?, some, one]
  simpa [ofInt] using fit?_self fits

theorem div?_one (some : d.isZero = false) : d.div? (ofInt 1) = Option.some d := by
  have whole := fit?_of_lt (d.mantissa < 0) d.scale fits.coefficient
  rw [ofParts_self] at whole
  simpa [div?, some, ofInt, quotientScale_one, Nat.mod_one] using whole

/-- Decimals are neither rounded nor cut by what should leave them as they are. -/
theorem decimal?_identities {value : Value} (found : Arithmetic.decimalValue? d = some value) :
    ∀ result ∈ Arithmetic.identities Arithmetic.decimal? (ofInt 0) (ofInt 1) d,
      result.bind Arithmetic.decimalValue? = some value := by
  have zero : (ofInt 0).isZero = true := rfl
  rw [Arithmetic.forall_identities]
  cases nonzero : d.isZero with
  | true =>
      rw [decimalValue?_of_isZero nonzero] at found
      obtain rfl := Option.some.inj found
      have none : Arithmetic.decimalValue? ⟨0, 0⟩ = some (.integer 0) := decimalValue?_of_isZero rfl
      simp [Arithmetic.decimal?, sub?_zero, add?, mul?, div?, nonzero, zero, none,
        decimalValue?_of_isZero]
  | false =>
      simp [Arithmetic.decimal?, sub?_zero, add?, mul?_one fits nonzero, one_mul? fits nonzero,
        div?_one fits nonzero, nonzero, zero, found]

end Fitting

end Decimal

namespace Arithmetic

section Divisors

variable {op : Arithmetic}

theorem onDecimals_of_bind {a b : Decimal} {value : Value}
    (divides : op = .divide ∨ op = .modulo → b.isZero = false)
    (computed : (op.decimal? a b).bind decimalValue? = some value) :
    op.onDecimals a b = .ok value := by
  have safe : ¬((op = .divide ∨ op = .modulo) ∧ b.isZero = true) := fun ⟨division, zero⟩ =>
    absurd (zero.symm.trans (divides division)) (by decide)
  rw [onDecimals, if_neg safe, computed]

theorem onDoubles_of_some {x y z : Double}
    (divides : op = .divide ∨ op = .modulo → y.isZero = false)
    (computed : op.double? x y = some z) : op.onDoubles x y = .ok (.float z) := by
  have safe : ¬((op = .divide ∨ op = .modulo) ∧ y.isZero = true) := fun ⟨division, zero⟩ =>
    absurd (zero.symm.trans (divides division)) (by decide)
  rw [onDoubles, if_neg safe, computed]

end Divisors

theorem onDecimals_identities {d : Decimal} (fits : d.Fits) {value : Value}
    (found : decimalValue? d = some value) :
    ∀ result ∈ identities onDecimals (Decimal.ofInt 0) (Decimal.ofInt 1) d,
      result = .ok value := by
  have computed := Decimal.decimal?_identities fits found
  rw [forall_identities] at computed ⊢
  obtain ⟨right, left, difference, times, timesLeft, quotient⟩ := computed
  refine ⟨onDecimals_of_bind ?_ right, onDecimals_of_bind ?_ left,
    onDecimals_of_bind ?_ difference, onDecimals_of_bind ?_ times,
    onDecimals_of_bind ?_ timesLeft, onDecimals_of_bind (fun _ => rfl) quotient⟩
  all_goals simp

/-- A double other than the zeros is not rounded by what should leave it as it is. -/
theorem onDoubles_identities {x : Double} (finite : x.isFinite = true) (some : x.toRat ≠ 0) :
    ∀ result ∈ identities onDoubles (Double.ofInt 0) (Double.ofInt 1) x,
      result = .ok (.float x) := by
  have itself : ∀ {q : ℚ} {result : Option Double}, Double.RoundsTo q result → q = x.toRat →
      result = Option.some x := by
    rintro q result rounds rfl
    obtain ⟨y, found, finiteY, same⟩ := rounds.exact finite rfl
    rw [found, Double.eq_of_toRat_eq finiteY finite same some]
  obtain ⟨finiteZero, zero⟩ := @Double.ofInt_exact 0 (by decide)
  obtain ⟨finiteOne, one⟩ := @Double.ofInt_exact 1 (by decide)
  rw [Int.cast_zero] at zero
  rw [Int.cast_one] at one
  have nonzero : (Double.ofInt 1).isZero = false := by decide
  rw [forall_identities]
  refine ⟨onDoubles_of_some ?_ (itself (Double.add?_rounds finite finiteZero) ?_),
    onDoubles_of_some ?_ (itself (Double.add?_rounds finiteZero finite) ?_),
    onDoubles_of_some ?_ (itself (Double.sub?_rounds finite finiteZero) ?_),
    onDoubles_of_some ?_ (itself (Double.mul?_rounds finite finiteOne) ?_),
    onDoubles_of_some ?_ (itself (Double.mul?_rounds finiteOne finite) ?_),
    onDoubles_of_some (fun _ => nonzero)
      (itself (Double.div?_rounds finite finiteOne (by rw [one]; exact one_ne_zero)) ?_)⟩
  all_goals simp [zero, one]

/-- The number that stands for a decimal is near it. It denotes what the double behind the decimal
does exactly if the double in front of it does, whichever of the two kinds the number is of. -/
theorem decimalValue?_iff {x : Double} (finite : x.isFinite = true) {d : Decimal}
    (found : Decimal.rounded? x = some d) : ∃ n : Number, decimalValue? d = some (.number n) ∧
      n.IsFinite ∧ Near 78 n.toRat d.toRat ∧
      (n.toRat = x.toRat ↔ ∃ y, d.toDouble? = some y ∧ y.toRat = x.toRat) := by
  have fits := Decimal.rounded?_fits found
  unfold decimalValue?
  split
  · rename_i k bounded
    obtain ⟨m, integer, bounded⟩ := Option.bind_eq_some_iff.1 bounded
    have value := Decimal.integer?_eq_some integer
    have same : (Number.integer k).toRat = m := by
      rw [Number.toRat, boundedInteger?_eq_some_iff.1 bounded]
    have small : m.natAbs ≤ 2 ^ 63 :=
      boundedInteger?_eq_some_iff.1 bounded ▸ Number.natAbs_toInt_le k
    refine ⟨.integer k, rfl, trivial, (Near.of_eq (same.trans value.symm)).mono (by decide), ?_⟩
    rw [same]
    obtain rfl := Decimal.eq_ofInt_of_rounded? found integer
    constructor
    · intro same
      exact ⟨.ofInt m, rfl, ((Double.ofInt_rounds m).exact finite same.symm).2.trans same⟩
    · rintro ⟨z, back, same⟩
      obtain rfl := Option.some.inj back
      have finiteZ : (Double.ofInt m).isFinite = true :=
        Decimal.isFinite_of_toDouble? (fits.coefficient.trans_le (by decide)) back
      obtain ⟨k, whole⟩ := Double.exists_toRat_ofInt finiteZ
      have other : |x.toRat| ≠ 2 ^ 96 := fun first => by
        have large := Option.some.inj (found.symm.trans (Decimal.rounded?_two_pow finite first))
        have size := congrArg (fun d => d.mantissa.natAbs) large
        rw [Decimal.natAbs_mantissa_ofParts] at size
        exact absurd (size ▸ small) (by decide)
      have equal := Decimal.rounded?_of_integer finite (same.symm.trans whole) other found
      rw [Decimal.ofInt, Decimal.ofInt, Decimal.mk.injEq] at equal
      rw [equal.1, ← whole]
      exact same
  · obtain ⟨y, back, near⟩ := Decimal.toDouble?_near fits
    refine ⟨.float y, by rw [back]; rfl, ?_, near, ?_⟩
    · exact Decimal.isFinite_of_toDouble? (fits.coefficient.trans_le (by decide)) back
    · rw [back]
      simp [Number.toRat]

/-- Where two roundings follow each other, the places that the first one loses stay lost. -/
theorem abs_sub_le_of_near {p q r : ℚ} (rounded : |q - r| ≤ |r| / 2 ^ 49 + 2 / 10 ^ 28)
    (near : Near 78 p q) : |p - r| ≤ |r| / 2 ^ 46 + 3 / 10 ^ 28 := by
  have size := abs_sub_abs_le_abs_sub q r
  have sum := abs_sub_le p q r
  rw [Near] at near
  push_cast at near
  linarith [abs_nonneg r]

theorem onNumbers_identities_of_some {x : Double} {d : Decimal} {value : Value}
    (found : Decimal.rounded? x = some d) (stands : decimalValue? d = some value) :
    ∀ result ∈ identities onNumbers (.integer 0) (.integer 1) (.float x),
      result = .ok value := by
  have results := onDecimals_identities (Decimal.rounded?_fits found) stands
  rw [forall_identities] at results ⊢
  simpa only [onNumbers, found, Int64.toInt_zero, Int64.toInt_one] using results

/-- What should leave a double as it is has one result near it, and this is the double exactly if it
is kept. A double that is lost becomes zero. -/
theorem onNumbers_identities {x : Double} (finite : x.isFinite = true) :
    ∃ n : Number, n.IsFinite ∧
      (∀ result ∈ identities onNumbers (.integer 0) (.integer 1) (.float x),
        result = .ok (.number n)) ∧
      |n.toRat - x.toRat| ≤ |x.toRat| / 2 ^ 46 + 3 / 10 ^ 28 ∧
      (n.toRat = x.toRat ↔ x.IsKept) ∧ (x.IsLost → n = .integer 0) := by
  cases found : Decimal.rounded? x with
  | some d =>
      obtain ⟨n, value, finiteN, near, same⟩ := decimalValue?_iff finite found
      refine ⟨n, finiteN, onNumbers_identities_of_some found value,
        abs_sub_le_of_near (Decimal.rounded?_near found) near, same.trans ?_, fun lost => ?_⟩
      · simp [Double.IsKept, found]
      · have zero := (Decimal.rounded?_isZero_iff found).2 lost.1
        rw [Decimal.decimalValue?_of_isZero zero] at value
        cases value
        rfl
  | none =>
      have large := Decimal.lt_abs_toRat_of_rounded?_eq_none finite found
      have nonzero : x.toRat ≠ 0 := fun zero => by
        rw [zero, abs_zero] at large
        linarith
      have results := onDoubles_identities finite nonzero
      refine ⟨.float x, finite, ?_, ?_, ?_, fun lost => ?_⟩
      · rw [forall_identities] at results ⊢
        simpa only [onNumbers, found, Int64.toInt_zero, Int64.toInt_one] using results
      · rw [Number.toRat, sub_self, abs_zero]
        positivity
      · simp [Double.IsKept, found, Number.toRat]
      · have small := lost.1
        rw [Double.IsNegligible] at small
        linarith

end Arithmetic

/-- The sum of one number starts at the integer zero. -/
theorem Chain.run_sum_singleton {m n : Number}
    (added : Arithmetic.add.onNumbers (.integer 0) m = .ok (.number n)) (cap : Nat) :
    Chain.run cap .never [.sum .identity] [.number m] = .ok (.number n) := by
  have added : Arithmetic.add.apply (.integer 0) (.number m) = .ok (.number n) := added
  have total : Selector.identity.addTo cap (.integer 0) (.number m) = .ok (.number n) := by
    simp [Selector.addTo, Selector.select, bind, Except.bind, Value.isNumber, added]
  have summed : (Sequence.ofList [.number m]).sum cap .never .identity = .ok (.number n) := by
    rw [Sequence.sum, Sequence.consume, Sequence.ofList, Sequence.drain, total]
    rfl
  rw [Chain.run, Chain.through, Flow.apply, Stage.onSequence, summed]
  rfl

namespace Expr

/-- Expressions that should have the value of one of their operands. -/
def identities (expr : Expr) : List Expr :=
  Arithmetic.identities (fun op left right => .binary (.arithmetic op) left right)
    (.literal (.number (.integer 0))) (.literal (.number (.integer 1))) expr

theorem eval_identities {cap : Nat} {parameter : String} {element : Value} {expr : Expr}
    {m n : Number} (value : expr.eval cap parameter element = .ok (.number m))
    (results : ∀ result ∈ Arithmetic.identities Arithmetic.onNumbers (.integer 0) (.integer 1) m,
      result = .ok (.number n)) :
    ∀ identity ∈ expr.identities, identity.eval cap parameter element = .ok (.number n) := by
  have known : ∀ k : Int64, (literal (.number (.integer k))).eval cap parameter element =
      .ok (.integer k) := fun _ => rfl
  rw [identities, Arithmetic.forall_identities]
  rw [Arithmetic.forall_identities] at results
  simpa only [eval_arithmetic value (known _), eval_arithmetic (known _) value] using results

/-- Sums, products, a difference and a quotient of a double that should be the double, and the sum
of it alone, are all one number near the double, which denotes what the double does exactly if this
is kept. All doubles are that denote an integer or a decimal of few digits. One that is lost becomes
zero. -/
theorem identities_iff {x : Double} (finite : x.isFinite = true) : ∃ n : Number, n.IsFinite ∧
    (∀ {cap : Nat} {parameter : String} {element : Value} {expr : Expr},
      expr.eval cap parameter element = .ok (.float x) → ∀ identity ∈ expr.identities,
        identity.eval cap parameter element = .ok (.number n)) ∧
    (∀ cap : Nat, Chain.run cap .never [.sum .identity] [.float x] = .ok (.number n)) ∧
    |n.toRat - x.toRat| ≤ |x.toRat| / 2 ^ 46 + 3 / 10 ^ 28 ∧
    (n.toRat = x.toRat ↔ x.IsKept) ∧
    ((∃ k : Int, x.toRat = k) ∨ (∃ coefficient places : Nat, coefficient < 2 ^ 52 ∧
      |x.toRat| = coefficient / 10 ^ places) → x.IsKept) ∧
    (x.IsLost → n = .integer 0) := by
  obtain ⟨n, finiteN, results, near, same, lost⟩ := Arithmetic.onNumbers_identities finite
  have added := (Arithmetic.forall_identities.1 results).2.1
  refine ⟨n, finiteN, fun value => eval_identities value results,
    Chain.run_sum_singleton added, near, same, ?_, lost⟩
  rintro (⟨k, integer⟩ | ⟨coefficient, places, short, value⟩)
  · exact Double.isKept_of_integer finite integer
  · exact Double.isKept_of_short finite value short

/-- The least power of two whose digits fit: all 22 places of it are kept. -/
theorem identities_iff_twoPow :
    let x := Double.ofBinary false 1 (-22)
    x.isFinite = true ∧ |x.toRat| = 2384185791015625 / 10 ^ 22 ∧
      ∃ n : Number, n.toRat = x.toRat ∧
        (∀ identity ∈ (reference "x").identities,
          identity.eval 10 "x" (.float x) = .ok (.number n)) ∧
        Chain.run 10 .never [.sum .identity] [.float x] = .ok (.number n) := by
  intro x
  have finite : x.isFinite = true := by decide +kernel
  have digits : |x.toRat| = 2384185791015625 / 10 ^ 22 := by decide +kernel
  have value : (reference "x").eval 10 "x" (.float x) = .ok (.float x) := if_pos rfl
  obtain ⟨n, -, results, summed, -, same, kept, -⟩ := identities_iff finite
  refine ⟨finite, digits, n, same.2 (kept (.inr ⟨2384185791015625, 22, ?_, ?_⟩)),
    results value, summed 10⟩
  · decide
  · exact digits.trans (by norm_num)

/-- Nothing is added to a double of seven digits, and the result is another double. -/
theorem identities_changed :
    let x := Double.ofDecimal false 4096029 (-3)
    let y := Double.ofDecimal false 4096029000000002 (-12)
    x.isFinite = true ∧ y.toRat ≠ x.toRat ∧
      (∀ identity ∈ (reference "x").identities,
        identity.eval 10 "x" (.float x) = .ok (.float y)) ∧
      Chain.run 10 .never [.sum .identity] [.float x] = .ok (.float y) := by
  intro x y
  have found : Decimal.rounded? x = some ⟨4096029000000001, 12⟩ := by decide +kernel
  have value : Arithmetic.decimalValue? ⟨4096029000000001, 12⟩ = some (.float y) := by
    have fraction : (Decimal.mk 4096029000000001 12).integer? = none := by decide +kernel
    have back : (Decimal.mk 4096029000000001 12).toDouble? = some y := by decide +kernel
    rw [Arithmetic.decimalValue?, fraction, back]
    rfl
  have results := Arithmetic.onNumbers_identities_of_some found value
  refine ⟨by decide +kernel, by decide +kernel, eval_identities (if_pos rfl) results, ?_⟩
  exact Chain.run_sum_singleton (Arithmetic.forall_identities.1 results).2.1 10

end Expr

end Pipeline
