import Pipeline.Proofs.ExactComparison
import Pipeline.Run.Expr

/-! Where a division fails for its divisor. It fails for every divisor that denotes zero, and for no
other one, unless an integer is divided by a double that is so small that the decimal which stands
for it is zero. -/

set_option autoImplicit false

namespace Pipeline

namespace Double

theorem isZero_iff {x : Double} : x.isZero = true ↔ x.toRat = 0 := by
  rw [isZero, beq_iff_eq, toRat_eq_zero]

/-- Only the integer zero becomes a zero. -/
theorem isZero_ofInt {n : Int} : (ofInt n).isZero = true ↔ n = 0 := by
  rw [isZero, beq_iff_eq, ofInt, nearest, magnitude_ofParts _ (nearestMagnitude_lt _ _)]
  constructor
  · intro none
    by_contra some
    have some : n.natAbs ≠ 0 := Int.natAbs_ne_zero.2 some
    obtain ⟨-, high⟩ := binaryOrder_bounds some Nat.one_ne_zero
    rw [nearestMagnitude, if_neg some] at none
    have order : 0 ≤ binaryOrder n.natAbs 1 := by
      have least : (1 : ℚ) ≤ n.natAbs := by exact_mod_cast Nat.one_le_iff_ne_zero.2 some
      rw [Nat.cast_one, mul_one] at high
      have power : (2 : ℚ) ^ (0 : Int) < 2 ^ (binaryOrder n.natAbs 1 + 1) := by
        rw [zpow_zero]
        exact least.trans_lt high
      have exponents := (zpow_lt_zpow_iff_right₀ one_lt_two).1 power
      omega
    have unit : Nat.pow 2 52 = 4503599627370496 := rfl
    have limit : infinite = 9218868437227405312 := rfl
    simp only [unit, limit] at none
    omega
  · rintro rfl
    rfl

end Double

namespace Decimal

/-! ## Doubles whose decimal is zero -/

theorem isZero_iff_natAbs {d : Decimal} : d.isZero = true ↔ d.mantissa.natAbs = 0 := by
  rw [isZero, beq_iff_eq, Int.natAbs_eq_zero]

theorem shorten_eq_zero_iff (scale coefficient : Nat) :
    (shorten scale coefficient).1 = 0 ↔ coefficient = 0 := by
  fun_induction shorten scale coefficient with
  | case1 | case2 => rfl
  | case3 scale coefficient long ih =>
      have unit : Nat.pow 2 52 = 4503599627370496 := rfl
      rw [ih]
      split <;> omega

theorem stripZeros_eq_zero_iff (scale coefficient : Nat) :
    (stripZeros scale coefficient).1 = 0 ↔ coefficient = 0 := by
  fun_induction stripZeros scale coefficient with
  | case1 | case3 => rfl
  | case2 coefficient scale zero ih =>
      rw [ih]
      omega

theorem partsOfDouble?_eq_zero_iff {x : Double} (finite : x.isFinite = true) {parts : Nat × Nat}
    (found : partsOfDouble? x = some parts) : parts.1 = 0 ↔ x.IsNegligible := by
  have above := (alike_size finite found 0 (by decide)).1
  rw [Int.cast_zero] at above
  have size : 0 < size parts ↔ parts.1 ≠ 0 := by
    rw [size, ← Nat.pos_iff_ne_zero, div_pos_iff_of_pos_right (by positivity), Nat.cast_pos]
  have seen : 0 < x.seenSize ↔ ¬x.IsNegligible := by
    rw [Double.seenSize]
    split
    · rename_i negligible
      exact iff_of_false (lt_irrefl 0) fun visible => visible negligible
    · rename_i visible
      refine iff_of_true ?_ visible
      rw [Double.IsNegligible, not_lt] at visible
      linarith
  rw [← not_iff_not, ← ne_eq, ← size, above, seen]

/-- A double is taken for zero where it is computed with exactly if it is where it is compared. -/
theorem rounded?_isZero_iff {x : Double} {d : Decimal} (found : rounded? x = some d) :
    d.isZero = true ↔ x.IsNegligible := by
  unfold rounded? at found
  split at found
  · rename_i finite
    obtain ⟨⟨coefficient, scale⟩, parts, rfl⟩ := Option.map_eq_some_iff.1 found
    rw [isZero_iff_natAbs, natAbs_mantissa_ofParts, stripZeros_eq_zero_iff, shorten_eq_zero_iff]
    exact partsOfDouble?_eq_zero_iff finite parts
  · cases found

/-- Only doubles beyond the decimals are computed with as they are. -/
theorem lt_abs_toRat_of_rounded?_eq_none {x : Double} (finite : x.isFinite = true)
    (none : rounded? x = none) : 2 ^ 96 < |x.toRat| := by
  refine (le_exponent_of_retained?_eq_none finite ?_).2
  rw [rounded?, if_pos finite, Option.map_eq_none_iff] at none
  rw [retained?, if_pos finite, none, Option.map_none]

end Decimal

namespace Number

/-- An integer and a double that is lost as its divisor: it is not zero, but its decimal is. -/
def LosesDivisor (a b : Number) : Prop :=
  ∃ (n : Int64) (x : Double), a = .integer n ∧ b = .float x ∧ x.IsLost

theorem LosesDivisor.toRat_ne {a b : Number} (loses : a.LosesDivisor b) : b.toRat ≠ 0 := by
  obtain ⟨_, _, -, rfl, -, some⟩ := loses
  exact some

end Number

namespace Arithmetic

variable {op : Arithmetic} (division : op = .divide ∨ op = .modulo)
include division

theorem onIntegers_divisionByZero (a b : Int64) :
    op.onIntegers a b = .error .divisionByZero ↔ b.toInt = 0 := by
  unfold onIntegers
  dsimp only
  split
  · rename_i zero
    exact iff_of_true rfl zero.2
  · rename_i some
    refine iff_of_false ?_ fun zero => some ⟨division, zero⟩
    split <;> simp

theorem onDoubles_divisionByZero (x y : Double) :
    op.onDoubles x y = .error .divisionByZero ↔ y.isZero = true := by
  unfold onDoubles
  split
  · rename_i zero
    exact iff_of_true rfl zero.2
  · rename_i some
    refine iff_of_false ?_ fun zero => some ⟨division, zero⟩
    split <;> simp

theorem onDecimals_divisionByZero (a b : Decimal) :
    op.onDecimals a b = .error .divisionByZero ↔ b.isZero = true := by
  unfold onDecimals
  split
  · rename_i zero
    exact iff_of_true rfl zero.2
  · rename_i some
    refine iff_of_false ?_ fun zero => some ⟨division, zero⟩
    split <;> simp

/-- The divisor is looked at as it is, except where it is a double behind an integer. -/
theorem onNumbers_divisionByZero (a : Number) {b : Number} (finite : b.IsFinite) :
    op.onNumbers a b = .error .divisionByZero ↔ b.toRat = 0 ∨ a.LosesDivisor b := by
  cases b with
  | integer n =>
      have kept : ¬a.LosesDivisor (.integer n) := by simp [Number.LosesDivisor]
      have zero : (Number.integer n).toRat = 0 ↔ n.toInt = 0 := Int.cast_eq_zero
      rw [or_iff_left kept, zero]
      cases a with
      | integer m => exact onIntegers_divisionByZero division m n
      | float x =>
          rw [onNumbers]
          cases Decimal.rounded? x with
          | some d =>
              refine (onDecimals_divisionByZero division d _).trans ?_
              rw [Decimal.isZero, beq_iff_eq, Decimal.ofInt]
          | none => exact (onDoubles_divisionByZero division x _).trans Double.isZero_ofInt
  | float y =>
      have zero : (Number.float y).toRat = 0 ↔ y.isZero = true := Double.isZero_iff.symm
      rw [zero]
      cases a with
      | float x =>
          have kept : ¬(Number.float x).LosesDivisor (.float y) := by simp [Number.LosesDivisor]
          exact (onDoubles_divisionByZero division x y).trans (or_iff_left kept).symm
      | integer m =>
          have loses : (Number.integer m).LosesDivisor (.float y) ↔ y.IsLost := by
            simp [Number.LosesDivisor]
          rw [loses, onNumbers]
          cases found : Decimal.rounded? y with
          | some d =>
              refine (onDecimals_divisionByZero division _ d).trans ?_
              rw [Decimal.rounded?_isZero_iff found, Double.IsLost, Double.isZero_iff]
              refine ⟨fun negligible => ?_, ?_⟩
              · by_cases none : y.toRat = 0
                · exact .inl none
                · exact .inr ⟨negligible, none⟩
              · rintro (none | lost)
                · rw [Double.IsNegligible, none, abs_zero]
                  norm_num
                · exact lost.1
          | none =>
              have large := Decimal.lt_abs_toRat_of_rounded?_eq_none finite found
              have kept : ¬y.IsLost := fun lost => by
                have small := lost.1
                rw [Double.IsNegligible] at small
                linarith
              exact (onDoubles_divisionByZero division _ y).trans (or_iff_left kept).symm

end Arithmetic

theorem Expr.eval_arithmetic {cap : Nat} {parameter : String} {element : Value}
    {left right : Expr} {a b : Number} (first : left.eval cap parameter element = .ok (.number a))
    (second : right.eval cap parameter element = .ok (.number b)) (op : Arithmetic) :
    (Expr.binary (.arithmetic op) left right).eval cap parameter element = op.onNumbers a b := by
  rw [Expr.eval, first, second]
  rfl

/-- A division or remainder fails for its divisor exactly if this is zero, unless it is a double
that is lost behind an integer, for which it fails as well. -/
theorem Expr.divisionByZero_iff {cap : Nat} {parameter : String} {element : Value}
    {left right : Expr} {a b : Number} (first : left.eval cap parameter element = .ok (.number a))
    (second : right.eval cap parameter element = .ok (.number b)) (finite : b.IsFinite)
    {op : Arithmetic} (division : op = .divide ∨ op = .modulo) :
    (((Expr.binary (.arithmetic op) left right).eval cap parameter element =
        .error .divisionByZero ↔ b.toRat = 0) ↔ ¬a.LosesDivisor b) ∧
      (a.LosesDivisor b → (Expr.binary (.arithmetic op) left right).eval cap parameter element =
        .error .divisionByZero) := by
  have loses : a.LosesDivisor b → b.toRat ≠ 0 := Number.LosesDivisor.toRat_ne
  rw [eval_arithmetic first second, op.onNumbers_divisionByZero division a finite]
  tauto

/-- The least double is no zero for another double. -/
theorem Expr.divisionByZero_iff_least :
    let half : Number := .float (.ofDecimal false 5 (-1))
    let least : Number := .float (.ofDecimal false 5 (-324))
    let reference : Expr := .reference "x"
    let divisor : Expr := .literal (.number least)
    reference.eval 10 "x" (.number half) = .ok (.number half) ∧
      divisor.eval 10 "x" (.number half) = .ok (.number least) ∧ least.IsFinite ∧
      ¬half.LosesDivisor least ∧ least.toRat ≠ 0 ∧
      (Expr.binary (.arithmetic .modulo) reference divisor).eval 10 "x" (.number half) ≠
        .error .divisionByZero := by
  intro half least reference divisor
  have left : reference.eval 10 "x" (.number half) = .ok (.number half) := if_pos rfl
  have right : divisor.eval 10 "x" (.number half) = .ok (.number least) := rfl
  have finite : least.IsFinite := by
    change Double.isFinite _ = true
    decide +kernel
  have kept : ¬half.LosesDivisor least := by simp [half, Number.LosesDivisor]
  have some : least.toRat ≠ 0 := by
    refine Double.isZero_iff.not.1 ?_
    decide +kernel
  obtain ⟨exact, -⟩ := Expr.divisionByZero_iff left right finite (.inr rfl)
  exact ⟨left, right, finite, kept, some, (exact.2 kept).not.2 some⟩

/-- An integer divided by a tiny double fails as if it were divided by zero. -/
theorem Expr.divisionByZero_tiny :
    let tiny : Number := .float (.ofDecimal false 1 (-40))
    let quotient : Expr :=
      .binary (.arithmetic .divide) (.literal (.number (.integer 1))) (.reference "x")
    tiny.IsFinite ∧ tiny.toRat ≠ 0 ∧
      quotient.eval 10 "x" (.number tiny) = .error .divisionByZero := by
  intro tiny quotient
  have finite : tiny.IsFinite := by
    change Double.isFinite _ = true
    decide +kernel
  have some : tiny.toRat ≠ 0 := by
    refine Double.isZero_iff.not.1 ?_
    decide +kernel
  have negligible : (Double.ofDecimal false 1 (-40)).IsNegligible := by decide +kernel
  have loses : (Number.integer 1).LosesDivisor tiny := ⟨1, _, rfl, rfl, negligible, some⟩
  have divisor : (Expr.reference "x").eval 10 "x" (.number tiny) = .ok (.number tiny) :=
    if_pos rfl
  have computed : quotient.eval 10 "x" (.number tiny) =
      Arithmetic.divide.onNumbers (.integer 1) tiny := Expr.eval_arithmetic rfl divisor .divide
  refine ⟨finite, some, computed.trans ?_⟩
  exact (Arithmetic.onNumbers_divisionByZero (.inl rfl) _ finite).2 (.inr loses)

end Pipeline
