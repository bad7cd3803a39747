import Mathlib.Algebra.Order.Floor.Ring
import Mathlib.Data.Rat.Floor
import Pipeline.Proofs.BoundedIntegers
import Pipeline.Proofs.ZeroDivisors

/-! Arithmetic of integers. The result is the exact one, cut toward zero where a division leaves a
fraction, if this is an integer of 64 bits, and an overflow if it is not; only the remainder of the
least integer by minus one overflows although it is zero. -/

set_option autoImplicit false

namespace Pipeline

/-! ## Cutting toward zero -/

/-- A rational without its fraction. -/
def truncate (q : ℚ) : Int :=
  if 0 ≤ q then ⌊q⌋ else ⌈q⌉

theorem truncate_neg (q : ℚ) : truncate (-q) = -truncate q := by
  unfold truncate
  rcases lt_trichotomy q 0 with negative | rfl | positive
  · rw [if_pos (by linarith), if_neg (not_le.2 negative), Int.floor_neg]
  · simp
  · rw [if_neg (by linarith), if_pos positive.le, Int.ceil_neg]

theorem truncate_intCast (n : Int) : truncate n = n := by
  rw [truncate, Int.floor_intCast, Int.ceil_intCast, ite_self]

theorem truncate_div (a b : Int) : truncate (a / b) = a.tdiv b := by
  have naturals : ∀ m n : Nat, truncate (m / n) = (m : Int).tdiv n := by
    intro m n
    rw [truncate, if_pos (by positivity)]
    exact Rat.floor_natCast_div_natCast m n
  obtain ⟨m, rfl | rfl⟩ := a.eq_nat_or_neg <;> obtain ⟨n, rfl | rfl⟩ := b.eq_nat_or_neg
  · exact naturals m n
  · push_cast
    rw [div_neg, truncate_neg, naturals, Int.tdiv_neg]
  · push_cast
    rw [neg_div, truncate_neg, naturals, Int.neg_tdiv]
  · push_cast
    rw [neg_div_neg_eq, naturals, Int.neg_tdiv, Int.tdiv_neg, neg_neg]

namespace Arithmetic

/-! ## Exact results -/

/-- The exact result of an operator. What is left behind a quotient is what the quotient without its
fraction leaves. -/
def exact (op : Arithmetic) (p q : ℚ) : ℚ :=
  match op with
  | add => p + q
  | subtract => p - q
  | multiply => p * q
  | divide => p / q
  | modulo => p - q * truncate (p / q)

/-- The remainder whose quotient is the one that does not fit. -/
def IsLeastRemainder (op : Arithmetic) (a b : Int64) : Prop :=
  op = .modulo ∧ a.toInt = integerMin ∧ b.toInt = -1

/-- The exact result of an operator on integers, as integers compute it. -/
def cut (op : Arithmetic) (a b : Int) : Int :=
  match op with
  | add => a + b
  | subtract => a - b
  | multiply => a * b
  | divide => a.tdiv b
  | modulo => a.tmod b

theorem truncate_exact (op : Arithmetic) (a b : Int) : truncate (op.exact a b) = op.cut a b := by
  cases op with
  | add | subtract | multiply =>
      rw [exact]
      exact_mod_cast truncate_intCast _
  | divide => exact truncate_div a b
  | modulo =>
      rw [exact, truncate_div, cut, Int.tmod_def]
      exact_mod_cast truncate_intCast _

/-- Remainders are less than the divisor and of the sign of the dividend. -/
theorem tmod_bounds (a : Int) {b : Int} (some : b ≠ 0) :
    |a.tmod b| < |b| ∧ 0 ≤ a * a.tmod b := by
  constructor
  · rw [Int.abs_eq_natAbs, Int.abs_eq_natAbs, Int.natAbs_tmod]
    exact_mod_cast Nat.mod_lt _ (Int.natAbs_pos.2 some)
  · rcases le_total 0 a with up | down
    · exact mul_nonneg up (Int.tmod_nonneg b up)
    · have sign := Int.tmod_nonneg b (neg_nonneg.2 down)
      rw [Int.neg_tmod] at sign
      exact mul_nonneg_of_nonpos_of_nonpos down (neg_nonneg.1 sign)

section Divisor

variable {op : Arithmetic} {a b : Int64} (divides : op = .divide ∨ op = .modulo → b.toInt ≠ 0)
include divides

/-- What is checked is the result, and behind a remainder its quotient. -/
theorem onIntegers_eq : op.onIntegers a b =
    match boundedInteger? (op.cut a.toInt b.toInt), boundedInteger?
      (if op = .modulo then a.toInt.tdiv b.toInt else op.cut a.toInt b.toInt) with
    | some n, some _ => .ok (.integer n)
    | _, _ =>
      .error (.overflow (.operation (.number (.integer a)) op (.number (.integer b)))) := by
  have safe : ¬((op = .divide ∨ op = .modulo) ∧ b.toInt = 0) := fun ⟨division, zero⟩ =>
    divides division zero
  unfold onIntegers
  exact if_neg safe

theorem isBounded_checked_iff (bounded : IsBounded (op.cut a.toInt b.toInt)) :
    IsBounded (if op = .modulo then a.toInt.tdiv b.toInt else op.cut a.toInt b.toInt) ↔
      ¬op.IsLeastRemainder a b := by
  by_cases remainder : op = .modulo
  · rw [if_pos remainder, isBounded_tdiv_iff (divides (.inr remainder)), IsLeastRemainder,
      and_iff_right remainder]
  · rw [if_neg remainder]
    exact iff_of_true bounded fun least => remainder least.1

theorem onIntegers_eq_ok (bounded : IsBounded (op.cut a.toInt b.toInt))
    (usual : ¬op.IsLeastRemainder a b) :
    ∃ n : Int64, n.toInt = op.cut a.toInt b.toInt ∧ op.onIntegers a b = .ok (.integer n) := by
  obtain ⟨n, result⟩ := Option.ne_none_iff_exists'.1
    (boundedInteger?_eq_none_iff.not_left.2 bounded)
  obtain ⟨m, checked⟩ := Option.ne_none_iff_exists'.1
    (boundedInteger?_eq_none_iff.not_left.2 ((isBounded_checked_iff divides bounded).2 usual))
  refine ⟨n, boundedInteger?_eq_some_iff.1 result, ?_⟩
  rw [onIntegers_eq divides, result, checked]

theorem onIntegers_eq_overflow
    (beyond : ¬IsBounded (op.cut a.toInt b.toInt) ∨ op.IsLeastRemainder a b) :
    op.onIntegers a b =
      .error (.overflow (.operation (.number (.integer a)) op (.number (.integer b)))) := by
  rw [onIntegers_eq divides]
  split
  · rename_i n m result checked
    have bounded : IsBounded (op.cut a.toInt b.toInt) :=
      boundedInteger?_eq_some_iff.1 result ▸ isBounded_toInt n
    have usual := (isBounded_checked_iff divides bounded).1
      (boundedInteger?_eq_some_iff.1 checked ▸ isBounded_toInt m)
    exact absurd beyond (not_or.2 ⟨not_not.2 bounded, usual⟩)
  · rfl

end Divisor

end Arithmetic

/-- Arithmetic of integers whose divisor, where there is one, is not zero. The result is the exact
one without its fraction, or an overflow where this does not fit and for one remainder. -/
theorem Expr.integerArithmetic_iff {cap : Nat} {parameter : String} {element : Value}
    {left right : Expr} {a b : Int64} (first : left.eval cap parameter element = .ok (.integer a))
    (second : right.eval cap parameter element = .ok (.integer b)) {op : Arithmetic}
    (divides : op = .divide ∨ op = .modulo → b ≠ 0) :
    let result := (Expr.binary (.arithmetic op) left right).eval cap parameter element
    let exact := truncate (op.exact a.toInt b.toInt)
    ((∃ n : Int64, n.toInt = exact ∧ result = .ok (.integer n)) ↔
        IsBounded exact ∧ ¬op.IsLeastRemainder a b) ∧
      (result = .error (.overflow (.operation (.number (.integer a)) op (.number (.integer b)))) ↔
        ¬IsBounded exact ∨ op.IsLeastRemainder a b) ∧
      (op = .modulo → |exact| < |b.toInt| ∧ 0 ≤ a.toInt * exact) := by
  intro result exact
  have divides : op = .divide ∨ op = .modulo → b.toInt ≠ 0 := by
    rwa [ne_eq, ← Int64.toInt_zero, Int64.toInt_inj]
  have computed : result = op.onIntegers a b := eval_arithmetic first second op
  have cut : exact = op.cut a.toInt b.toInt := op.truncate_exact a.toInt b.toInt
  rw [computed, cut]
  have remainder : op = .modulo →
      |op.cut a.toInt b.toInt| < |b.toInt| ∧ 0 ≤ a.toInt * op.cut a.toInt b.toInt := by
    rintro rfl
    exact Arithmetic.tmod_bounds a.toInt (divides (.inr rfl))
  by_cases fits : IsBounded (op.cut a.toInt b.toInt) ∧ ¬op.IsLeastRemainder a b
  · obtain ⟨n, value, found⟩ := Arithmetic.onIntegers_eq_ok divides fits.1 fits.2
    refine ⟨iff_of_true ⟨n, value, found⟩ fits, iff_of_false ?_ ?_, remainder⟩
    · rw [found]
      simp
    · tauto
  · have beyond : ¬IsBounded (op.cut a.toInt b.toInt) ∨ op.IsLeastRemainder a b := by tauto
    have found := Arithmetic.onIntegers_eq_overflow divides beyond
    refine ⟨iff_of_false ?_ fits, iff_of_true found beyond, remainder⟩
    rw [found]
    simp

/-- The least integer divided by ten, its quotient cut toward zero. -/
theorem Expr.integerArithmetic_iff_least :
    let reference : Expr := .reference "x"
    let divisor : Expr := .literal (.number (.integer 10))
    let least : Value := .integer Int64.minValue
    (reference.eval 10 "x" least = .ok least ∧ divisor.eval 10 "x" least = .ok (.integer 10) ∧
        (10 : Int64) ≠ 0) ∧
      (Expr.binary (.arithmetic .divide) reference divisor).eval 10 "x" least =
        .ok (.integer (-922337203685477580)) := by
  intro reference divisor least
  have left : reference.eval 10 "x" least = .ok least := if_pos rfl
  have right : divisor.eval 10 "x" least = .ok (.integer 10) := rfl
  have some : (10 : Int64) ≠ 0 := by decide
  have value : truncate (Arithmetic.divide.exact Int64.minValue.toInt (10 : Int64).toInt) =
      (-922337203685477580 : Int64).toInt := Arithmetic.truncate_exact ..
  have divides : Arithmetic.divide = .divide ∨ Arithmetic.divide = .modulo → (10 : Int64) ≠ 0 :=
    fun _ => some
  obtain ⟨result, -, -⟩ := Expr.integerArithmetic_iff left right divides
  rw [value] at result
  obtain ⟨n, same, found⟩ := result.2 ⟨isBounded_toInt _, fun least => nomatch least.1⟩
  rw [Int64.toInt_inj.1 same] at found
  exact ⟨⟨left, right, some⟩, found⟩

/-- Minus one divides every integer, but the least one only by a quotient that does not fit. -/
theorem Expr.integerArithmetic_spurious :
    let least := Int64.minValue
    let remainder : Expr :=
      .binary (.arithmetic .modulo) (.reference "x") (.literal (.number (.integer (-1))))
    truncate (Arithmetic.modulo.exact least.toInt (-1 : Int64).toInt) = 0 ∧
      remainder.eval 10 "x" (.integer least) =
        .error (.overflow (.operation (.number (.integer least)) .modulo (.number (.integer (-1))))) := by
  intro least remainder
  refine ⟨?_, ?_⟩
  · rw [Arithmetic.truncate_exact]
    decide
  · rfl

end Pipeline
