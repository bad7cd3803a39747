import Pipeline.Output
import Pipeline.Proofs.NumberOrder

/-! Where comparisons are exact. An integer and a finite double have the order of what they denote,
unless the integer is zero and the double, without being a zero, is negligible. Scripts find two
numbers equal exactly if outputs do, unless they are such a pair or the two zeros, which only
scripts tell apart. -/

set_option autoImplicit false

namespace Pipeline

namespace Double

/-- Whether a comparison with integers takes a double for zero that is not. -/
def IsLost (x : Double) : Prop :=
  x.IsNegligible ∧ x.toRat ≠ 0

/-- What is seen of a double is as far from all integers as the double, zero apart. -/
theorem compare_seen_iff (x : Double) (n : Int) :
    compare (n : ℚ) x.seen = compare (n : ℚ) x.toRat ↔ ¬(n = 0 ∧ x.IsLost) := by
  by_cases negligible : x.IsNegligible
  · rw [seen_eq_zero.2 negligible]
    by_cases zero : n = 0
    · subst zero
      have same : compare (0 : ℚ) x.toRat = .eq ↔ x.toRat = 0 := compare_eq_iff_eq.trans eq_comm
      rw [Int.cast_zero, compare_eq_iff_eq.2 rfl, eq_comm, same]
      simp [IsLost, negligible]
    · refine iff_of_true ?_ fun lost => zero lost.1
      -- The integer is further from zero than the double.
      have apart : |x.toRat| < 1 := by
        rw [IsNegligible] at negligible
        linarith
      obtain ⟨low, high⟩ := abs_lt.1 apart
      rcases lt_or_gt_of_ne zero with below | above
      · have below : (n : ℚ) ≤ -1 := by exact_mod_cast Int.le_sub_one_of_lt below
        rw [compare_lt_iff_lt.2 (by linarith), compare_lt_iff_lt.2 (by linarith)]
      · have above : (1 : ℚ) ≤ n := by exact_mod_cast above
        rw [compare_gt_iff_gt.2 (by linarith), compare_gt_iff_gt.2 (by linarith)]
  · have visible : x.seen = x.toRat := if_neg negligible
    rw [visible]
    exact iff_of_true rfl fun lost => negligible lost.2.1

end Double

/-- An integer and a finite double have the order of what they denote, either way around, unless the
integer is zero and the double one that is lost beside it; these are equal. -/
theorem Value.order_exact_iff (n : Int64) {x : Double} (finite : x.isFinite = true) :
    ((Value.integer n).order (.float x) = .ok (compare (n.toInt : ℚ) x.toRat) ↔
        ¬(n = 0 ∧ x.IsLost)) ∧
      ((Value.float x).order (.integer n) = .ok (compare x.toRat n.toInt) ↔
        ¬(n = 0 ∧ x.IsLost)) ∧
      (n = 0 ∧ x.IsLost → (Value.integer n).order (.float x) = .ok .eq ∧
        (Value.float x).order (.integer n) = .ok .eq) := by
  have forth : (Value.integer n).order (.float x) = .ok (compare (n.toInt : ℚ) x.seen) :=
    congrArg Except.ok (Number.mixed_eq n finite)
  have back : (Value.float x).order (.integer n) = .ok (compare (n.toInt : ℚ) x.seen).swap :=
    congrArg (Except.ok ∘ Ordering.swap) (Number.mixed_eq n finite)
  have zero : n.toInt = 0 ↔ n = 0 := by rw [← Int64.toInt_inj, Int64.toInt_zero]
  have exact := x.compare_seen_iff n.toInt
  rw [zero] at exact
  refine ⟨?_, ?_, fun lost => ?_⟩
  · rw [forth, Except.ok.injEq, exact]
  · rw [back, Except.ok.injEq, Std.OrientedOrd.eq_swap (a := x.toRat), Ordering.swap_inj, exact]
  · have equal : compare (n.toInt : ℚ) x.seen = .eq := by
      rw [lost.1, Double.seen_eq_zero.2 lost.2.1]
      rfl
    rw [forth, back, equal]
    exact ⟨rfl, rfl⟩

/-- The least integer that is no double, beside the double before it. -/
theorem Value.order_exact_iff_adjacent :
    let n : Int64 := 9007199254740993
    let x := Double.ofDecimal false 9007199254740992 0
    x.isFinite = true ∧ ¬(n = 0 ∧ x.IsLost) ∧
      (Value.integer n).order (.float x) = .ok (compare (n.toInt : ℚ) x.toRat) ∧
      (Value.float x).order (.integer n) = .ok (compare x.toRat n.toInt) ∧
      (Value.integer n).order (.float x) = .ok .gt := by
  intro n x
  have finite : x.isFinite = true := by decide
  have kept : ¬(n = 0 ∧ x.IsLost) := fun lost => absurd lost.1 (by decide)
  obtain ⟨forth, back, -⟩ := Value.order_exact_iff n finite
  refine ⟨finite, kept, forth.2 kept, back.2 kept, congrArg Except.ok ?_⟩
  decide

/-- A double that is greater than zero is equal to the integer zero. -/
theorem Value.order_inexact_tiny :
    let x := Double.ofDecimal false 1 (-40)
    x.isFinite = true ∧ compare ((0 : Int64).toInt : ℚ) x.toRat = .lt ∧
      (Value.integer 0).order (.float x) = .ok .eq ∧
      (Value.float x).order (.integer 0) = .ok .eq := by
  intro x
  have forth : (Number.integer 0).order (.float x) = .eq := by decide +kernel
  have back : (Number.float x).order (.integer 0) = .eq := by decide +kernel
  refine ⟨?_, compare_lt_iff_lt.2 ?_, congrArg Except.ok forth, congrArg Except.ok back⟩
  · decide +kernel
  · decide +kernel

namespace Number

/-- Two zeros of different signs. -/
def ZerosApart (a b : Number) : Prop :=
  ∃ x y : Double, a = .float x ∧ b = .float y ∧ x ≠ y ∧ x.isZero = true ∧ y.isZero = true

/-- The integer zero and a double that is lost beside it. -/
def LostBeside (a b : Number) : Prop :=
  ∃ x : Double, x.IsLost ∧ (a = .integer 0 ∧ b = .float x ∨ a = .float x ∧ b = .integer 0)

theorem mixed_eq_eq_iff (n : Int64) {x : Double} (finite : x.isFinite = true) :
    order.mixed n x = .eq ↔ (n.toInt : ℚ) = x.toRat ∨ n = 0 ∧ x.IsLost := by
  have zero : n.toInt = 0 ↔ n = 0 := by rw [← Int64.toInt_inj, Int64.toInt_zero]
  rw [mixed_eq n finite]
  by_cases lost : n = 0 ∧ x.IsLost
  · refine iff_of_true ?_ (.inr lost)
    rw [lost.1, Double.seen_eq_zero.2 lost.2.1]
    rfl
  · rw [(x.compare_seen_iff n.toInt).2 (by rwa [zero]), compare_eq_iff_eq]
    exact (or_iff_left lost).symm

theorem zerosApart_float {x y : Double} :
    (float x).ZerosApart (.float y) ↔ x ≠ y ∧ x.isZero = true ∧ y.isZero = true := by
  simp [ZerosApart]

/-- Scripts tell the two zeros apart, and do not tell a lost double from the integer zero. -/
theorem order_eq_iff {a b : Number} (finiteA : a.IsFinite) (finiteB : b.IsFinite) :
    a.order b = .eq ↔ a.toRat = b.toRat ∧ ¬a.ZerosApart b ∨ a.LostBeside b := by
  cases a with
  | integer m =>
      cases b with
      | integer n => simp [order, ZerosApart, LostBeside, toRat]
      | float y =>
          refine (mixed_eq_eq_iff m finiteB).trans ?_
          simp [ZerosApart, LostBeside, toRat, and_comm]
  | float x =>
      cases b with
      | integer n =>
          have back : (order.mixed n x).swap = .eq ↔ order.mixed n x = .eq := by
            cases order.mixed n x <;> decide
          refine (back.trans (mixed_eq_eq_iff n finiteA)).trans ?_
          rw [eq_comm (a := (n.toInt : ℚ))]
          simp [ZerosApart, LostBeside, toRat, and_comm]
      | float y =>
          have same : (float x).order (float y) = .eq ↔ x = y :=
            compare_eq_iff_eq.trans ⟨Double.eq_of_place_eq, congrArg Double.place⟩
          have equal : x.toRat = y.toRat ↔ x = y ∨ x.isZero = true ∧ y.isZero = true := by
            rw [← Double.numericEq_iff finiteA finiteB]
            simp [Double.numericEq, Double.isNaN_of_isFinite finiteA,
              Double.isNaN_of_isFinite finiteB]
          have beside : ¬(float x).LostBeside (.float y) := by simp [LostBeside]
          rw [same, or_iff_left beside, zerosApart_float, toRat, toRat, equal]
          tauto

theorem ZerosApart.toRat_eq {a b : Number} (apart : a.ZerosApart b) : a.toRat = b.toRat := by
  obtain ⟨x, y, rfl, rfl, -, zeroX, zeroY⟩ := apart
  rw [toRat, toRat, Double.toRat_eq_zero.2 (beq_iff_eq.1 zeroX),
    Double.toRat_eq_zero.2 (beq_iff_eq.1 zeroY)]

theorem LostBeside.toRat_ne {a b : Number} (beside : a.LostBeside b) : a.toRat ≠ b.toRat := by
  obtain ⟨x, ⟨-, some⟩, ⟨rfl, rfl⟩ | ⟨rfl, rfl⟩⟩ := beside
  · exact fun same => some (same.symm.trans Int.cast_zero)
  · exact fun same => some (same.trans Int.cast_zero)

end Number

/-- Where both operands are finite numbers, a script finds them equal exactly if their outputs are
equal, unless they are the two zeros, which only the script tells apart, or the integer zero and a
double lost beside it, which only the outputs tell apart. -/
theorem Expr.equal_agrees_iff {cap : Nat} {parameter : String} {element : Value} {left right : Expr}
    {a b : Number} (first : left.eval cap parameter element = .ok (.number a))
    (second : right.eval cap parameter element = .ok (.number b)) (finiteA : a.IsFinite)
    (finiteB : b.IsFinite) : ∃ (held : Bool) (x y : Output),
      (Expr.binary (.relation .equal) left right).eval cap parameter element =
          .ok (.boolean held) ∧
        Output.ofValue (.number a) = .ok x ∧ Output.ofValue (.number b) = .ok y ∧
        ((held = true ↔ x.equals y = true) ↔ ¬(a.ZerosApart b ∨ a.LostBeside b)) ∧
        (a.ZerosApart b → held = false ∧ x.equals y = true) ∧
        (a.LostBeside b → held = true ∧ x.equals y = false) := by
  have held : (Expr.binary (.relation .equal) left right).eval cap parameter element =
      .ok (.boolean (a.order b == .eq)) := by
    rw [Expr.eval, first, second]
    rfl
  have script : (a.order b == .eq) = true ↔ a.toRat = b.toRat ∧ ¬a.ZerosApart b ∨ a.LostBeside b :=
    beq_iff_eq.trans (Number.order_eq_iff finiteA finiteB)
  have outputs : (Output.number a).equals (.number b) = true ↔ a.toRat = b.toRat :=
    Number.equals_iff finiteA finiteB
  have zeros : a.ZerosApart b → a.toRat = b.toRat := Number.ZerosApart.toRat_eq
  have lost : a.LostBeside b → a.toRat ≠ b.toRat := Number.LostBeside.toRat_ne
  refine ⟨_, .number a, .number b, held, rfl, rfl, ?_, fun apart => ⟨?_, ?_⟩,
    fun beside => ⟨?_, ?_⟩⟩
  · rw [script, outputs]
    tauto
  · rw [Bool.eq_false_iff, ne_eq, script]
    tauto
  · exact outputs.2 (zeros apart)
  · exact script.2 (.inr beside)
  · rw [Bool.eq_false_iff, ne_eq, outputs]
    exact lost beside

/-- A double and an integer of the same value. -/
theorem Expr.equal_agrees_iff_three :
    let three : Number := .float (.ofDecimal false 3 0)
    let reference : Expr := .reference "x"
    let literal : Expr := .literal (.number (.integer 3))
    (reference.eval 10 "x" (.number three) = .ok (.number three) ∧
        literal.eval 10 "x" (.number three) = .ok (.integer 3) ∧ three.IsFinite ∧
        (Number.integer 3).IsFinite) ∧
      ¬(three.ZerosApart (.integer 3) ∨ three.LostBeside (.integer 3)) ∧
      ∃ (held : Bool) (x y : Output),
        (Expr.binary (.relation .equal) reference literal).eval 10 "x" (.number three) =
            .ok (.boolean held) ∧
          Output.ofValue (.number three) = .ok x ∧ Output.ofValue (.integer 3) = .ok y ∧
          (held = true ↔ x.equals y = true) := by
  intro three reference literal
  have left : reference.eval 10 "x" (.number three) = .ok (.number three) := if_pos rfl
  have right : literal.eval 10 "x" (.number three) = .ok (.integer 3) := rfl
  have finite : three.IsFinite := by
    change Double.isFinite _ = true
    decide
  have agreeing : ¬(three.ZerosApart (.integer 3) ∨ three.LostBeside (.integer 3)) := by
    simp [three, Number.ZerosApart, Number.LostBeside]
  obtain ⟨held, x, y, script, first, second, agrees, -⟩ :=
    Expr.equal_agrees_iff left right finite trivial
  exact ⟨⟨left, right, finite, trivial⟩, agreeing, held, x, y, script, first, second,
    agrees.2 agreeing⟩

/-- Only outputs find the two zeros equal, and only scripts a tiny double and the integer zero. -/
theorem Expr.equal_disagrees :
    let zero := Double.ofDecimal false 0 0
    let negativeZero := Double.ofDecimal true 0 0
    let tiny := Double.ofDecimal false 1 (-40)
    let equal (n : Number) : Expr :=
      .binary (.relation .equal) (.reference "x") (.literal (.number n))
    (zero.isFinite = true ∧ negativeZero.isFinite = true ∧ tiny.isFinite = true) ∧
      (equal (.float zero)).eval 10 "x" (.float negativeZero) = .ok (.boolean false) ∧
      (Output.number (.float negativeZero)).equals (.number (.float zero)) = true ∧
      (equal (.integer 0)).eval 10 "x" (.float tiny) = .ok (.boolean true) ∧
      (Output.number (.float tiny)).equals (.number (.integer 0)) = false := by
  intro zero negativeZero tiny equal
  have evaluated : ∀ m n : Number, (equal n).eval 10 "x" (.number m) =
      .ok (.boolean (m.order n == .eq)) := by
    intro m n
    simp only [equal, Expr.eval, if_pos]
    rfl
  have apart : ((Number.float negativeZero).order (.float zero) == .eq) = false := by
    decide +kernel
  have lost : ((Number.float tiny).order (.integer 0) == .eq) = true := by decide +kernel
  have same : (Number.float negativeZero).equals (.float zero) = true := by decide +kernel
  have different : (Number.float tiny).equals (.integer 0) = false := by decide +kernel
  refine ⟨by decide +kernel, ?_, same, ?_, different⟩
  · rw [evaluated, apart]
  · rw [evaluated, lost]

end Pipeline
