import Pipeline.Proofs.Contents
import Pipeline.Proofs.Overflow
import Pipeline.Proofs.Retention
import Pipeline.Proofs.Sorting

/-! The order of numbers. Within a kind it is that of what the numbers denote, and an integer is
compared exactly with all doubles but those near zero, each of which equals the integer zero. Among
numbers that hold this integer and two such doubles the order is not transitive; among all others it
is, and sorting puts them in order. -/

set_option autoImplicit false

namespace Pipeline

namespace Double

/-! ## Doubles in their total order -/

/-- Magnitudes are ordered as what they denote: one more in the exponent outweighs the
coefficient. -/
theorem abs_toRat_le_of_magnitude_le {x y : Double} (le : x.magnitude ≤ y.magnitude) :
    |x.toRat| ≤ |y.toRat| := by
  have unit : Nat.pow 2 52 = 4503599627370496 := rfl
  have partsX := x.magnitude_eq
  have partsY := y.magnitude_eq
  have exponents : x.exponent ≤ y.exponent := by
    simp only [exponent, unit]
    omega
  rw [abs_toRat, abs_toRat]
  rcases exponents.eq_or_lt with same | less
  · have significands : x.significand ≤ y.significand := by
      rw [same] at partsX
      omega
    rw [same]
    gcongr
  · have least := x.exponent_eq_or.1
    have short : (x.significand : ℚ) ≤ 2 ^ 53 := by exact_mod_cast x.significand_lt.le
    have long : (2 ^ 52 : ℚ) ≤ y.significand := by
      exact_mod_cast y.exponent_eq_or.2.resolve_left (by omega)
    calc (x.significand * 2 ^ x.exponent : ℚ) ≤ 2 ^ 53 * 2 ^ x.exponent := by gcongr
      _ = 2 ^ 52 * 2 ^ (x.exponent + 1) := by
          rw [zpow_add_one₀ two_ne_zero]
          ring
      _ ≤ y.significand * 2 ^ y.exponent := by
          gcongr
          · norm_num
          · exact less

theorem toRat_eq_abs (x : Double) : x.toRat = (if x.negative then -1 else 1) * |x.toRat| := by
  rw [abs_toRat, toRat]

theorem place_le_iff {x y : Double} : x.place ≤ y.place ↔
    (x.negative = true ∧ y.negative = false) ∨
      (x.negative = false ∧ y.negative = false ∧ x.magnitude ≤ y.magnitude) ∨
      (x.negative = true ∧ y.negative = true ∧ y.magnitude ≤ x.magnitude) := by
  simp only [place]
  cases x.negative <;> cases y.negative <;> simp <;> omega

theorem toRat_le_of_place_le {x y : Double} (le : x.place ≤ y.place) : x.toRat ≤ y.toRat := by
  have sizeX := abs_nonneg x.toRat
  have sizeY := abs_nonneg y.toRat
  rw [toRat_eq_abs x, toRat_eq_abs y]
  rcases place_le_iff.1 le with ⟨signX, signY⟩ | ⟨signX, signY, le⟩ | ⟨signX, signY, le⟩ <;>
    simp only [signX, signY, if_true, Bool.false_eq_true, if_false]
  · linarith
  · have sizes := abs_toRat_le_of_magnitude_le le
    linarith
  · have sizes := abs_toRat_le_of_magnitude_le le
    linarith

theorem place_bounds (x : Double) :
    -1 - (x.magnitude : Int) ≤ x.place ∧ x.place ≤ x.magnitude := by
  rw [place]
  split <;> omega

theorem place_neg_iff {x : Double} : x.place < 0 ↔ x.negative = true := by
  simp only [place]
  cases x.negative
  · simp
  · simp
    omega

theorem eq_of_place_eq {x y : Double} (same : x.place = y.place) : x = y := by
  have signs : x.negative = y.negative := by
    rw [Bool.eq_iff_iff, ← place_neg_iff, ← place_neg_iff, same]
  have magnitudes : x.magnitude = y.magnitude := by
    simp only [place, signs] at same
    split at same <;> omega
  rw [← ofParts_self x, ← ofParts_self y, signs, magnitudes]

/-! ## What comparisons with integers see -/

theorem seen_le_of_place_le {x y : Double} (le : x.place ≤ y.place) : x.seen ≤ y.seen := by
  have denoted := toRat_le_of_place_le le
  rw [seen, seen]
  by_cases negligibleX : x.IsNegligible <;> by_cases negligibleY : y.IsNegligible
  · rw [if_pos negligibleX, if_pos negligibleY]
  · rw [if_pos negligibleX, if_neg negligibleY]
    by_contra negative
    refine negligibleY (lt_of_le_of_lt ?_ negligibleX)
    rw [abs_of_neg (not_le.1 negative)]
    have size := neg_abs_le x.toRat
    linarith
  · rw [if_neg negligibleX, if_pos negligibleY]
    by_contra positive
    refine negligibleX (lt_of_le_of_lt ?_ negligibleY)
    rw [abs_of_pos (not_le.1 positive)]
    have size := le_abs_self y.toRat
    linarith
  · rwa [if_neg negligibleX, if_neg negligibleY]

theorem seen_eq_zero {x : Double} : x.seen = 0 ↔ x.IsNegligible := by
  rw [seen]
  split
  · rename_i negligible
    exact iff_of_true rfl negligible
  · rename_i visible
    refine iff_of_false (fun zero => visible ?_) visible
    rw [IsNegligible, zero, abs_zero]
    norm_num

/-- Two doubles look the same only if they are or if both are negligible. -/
theorem eq_or_negligible_of_seen_eq {x y : Double} (finiteX : x.isFinite = true)
    (finiteY : y.isFinite = true) (same : x.seen = y.seen) :
    x = y ∨ x.IsNegligible ∧ y.IsNegligible := by
  by_cases negligible : x.IsNegligible
  · exact .inr ⟨negligible, seen_eq_zero.1 (same ▸ seen_eq_zero.2 negligible)⟩
  · have other : ¬y.IsNegligible := fun small =>
      negligible (seen_eq_zero.1 (same ▸ seen_eq_zero.2 small))
    have some : x.seen ≠ 0 := seen_eq_zero.not.2 negligible
    rw [seen, seen, if_neg negligible, if_neg other] at same
    rw [seen, if_neg negligible] at some
    have equal := (numericEq_iff finiteX finiteY).2 same
    rw [numericEq, Bool.and_eq_true, Bool.or_eq_true, beq_iff_eq] at equal
    rcases equal.2 with equal | zeros
    · exact .inl equal
    · have zero := (Bool.and_eq_true_iff.1 zeros).1
      exact absurd (toRat_eq_zero.2 (beq_iff_eq.1 zero)) some

/-- The double nearest to an integer of 64 bits is less than those beyond the decimals. -/
theorem magnitude_ofInt_lt {n : Int} (small : n.natAbs ≤ 2 ^ 63) {x : Double}
    (large : 44 ≤ x.exponent) : (ofInt n).magnitude < x.magnitude := by
  have unit : Nat.pow 2 52 = 4503599627370496 := rfl
  have long : 1119 * 4503599627370496 ≤ x.magnitude := by
    simp only [exponent, unit] at large
    omega
  have unsigned : nearestMagnitude n.natAbs 1 < Nat.pow 2 63 :=
    (nearestMagnitude_le _ _).trans_lt (by decide)
  rw [ofInt, nearest, magnitude_ofParts _ unsigned]
  refine lt_of_lt_of_le ?_ long
  by_cases none : n.natAbs = 0
  · rw [nearestMagnitude, if_pos none]
    decide
  · obtain ⟨low, high⟩ := binaryOrder_bounds none Nat.one_ne_zero
    rw [nearestMagnitude, if_neg none]
    generalize binaryOrder n.natAbs 1 = order at low high
    dsimp only
    -- The integer has 64 bits at most, so it is rounded to a coefficient in units of `2 ^ 11`.
    have few : order ≤ 63 := by
      have bound : (2 : ℚ) ^ order ≤ 2 ^ (63 : Int) := by
        refine (mul_one ((2 : ℚ) ^ order)).symm.le.trans ((Nat.cast_one (R := ℚ) ▸ low).trans ?_)
        exact_mod_cast small
      exact (zpow_le_zpow_iff_right₀ one_lt_two).1 bound
    have size : (n.natAbs : ℚ) < (2 ^ 53 : Nat) * 2 ^ max (order - 52) (-1074) * (1 : Nat) := by
      refine high.trans_le ?_
      have power : ((2 ^ 53 : Nat) : ℚ) * 2 ^ max (order - 52) (-1074) =
          2 ^ (53 + max (order - 52) (-1074)) := by
        rw [zpow_add₀ two_ne_zero]
        norm_num
      rw [power]
      refine mul_le_mul_of_nonneg_right (zpow_le_zpow_right₀ one_le_two ?_) (by norm_num)
      omega
    have short := roundHalfEven_scaled_le Nat.one_ne_zero _ size
    rw [unit]
    omega

/-- The sign of a double beyond the decimals decides, as all integers are closer to zero. -/
theorem totalCompare_ofInt {n : Int} (small : n.natAbs ≤ 2 ^ 63) {x : Double}
    (exponent : 44 ≤ x.exponent) (large : 2 ^ 96 ≤ |x.toRat|) :
    (ofInt n).totalCompare x = compare (n : ℚ) x.toRat := by
  have magnitudes := magnitude_ofInt_lt small exponent
  have places := (ofInt n).place_bounds
  have bound : |(n : ℚ)| ≤ 2 ^ 63 := by
    rw [← Int.cast_abs, Int.abs_eq_natAbs]
    exact_mod_cast small
  obtain ⟨below, above⟩ := abs_le.1 bound
  have denoted := x.toRat_eq_abs
  have place : x.place = if x.negative then -1 - (x.magnitude : Int) else x.magnitude := rfl
  rw [totalCompare]
  cases sign : x.negative with
  | false =>
      rw [sign, if_neg Bool.false_ne_true] at denoted place
      have less : (n : ℚ) < x.toRat := by linarith
      rw [compare_lt_iff_lt.2 less, compare_lt_iff_lt]
      omega
  | true =>
      rw [sign, if_pos rfl] at denoted place
      have greater : x.toRat < n := by linarith
      rw [compare_gt_iff_gt.2 greater, compare_gt_iff_gt]
      omega

end Double

namespace Number

/-! ## Numbers of both kinds -/

/-- What comparisons with numbers of the other kind see of a finite number. -/
def seen : Number → ℚ
  | integer n => n.toInt
  | float x => x.seen

theorem order_swap (a b : Number) : b.order a = (a.order b).swap := by
  cases a with
  | integer a =>
      cases b with
      | integer b => exact (Int.compare_swap _ _).symm
      | float y => rfl
  | float x =>
      cases b with
      | integer b => exact Ordering.swap_swap.symm
      | float y => exact (Int.compare_swap _ _).symm

theorem less_eq_false {a b : Number} : b.less a = false ↔ a.order b ≠ .gt := by
  rw [less, order_swap a b]
  cases a.order b <;> decide

theorem order_self (a : Number) : a.order a = .eq := by
  cases a with
  | integer n => exact compare_eq_iff_eq.2 rfl
  | float x => exact compare_eq_iff_eq.2 rfl

theorem natAbs_toInt_le (n : Int64) : n.toInt.natAbs ≤ 2 ^ 63 := by
  have low := n.le_toInt
  have high := n.toInt_lt
  omega

/-- An integer is compared with what is seen of the double. -/
theorem mixed_eq (n : Int64) {x : Double} (finite : x.isFinite = true) :
    order.mixed n x = compare (n.toInt : ℚ) x.seen := by
  have small := natAbs_toInt_le n
  rw [order.mixed]
  cases found : Decimal.retained? x with
  | some decimal =>
      dsimp only
      rw [Decimal.order_eq, Decimal.toRat_ofInt,
        (Decimal.retained?_alike finite found).compare_eq small]
  | none =>
      obtain ⟨exponent, large⟩ := Decimal.le_exponent_of_retained?_eq_none finite found
      have visible : ¬x.IsNegligible := by
        rw [Double.IsNegligible]
        linarith
      dsimp only
      rw [Double.totalCompare_ofInt small exponent large.le, Double.seen, if_neg visible]

section Finite

variable {a b c : Number} (finiteA : a.IsFinite) (finiteB : b.IsFinite)
include finiteA finiteB

/-- Whatever looks less is less. -/
theorem order_of_seen_lt (less : a.seen < b.seen) : a.order b = .lt := by
  cases a with
  | integer n =>
      cases b with
      | integer m => exact compare_lt_iff_lt.2 (Int.cast_lt.1 less)
      | float y => exact (mixed_eq n finiteB).trans (compare_lt_iff_lt.2 less)
  | float x =>
      cases b with
      | integer m =>
          have mixed : order.mixed m x = .gt :=
            (mixed_eq m finiteA).trans (compare_gt_iff_gt.2 less)
          rw [order, mixed]
          rfl
      | float y =>
          refine compare_lt_iff_lt.2 (not_le.1 fun le => ?_)
          exact absurd (Double.seen_le_of_place_le le) less.not_ge

theorem seen_le_of_order (atMost : a.order b ≠ .gt) : a.seen ≤ b.seen := by
  refine not_lt.1 fun less => atMost ?_
  rw [order_swap b a, order_of_seen_lt finiteB finiteA less]
  rfl

/-- What looks the same is equal, two negligible doubles apart. -/
theorem order_of_seen_eq (same : a.seen = b.seen) : a.order b = .eq ∨
    ∃ x y : Double, a = .float x ∧ b = .float y ∧ x.IsNegligible ∧ y.IsNegligible := by
  cases a with
  | integer n =>
      left
      cases b with
      | integer m => exact compare_eq_iff_eq.2 (Int.cast_inj.1 same)
      | float y => exact (mixed_eq n finiteB).trans (compare_eq_iff_eq.2 same)
  | float x =>
      cases b with
      | integer m =>
          have mixed : order.mixed m x = .eq :=
            (mixed_eq m finiteA).trans (compare_eq_iff_eq.2 same.symm)
          left
          rw [order, mixed]
          rfl
      | float y =>
          rcases Double.eq_or_negligible_of_seen_eq finiteA finiteB same with rfl | negligible
          · exact .inl (order_self _)
          · exact .inr ⟨x, y, rfl, rfl, negligible⟩

end Finite

/-! ## Where the order is transitive -/

/-- Whether the integer zero is among numbers with two different doubles that are equal to it. -/
def Blurred (numbers : List Number) : Prop :=
  .integer 0 ∈ numbers ∧ ∃ x y : Double, .float x ∈ numbers ∧ .float y ∈ numbers ∧ x ≠ y ∧
    x.IsNegligible ∧ y.IsNegligible

theorem order_zero {x : Double} (finite : x.isFinite = true) (negligible : x.IsNegligible) :
    (integer 0).order (float x) = .eq := by
  refine (mixed_eq 0 finite).trans (compare_eq_iff_eq.2 ?_)
  rw [Double.seen_eq_zero.2 negligible]
  rfl

section Transitivity

variable {numbers : List Number} (finite : ∀ n ∈ numbers, n.IsFinite)
include finite

theorem order_trans (clear : ¬Blurred numbers) {a b c : Number} (memberA : a ∈ numbers)
    (memberB : b ∈ numbers) (memberC : c ∈ numbers) (first : a.order b ≠ .gt)
    (second : b.order c ≠ .gt) : a.order c ≠ .gt := by
  intro greater
  have finiteA := finite a memberA
  have finiteB := finite b memberB
  have finiteC := finite c memberC
  have lower := seen_le_of_order finiteA finiteB first
  have upper := seen_le_of_order finiteB finiteC second
  have same : a.seen = c.seen := by
    refine (lower.trans upper).eq_of_not_lt fun less => ?_
    cases greater.symm.trans (order_of_seen_lt finiteA finiteC less)
  rcases order_of_seen_eq finiteA finiteC same with equal | ⟨x, z, rfl, rfl, smallX, smallZ⟩
  · cases greater.symm.trans equal
  · -- Only an integer between two doubles that look the same hides which of them is greater.
    cases b with
    | integer n =>
        have seenX : (float x).seen = 0 := Double.seen_eq_zero.2 smallX
        have seenZ : (float z).seen = 0 := Double.seen_eq_zero.2 smallZ
        have seenN : (n.toInt : ℚ) = 0 := le_antisymm (upper.trans_eq seenZ) (seenX.ge.trans lower)
        have zero : n = 0 := Int64.toInt_inj.1 (Int.cast_eq_zero.1 seenN)
        have different : x ≠ z := by
          rintro rfl
          cases greater.symm.trans (order_self _)
        exact clear ⟨zero ▸ memberB, x, z, memberA, memberC, different, smallX, smallZ⟩
    | float y =>
        have places := (compare_le_iff_le.1 first).trans (compare_le_iff_le.1 second)
        exact compare_le_iff_le.2 places greater

theorem exists_not_trans (blurred : Blurred numbers) :
    ∃ a ∈ numbers, ∃ b ∈ numbers, ∃ c ∈ numbers,
      a.order b = .eq ∧ b.order c = .eq ∧ a.order c = .gt := by
  obtain ⟨zero, x, y, memberX, memberY, different, smallX, smallY⟩ := blurred
  have finiteX : x.isFinite = true := finite _ memberX
  have finiteY : y.isFinite = true := finite _ memberY
  have above : ∀ {x : Double}, x.isFinite = true → x.IsNegligible →
      (float x).order (integer 0) = .eq := fun finite negligible => by
    rw [order_swap, order_zero finite negligible]
    rfl
  rcases lt_trichotomy x.place y.place with less | same | greater
  · exact ⟨_, memberY, _, zero, _, memberX, above finiteY smallY, order_zero finiteX smallX,
      compare_gt_iff_gt.2 less⟩
  · exact absurd (Double.eq_of_place_eq same) different
  · exact ⟨_, memberX, _, zero, _, memberY, above finiteX smallX, order_zero finiteY smallY,
      compare_gt_iff_gt.2 greater⟩

end Transitivity

/-! ## The order of values among numbers -/

/-- Whether the order of values is transitive among numbers. -/
def OrderedTransitively (numbers : List Number) : Prop :=
  ∀ a ∈ numbers, ∀ b ∈ numbers, ∀ c ∈ numbers,
    (Value.number a).order (.number b) ≠ .ok .gt → (Value.number b).order (.number c) ≠ .ok .gt →
      (Value.number a).order (.number c) ≠ .ok .gt

theorem value_order_ne_gt {a b : Number} :
    (Value.number a).order (.number b) ≠ .ok .gt ↔ a.order b ≠ .gt := by
  rw [Value.order, ne_eq, Except.ok.injEq]

theorem not_orderedTransitively {numbers : List Number} {a b c : Number} (memberA : a ∈ numbers)
    (memberB : b ∈ numbers) (memberC : c ∈ numbers) (first : a.order b = .eq)
    (second : b.order c = .eq) (greater : a.order c = .gt) : ¬OrderedTransitively numbers := by
  intro transitive
  refine transitive a memberA b memberB c memberC ?_ ?_ (congrArg Except.ok greater)
  · rw [value_order_ne_gt, first]
    decide
  · rw [value_order_ne_gt, second]
    decide

theorem run_sorted (cap : Nat) {numbers : List Number} (within : numbers.length ≤ cap) :
    Chain.run cap .never [.sorted none] (numbers.map .number) =
      .ok (.list ((sortStable less numbers).map .number)) := by
  have taken : ∀ items : List Number, items.length ≤ cap →
      (Sequence.ofList (items.map .number)).materialize cap .never = .ok (items.map .number) :=
    fun items fits => Sequence.materialize_ofList ((List.length_map Value.number).trans_le fits)
  have length : (sortStable less numbers).length ≤ cap :=
    (sortStable_perm less numbers).length_eq.trans_le within
  have sorted : Comparator.natural.sort cap (numbers.map .number) =
      .ok ((sortStable less numbers).map .number) :=
    Comparator.natural_sort (fun _ _ => rfl) cap numbers
  simp only [Chain.run, Chain.through, Flow.apply, Stage.onSequence, taken numbers within,
    Option.getD_none, bind, Except.bind, sorted, Flow.finish]
  exact congrArg (Except.map Value.list) (taken _ length)

theorem pairwise_sortStable {numbers : List Number} (transitive : OrderedTransitively numbers) :
    (sortStable less numbers).Pairwise
      fun a b => (Value.number a).order (.number b) ≠ .ok .gt := by
  have orders : Orders less (· ∈ numbers) := by
    refine ⟨fun {a b} memberA memberB below => ?_, fun {a b c} memberA memberB memberC => ?_⟩
    · rw [less_eq_false, beq_iff_eq.1 below]
      decide
    · rw [less_eq_false, less_eq_false, less_eq_false, ← value_order_ne_gt, ← value_order_ne_gt,
        ← value_order_ne_gt]
      exact fun first second => transitive c memberC b memberB a memberA second first
  refine (sortStable_pairwise orders fun _ member => member).imp fun {a b} holds => ?_
  rw [value_order_ne_gt, ← less_eq_false]
  exact holds

/-- Two finite numbers have one order either way. It is transitive among numbers, and sorting puts
them in it, unless two doubles that differ are both equal to the integer zero. -/
theorem orderedTransitively_iff {numbers : List Number} (finite : ∀ n ∈ numbers, n.IsFinite) :
    ((∀ a ∈ numbers, (Value.number a).order (.number a) = .ok .eq) ∧
        ∀ a ∈ numbers, ∀ b ∈ numbers, ∃ order, (Value.number a).order (.number b) = .ok order ∧
          (Value.number b).order (.number a) = .ok order.swap) ∧
      (OrderedTransitively numbers ↔ ¬Blurred numbers) ∧
      (¬Blurred numbers → ∀ cap, numbers.length ≤ cap → ∃ output : List Number,
        Chain.run cap .never [.sorted none] (numbers.map .number) =
            .ok (.list (output.map .number)) ∧
          output.Perm numbers ∧
          output.Pairwise fun a b => (Value.number a).order (.number b) ≠ .ok .gt) := by
  have transitive : ¬Blurred numbers → OrderedTransitively numbers := by
    intro clear a memberA b memberB c memberC first second
    rw [value_order_ne_gt] at first second ⊢
    exact order_trans finite clear memberA memberB memberC first second
  refine ⟨⟨fun a _ => congrArg Except.ok (order_self a), fun a _ b _ =>
    ⟨a.order b, rfl, congrArg Except.ok (order_swap a b)⟩⟩, ⟨fun ordered blurred => ?_, transitive⟩,
    fun clear cap within => ⟨sortStable less numbers, run_sorted cap within,
      sortStable_perm less numbers, pairwise_sortStable (transitive clear)⟩⟩
  obtain ⟨a, memberA, b, memberB, c, memberC, first, second, greater⟩ :=
    exists_not_trans finite blurred
  exact not_orderedTransitively memberA memberB memberC first second greater ordered

theorem orderedTransitively_iff_mixed :
    let numbers : List Number := [.float (.ofDecimal false 25 (-1)), .integer 3, .integer 0,
      .float (.ofDecimal true 1 (-40)), .integer 2]
    (∀ n ∈ numbers, n.IsFinite) ∧ ¬Blurred numbers ∧ OrderedTransitively numbers ∧
      ∃ output : List Number,
        Chain.run 5 .never [.sorted none] (numbers.map .number) =
            .ok (.list (output.map .number)) ∧
          output.Perm numbers ∧
          output.Pairwise fun a b => (Value.number a).order (.number b) ≠ .ok .gt := by
  intro numbers
  have finite : ∀ n ∈ numbers, n.IsFinite := by
    simp only [numbers, List.forall_mem_cons, List.not_mem_nil, false_implies, implies_true,
      IsFinite]
    decide +kernel
  have clear : ¬Blurred numbers := by
    rintro ⟨-, x, y, memberX, memberY, different, smallX, smallY⟩
    have visible : ¬(Double.ofDecimal false 25 (-1)).IsNegligible := by decide +kernel
    have only : ∀ z : Double, .float z ∈ numbers → z.IsNegligible →
        z = .ofDecimal true 1 (-40) := by
      intro z member small
      simp only [numbers, List.mem_cons, float.injEq, reduceCtorEq, List.not_mem_nil, or_false,
        false_or] at member
      exact member.resolve_left fun same => visible (same ▸ small)
    exact different ((only x memberX smallX).trans (only y memberY smallY).symm)
  obtain ⟨-, transitive, sorted⟩ := orderedTransitively_iff finite
  exact ⟨finite, clear, transitive.2 clear, sorted clear 5 (by decide)⟩

/-- Of two doubles that both equal zero one is greater than the other, and in front of it behind the
sorting. -/
theorem not_orderedTransitively_tiny :
    let twice : Number := .float (.ofDecimal false 2 (-40))
    let once : Number := .float (.ofDecimal false 1 (-40))
    let numbers : List Number := [twice, .integer 0, once]
    (∀ n ∈ numbers, n.IsFinite) ∧ ¬OrderedTransitively numbers ∧
      (Value.number twice).order (.number once) = .ok .gt ∧
      Chain.run 3 .never [.sorted none] (numbers.map .number) =
        .ok (.list [.number twice, .integer 0, .number once]) := by
  intro twice once numbers
  have finite : ∀ n ∈ numbers, n.IsFinite := by
    simp only [numbers, twice, once, List.forall_mem_cons, List.not_mem_nil, false_implies,
      implies_true, IsFinite]
    decide +kernel
  have equalTwice : twice.order (.integer 0) = .eq := by decide +kernel
  have equalOnce : (Number.integer 0).order once = .eq := by decide +kernel
  have greater : twice.order once = .gt := by decide +kernel
  have sorted : sortStable less numbers = numbers := by decide +kernel
  refine ⟨finite, ?_, congrArg Except.ok greater, ?_⟩
  · exact not_orderedTransitively (by simp [numbers]) (by simp [numbers]) (by simp [numbers])
      equalTwice equalOnce greater
  · have within : numbers.length ≤ 3 := Nat.le_refl 3
    rw [run_sorted 3 within, sorted]
    rfl

end Number

end Pipeline
