import Mathlib.Logic.Basic
import Pipeline.Number.Integer

/-! The integers of 64 bits among all integers. -/

set_option autoImplicit false

namespace Pipeline

/-- Whether an integer is one of 64 bits. -/
def IsBounded (n : Int) : Prop :=
  integerMin ≤ n ∧ n ≤ integerMax

theorem isBounded_toInt (k : Int64) : IsBounded k.toInt :=
  ⟨Int64.le_toInt k, Int64.toInt_le k⟩

theorem boundedInteger?_eq_some_iff {n : Int} {k : Int64} :
    boundedInteger? n = some k ↔ k.toInt = n := by
  unfold boundedInteger?
  constructor
  · intro found
    split at found
    · rename_i bounds
      obtain rfl := Option.some.inj found
      exact Int64.toInt_ofInt_of_le bounds.1 (Int.lt_add_one_of_le bounds.2)
    · cases found
  · rintro rfl
    exact (if_pos (isBounded_toInt k)).trans (congrArg some (Int64.ofInt_toInt k))

theorem boundedInteger?_toInt (k : Int64) : boundedInteger? k.toInt = some k :=
  boundedInteger?_eq_some_iff.2 rfl

theorem boundedInteger?_eq_none_iff {n : Int} : boundedInteger? n = none ↔ ¬IsBounded n :=
  ite_eq_right_iff.trans (imp_congr_right fun _ => iff_of_false nofun id)

/-- The sizes of the integers of 64 bits. -/
theorem isBounded_iff {n : Int} :
    IsBounded n ↔ -9223372036854775808 ≤ n ∧ n ≤ 9223372036854775807 :=
  Iff.rfl

/-- The quotient of the least integer by minus one is the only one beyond the integers of 64
bits. -/
theorem isBounded_tdiv_iff {a b : Int64} (some : b.toInt ≠ 0) :
    IsBounded (a.toInt.tdiv b.toInt) ↔ ¬(a.toInt = integerMin ∧ b.toInt = -1) := by
  obtain ⟨least, most⟩ := isBounded_iff.1 (isBounded_toInt a)
  have limit : integerMin = -9223372036854775808 := rfl
  rw [isBounded_iff, limit]
  by_cases minus : b.toInt = -1
  · rw [minus, Int.tdiv_neg, Int.tdiv_one]
    omega
  · refine iff_of_true ?_ fun both => minus both.2
    -- Every other divisor leaves the size as it is or halves it.
    have size : (a.toInt.tdiv b.toInt).natAbs = a.toInt.natAbs / b.toInt.natAbs :=
      Int.natAbs_tdiv ..
    by_cases one : b.toInt = 1
    · rw [one, Int.tdiv_one]
      omega
    · have half : a.toInt.natAbs / b.toInt.natAbs ≤ a.toInt.natAbs / 2 :=
        Nat.div_le_div_left (by omega) (by decide)
      omega

end Pipeline
