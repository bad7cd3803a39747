import Mathlib.Algebra.Order.Ring.Pow
import Mathlib.Tactic.FieldSimp
import Mathlib.Tactic.NormNum
import Pipeline.Proofs.Denotation

/-! What is lost where a double becomes a decimal. Each trade of a power of two for one of ten cuts
off less than one part in `2 ^ 93`, and dropping places rounds at each of them. -/

set_option autoImplicit false

namespace Pipeline

namespace Decimal

/-! ## Trading powers of two for powers of ten -/

/-- What is left at least of a coefficient when its end is cut off. -/
def keptShare : ℚ := 1 - 1 / 2 ^ 93

theorem ten_pow (steps : Nat) : (10 : ℚ) ^ steps = 5 ^ steps * 2 ^ steps := by
  rw [← mul_pow]
  norm_num

/-- One trade, which multiplies by a factor, and what comes of the ones behind it. -/
theorem kept_of_trade {factor before after last : ℚ} {steps : Nat} (positive : 0 ≤ factor)
    (low : factor * keptShare * before ≤ after) (high : after ≤ factor * before)
    (rest : (factor * keptShare) ^ steps * after ≤ last ∧ last ≤ factor ^ steps * after) :
    (factor * keptShare) ^ (steps + 1) * before ≤ last ∧ last ≤ factor ^ (steps + 1) * before := by
  have share : 0 ≤ keptShare := by norm_num [keptShare]
  constructor
  · calc (factor * keptShare) ^ (steps + 1) * before
        = (factor * keptShare) ^ steps * (factor * keptShare * before) := by ring
      _ ≤ (factor * keptShare) ^ steps * after := mul_le_mul_of_nonneg_left low (by positivity)
      _ ≤ last := rest.1
  · calc last ≤ factor ^ steps * after := rest.2
      _ ≤ factor ^ steps * (factor * before) := mul_le_mul_of_nonneg_left high (by positivity)
      _ = factor ^ (steps + 1) * before := by ring

/-- Only a long coefficient loses its last bit. -/
theorem keptShare_mul_le_half {coefficient : Nat}
    (cut : ¬(coefficient % 2 = 1 ∧ 5 * coefficient < coefficientBound)) :
    keptShare * coefficient ≤ 2 * (coefficient / 2 : Nat) := by
  have bound : coefficientBound = 79228162514264337593543950336 := rfl
  have last : coefficient % 2 = 0 ∨ 2 ^ 93 ≤ coefficient := by omega
  have split : (coefficient : ℚ) = 2 * (coefficient / 2 : Nat) + (coefficient % 2 : Nat) := by
    exact_mod_cast (Nat.div_add_mod coefficient 2).symm
  rw [keptShare]
  rcases last with even | long
  · rw [even] at split
    have size : (0 : ℚ) ≤ coefficient := by positivity
    linarith
  · have long : (2 : ℚ) ^ 93 ≤ coefficient := by exact_mod_cast long
    have bit : ((coefficient % 2 : Nat) : ℚ) ≤ 1 := by
      exact_mod_cast Nat.le_of_lt_succ (Nat.mod_lt coefficient (by decide))
    linarith

theorem keptShare_mul_le_fifth {coefficient : Nat} (long : Nat.pow 2 95 ≤ coefficient) :
    keptShare * coefficient ≤ 5 * (coefficient / 5 : Nat) := by
  have unit : Nat.pow 2 95 = 39614081257132168796771975168 := rfl
  have long : (39614081257132168796771975168 : ℚ) ≤ coefficient := by
    exact_mod_cast unit ▸ long
  have split : (coefficient : ℚ) ≤ 5 * (coefficient / 5 : Nat) + 4 := by
    exact_mod_cast (by omega : coefficient ≤ 5 * (coefficient / 5) + 4)
  rw [keptShare]
  linarith

theorem tradeHalves_bounds (steps coefficient : Nat) (power : Int) :
    (5 * keptShare) ^ steps * (coefficient * 10 ^ power) ≤
        (tradeHalves steps coefficient power).1 * 10 ^ (tradeHalves steps coefficient power).2 ∧
      (tradeHalves steps coefficient power).1 * 10 ^ (tradeHalves steps coefficient power).2 ≤
        (5 : ℚ) ^ steps * (coefficient * 10 ^ power) := by
  fun_induction tradeHalves steps coefficient power with
  | case1 coefficient power => simp
  | case2 steps coefficient power odd ih =>
      have size : (0 : ℚ) ≤ coefficient * 10 ^ power := by positivity
      have multiplied : ((5 * coefficient : Nat) : ℚ) * 10 ^ power =
          5 * (coefficient * 10 ^ power) := by
        push_cast
        ring
      refine kept_of_trade (by norm_num) ?_ multiplied.le ih
      rw [multiplied, keptShare]
      linarith
  | case3 steps coefficient power cut ih =>
      have unit : (0 : ℚ) < 10 ^ power := by positivity
      have shifted : ((coefficient / 2 : Nat) : ℚ) * 10 ^ (power + 1) =
          10 * (coefficient / 2 : Nat) * 10 ^ power := by
        rw [zpow_add_one₀ (by norm_num)]
        ring
      have half : (2 : ℚ) * (coefficient / 2 : Nat) ≤ coefficient := by
        exact_mod_cast Nat.mul_div_le coefficient 2
      have kept := keptShare_mul_le_half cut
      refine kept_of_trade (by norm_num) ?_ ?_ ih
      · rw [shifted]
        calc 5 * keptShare * (coefficient * 10 ^ power)
            = 5 * (keptShare * coefficient) * 10 ^ power := by ring
          _ ≤ 5 * (2 * (coefficient / 2 : Nat)) * 10 ^ power := by gcongr
          _ = 10 * (coefficient / 2 : Nat) * 10 ^ power := by ring
      · rw [shifted]
        calc 10 * ((coefficient / 2 : Nat) : ℚ) * 10 ^ power
            = 5 * (2 * (coefficient / 2 : Nat)) * 10 ^ power := by ring
          _ ≤ 5 * coefficient * 10 ^ power := by gcongr
          _ = 5 * (coefficient * 10 ^ power) := by ring

theorem tradeDoubles_bounds (steps coefficient : Nat) (power : Int) :
    (1 / 5 * keptShare) ^ steps * (coefficient * 10 ^ power) ≤
        (tradeDoubles steps coefficient power).1 * 10 ^ (tradeDoubles steps coefficient power).2 ∧
      (tradeDoubles steps coefficient power).1 * 10 ^ (tradeDoubles steps coefficient power).2 ≤
        (1 / 5 : ℚ) ^ steps * (coefficient * 10 ^ power) := by
  fun_induction tradeDoubles steps coefficient power with
  | case1 coefficient power => simp
  | case2 steps coefficient power short ih =>
      have size : (0 : ℚ) ≤ coefficient * 10 ^ power := by positivity
      have doubled : ((2 * coefficient : Nat) : ℚ) * 10 ^ (power - 1) =
          1 / 5 * (coefficient * 10 ^ power) := by
        rw [zpow_sub_one₀ (by norm_num)]
        push_cast
        ring
      refine kept_of_trade (by norm_num) ?_ doubled.le ih
      rw [doubled, keptShare]
      linarith
  | case3 steps coefficient power long ih =>
      have unit : (0 : ℚ) < 10 ^ power := by positivity
      have fifth : (5 : ℚ) * (coefficient / 5 : Nat) ≤ coefficient := by
        exact_mod_cast Nat.mul_div_le coefficient 5
      have kept := keptShare_mul_le_fifth (Nat.not_lt.1 long)
      refine kept_of_trade (by norm_num) ?_ ?_ ih
      · calc 1 / 5 * keptShare * (coefficient * 10 ^ power)
            = 1 / 5 * (keptShare * coefficient) * 10 ^ power := by ring
          _ ≤ 1 / 5 * (5 * (coefficient / 5 : Nat)) * 10 ^ power := by gcongr
          _ = (coefficient / 5 : Nat) * 10 ^ power := by ring
      · calc ((coefficient / 5 : Nat) : ℚ) * 10 ^ power
            = 1 / 5 * (5 * (coefficient / 5 : Nat)) * 10 ^ power := by ring
          _ ≤ 1 / 5 * coefficient * 10 ^ power := by gcongr
          _ = 1 / 5 * (coefficient * 10 ^ power) := by ring

/-- Factors of two are halved away before anything else. -/
theorem tradeHalves_two_pow_mul (steps more coefficient : Nat) (power : Int) :
    tradeHalves (steps + more) (2 ^ steps * coefficient) power =
      tradeHalves more coefficient (power + steps) := by
  induction steps generalizing power with
  | zero => simp
  | succ steps ih =>
      have halved : 2 ^ (steps + 1) * coefficient / 2 = 2 ^ steps * coefficient := by
        rw [Nat.pow_succ', Nat.mul_assoc, Nat.mul_div_cancel_left _ (by decide)]
      have even : 2 ^ (steps + 1) * coefficient % 2 = 0 := by
        rw [Nat.pow_succ', Nat.mul_assoc, Nat.mul_mod_right]
      rw [Nat.add_right_comm, tradeHalves, if_neg (by omega), halved, ih]
      congr 1
      push_cast
      ring

/-- Only what ends in zeros is halved as long as that. -/
theorem tradeHalves_exact {steps coefficient : Nat} (power : Int)
    (whole : coefficient % 2 ^ steps = 0) :
    tradeHalves steps coefficient power = (coefficient / 2 ^ steps, power + steps) := by
  obtain ⟨quotient, rfl⟩ := Nat.dvd_of_mod_eq_zero whole
  rw [Nat.mul_div_cancel_left _ (by positivity)]
  exact tradeHalves_two_pow_mul steps 0 quotient power

/-- What is odd and stays short enough is only multiplied by five. -/
theorem tradeHalves_of_odd {steps coefficient : Nat} (power : Int) (odd : coefficient % 2 = 1)
    (short : coefficient * 5 ^ steps < coefficientBound) :
    tradeHalves steps coefficient power = (coefficient * 5 ^ steps, power) := by
  induction steps generalizing coefficient with
  | zero => simp [tradeHalves]
  | succ steps ih =>
      have multiplied : 5 * coefficient * 5 ^ steps = coefficient * 5 ^ (steps + 1) := by ring
      have less : 5 * coefficient < coefficientBound := by
        refine Nat.lt_of_le_of_lt ?_ (multiplied ▸ short)
        exact Nat.le_mul_of_pos_right _ (by positivity)
      rw [tradeHalves, if_pos ⟨odd, less⟩, ih (by omega) (multiplied ▸ short), multiplied]

/-- What stays short enough is only doubled. -/
theorem tradeDoubles_exact {steps coefficient : Nat} (power : Int)
    (short : coefficient * 2 ^ steps < 2 ^ 96) :
    tradeDoubles steps coefficient power = (coefficient * 2 ^ steps, power - steps) := by
  induction steps generalizing coefficient power with
  | zero => simp [tradeDoubles]
  | succ steps ih =>
      have doubled : 2 * coefficient * 2 ^ steps = coefficient * 2 ^ (steps + 1) := by ring
      have fits : coefficient < Nat.pow 2 95 := by
        have least : 1 ≤ 2 ^ steps := Nat.one_le_two_pow
        have unit : Nat.pow 2 95 = 39614081257132168796771975168 := rfl
        have more : 2 * coefficient * 1 ≤ 2 * coefficient * 2 ^ steps :=
          Nat.mul_le_mul_left _ least
        omega
      rw [tradeDoubles, if_pos fits, ih _ (doubled ▸ short), doubled]
      congr 1
      push_cast
      ring

/-! ## Powers of ten -/

theorem tradeHalves_power (steps coefficient : Nat) (power : Int) :
    power ≤ (tradeHalves steps coefficient power).2 ∧
      (tradeHalves steps coefficient power).2 ≤ power + steps := by
  fun_induction tradeHalves steps coefficient power with
  | case1 => simp
  | case2 steps coefficient power odd ih => omega
  | case3 steps coefficient power cut ih => omega

theorem tradeDoubles_power (steps coefficient : Nat) (power : Int) :
    power - steps ≤ (tradeDoubles steps coefficient power).2 := by
  fun_induction tradeDoubles steps coefficient power with
  | case1 => simp
  | case2 steps coefficient power short ih => omega
  | case3 steps coefficient power long ih => omega

theorem raise?_eq {steps coefficient raised : Nat}
    (found : raise? steps coefficient = some raised) : raised = coefficient * 10 ^ steps := by
  fun_induction raise? steps coefficient with
  | case1 =>
      cases found
      simp
  | case2 steps coefficient short ih =>
      rw [ih found, Nat.pow_succ]
      ring
  | case3 => cases found

/-! ## Dropping places -/

theorem ten_pow_mod (places : Nat) : 10 ^ places = 1 ∨ 10 ^ places % 18 = 10 := by
  induction places with
  | zero => exact .inl rfl
  | succ places ih =>
      rw [Nat.pow_succ]
      omega

/-- The halves that are rounded up add up to five parts in nine of the last place, and what is cut
off to four. -/
theorem dropPlaces_bounds (excess coefficient : Nat) :
    9 * (dropPlaces excess coefficient * 10 ^ excess) + 5 ≤ 9 * coefficient + 5 * 10 ^ excess ∧
      (dropPlaces excess coefficient ≠ 0 → 9 * coefficient + 4 ≤
        9 * (dropPlaces excess coefficient * 10 ^ excess) + 4 * 10 ^ excess) := by
  fun_induction dropPlaces excess coefficient with
  | case1 coefficient => simp
  | case2 excess coefficient kept zero =>
      have least : 0 < 10 ^ (excess + 1) := by positivity
      refine ⟨by omega, fun some => absurd rfl some⟩
  | case3 excess coefficient kept some ih =>
      obtain ⟨high, low⟩ := ih
      rw [Nat.pow_succ]
      generalize dropPlaces excess _ = dropped at high low ⊢
      have near : 10 * (if 5 ≤ coefficient % 10 then kept + 1 else kept) ≤ coefficient + 5 ∧
          coefficient ≤ 10 * (if 5 ≤ coefficient % 10 then kept + 1 else kept) + 4 := by
        split <;> omega
      generalize (if 5 ≤ coefficient % 10 then kept + 1 else kept) = rounded at high low near
      have shifted : dropped * (10 ^ excess * 10) = 10 * (dropped * 10 ^ excess) := by ring
      rw [shifted]
      constructor
      · omega
      · intro nonzero
        have below := low nonzero
        omega

/-- Half of the last place is not enough: as the coefficient is rounded at each place, it becomes
zero up to seventeen parts in eighteen of it. -/
theorem dropPlaces_eq_zero_iff (excess coefficient : Nat) :
    dropPlaces excess coefficient = 0 ↔ 18 * coefficient < 17 * 10 ^ excess := by
  induction excess generalizing coefficient with
  | zero =>
      rw [dropPlaces]
      omega
  | succ excess ih =>
      have unit := ten_pow_mod excess
      have least : 0 < 10 ^ excess := by positivity
      rw [dropPlaces, Nat.pow_succ]
      split
      · omega
      · rw [ih]
        split <;> omega

end Decimal

end Pipeline
