import Pipeline.Number.Double

/-!
# Shortest decimals

The shortest decimal that reads back as a given double. Every finite double owns
an interval of reals that round to it; among the decimals in that interval the one
with the fewest digits is taken, of several the nearest to the double. Which of two
equally near ones is taken depends on the written form.
-/

set_option autoImplicit false

namespace Pipeline

/-- Which of two decimals equally near to a double is taken. -/
inductive TieRule where
  | greater
  | even
deriving DecidableEq

/-- Whether a value that is `rest` of `unit` above a multiple is nearer to the next
multiple, or as near and the rule prefers that one. -/
def TieRule.prefersNext (rule : TieRule) (multiple rest unit : Nat) : Bool :=
  if 2 * rest = unit then rule == .greater || multiple % 2 == 1 else Nat.blt unit (2 * rest)

/-- A positive decimal `coefficient · 10 ^ exponent`. -/
structure DecimalForm where
  coefficient : Nat
  exponent : Int

/-- An interval of positive reals around a point, all in one unit `num / den`. The
ends belong to it if `closed`. -/
structure RoundingInterval where
  low : Nat
  point : Nat
  high : Nat
  closed : Bool
  num : Nat
  den : Nat

namespace RoundingInterval

/-- The reals that round to a positive finite double. Below a power of two the
doubles lie twice as close, so the lower half of its interval is half as wide. -/
def ofDouble (x : Double) : RoundingInterval where
  low := 4 * x.significand - (if x.significand = Nat.pow 2 52 ∧ x.exponent ≠ -1074 then 1 else 2)
  point := 4 * x.significand
  high := 4 * x.significand + 2
  closed := x.significand % 2 == 0
  num := Nat.pow 2 (x.exponent - 2).toNat
  den := Nat.pow 2 (2 - x.exponent).toNat

/-- Whether a multiple of `10 ^ exponent` lies in the interval. -/
def contains (interval : RoundingInterval) (multiple : Nat) (exponent : Int) : Bool :=
  let value := multiple * Nat.pow 10 exponent.toNat * interval.den
  let unit := interval.num * Nat.pow 10 (-exponent).toNat
  if interval.closed then
    Nat.ble (interval.low * unit) value && Nat.ble value (interval.high * unit)
  else
    Nat.blt (interval.low * unit) value && Nat.blt value (interval.high * unit)

/-- The decimal with the given exponent that lies in the interval nearest to its
point, if any does. Only the two multiples around the point can be nearest. -/
def onGrid? (rule : TieRule) (interval : RoundingInterval) (exponent : Int) :
    Option DecimalForm :=
  let unit := interval.den * Nat.pow 10 exponent.toNat
  let value := interval.point * interval.num * Nat.pow 10 (-exponent).toNat
  let below := value / unit
  let rest := value % unit
  let isBelow := interval.contains below exponent
  let isAbove := interval.contains (below + 1) exponent
  if isAbove && (!isBelow || rule.prefersNext below rest unit) then some ⟨below + 1, exponent⟩
  else if isBelow && below != 0 then some ⟨below, exponent⟩
  else none

end RoundingInterval

namespace Double

/-- An exponent of ten that is above a positive finite double. -/
def decimalBound (x : Double) : Int :=
  ((x.significand.log2 : Int) + x.exponent + 1) * 30103 / 100000 + 2

/-- The shortest decimal of a positive finite double. The grids of decimals are tried
from the coarsest on; one of the first twenty has a hit, since seventeen digits
always suffice. -/
def shortest (rule : TieRule) (x : Double) : DecimalForm :=
  let interval := RoundingInterval.ofDouble x
  match (List.range 20).findSome? fun (step : Nat) =>
      interval.onGrid? rule (x.decimalBound - step) with
  | some form => form
  | none => ⟨x.significand, x.exponent⟩

end Double

end Pipeline
