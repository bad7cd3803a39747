/-!
# Double precision numbers

A double is kept by its bits, so the two zeros and the signs of the values that
are not numbers stay apart. A finite one denotes `± significand · 2 ^ exponent`
exactly; each operation computes exactly and rounds once, by `Double.nearest`.
-/

set_option autoImplicit false

namespace Pipeline

/-- A binary floating point number of 64 bits. -/
structure Double where
  bits : UInt64
deriving DecidableEq

/-- The quotient of two naturals rounded to the nearest one, ties to the even one. -/
def roundHalfEven (num den : Nat) : Nat :=
  let quotient := num / den
  let rest := 2 * (num % den)
  if den < rest ∨ (rest = den ∧ quotient % 2 = 1) then quotient + 1 else quotient

namespace Double

/-- The magnitude of the infinities; greater ones belong to no number. -/
def infinite : Nat := 0x7ff0000000000000

def negative (x : Double) : Bool :=
  Nat.ble (Nat.pow 2 63) x.bits.toNat

/-- The bits without the sign. Magnitudes are ordered as the absolute values. -/
def magnitude (x : Double) : Nat :=
  x.bits.toNat % Nat.pow 2 63

/-- The double with the given sign and magnitude. -/
def ofParts (negative : Bool) (magnitude : Nat) : Double :=
  ⟨UInt64.ofNat (if negative then Nat.pow 2 63 + magnitude else magnitude)⟩

def isFinite (x : Double) : Bool :=
  Nat.blt x.magnitude infinite

/-- Whether the double is no number at all. -/
def isNaN (x : Double) : Bool :=
  Nat.blt infinite x.magnitude

/-- Whether the double is one of the two zeros. -/
def isZero (x : Double) : Bool :=
  x.magnitude == 0

/-- The coefficient of a finite double, below `2 ^ 53`. -/
def significand (x : Double) : Nat :=
  if x.magnitude < Nat.pow 2 52 then x.magnitude else Nat.pow 2 52 + x.magnitude % Nat.pow 2 52

/-- The power of two that scales the coefficient of a finite double. -/
def exponent (x : Double) : Int :=
  max (x.magnitude / Nat.pow 2 52 : Nat) 1 - 1075

/-- The greatest power of two that does not exceed a positive quotient. -/
def binaryOrder (num den : Nat) : Int :=
  let guess : Int := (num.log2 : Int) - (den.log2 : Int)
  if den * Nat.pow 2 guess.toNat ≤ num * Nat.pow 2 (-guess).toNat then guess else guess - 1

/-- The magnitude of the double nearest to a quotient, ties to the even one; from
half a unit beyond the greatest finite double on, the infinite one. -/
def nearestMagnitude (num den : Nat) : Nat :=
  if num = 0 then 0
  else
    let scale := max (binaryOrder num den - 52) (-1074)
    let coefficient := roundHalfEven (num * Nat.pow 2 (-scale).toNat) (den * Nat.pow 2 scale.toNat)
    min ((scale + 1074).toNat * Nat.pow 2 52 + coefficient) infinite

/-- The double nearest to a quotient of naturals with the given sign. -/
def nearest (negative : Bool) (num den : Nat) : Double :=
  ofParts negative (nearestMagnitude num den)

/-- The double nearest to `± coefficient · 2 ^ exponent`. -/
def ofBinary (negative : Bool) (coefficient : Nat) (exponent : Int) : Double :=
  nearest negative (coefficient * Nat.pow 2 exponent.toNat) (Nat.pow 2 (-exponent).toNat)

def ofInt (n : Int) : Double :=
  nearest (n < 0) n.natAbs 1

/-- The double nearest to `± coefficient · 10 ^ exponent`. Exponents far beyond the
range of doubles are decided without computing the power. -/
def ofDecimal (negative : Bool) (coefficient : Nat) (exponent : Int) : Double :=
  let order := exponent + (Nat.toDigits 10 coefficient).length
  if coefficient = 0 ∨ order < -400 then ofParts negative 0
  else if 400 < order then ofParts negative infinite
  else nearest negative (coefficient * Nat.pow 10 exponent.toNat) (Nat.pow 10 (-exponent).toNat)

def finite? (x : Double) : Option Double :=
  if x.isFinite then some x else none

/-- The double with the other sign, also of what is no number. -/
def neg (x : Double) : Double :=
  ofParts (!x.negative) x.magnitude

def abs (x : Double) : Double :=
  ofParts false x.magnitude

/-- A finite double as an integer in units of `2 ^ unit`, where `unit` does not
exceed its exponent. -/
def inUnits (x : Double) (unit : Int) : Int :=
  let size : Int := x.significand * Nat.pow 2 (x.exponent - unit).toNat
  if x.negative then -size else size

/-- The rounded sum, if the operands and the sum are finite. An exact sum of zero is
negative only when both operands are. -/
def add? (x y : Double) : Option Double :=
  if x.isFinite && y.isFinite then
    let unit := min x.exponent y.exponent
    let sum := x.inUnits unit + y.inUnits unit
    let sign := if sum = 0 then x.negative && y.negative else decide (sum < 0)
    (ofBinary sign sum.natAbs unit).finite?
  else none

def sub? (x y : Double) : Option Double :=
  add? x y.neg

def mul? (x y : Double) : Option Double :=
  if x.isFinite && y.isFinite then
    (ofBinary (x.negative != y.negative) (x.significand * y.significand)
      (x.exponent + y.exponent)).finite?
  else none

/-- The rounded quotient by a divisor other than zero, if it is finite. A finite
number has the quotient zero by an infinite one. -/
def div? (x y : Double) : Option Double :=
  let sign := x.negative != y.negative
  if x.isFinite && y.isFinite then
    let shift := x.exponent - y.exponent
    (nearest sign (x.significand * Nat.pow 2 shift.toNat)
      (y.significand * Nat.pow 2 (-shift).toNat)).finite?
  else if x.isFinite && !y.isNaN then some (ofParts sign 0)
  else none

/-- The remainder of the quotient cut toward zero, by a divisor other than zero. It is
exact and has the sign of the dividend; an infinite divisor leaves the dividend. -/
def rem? (x y : Double) : Option Double :=
  if x.isFinite && y.isFinite then
    let unit := min x.exponent y.exponent
    some (ofBinary x.negative ((x.inUnits unit).natAbs % (y.inUnits unit).natAbs) unit)
  else if x.isFinite && !y.isNaN then some x
  else none

/-- The integer nearest to a finite double, halves away from zero. -/
def roundHalfAway (x : Double) : Double :=
  let unit := Nat.pow 2 (-x.exponent).toNat
  nearest x.negative ((2 * x.significand * Nat.pow 2 x.exponent.toNat + unit) / (2 * unit)) 1

/-- The integer that a double denotes, if it denotes one. -/
def integer? (x : Double) : Option Int :=
  let unit := Nat.pow 2 (-x.exponent).toNat
  if x.isFinite && x.significand % unit == 0 then
    let size : Int := (x.significand / unit * Nat.pow 2 x.exponent.toNat : Nat)
    some (if x.negative then -size else size)
  else none

/-- Numeric equality: the two zeros are equal, and what is no number equals nothing. -/
def numericEq (x y : Double) : Bool :=
  !x.isNaN && !y.isNaN && (x == y || (x.isZero && y.isZero))

/-- The place of a double in the total order that puts negative zero before zero and
what is no number at the two ends. -/
def place (x : Double) : Int :=
  if x.negative then -1 - (x.magnitude : Int) else x.magnitude

def totalCompare (x y : Double) : Ordering :=
  compare x.place y.place

end Double

end Pipeline
