import Pipeline.Number.Double

/-!
# Decimal numbers

Decimals of at most 96 bits and 28 places, in which integers and doubles meet. A
result that needs more is rounded half to even at the most places that fit; one
that does not fit without places is refused.
-/

set_option autoImplicit false

namespace Pipeline

/-- The number `mantissa / 10 ^ scale`. -/
structure Decimal where
  mantissa : Int
  scale : Nat
deriving DecidableEq

namespace Decimal

/-- Coefficients are below this bound. -/
def coefficientBound : Nat := Nat.pow 2 96

def maxScale : Nat := 28

def ofInt (n : Int) : Decimal := ⟨n, 0⟩

def isZero (d : Decimal) : Bool :=
  d.mantissa == 0

/-! ## Doubles as decimals

A double is `coefficient · 2 ^ exponent`. Its power of two is traded step by step for
a power of ten, and digits that do not fit are dropped on the way. -/

/-- Trades `steps` factors `1/2` for factors `1/10`: each either halves the
coefficient, which leaves a factor `1/10` less, or multiplies it by five. Halving an
odd coefficient loses its last bit, and is done only where five times it does not
fit. -/
def tradeHalves : Nat → Nat → Int → Nat × Int
  | 0, coefficient, power => (coefficient, power)
  | steps + 1, coefficient, power =>
    if coefficient % 2 = 1 ∧ 5 * coefficient < coefficientBound then
      tradeHalves steps (5 * coefficient) power
    else tradeHalves steps (coefficient / 2) (power + 1)

/-- Trades `steps` factors `2` for factors `10`: each either doubles the coefficient, which
leaves a factor `10` less, or divides it by five. Dividing loses the rest, and is done only
where the double does not fit. -/
def tradeDoubles : Nat → Nat → Int → Nat × Int
  | 0, coefficient, power => (coefficient, power)
  | steps + 1, coefficient, power =>
    if coefficient < Nat.pow 2 95 then tradeDoubles steps (2 * coefficient) (power - 1)
    else tradeDoubles steps (coefficient / 5) power

/-- Multiplies the coefficient by ten `steps` times, if the result fits. -/
def raise? : Nat → Nat → Option Nat
  | 0, coefficient => some coefficient
  | steps + 1, coefficient =>
    if 10 * coefficient < coefficientBound then raise? steps (10 * coefficient) else none

/-- Drops the last `excess` places, rounding halves up at each one. A coefficient that
becomes zero on the way stays zero. -/
def dropPlaces : Nat → Nat → Nat
  | 0, coefficient => coefficient
  | excess + 1, coefficient =>
    let kept := coefficient / 10
    if kept = 0 then 0
    else dropPlaces excess (if 5 ≤ coefficient % 10 then kept + 1 else kept)

/-- The coefficient and scale of the absolute value of a finite double, with all the
digits that fit. Fails if the powers of ten that are left do not fit. -/
def partsOfDouble? (x : Double) : Option (Nat × Nat) :=
  if x.significand = 0 then some (0, 0)
  else do
    let (coefficient, power) :=
      if x.exponent < 0 then tradeHalves (-x.exponent).toNat x.significand x.exponent
      else tradeDoubles x.exponent.toNat x.significand x.exponent
    let raised ← raise? power.toNat coefficient
    let scale := (-power).toNat
    let kept := dropPlaces (scale - maxScale) raised
    some (kept, if kept = 0 then 0 else min scale maxScale)

/-- Drops places until the coefficient has at most 52 bits, rounding halves up. -/
def shorten : Nat → Nat → Nat × Nat
  | 0, coefficient => (coefficient, 0)
  | scale + 1, coefficient =>
    if coefficient < Nat.pow 2 52 then (coefficient, scale + 1)
    else shorten scale (if 5 ≤ coefficient % 10 then coefficient / 10 + 1 else coefficient / 10)

/-- Drops the places that hold zeros at the end. -/
def stripZeros : Nat → Nat → Nat × Nat
  | 0, coefficient => (coefficient, 0)
  | scale + 1, coefficient =>
    if coefficient % 10 = 0 then stripZeros scale (coefficient / 10)
    else (coefficient, scale + 1)

def ofParts (negative : Bool) (parts : Nat × Nat) : Decimal :=
  ⟨if negative then -(parts.1 : Int) else parts.1, parts.2⟩

/-- A double with all the digits that fit, as comparisons read it. -/
def retained? (x : Double) : Option Decimal :=
  if x.isFinite then (partsOfDouble? x).map (ofParts x.negative) else none

/-- A double with the digits it is sure of, as arithmetic reads it. -/
def rounded? (x : Double) : Option Decimal :=
  if x.isFinite then
    (partsOfDouble? x).map fun (coefficient, scale) =>
      let short := shorten scale coefficient
      ofParts x.negative (stripZeros short.2 short.1)
  else none

/-! ## Arithmetic -/

/-- `± num / den` at the most places, at most `scale`, at which it fits. -/
def fit? (negative : Bool) (num den : Nat) : Nat → Option Decimal
  | 0 =>
    let coefficient := roundHalfEven num den
    if coefficient < coefficientBound then some (ofParts negative (coefficient, 0)) else none
  | scale + 1 =>
    let coefficient := roundHalfEven (num * Nat.pow 10 (scale + 1)) den
    if coefficient < coefficientBound then some (ofParts negative (coefficient, scale + 1))
    else fit? negative num den scale

def mantissaAt (d : Decimal) (scale : Nat) : Int :=
  d.mantissa * Nat.pow 10 (scale - d.scale)

/-- The sum; adding zero leaves the other operand as it is. -/
def add? (a b : Decimal) : Option Decimal :=
  if a.isZero then some b
  else if b.isZero then some a
  else
    let scale := max a.scale b.scale
    let sum := a.mantissaAt scale + b.mantissaAt scale
    fit? (sum < 0) sum.natAbs (Nat.pow 10 scale) (min scale maxScale)

def sub? (a b : Decimal) : Option Decimal :=
  add? a ⟨-b.mantissa, b.scale⟩

def mul? (a b : Decimal) : Option Decimal :=
  if a.isZero || b.isZero then some ⟨0, 0⟩
  else
    let scale := a.scale + b.scale
    let product := a.mantissa * b.mantissa
    fit? (product < 0) product.natAbs (Nat.pow 10 scale) (min scale maxScale)

/-- The most places, at most `room`, by which a coefficient can be carried on and still
fits. -/
def stride (coefficient : Nat) : Nat → Nat
  | 0 => 0
  | room + 1 =>
    if coefficient * Nat.pow 10 (room + 1) < coefficientBound then room + 1
    else stride coefficient room

/-- The most places by which a division is carried on at once. -/
def maxStride : Nat := 9

/-- The scale at which the division of `num` by `den` ends if it starts at `scale`. While
there is a remainder it is carried on by as many places as fit; without one, only up to
scale zero. Every step takes a place at least. -/
def quotientScale (den : Nat) : Nat → Nat → Int → Int
  | 0, _, scale => scale
  | steps + 1, num, scale =>
    let places :=
      if num % den = 0 then min maxStride (-scale).toNat
      else stride (num / den) (min maxStride (maxScale - scale).toNat)
    if places = 0 then scale
    else quotientScale den steps (num * Nat.pow 10 places) (scale + places)

/-- Drops `count` zeros at the end of a coefficient, if it has as many and as many
places. -/
def dropZeros (count : Nat) (parts : Nat × Nat) : Nat × Nat :=
  if count ≤ parts.2 ∧ parts.1 % Nat.pow 10 count = 0 then
    (parts.1 / Nat.pow 10 count, parts.2 - count)
  else parts

/-- Drops eight zeros at the end of a coefficient whose lowest 32 bits are zero. -/
def dropEightZeros (parts : Nat × Nat) : Nat × Nat :=
  if parts.1 % Nat.pow 2 32 = 0 then dropZeros 8 parts else parts

/-- Drops zeros at the end of a quotient, but not always all of them: eight at a time only
where `dropEightZeros` does, which is three times at most, and then once each four, two
and one. -/
def trimQuotient (parts : Nat × Nat) : Nat × Nat :=
  dropZeros 1 (dropZeros 2 (dropZeros 4
    (dropEightZeros (dropEightZeros (dropEightZeros parts)))))

/-- The quotient by a divisor other than zero. One that is not integral from the start is
trimmed. -/
def div? (a b : Decimal) : Option Decimal :=
  if a.isZero then some ⟨0, 0⟩
  else do
    let num := a.mantissa.natAbs
    let den := b.mantissa.natAbs
    let negative := decide (a.mantissa < 0) != decide (b.mantissa < 0)
    let scale := quotientScale den (2 * maxScale + 1) num ((a.scale : Int) - b.scale)
    let quotient ← fit? negative (num * Nat.pow 10 b.scale) (den * Nat.pow 10 a.scale) scale.toNat
    if num % den = 0 then some quotient
    else some (ofParts negative (trimQuotient (quotient.mantissa.natAbs, quotient.scale)))

/-- The remainder of the quotient cut toward zero, exactly. It has the sign of the
dividend. -/
def rem (a b : Decimal) : Decimal :=
  let scale := max a.scale b.scale
  ⟨(a.mantissaAt scale).tmod (b.mantissaAt scale), scale⟩

/-- The integer that the decimal denotes, if it denotes one. -/
def integer? (d : Decimal) : Option Int :=
  let unit : Int := Nat.pow 10 d.scale
  if d.mantissa.tmod unit = 0 then some (d.mantissa.tdiv unit) else none

/-- Comparison of the denoted numbers. -/
def order (a b : Decimal) : Ordering :=
  let scale := max a.scale b.scale
  compare (a.mantissaAt scale) (b.mantissaAt scale)

/-- A power of ten in doubles, multiplied up by repeated squaring: each bit of the
exponent, from the lowest on, decides whether the current square is a factor. -/
def powerOfTen? (exponent : Nat) : Option Double := do
  let (power, _) ← (List.range 5).foldlM
    (fun ((power, square) : Double × Double) bit => do
      let power ← if exponent.testBit bit then power.mul? square else some power
      let square ← square.mul? square
      some (power, square))
    (Double.ofInt 1, Double.ofInt 10)
  some power

/-- A double near the decimal. An integer becomes the nearest double. Otherwise the
integral part and the fraction are added as doubles and the sum is rounded to the
places of the decimal, all in doubles. -/
def toDouble? (d : Decimal) : Option Double :=
  let coefficient := d.mantissa.natAbs
  if d.scale = 0 then some (Double.ofInt d.mantissa)
  else do
    let unit := Nat.pow 10 d.scale
    let whole := Double.ofInt (coefficient / unit : Nat)
    let fraction ← (Double.ofInt (coefficient % unit : Nat)).div? (Double.ofInt (unit : Nat))
    let size ←
      if fraction.isZero then some whole
      else do
        let sum ← whole.add? fraction
        let power ← powerOfTen? d.scale
        let scaled ← sum.mul? power
        scaled.roundHalfAway.div? power
    some (if d.mantissa < 0 then size.neg else size)

/-- The decimal in plain notation, with all its places. -/
def text (d : Decimal) : String :=
  let digits := Nat.toDigits 10 d.mantissa.natAbs
  let padded := List.replicate (d.scale + 1 - digits.length) '0' ++ digits
  let whole := padded.take (padded.length - d.scale)
  let sign := if d.mantissa < 0 then "-" else ""
  if d.scale = 0 then sign ++ String.ofList whole
  else sign ++ String.ofList whole ++ "." ++ String.ofList (padded.drop (padded.length - d.scale))

end Decimal

end Pipeline
