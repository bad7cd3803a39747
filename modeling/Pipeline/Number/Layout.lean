import Pipeline.Number.Shortest

/-!
# Layouts of doubles

How the shortest decimal of a double is written: where positional notation ends,
whether an integral number keeps a fraction, how an exponent is signed, and what
stands for the values without digits.
-/

set_option autoImplicit false

namespace Pipeline

/-- The conventions of one written form of doubles. The decimal exponent of a number
is that of its first digit. -/
structure Layout where
  /-- Whether a number of this decimal exponent is written without an exponent. -/
  positional : Int → Bool
  /-- Whether an integral number in positional notation ends in `.0`. -/
  pointZero : Bool
  /-- Whether a positive exponent has a sign. -/
  exponentSign : Bool
  /-- Which of two equally short and equally near decimals is written. -/
  tie : TieRule
  /-- What stands for an infinity, after its sign. -/
  infinity : String
  /-- Whether the sign of an infinity is written. -/
  infinitySign : Bool
  /-- What stands for no number at all. -/
  noNumber : String

namespace Layout

/-- Numbers in messages and texts are never written with an exponent. -/
def plain : Layout where
  positional _ := true
  pointZero := false
  exponentSign := false
  tie := .greater
  infinity := "inf"
  infinitySign := true
  noNumber := "NaN"

/-- Numbers shown as tokens keep a fraction, and have an exponent from `10 ^ 16` on and
below `10 ^ -4`. -/
def token : Layout where
  positional exponent := decide (-4 ≤ exponent ∧ exponent < 16)
  pointZero := true
  exponentSign := false
  tie := .greater
  infinity := "inf"
  infinitySign := true
  noNumber := "NaN"

/-- Numbers in JSON keep a fraction, and have a signed exponent from `10 ^ 16` on and
below `10 ^ -5`; other values than numbers are null. -/
def json : Layout where
  positional exponent := decide (-5 ≤ exponent ∧ exponent < 16)
  pointZero := true
  exponentSign := true
  tie := .even
  infinity := "null"
  infinitySign := false
  noNumber := "null"

/-- Digits with a point after the first `place` of them, where `place` may lie outside
the digits; zeros fill the gap. -/
def positionalText (layout : Layout) (digits : List Char) (place : Int) : List Char :=
  if place ≤ 0 then
    '0' :: '.' :: (List.replicate (-place).toNat '0' ++ digits)
  else if digits.length ≤ place.toNat then
    digits ++ List.replicate (place.toNat - digits.length) '0' ++
      (if layout.pointZero then ['.', '0'] else [])
  else
    digits.take place.toNat ++ '.' :: digits.drop place.toNat

def exponentText (layout : Layout) (digits : List Char) (exponent : Int) : List Char :=
  let point := match digits with
    | first :: second :: rest => first :: '.' :: second :: rest
    | _ => digits
  let sign := if exponent < 0 then ['-'] else if layout.exponentSign then ['+'] else []
  point ++ 'e' :: sign ++ Nat.toDigits 10 exponent.natAbs

def formText (layout : Layout) (form : DecimalForm) : List Char :=
  let digits := Nat.toDigits 10 form.coefficient
  let exponent := form.exponent + digits.length - 1
  let significant := (digits.reverse.dropWhile (· == '0')).reverse
  if layout.positional exponent then layout.positionalText significant (exponent + 1)
  else layout.exponentText significant exponent

def write (layout : Layout) (x : Double) : String :=
  let sign := if x.negative then "-" else ""
  if x.isNaN then layout.noNumber
  else if !x.isFinite then (if layout.infinitySign then sign else "") ++ layout.infinity
  else if x.isZero then sign ++ (if layout.pointZero then "0.0" else "0")
  else sign ++ String.ofList (layout.formText (x.shortest layout.tie))

end Layout

end Pipeline
