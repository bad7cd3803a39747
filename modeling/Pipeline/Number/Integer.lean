/-!
# Bounded integers

Integers of 64 bits whose arithmetic is exact or refused: an operation is carried
out on the integers and its result is kept only if it fits.
-/

set_option autoImplicit false

namespace Pipeline

def integerMin : Int := -Nat.pow 2 63

def integerMax : Int := Nat.pow 2 63 - 1

/-- The bounded integer with the given value, if there is one. -/
def boundedInteger? (value : Int) : Option Int64 :=
  if integerMin ≤ value ∧ value ≤ integerMax then some (Int64.ofInt value) else none

/-- The value of a text of decimal digits, read from the left onto `value`. -/
def digitsValue (value : Nat) : List Char → Nat
  | [] => value
  | digit :: rest => digitsValue (10 * value + (digit.toNat - '0'.toNat)) rest

def isDigit (c : Char) : Bool :=
  Nat.ble '0'.toNat c.toNat && Nat.ble c.toNat '9'.toNat

def natural? (text : List Char) : Option Nat :=
  if text.isEmpty || !text.all isDigit then none else some (digitsValue 0 text)

/-- The integer that a text of digits after an optional sign denotes. -/
def signedInteger? : List Char → Option Int
  | '-' :: digits => (natural? digits).map fun n => -(n : Int)
  | '+' :: digits => (natural? digits).map fun n => (n : Int)
  | digits => (natural? digits).map fun n => (n : Int)

end Pipeline
