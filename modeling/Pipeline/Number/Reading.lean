import Pipeline.Number.Double
import Pipeline.Number.Integer

/-!
# Reading doubles

The double nearest to a decimal as people write it: digits with an optional sign, point
and exponent, or the words for the values that have no digits.
-/

set_option autoImplicit false

namespace Pipeline.Double

/-- Digits with an optional point, as a coefficient and the number of digits behind the
point. -/
def readCoefficient? (text : List Char) : Option (Nat × Nat) :=
  let whole := text.takeWhile isDigit
  match text.dropWhile isDigit with
  | [] => (natural? whole).map (·, 0)
  | '.' :: fraction => do
    if fraction.all isDigit then
      let coefficient ← natural? (whole ++ fraction)
      some (coefficient, fraction.length)
    else none
  | _ => none

/-- An unsigned decimal with an optional exponent. -/
def readUnsigned? (negative : Bool) (text : List Char) : Option Double := do
  let isMark := fun c : Char => c == 'e' || c == 'E'
  let (coefficient, places) ← readCoefficient? (text.takeWhile (!isMark ·))
  let exponent ←
    match text.dropWhile (!isMark ·) with
    | [] => some 0
    | _ :: digits => signedInteger? digits
  some (ofDecimal negative coefficient (exponent - places))

/-- The double that a text without its sign denotes. The words for the values without
digits may be written in capitals. -/
def readSize? (negative : Bool) (text : List Char) : Option Double :=
  match String.ofList (text.map Char.toLower) with
  | "nan" => some (ofParts negative (infinite + Nat.pow 2 51))
  | "inf" => some (ofParts negative infinite)
  | "infinity" => some (ofParts negative infinite)
  | _ => readUnsigned? negative text

def ofText? (text : String) : Option Double :=
  match text.toList with
  | '-' :: size => readSize? true size
  | '+' :: size => readSize? false size
  | size => readSize? false size

end Pipeline.Double
