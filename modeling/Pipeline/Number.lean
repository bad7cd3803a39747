import Pipeline.Number.Decimal
import Pipeline.Number.Integer
import Pipeline.Number.Layout

/-!
# Numbers

A number is an integer of 64 bits or a double. The two kinds stay apart in values,
and are told apart only where the language does so.
-/

set_option autoImplicit false

namespace Pipeline

inductive Number where
  | integer (value : Int64)
  | float (value : Double)
deriving DecidableEq

namespace Number

def text : Number → String
  | integer n => toString n.toInt
  | float x => Layout.plain.write x

/-- Equality within one kind, numeric for doubles. -/
def same : Number → Number → Bool
  | integer a, integer b => a == b
  | float x, float y => x.numericEq y
  | _, _ => false

/-- Comparison by value. An integer and a double are compared as decimals, which are
exact for the integer; a double beyond the range of decimals decides by itself. -/
def order : Number → Number → Ordering
  | integer a, integer b => compare a.toInt b.toInt
  | float x, float y => x.totalCompare y
  | integer a, float y => mixed a y
  | float x, integer b => (mixed b x).swap
where
  /-- An integer against a double. -/
  mixed (n : Int64) (x : Double) : Ordering :=
    match Decimal.retained? x with
    | some decimal => (Decimal.ofInt n.toInt).order decimal
    | none => (Double.ofInt n.toInt).totalCompare x

/-- Equality by exact numeric value across the kinds. -/
def equals : Number → Number → Bool
  | integer a, integer b => a == b
  | float x, float y => x.numericEq y
  | integer a, float y => y.integer? == some a.toInt
  | float x, integer b => x.integer? == some b.toInt

end Number

end Pipeline
