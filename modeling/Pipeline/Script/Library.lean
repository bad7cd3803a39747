/-!
# The library of scripts

The closed sets of methods and functions that expressions may call. Some methods have
two names.
-/

set_option autoImplicit false

namespace Pipeline

inductive Method where
  | upper
  | lower
  | trim
  | length
  | contains
  | startsWith
  | endsWith
  | abs
deriving DecidableEq

def Method.ofName? : String → Option Method
  | "upper" => some upper
  | "toUpperCase" => some upper
  | "lower" => some lower
  | "toLowerCase" => some lower
  | "trim" => some trim
  | "length" => some length
  | "contains" => some contains
  | "startsWith" => some startsWith
  | "endsWith" => some endsWith
  | "abs" => some abs
  | _ => none

inductive Function where
  | abs
  | min
  | max
  | range
deriving DecidableEq

def Function.name : Function → String
  | abs => "abs"
  | min => "min"
  | max => "max"
  | range => "range"

def Function.ofName? : String → Option Function
  | "abs" => some abs
  | "min" => some min
  | "max" => some max
  | "range" => some range
  | _ => none

end Pipeline
