import Pipeline.Schema

/-!
# Refusals

What is known of a value before a script runs, and the causes for which a script is
refused.
-/

set_option autoImplicit false

namespace Pipeline

/-- What is known of a value. -/
inductive Shape where
  | number
  | text
  | boolean
  | record (schema : Schema)
  | unknown
deriving DecidableEq

namespace Shape

def ofElementType : ElementType → Shape
  | .number => number
  | .text => text
  | .record schema => record schema

def ofFieldKind : FieldKind → Shape
  | .number => number
  | .text => text
  | .boolean => boolean

def name : Shape → String
  | number => "number"
  | text => "text"
  | boolean => "boolean"
  | record _ => "record"
  | unknown => "value"

/-- The shape of a value that comes from one of two places. -/
def join (a b : Shape) : Shape :=
  if a = b then a else unknown

end Shape

/-- Why a script is refused before it runs. -/
inductive PolicyError where
  | forbidden (word : String)
  | tooLong (length limit : Nat)
  | unknownReference (name parameter : String)
  | unknownMethod (name : String)
  | unknownFunction (name : String)
  | unknownField (record field : String)
  | fieldOnScalar (field : String) (shape : Shape)
deriving DecidableEq

def PolicyError.message : PolicyError → String
  | forbidden word => "Forbidden construct detected: " ++ word
  | tooLong length limit =>
    "script is " ++ toString length ++ " bytes long; the limit is " ++ toString limit
  | unknownReference name parameter =>
    "unknown reference '" ++ name ++ "': only the lambda parameter '" ++ parameter ++
      "' is in scope"
  | unknownMethod name => "unknown method: ." ++ name ++ "()"
  | unknownFunction name => "unknown function: " ++ name ++ "()"
  | unknownField record field => record ++ " has no field '" ++ field ++ "'"
  | fieldOnScalar field shape => "cannot access field '" ++ field ++ "' on " ++ shape.name

end Pipeline
