import Pipeline.Json
import Pipeline.Text.Quoted

/-!
# Record schemas

The scalars that records hold, the fixed shape of a record type, and the element
types of datasets. A record is a list of scalars in the order of its schema's fields.
-/

set_option autoImplicit false

namespace Pipeline

/-- What a record field may hold. -/
inductive FieldKind where
  | number
  | text
  | boolean
deriving DecidableEq

def FieldKind.name : FieldKind → String
  | number => "number"
  | text => "text"
  | boolean => "boolean"

/-- The kinds of values that messages tell apart. -/
inductive Kind where
  | integer
  | float
  | boolean
  | text
  | list
  | map
  | record
deriving DecidableEq

def Kind.name : Kind → String
  | integer => "integer"
  | float => "float"
  | boolean => "boolean"
  | text => "text"
  | list => "list"
  | map => "map"
  | record => "record"

/-- A value without parts. -/
inductive Scalar where
  | number (value : Number)
  | text (value : String)
  | boolean (value : Bool)
deriving DecidableEq

namespace Scalar

/-- The field kind that admits the scalar. -/
def fieldKind : Scalar → FieldKind
  | number _ => .number
  | text _ => .text
  | boolean _ => .boolean

def kind : Scalar → Kind
  | number (.integer _) => .integer
  | number (.float _) => .float
  | text _ => .text
  | boolean _ => .boolean

/-- Equality, where doubles are compared as numbers. -/
def same : Scalar → Scalar → Bool
  | number a, number b => a.same b
  | text a, text b => a == b
  | boolean a, boolean b => a == b
  | _, _ => false

/-- Equality, where all numbers are compared by value. -/
def equals : Scalar → Scalar → Bool
  | number a, number b => a.equals b
  | text a, text b => a == b
  | boolean a, boolean b => a == b
  | _, _ => false

/-- The scalar as it is shown: texts are quoted. -/
def shown : Scalar → String
  | number n => n.text
  | text s => Text.quoted s
  | boolean b => toString b

def json : Scalar → Json
  | number n => .number n
  | text s => .string s
  | boolean b => .boolean b

end Scalar

structure Field where
  name : String
  kind : FieldKind
deriving DecidableEq

/-- The shape of a record type. -/
structure Schema where
  name : String
  fields : List Field
  /-- The field by which records are ordered when no comparator is given. -/
  naturalKey : Option String
deriving DecidableEq

/-- Why an element type cannot be inferred. -/
inductive InferenceFault where
  | field (name : String) (found : Json.Kind)
  | element (found : Json.Kind)
deriving DecidableEq

/-- What a JSON value was expected to be. -/
inductive Expectation where
  | field (kind : FieldKind)
  | record (name : String)
  | dataset
  | result
deriving DecidableEq

/-- Why a schema, a record or a decoded element is refused. -/
inductive SchemaError where
  | missingField (record field : String)
  | unexpectedField (record field : String)
  | fieldKind (record field : String) (expected : FieldKind) (found : Kind)
  | arity (record : String) (expected found : Nat)
  | unknownNaturalKey (field : String)
  | inference (fault : InferenceFault)
  | json (expected : Expectation) (found : Json.Kind)
deriving DecidableEq

def InferenceFault.message : InferenceFault → String
  | field name found =>
    "field '" ++ name ++ "' holds " ++ found.name ++ ", expected number, string or boolean"
  | element found => "elements must be numbers, strings or objects, got " ++ found.name

/-- The words for an expectation. -/
def Expectation.name : Expectation → String
  | field kind => kind.name
  | record name => name
  | dataset => "array of elements"
  | result => "result value"

def SchemaError.message : SchemaError → String
  | missingField record field => "record " ++ record ++ " has no field '" ++ field ++ "'"
  | unexpectedField record field =>
    "record " ++ record ++ " does not declare field '" ++ field ++ "'"
  | fieldKind record field expected found =>
    "field '" ++ field ++ "' of " ++ record ++ " must be " ++ expected.name ++ ", got " ++
      found.name
  | arity record expected found =>
    "record " ++ record ++ " expects " ++ toString expected ++ " fields, got " ++ toString found
  | unknownNaturalKey field => "natural key '" ++ field ++ "' is not a declared field"
  | inference fault => "cannot infer element type: " ++ fault.message
  | json expected found => "unsupported JSON value for " ++ expected.name ++ ": " ++ found.name

namespace Schema

def indexOf? (schema : Schema) (name : String) : Option Nat :=
  schema.fields.findIdx? (·.name == name)

def field? (schema : Schema) (name : String) : Option Field :=
  schema.fields.find? (·.name == name)

/-- The schema ordered by the given field. -/
def withNaturalKey (schema : Schema) (field : String) : Except SchemaError Schema :=
  if (schema.indexOf? field).isSome then .ok { schema with naturalKey := some field }
  else .error (.unknownNaturalKey field)

end Schema

/-- The type of the elements of a dataset. -/
inductive ElementType where
  | number
  | text
  | record (schema : Schema)
deriving DecidableEq

namespace ElementType

def name : ElementType → String
  | number => "number"
  | text => "text"
  | record schema => schema.name

def schema? : ElementType → Option Schema
  | record schema => some schema
  | _ => none

end ElementType

/-- An instance of a record type, with its scalars in the order of the fields. -/
structure Record where
  schema : Schema
  values : List Scalar
deriving DecidableEq

namespace Record

def get? (record : Record) (name : String) : Option Scalar :=
  (record.schema.indexOf? name).bind (record.values[·]?)

def fields (record : Record) : List (String × Scalar) :=
  (record.schema.fields.map (·.name)).zip record.values

/-- Whether every field has one value, and it is of the field's kind. -/
def conforms (record : Record) : Bool :=
  record.schema.fields.map (·.kind) == record.values.map (·.fieldKind)

/-- Pairwise equality of values, doubles being compared as numbers. -/
def sameValues : List Scalar → List Scalar → Bool
  | [], [] => true
  | a :: as, b :: bs => a.same b && sameValues as bs
  | _, _ => false

def same (a b : Record) : Bool :=
  a.schema == b.schema && sameValues a.values b.values

/-- Pairwise equality of named values, all numbers being compared by value. -/
def equalFields : List (String × Scalar) → List (String × Scalar) → Bool
  | [], [] => true
  | (name, a) :: as, (other, b) :: bs => name == other && a.equals b && equalFields as bs
  | _, _ => false

/-- Equality of type name, field names and values, all numbers being compared by
value. Declared kinds and the natural key do not matter. -/
def equals (a b : Record) : Bool :=
  a.schema.name == b.schema.name && equalFields a.fields b.fields

def shown (record : Record) : String :=
  record.schema.name ++ "\x7b" ++
    ", ".intercalate (record.fields.map fun (name, value) => name ++ ": " ++ value.shown) ++
    "\x7d"

def json (record : Record) : Json :=
  .object (record.fields.map fun (name, value) => (name, value.json))

end Record

end Pipeline
