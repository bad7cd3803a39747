import Pipeline.Number

/-!
# JSON values

Values of the interchange format, with the members of objects in the order in which
they were written.
-/

set_option autoImplicit false

namespace Pipeline

inductive Json where
  | null
  | boolean (value : Bool)
  | number (value : Number)
  | string (value : String)
  | array (items : List Json)
  | object (members : List (String × Json))

namespace Json

inductive Kind where
  | null
  | boolean
  | number
  | string
  | array
  | object
deriving DecidableEq

def Kind.name : Kind → String
  | null => "null"
  | boolean => "boolean"
  | number => "number"
  | string => "string"
  | array => "array"
  | object => "object"

def kind : Json → Kind
  | null => .null
  | boolean _ => .boolean
  | number _ => .number
  | string _ => .string
  | array _ => .array
  | object _ => .object

/-- Adds a member behind the others; one of the same name keeps its place and takes the
new value. -/
def putMember (name : String) (value : Json) : List (String × Json) → List (String × Json)
  | [] => [(name, value)]
  | (other, old) :: rest =>
    if other = name then (other, value) :: rest else (other, old) :: putMember name value rest

/-- The members with every repeated name folded into its first place, where the last
value wins. -/
def foldMembers (members : List (String × Json)) : List (String × Json) :=
  members.foldl (fun folded (name, value) => putMember name value folded) []

def member? (name : String) (members : List (String × Json)) : Option Json :=
  members.lookup name

mutual

/-- The value with the repeated members of all its objects folded. -/
def folded : Json → Json
  | null => null
  | boolean value => boolean value
  | number value => number value
  | string value => string value
  | array items => array (foldedItems items)
  | object members => object (foldMembers (foldedMembers members))
termination_by structural json => json

def foldedItems : List Json → List Json
  | [] => []
  | item :: rest => folded item :: foldedItems rest
termination_by structural items => items

def foldedMembers : List (String × Json) → List (String × Json)
  | [] => []
  | (name, value) :: rest => (name, folded value) :: foldedMembers rest
termination_by structural members => members

end

end Json

end Pipeline
