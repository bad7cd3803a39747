import Pipeline.Schema

/-!
# Values

The values that scripts compute with. Maps are kept in the order of their keys, so
two maps with the same entries are the same list.
-/

set_option autoImplicit false

namespace Pipeline

inductive Key where
  | boolean (value : Bool)
  | integer (value : Int64)
  | text (value : String)
deriving DecidableEq

namespace Key

/-- Keys are ordered by kind, booleans before integers before texts, and within a kind
by value; texts by their characters. -/
def order : Key → Key → Ordering
  | boolean a, boolean b => compare a.toNat b.toNat
  | boolean _, _ => .lt
  | integer _, boolean _ => .gt
  | integer a, integer b => compare a.toInt b.toInt
  | integer _, text _ => .lt
  | text a, text b => compare a b
  | text _, _ => .gt

def written : Key → String
  | boolean b => toString b
  | integer n => toString n.toInt
  | text s => s

/-- The key that a text denotes: an integer or boolean if it reads as one, otherwise the
text itself. -/
def read (text : String) : Key :=
  match (signedInteger? text.toList).bind boundedInteger? with
  | some n => integer n
  | none =>
    if text = "true" then boolean true
    else if text = "false" then boolean false
    else .text text

end Key

/-- Puts an entry into entries that are in key order; an equal key takes the new
value. -/
def putEntry {α : Type} (key : Key) (value : α) : List (Key × α) → List (Key × α)
  | [] => [(key, value)]
  | (other, old) :: rest =>
    match key.order other with
    | .lt => (key, value) :: (other, old) :: rest
    | .eq => (other, value) :: rest
    | .gt => (other, old) :: putEntry key value rest

/-- Entries in key order, where a later equal key replaces an earlier one. -/
def entriesOf {α : Type} (entries : List (Key × α)) : List (Key × α) :=
  entries.foldl (fun ordered (key, value) => putEntry key value ordered) []

inductive Value where
  | scalar (value : Scalar)
  | list (items : List Value)
  | map (entries : List (Key × Value))
  | record (value : Record)

namespace Value

@[match_pattern] abbrev integer (n : Int64) : Value := scalar (.number (.integer n))

@[match_pattern] abbrev float (x : Double) : Value := scalar (.number (.float x))

@[match_pattern] abbrev number (n : Number) : Value := scalar (.number n)

@[match_pattern] abbrev text (s : String) : Value := scalar (.text s)

@[match_pattern] abbrev boolean (b : Bool) : Value := scalar (.boolean b)

def kind : Value → Kind
  | scalar s => s.kind
  | list _ => .list
  | map _ => .map
  | record _ => .record

def isNumber : Value → Bool
  | number _ => true
  | _ => false

def boolean? : Value → Option Bool
  | boolean b => some b
  | _ => none

def text? : Value → Option String
  | text s => some s
  | _ => none

def key? : Value → Option Key
  | boolean b => some (.boolean b)
  | integer n => some (.integer n)
  | text s => some (.text s)
  | _ => none

mutual

/-- Structural equality. Numbers of different kinds differ; doubles are compared as
numbers, so one that is no number equals nothing. -/
def same : Value → Value → Bool
  | scalar a, scalar b => a.same b
  | list as, list bs => sameItems as bs
  | map as, map bs => sameEntries as bs
  | record a, record b => a.same b
  | _, _ => false
termination_by structural value => value

def sameItems : List Value → List Value → Bool
  | [], [] => true
  | a :: as, b :: bs => same a b && sameItems as bs
  | _, _ => false
termination_by structural items => items

def sameEntries : List (Key × Value) → List (Key × Value) → Bool
  | [], [] => true
  | (key, a) :: as, (other, b) :: bs => key == other && same a b && sameEntries as bs
  | _, _ => false
termination_by structural entries => entries

end

mutual

/-- The value as it is shown. Texts are quoted; map keys are not. -/
def shown : Value → String
  | scalar s => s.shown
  | list items => "[" ++ ", ".intercalate (shownItems items) ++ "]"
  | map entries => "\x7b" ++ ", ".intercalate (shownEntries entries) ++ "\x7d"
  | record r => r.shown
termination_by structural value => value

def shownItems : List Value → List String
  | [] => []
  | item :: rest => shown item :: shownItems rest
termination_by structural items => items

def shownEntries : List (Key × Value) → List String
  | [] => []
  | (key, value) :: rest => (key.written ++ ": " ++ shown value) :: shownEntries rest
termination_by structural entries => entries

end

/-- The value as a part of a text: a text is itself, anything else as it is shown. -/
def inText : Value → String
  | text s => s
  | value => value.shown

end Value

/-- The scalar that a field of the given kind takes from a value, if it admits it. -/
def FieldKind.take? (kind : FieldKind) : Value → Option Scalar
  | .scalar s => if s.fieldKind = kind then some s else none
  | _ => none

namespace Schema

def takeValues (schema : Schema) : List Field → List Value → Except SchemaError (List Scalar)
  | field :: fields, value :: values =>
    match field.kind.take? value with
    | some scalar => (takeValues schema fields values).map (scalar :: ·)
    | none => .error (.fieldKind schema.name field.name field.kind value.kind)
  | _, _ => .ok []

def record (schema : Schema) (values : List Value) : Except SchemaError Record :=
  if values.length ≠ schema.fields.length then
    .error (.arity schema.name schema.fields.length values.length)
  else (schema.takeValues schema.fields values).map (⟨schema, ·⟩)

end Schema

/-- Whether the value is an element of the type. Records belong to a type only with its
very schema, natural key included. -/
def ElementType.admits : ElementType → Value → Bool
  | number, value => value.isNumber
  | text, .text _ => true
  | record schema, .record r => r.schema == schema
  | _, _ => false

end Pipeline
