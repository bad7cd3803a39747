import Pipeline.Json.Printer
import Pipeline.Value

/-!
# Outputs

What a pipeline may put out: the values without a bare boolean. Outputs are equal
when they are built alike from numbers of equal value and equal texts.
-/

set_option autoImplicit false

namespace Pipeline

inductive Output where
  | number (value : Number)
  | text (value : String)
  | list (items : List Output)
  | map (entries : List (Key × Output))
  | record (value : Record)

/-- What holds a value that is no output. -/
inductive Container where
  | list
  | map
deriving DecidableEq

/-- Why a value is no output: it is a boolean, or holds one. -/
inductive OutputError where
  | boolean
  | booleanIn (container : Container)
deriving DecidableEq

def OutputError.message : OutputError → String
  | boolean => "unsupported result shape: boolean"
  | booleanIn .list => "unsupported result shape: boolean inside list"
  | booleanIn .map => "unsupported result shape: boolean inside map"

namespace Output

mutual

def ofValue : Value → Except OutputError Output
  | .number n => .ok (number n)
  | .text s => .ok (text s)
  | .boolean _ => .error .boolean
  | .record r => .ok (record r)
  | .list items => (ofItems items).map list
  | .map entries => (ofEntries entries).map map
termination_by structural value => value

def ofItems : List Value → Except OutputError (List Output)
  | [] => .ok []
  | .boolean _ :: _ => .error (.booleanIn .list)
  | item :: rest => do
    let output ← ofValue item
    let outputs ← ofItems rest
    .ok (output :: outputs)
termination_by structural items => items

def ofEntries : List (Key × Value) → Except OutputError (List (Key × Output))
  | [] => .ok []
  | (_, .boolean _) :: _ => .error (.booleanIn .map)
  | (key, value) :: rest => do
    let output ← ofValue value
    let outputs ← ofEntries rest
    .ok ((key, output) :: outputs)
termination_by structural entries => entries

end

def shape : Output → String
  | number _ => "number"
  | text _ => "text"
  | list _ => "list"
  | map _ => "map"
  | record _ => "record"

mutual

/-- Equality of outputs: numbers by value, lists in order, maps by entries, records by
type name and fields. -/
def equals : Output → Output → Bool
  | number a, number b => a.equals b
  | text a, text b => a == b
  | list as, list bs => equalItems as bs
  | map as, map bs => equalEntries as bs
  | record a, record b => a.equals b
  | _, _ => false
termination_by structural output => output

def equalItems : List Output → List Output → Bool
  | [], [] => true
  | a :: as, b :: bs => equals a b && equalItems as bs
  | _, _ => false
termination_by structural items => items

def equalEntries : List (Key × Output) → List (Key × Output) → Bool
  | [], [] => true
  | (key, a) :: as, (other, b) :: bs => key == other && equals a b && equalEntries as bs
  | _, _ => false
termination_by structural entries => entries

end

mutual

/-- The output as JSON, with one member for each map entry under the written key. Keys of
different kinds may be written alike, so a name may occur twice. -/
def entireJson : Output → Json
  | number n => .number n
  | text s => .string s
  | list items => .array (itemsJson items)
  | map entries => .object (entriesJson entries)
  | record r => r.json
termination_by structural output => output

def itemsJson : List Output → List Json
  | [] => []
  | item :: rest => entireJson item :: itemsJson rest
termination_by structural items => items

def entriesJson : List (Key × Output) → List (String × Json)
  | [] => []
  | (key, value) :: rest => (key.written, entireJson value) :: entriesJson rest
termination_by structural entries => entries

end

/-- The output as a JSON value, in which a name occurs once. -/
def json (output : Output) : Json :=
  output.entireJson.folded

/-- The output as it is shown: its JSON value in compact form. -/
def shown (output : Output) : String :=
  output.json.compact

end Output

end Pipeline
