import Pipeline.Output

/-!
# Datasets

The elements that a pipeline runs over, decoded from a JSON array. The first item
decides the element type and all others have to agree with it.
-/

set_option autoImplicit false

namespace Pipeline

/-- Elements of one type. -/
structure Dataset where
  elementType : ElementType
  elements : List Value

/-- The name of record types that have not been given one. -/
def defaultRecordName : String := "Record"

namespace Json

def fieldKind? : Json → Option FieldKind
  | number _ => some .number
  | string _ => some .text
  | boolean _ => some .boolean
  | _ => none

def toScalar : FieldKind → Json → Except SchemaError Scalar
  | .number, number n => .ok (.number n)
  | .text, string s => .ok (.text s)
  | .boolean, boolean b => .ok (.boolean b)
  | kind, json => .error (.json (.field kind) json.kind)

end Json

namespace Schema

def fieldsOfMembers : List (String × Json) → Except SchemaError (List Field)
  | [] => .ok []
  | (name, value) :: rest =>
    match value.fieldKind? with
    | some kind => (fieldsOfMembers rest).map (⟨name, kind⟩ :: ·)
    | none => .error (.inference (.field name value.kind))

def scalarsOfMembers (schema : Schema) (members : List (String × Json)) :
    List Field → Except SchemaError (List Scalar)
  | [] => .ok []
  | field :: rest =>
    match Json.member? field.name members with
    | none => .error (.missingField schema.name field.name)
    | some json => do
      let scalar ← json.toScalar field.kind
      let scalars ← scalarsOfMembers schema members rest
      .ok (scalar :: scalars)

/-- The record of the schema that a JSON object denotes. Its members may come in any
order, but each must be a field. -/
def recordOfJson (schema : Schema) : Json → Except SchemaError Record
  | .object members =>
    match members.find? fun (name, _) => (schema.field? name).isNone with
    | some (name, _) => .error (.unexpectedField schema.name name)
    | none => do
      let scalars ← schema.scalarsOfMembers members schema.fields
      schema.record (scalars.map .scalar)
  | json => .error (.json (.record schema.name) json.kind)

/-- Whether the names are those of the schema's fields, as far as their number and
membership tell. -/
def matchesNames (schema : Schema) (members : List (String × Json)) : Bool :=
  members.length == schema.fields.length &&
    members.all fun (name, _) => (schema.field? name).isSome

end Schema

namespace ElementType

/-- The element type of JSON items. Without items it is that of numbers; the fields of
records are those of the first object. -/
def infer (items : List Json) (recordName naturalKey : Option String) :
    Except SchemaError ElementType :=
  match items with
  | [] => .ok number
  | .number _ :: _ => .ok number
  | .string _ :: _ => .ok text
  | .object members :: _ => do
    let fields ← Schema.fieldsOfMembers members
    let schema : Schema := ⟨recordName.getD defaultRecordName, fields, none⟩
    match naturalKey with
    | some key => (schema.withNaturalKey key).map record
    | none => .ok (record schema)
  | json :: _ => .error (.inference (.element json.kind))

/-- The element of the type that a JSON value denotes. -/
def elementOfJson (elementType : ElementType) (json : Json) : Except SchemaError Value :=
  match elementType with
  | number => (json.toScalar .number).map .scalar
  | text => (json.toScalar .text).map .scalar
  | record schema => (schema.recordOfJson json).map .record

def elementsOfJson (elementType : ElementType) : List Json → Except SchemaError (List Value)
  | [] => .ok []
  | json :: rest => do
    let element ← elementType.elementOfJson json
    let elements ← elementType.elementsOfJson rest
    .ok (element :: elements)

end ElementType

def Dataset.ofJson (json : Json) (recordName naturalKey : Option String) :
    Except SchemaError Dataset :=
  match json with
  | .array items => do
    let elementType ← ElementType.infer items recordName naturalKey
    let elements ← elementType.elementsOfJson items
    .ok ⟨elementType, elements⟩
  | json => .error (.json .dataset json.kind)

namespace Output

mutual

/-- The output that a JSON value denotes, where the elements of the dataset are of the
given type. An object with the fields of their records is a record, any other a
map. -/
def ofJson (elementType : ElementType) : Json → Except SchemaError Output
  | .number n => .ok (number n)
  | .string s => .ok (text s)
  | .array items => (itemsOfJson elementType items).map list
  | .object members =>
    let asMap := (entriesOfJson elementType members).map fun entries => map (entriesOf entries)
    match elementType.schema? with
    | some schema =>
      if schema.matchesNames members then
        (schema.recordOfJson (.object members)).map record
      else asMap
    | none => asMap
  | json => .error (.json .result json.kind)
termination_by structural json => json

def itemsOfJson (elementType : ElementType) : List Json → Except SchemaError (List Output)
  | [] => .ok []
  | item :: rest => do
    let output ← ofJson elementType item
    let outputs ← itemsOfJson elementType rest
    .ok (output :: outputs)
termination_by structural items => items

def entriesOfJson (elementType : ElementType) :
    List (String × Json) → Except SchemaError (List (Key × Output))
  | [] => .ok []
  | (name, value) :: rest => do
    let output ← ofJson elementType value
    let outputs ← entriesOfJson elementType rest
    .ok ((Key.read name, output) :: outputs)
termination_by structural members => members

end

end Output

end Pipeline
