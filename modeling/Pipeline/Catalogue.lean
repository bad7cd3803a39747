import Pipeline.Dataset
import Pipeline.Json.Reader

/-!
# Catalogues of riddles

A riddle is a dataset and the output that a right script has over it. A catalogue keeps
riddles in the order of their identifiers, no two of them with the same one, and is
read from a JSON array of entries.
-/

set_option autoImplicit false

namespace Pipeline

structure Riddle where
  id : String
  description : String
  dataset : Dataset
  expected : Output

/-- Why there is no riddle or no catalogue. -/
inductive CatalogueError where
  | notFound (id : String)
  | duplicateId (id : String)
  | schema (id : String) (error : SchemaError)
  | json
  | unreadable
deriving DecidableEq

/-- The message of a catalogue error. What makes a text no JSON, or a file unreadable, is
not told. -/
def CatalogueError.message : CatalogueError → String
  | notFound id => "riddle '" ++ id ++ "' not found"
  | duplicateId id => "duplicate riddle id '" ++ id ++ "'"
  | schema id error => "riddle '" ++ id ++ "': " ++ error.message
  | json => "Invalid JSON: "
  | unreadable => "IO error: "

/-- Riddles in the order of their identifiers. -/
structure Catalogue where
  riddles : List Riddle

namespace Catalogue

/-- Puts a riddle in its place, unless its identifier is taken. -/
def insert (riddle : Riddle) : List Riddle → Except CatalogueError (List Riddle)
  | [] => .ok [riddle]
  | other :: rest =>
    match compare riddle.id other.id with
    | .lt => .ok (riddle :: other :: rest)
    | .eq => .error (.duplicateId riddle.id)
    | .gt => (insert riddle rest).map (other :: ·)

def ofRiddles (riddles : List Riddle) : Except CatalogueError Catalogue := do
  let ordered ← riddles.foldlM (fun ordered riddle => insert riddle ordered) []
  .ok ⟨ordered⟩

def find (catalogue : Catalogue) (id : String) : Except CatalogueError Riddle :=
  match catalogue.riddles.find? (·.id == id) with
  | some riddle => .ok riddle
  | none => .error (.notFound id)

end Catalogue

/-! ## Entries -/

structure RiddleEntry where
  id : String
  description : String
  recordName : Option String
  naturalKey : Option String
  input : Json
  expectedOutput : Json

/-- The members of an entry. -/
inductive EntryMember where
  | id
  | description
  | recordName
  | naturalKey
  | input
  | expectedOutput
deriving DecidableEq

def EntryMember.ofName? : String → Option EntryMember
  | "id" => some id
  | "description" => some description
  | "recordName" => some recordName
  | "naturalKey" => some naturalKey
  | "input" => some input
  | "expectedOutput" => some expectedOutput
  | _ => none

namespace RiddleEntry

open Json (Raw)

/-- The levels that may be opened inside an entry, which stands inside a list. -/
def room : Nat := Json.maxNesting - 2

def text? : Raw → Option String
  | .string pieces => Json.text? pieces
  | _ => none

/-- The text that a raw value is, or none if it is null. -/
def optionalText? : Raw → Option (Option String)
  | .null => some none
  | raw => (text? raw).map some

def ofRaws? (id description recordName naturalKey input expectedOutput : Raw) :
    Option RiddleEntry := do
  let id ← text? id
  let description ← text? description
  let recordName ← optionalText? recordName
  let naturalKey ← optionalText? naturalKey
  let input ← input.value? room
  let expectedOutput ← expectedOutput.value? room
  some { id, description, recordName, naturalKey, input, expectedOutput }

/-- The members of an entry that mean something. Every name has to be a text, and none of
these members may be repeated. -/
def members? : List (List Json.Piece × Raw) → Option (List (EntryMember × Raw))
  | [] => some []
  | (pieces, raw) :: rest => do
    let name ← Json.text? pieces
    let members ← members? rest
    match EntryMember.ofName? name with
    | none => some members
    | some member =>
      if (members.lookup member).isSome then none else some ((member, raw) :: members)

/-- An entry: an object, or an array of all members in their order. -/
def ofRaw? : Raw → Option RiddleEntry
  | .object raws => do
    let members ← members? raws
    ofRaws? (← members.lookup .id) (← members.lookup .description)
      ((members.lookup .recordName).getD .null) ((members.lookup .naturalKey).getD .null)
      (← members.lookup .input) (← members.lookup .expectedOutput)
  | .array [id, description, recordName, naturalKey, input, expectedOutput] =>
    ofRaws? id description recordName naturalKey input expectedOutput
  | _ => none

/-- The riddle that an entry denotes. -/
def riddle (entry : RiddleEntry) : Except SchemaError Riddle := do
  let dataset ← Dataset.ofJson entry.input entry.recordName entry.naturalKey
  let expected ← Output.ofJson dataset.elementType entry.expectedOutput
  .ok ⟨entry.id, entry.description, dataset, expected⟩

def riddles : List RiddleEntry → Except CatalogueError (List Riddle)
  | [] => .ok []
  | entry :: rest =>
    match entry.riddle with
    | .error error => .error (.schema entry.id error)
    | .ok riddle => (riddles rest).map (riddle :: ·)

end RiddleEntry

namespace Catalogue

/-- The entries that a JSON text lists. -/
def entries? (text : String) : Option (List RiddleEntry) := do
  match ← Json.readRaw? text with
  | .array raws => raws.mapM RiddleEntry.ofRaw?
  | _ => none

def ofEntries (entries : List RiddleEntry) : Except CatalogueError Catalogue := do
  let riddles ← RiddleEntry.riddles entries
  ofRiddles riddles

/-- The catalogue that a JSON text lists. -/
def ofText (text : String) : Except CatalogueError Catalogue :=
  match entries? text with
  | none => .error .json
  | some entries => ofEntries entries

end Catalogue

/-- What a listing tells of a riddle. -/
structure RiddleSummary where
  id : String
  description : String
  elementType : String
  inputLength : Nat

def Riddle.summary (riddle : Riddle) : RiddleSummary where
  id := riddle.id
  description := riddle.description
  elementType := riddle.dataset.elementType.name
  inputLength := riddle.dataset.elements.length

def RiddleSummary.json (summary : RiddleSummary) : Json :=
  .object [("id", .string summary.id), ("description", .string summary.description),
    ("element_type", .string summary.elementType),
    ("input_len", .number (.integer (Int64.ofNat summary.inputLength)))]

end Pipeline
