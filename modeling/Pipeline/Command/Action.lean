import Pipeline.Command.Error
import Pipeline.Reference
import Pipeline.Safari

/-!
# What commands do

Checking a script against JSON input, listing and judging riddles, and looking up the
reference.
-/

set_option autoImplicit false

namespace Pipeline

structure CheckRequest where
  script : String
  input : Option String
  recordName : Option String
  naturalKey : Option String
  /-- Whether the script is only parsed. -/
  syntaxOnly : Bool
  limits : Limits

inductive CheckAnswer where
  | syntaxValid
  | output (json : Json)

/-- Parses a script, and runs it over the input unless only its syntax is asked for. -/
def CheckRequest.answer (request : CheckRequest) : Except CommandError CheckAnswer :=
  if request.syntaxOnly then
    match Chain.parse request.script with
    | .ok _ => .ok .syntaxValid
    | .error error => .error (.parse error)
  else
    match request.input with
    | none => .error .noInput
    | some text =>
      match Json.read? text with
      | none => .error .json
      | some json =>
        match Dataset.ofJson json request.recordName request.naturalKey with
        | .error error => .error (.schema error)
        | .ok dataset =>
          match (Sandbox.ofLimits request.limits).submit request.script dataset.elementType
              dataset.elements with
          | .success output => .ok (.output output.json)
          | .validationError error => .error (.policy error)
          | .compileError error => .error (.parse error)
          | .runtimeError failure => .error (.run failure)
          | .timeout deadline => .error (.timeout deadline)

inductive RiddleSource where
  | safari
  /-- A file with the given text, if it could be read. -/
  | file (text : Option String)

def RiddleSource.catalogue : RiddleSource → Except CommandError Catalogue
  | safari => .ok Safari.catalogue
  | file none => .error (.catalogue .unreadable)
  | file (some text) =>
    match Catalogue.ofText text with
    | .ok catalogue => .ok catalogue
    | .error error => .error (.catalogue error)

def RiddleSource.judge (source : RiddleSource) (limits : Limits) (id script : String) :
    Except CommandError Verdict := do
  let catalogue ← source.catalogue
  match (Judge.mk catalogue (Sandbox.ofLimits limits)).judgeById id script with
  | .ok verdict => .ok verdict
  | .error error => .error (.judge error)

/-- Spaces that fill a text up to a width. -/
def padding (width : Nat) (text : String) : String :=
  String.ofList (List.replicate (width - text.length) ' ')

def RiddleSummary.line (summary : RiddleSummary) : String :=
  padding 4 summary.id ++ summary.id ++ "  " ++ summary.description ++
    padding 48 summary.description ++ " " ++ summary.elementType ++ " x" ++
    toString summary.inputLength

def topicText (name : String) : Except CommandError String :=
  match Topic.ofName? name with
  | some topic => .ok topic.text
  | none => .error (.unknownTopic name)

end Pipeline
