import Pipeline.Catalogue
import Pipeline.Sandbox

/-!
# Judging scripts

A script solves a riddle if its output over the riddle's dataset equals the expected
one. Everything else is a verdict too, and says what kind of failure it is.
-/

set_option autoImplicit false

namespace Pipeline

inductive VerdictKind where
  | accepted
  | wrongAnswer
  | validationError
  | compileError
  | runtimeError
  | timeout
deriving DecidableEq

def VerdictKind.name : VerdictKind → String
  | accepted => "accepted"
  | wrongAnswer => "wrong_answer"
  | validationError => "validation_error"
  | compileError => "compile_error"
  | runtimeError => "runtime_error"
  | timeout => "timeout"

/-- A decision on a script. -/
structure Verdict where
  kind : VerdictKind
  /-- The output of the script, if it has one. -/
  actual : Option Output
  message : String

namespace Verdict

def success (verdict : Verdict) : Bool :=
  verdict.kind == .accepted

/-- The verdict on what becomes of a script. -/
def ofOutcome (expected : Output) (outcome : Outcome) : Verdict :=
  match outcome with
  | .success output =>
    if output.equals expected then ⟨.accepted, some output, "Correct solution"⟩
    else ⟨.wrongAnswer, some output, "Incorrect result, try again"⟩
  | .validationError _ => ⟨.validationError, none, outcome.shown⟩
  | .compileError _ => ⟨.compileError, none, outcome.shown⟩
  | .runtimeError _ => ⟨.runtimeError, none, outcome.shown⟩
  | .timeout _ => ⟨.timeout, none, outcome.shown⟩

/-- A verdict as JSON, with all entries of the output. -/
def json (verdict : Verdict) : Json :=
  .object [("success", .boolean verdict.success), ("kind", .string verdict.kind.name),
    ("actual", (verdict.actual.map Output.entireJson).getD .null),
    ("message", .string verdict.message)]

end Verdict

/-- Why there is no verdict. -/
inductive JudgeError where
  | riddleNotFound (id : String)
  | catalogue (error : CatalogueError)
deriving DecidableEq

def JudgeError.message : JudgeError → String
  | riddleNotFound id => "riddle '" ++ id ++ "' not found"
  | catalogue error => error.message

def JudgeError.ofCatalogue : CatalogueError → JudgeError
  | .notFound id => riddleNotFound id
  | error => catalogue error

/-- Judges scripts in a sandbox. -/
structure Judge where
  catalogue : Catalogue
  sandbox : Sandbox

namespace Judge

def judge (judge : Judge) (riddle : Riddle) (script : String) : Verdict :=
  Verdict.ofOutcome riddle.expected
    (judge.sandbox.submit script riddle.dataset.elementType riddle.dataset.elements)

def judgeById (judge : Judge) (id script : String) : Except JudgeError Verdict :=
  match judge.catalogue.find id with
  | .ok riddle => .ok (judge.judge riddle script)
  | .error error => .error (.ofCatalogue error)

end Judge

end Pipeline
