import Pipeline.Judge

/-!
# Failures of commands

Why a command has no answer. A script that fails a riddle is no failure of a command.
-/

set_option autoImplicit false

namespace Pipeline

inductive CommandError where
  | parse (error : ParseError)
  | policy (error : PolicyError)
  | run (failure : Failure)
  | timeout (deadline : Nat)
  | schema (error : SchemaError)
  | catalogue (error : CatalogueError)
  | judge (error : JudgeError)
  | json
  | noInput
  | unknownTopic (name : String)
deriving DecidableEq

def CommandError.message : CommandError → String
  | parse error => "Parse error: " ++ error.message
  | policy error => "Validation error: " ++ error.message
  | run failure => "Runtime error: " ++ failure.message
  | timeout deadline => "Timeout: execution exceeded " ++ toString deadline ++ " ms"
  | schema error => "Input error: " ++ error.message
  | catalogue error => "Catalogue error: " ++ error.message
  | judge error => error.message
  | json => "Invalid JSON: "
  | noInput => "No input provided. Use --input or pipe JSON to stdin."
  | unknownTopic name =>
    "Unknown topic: '" ++ name ++ "'\nRun 'streamy docs' to see available topics."

end Pipeline
