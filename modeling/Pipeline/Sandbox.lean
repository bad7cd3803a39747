import Pipeline.Output
import Pipeline.Policy.Check
import Pipeline.Policy.Screen
import Pipeline.Run.Flow
import Pipeline.Script.ChainParser

/-!
# The sandbox

A script is screened, parsed, checked and then run within a deadline. Whatever goes
wrong on the way is an outcome.
-/

set_option autoImplicit false

namespace Pipeline

structure Limits where
  /-- In milliseconds. -/
  deadline : Nat
  maxElements : Nat
  /-- In bytes. -/
  maxScriptLength : Nat

def Limits.default : Limits where
  deadline := 2000
  maxElements := defaultCap
  maxScriptLength := 4096

/-- Why an accepted script has no output. -/
inductive Failure where
  | run (error : RunError)
  | output (error : OutputError)
  /-- The engine broke down, for the reason it reports if it reports one. -/
  | aborted (report : Option String)
deriving DecidableEq

def Failure.message : Failure → String
  | run error => error.message
  | output error => error.message
  | aborted report => "interpreter aborted: " ++ report.getD "unknown panic"

/-- How the run of an engine ends. -/
inductive Ending where
  | returned (result : Except RunError Value)
  | aborted (report : Option String)
  /-- It has not ended when the deadline is over. -/
  | unfinished

/-- Something that can run a chain over input. It is given the number of steps for which
it may ask each sequence before the deadline. -/
abbrev Engine := Chain → List Value → Nat → Ending

namespace Engine

/-- The evaluator of chains. A run that is cancelled has used up its steps. -/
def evaluator (cap : Nat) : Engine := fun chain input steps =>
  match chain.run cap ⟨some steps⟩ input with
  | .error .cancelled => .unfinished
  | result => .returned result

/-- An engine that asks itself to stop before it evaluates the chain. -/
def cancelling (cap : Nat) : Engine := fun chain input _ =>
  .returned (chain.run cap .cancelled input)

end Engine

/-- What becomes of a script. -/
inductive Outcome where
  | success (output : Output)
  | validationError (error : PolicyError)
  | compileError (error : ParseError)
  | runtimeError (failure : Failure)
  /-- The deadline in milliseconds is over. -/
  | timeout (deadline : Nat)

namespace Outcome

def kind : Outcome → String
  | success _ => "success"
  | validationError _ => "validation error"
  | compileError _ => "compile error"
  | runtimeError _ => "runtime error"
  | timeout _ => "timeout"

def shown : Outcome → String
  | success output => output.shown
  | validationError error => "Validation error: " ++ error.message
  | compileError error => "Compile error: " ++ error.message
  | runtimeError failure => "Runtime error: " ++ failure.message
  | timeout deadline => "Timeout: execution exceeded " ++ toString deadline ++ " ms"

end Outcome

/-- An engine within limits. -/
structure Sandbox where
  limits : Limits
  engine : Engine

namespace Sandbox

def ofLimits (limits : Limits) : Sandbox :=
  ⟨limits, Engine.evaluator limits.maxElements⟩

/-- The number of steps for which a sequence may be asked in a millisecond. -/
def stepsPerMillisecond : Nat := 2000

/-- Runs a chain that has been accepted. -/
def execute (sandbox : Sandbox) (chain : Chain) (input : List Value) : Outcome :=
  let deadline := sandbox.limits.deadline
  -- No run is done at once, so a deadline of zero is over before it.
  if deadline = 0 then .timeout deadline
  else
    match sandbox.engine chain input (deadline * stepsPerMillisecond) with
    | .returned (.ok value) =>
      match Output.ofValue value with
      | .ok output => .success output
      | .error error => .runtimeError (.output error)
    | .returned (.error error) => .runtimeError (.run error)
    | .aborted report => .runtimeError (.aborted report)
    | .unfinished => .timeout deadline

/-- Screens, parses, checks and runs a script. -/
def submit (sandbox : Sandbox) (script : String) (elementType : ElementType)
    (input : List Value) : Outcome :=
  match screen sandbox.limits.maxScriptLength script with
  | .error error => .validationError error
  | .ok () =>
    match Chain.parse script with
    | .error error => .compileError error
    | .ok chain =>
      match chain.check elementType with
      | .error error => .validationError error
      | .ok () => sandbox.execute chain input

end Sandbox

end Pipeline
