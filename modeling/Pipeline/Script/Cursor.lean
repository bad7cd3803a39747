import Pipeline.Script.Lexer

/-!
# Parsing steps

A parser moves a cursor over the tokens of a script. It looks at the current token and
at the one behind it, so both are known to be good: where the tokens break off, the
fault is reported as soon as it would come into view.
-/

set_option autoImplicit false

namespace Pipeline

/-- What a script should have had where an unexpected token stands. -/
inductive Expected where
  | symbol (which : Symbol)
  | endOfScript
  | stageName
  | selector
  | lambdaParameter
  | factory
  | aggregator
  | member
  | expression
deriving DecidableEq

def Expected.label : Expected → String
  | symbol which => which.label
  | endOfScript => "Eof"
  | stageName => "stage name after '.'"
  | selector => "field name or lambda"
  | lambdaParameter => "lambda parameter"
  | factory => "Comparator factory"
  | aggregator => "aggregator"
  | member => "field or method name after '.'"
  | expression => "expression"

/-- The stages that take a count. -/
inductive CountedStage where
  | limit
  | skip
deriving DecidableEq

def CountedStage.name : CountedStage → String
  | limit => "limit"
  | skip => "skip"

/-- Why an argument is refused. -/
inductive ArgumentFault where
  | count (stage : CountedStage) (found : Option Token)
  | misplacedThrow
  | unsupportedFactory (name : String)
deriving DecidableEq

/-- The deepest nesting of expressions. -/
def nestingLimit : Nat := 64

/-- Why a script is no chain of stages. -/
inductive ParseError where
  | lexical (fault : LexicalError)
  | missingStage
  | unknownStage (name : String)
  | unknownAggregator (name : String)
  | integerOutOfRange (literal : String)
  | unexpected (expected : Expected) (found : Option Token)
  | invalidArgument (fault : ArgumentFault)
  | tooDeep
deriving DecidableEq

def ArgumentFault.message : ArgumentFault → String
  | count stage found =>
    "Invalid argument to " ++ stage.name ++ "(): expected a non-negative integer, got " ++
      Token.labelOrEnd found
  | misplacedThrow =>
    "Invalid argument to orElseThrow(): only allowed directly after max() or min()"
  | unsupportedFactory name =>
    "Invalid argument to Comparator(): unsupported factory '" ++ name ++ "'"

def ParseError.message : ParseError → String
  | lexical fault => fault.message
  | missingStage => "Pipeline must start with a stage call (.)"
  | unknownStage name => "unknown operation: " ++ name
  | unknownAggregator name => "unknown aggregator: " ++ name
  | integerOutOfRange literal => "integer literal out of range: " ++ literal
  | unexpected expected found =>
    "Expected " ++ expected.label ++ ", got " ++ Token.labelOrEnd found
  | invalidArgument fault => fault.message
  | tooDeep => "expression nesting too deep (limit " ++ toString nestingLimit ++ ")"

/-- The tokens still to be read, and the fault with which they break off, if any. -/
structure Cursor where
  tokens : List Token
  fault : Option LexicalError

namespace Cursor

/-- The current token, or nothing at the end. -/
def current (cursor : Cursor) : Option Token :=
  cursor.tokens.head?

def peek (cursor : Cursor) : Option Token :=
  cursor.tokens.tail.head?

/-- The cursor one token on. Fails if the fault comes into view. -/
def advance (cursor : Cursor) : Except ParseError Cursor :=
  match cursor.fault, cursor.tokens.drop 2 with
  | some error, [] => .error (.lexical error)
  | _, _ => .ok { cursor with tokens := cursor.tokens.tail }

/-- The cursor at the start of a script. Fails if the fault is in view at once. -/
def ofScript (script : String) : Except ParseError Cursor :=
  let lexed := Lexed.ofScript script
  let tokens := lexed.tokens.map (·.2)
  match lexed.fault, tokens with
  | some (_, error), [] => .error (.lexical error)
  | some (_, error), [_] => .error (.lexical error)
  | fault, tokens => .ok ⟨tokens, fault.map (·.2)⟩

end Cursor

abbrev Parse (α : Type) := StateT Cursor (Except ParseError) α

namespace Parse

def current : Parse (Option Token) := do
  return (← get).current

def advance : Parse Unit := do
  let cursor ← (← get).advance
  set cursor

/-- Fails because of the current token. -/
def unexpected {α : Type} (expected : Expected) : Parse α := do
  throw (.unexpected expected (← current))

def atSymbol (symbol : Symbol) : Parse Bool := do
  return (← current) == some (.symbol symbol)

def atName (name : String) : Parse Bool := do
  return (← current) == some (.name name)

/-- Whether the current token is the given name and the next one the given token. -/
def atNameThen (name : String) (next : Token) : Parse Bool := do
  let cursor ← get
  return cursor.current == some (.name name) && cursor.peek == some next

def expect (symbol : Symbol) : Parse Unit := do
  if ← atSymbol symbol then advance else unexpected (.symbol symbol)

def expectName (expected : Expected) : Parse String := do
  match ← current with
  | some (.name name) => do
    advance
    return name
  | _ => unexpected expected

def expectEnd : Parse Unit := do
  match ← current with
  | none => return
  | some _ => unexpected .endOfScript

/-- The number of tokens left, which bounds every loop that passes tokens. -/
def remaining : Parse Nat := do
  return (← get).tokens.length

end Parse

end Pipeline
