import Pipeline.Command.Action
import Pipeline.Command.Arguments

/-!
# Commands

The command line of the language: which command the arguments and the environment ask
for, and what it writes.
-/

set_option autoImplicit false

namespace Pipeline

inductive Command where
  | version
  /-- The input may come from the standard input. -/
  | check (request : CheckRequest) (pretty : Bool)
  | riddles (catalogueFile : Option String)
  | judge (riddle script : String) (catalogueFile : Option String) (limits : Limits)
  | docs (topic : Option String)

/-- What a command writes, and the code with which it ends. -/
structure Response where
  code : UInt32
  standardOutput : String
  standardError : String

/-- What a command is given besides its arguments: the standard input, unless that is a
terminal, and the text of the catalogue file, if it can be read. -/
structure Surroundings where
  standardInput : Option String
  catalogueText : Option String

namespace Command

def commonOptions : List OptionSpec :=
  [.withValue "deadline-ms" none, .withValue "max-elements" none, .withValue "log" none]

/-- The options before a command. Behind the question for the version nothing counts. -/
def leadingOptions : List OptionSpec :=
  { OptionSpec.flag "version" (some 'V') with isLast := true } :: commonOptions

def ownOptions? : String → Option (List OptionSpec)
  | "check" =>
    some [.withValue "input" (some 'i'), .withValue "record-name" none,
      .withValue "natural-key" none, .flag "pretty" (some 'p'), .flag "syntax-only" none]
  | "riddles" => some [.withValue "catalogue" none]
  | "judge" => some [.withValue "catalogue" none]
  | "docs" => some []
  | _ => none

/-- A limit: the option behind the command counts before the one in front of it, that
before the environment, and the environment before the default. What counts less must be
readable too; the environment alone is not read if both options are given. -/
def limit? (leading own : Arguments) (environment : List (String × String))
    (option variableName : String) (default : Nat) : Option Nat := do
  let ownText := own.value? option
  let leadingText := leading.value? option
  let environmentText :=
    if ownText.isSome && leadingText.isSome then none else environment.lookup variableName
  let counts ← ([ownText, leadingText, environmentText].filterMap id).mapM countOfText?
  some (counts.head?.getD default)

def limits? (leading own : Arguments) (environment : List (String × String)) :
    Option Limits := do
  let deadline ← limit? leading own environment "deadline-ms" "STREAMY_DEADLINE_MS"
    Limits.default.deadline
  let maxElements ← limit? leading own environment "max-elements" "STREAMY_MAX_ELEMENTS"
    Limits.default.maxElements
  some { Limits.default with deadline, maxElements }

def ofArguments? (name : String) (own : Arguments) (limits : Limits) : Option Command :=
  match name, own.positional with
  | "check", [script] =>
    some (check
      { script, input := own.value? "input", recordName := own.value? "record-name",
        naturalKey := own.value? "natural-key", syntaxOnly := own.flag "syntax-only", limits }
      (own.flag "pretty"))
  | "riddles", [] => some (riddles (own.value? "catalogue"))
  | "judge", [riddle, script] => some (judge riddle script (own.value? "catalogue") limits)
  | "docs", [] => some (docs none)
  | "docs", [topic] => some (docs (some topic))
  | _, _ => none

/-- The command that arguments and environment ask for. The version is told whatever the
environment says. -/
def read? (arguments : List String) (environment : List (String × String)) :
    Option Command := do
  let leading ← Arguments.read? leadingOptions true arguments
  if leading.flag "version" then
    (limits? leading ⟨[], []⟩ []).map fun _ => version
  else
    match leading.positional with
    | [] => none
    | name :: rest => do
      let options ← ownOptions? name
      let own ← Arguments.read? (options ++ commonOptions) false rest
      let limits ← limits? leading own environment
      ofArguments? name own limits

/-- The catalogue file that a command reads. -/
def catalogueFile? : Command → Option String
  | riddles file => file
  | judge _ _ file _ => file
  | _ => none

def readsInput : Command → Bool
  | check request _ => request.input.isNone && !request.syntaxOnly
  | _ => false

def riddleSource (file : Option String) (surroundings : Surroundings) : RiddleSource :=
  match file with
  | none => .safari
  | some _ => .file surroundings.catalogueText

def answer (command : Command) (surroundings : Surroundings) :
    Except CommandError (UInt32 × String) :=
  match command with
  | version => .ok (0, "streamy 0.1.0\n")
  | check request pretty => do
    let input := if command.readsInput then surroundings.standardInput else request.input
    match ← { request with input }.answer with
    | .syntaxValid => .ok (0, "Syntax is valid\n")
    | .output json => .ok (0, (if pretty then json.pretty else json.compact) ++ "\n")
  | riddles file => do
    let catalogue ← (riddleSource file surroundings).catalogue
    .ok (0, String.join (catalogue.riddles.map fun riddle => riddle.summary.line ++ "\n"))
  | judge riddle script file limits => do
    let verdict ← (riddleSource file surroundings).judge limits riddle script
    .ok (if verdict.success then 0 else 2, verdict.json.pretty ++ "\n")
  | docs none => .ok (0, overview)
  | docs (some topic) => (topicText topic).map fun text => (0, text)

/-- What a command writes, and the code with which it ends. -/
def respond (command : Command) (surroundings : Surroundings) : Response :=
  match command.answer surroundings with
  | .ok (code, text) => ⟨code, text, ""⟩
  | .error error => ⟨1, "", error.message ++ "\n"⟩

end Command

/-- The response to arguments that ask for no command. -/
def Response.usage : Response :=
  ⟨2, "", "error: the arguments name no command\n"⟩

end Pipeline
