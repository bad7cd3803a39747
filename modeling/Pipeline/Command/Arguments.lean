import Pipeline.Number.Integer

/-!
# Arguments of commands

Options and positional arguments as they stand on a command line: `--name value` and
`--name=value`, `-n value`, `-nvalue` and `-n=value`, flags that may share one hyphen,
and `--` before arguments that are all positional.
-/

set_option autoImplicit false

namespace Pipeline

structure OptionSpec where
  name : String
  letter : Option Char
  takesValue : Bool
  /-- Whether nothing behind the option is looked at. -/
  isLast : Bool

/-- An option that stands for itself. -/
def OptionSpec.flag (name : String) (letter : Option Char) : OptionSpec :=
  ⟨name, letter, false, false⟩

def OptionSpec.withValue (name : String) (letter : Option Char) : OptionSpec :=
  ⟨name, letter, true, false⟩

/-- The options that were given, flags with an empty value, and the other arguments. -/
structure Arguments where
  given : List (String × String)
  positional : List String

namespace Arguments

def addOption? (name value : String) (arguments : Arguments) : Option Arguments :=
  if (arguments.given.lookup name).isSome then none
  else some { arguments with given := (name, value) :: arguments.given }

def addPositional (argument : String) (arguments : Arguments) : Arguments :=
  { arguments with positional := argument :: arguments.positional }

/-- Whether an argument may be the value of the option before it. -/
def isValue (argument : String) : Bool :=
  argument == "-" || argument.toList.head? != some '-'

/-- The part of a text before a character, and the part behind it if it occurs. -/
def splitAt (c : Char) : List Char → List Char × Option (List Char)
  | [] => ([], none)
  | first :: rest =>
    if first = c then ([], some rest)
    else
      let (before, behind) := splitAt c rest
      (first :: before, behind)

/-- What the letters behind one hyphen say: flags, and at the end an option with a value
where `none` stands for the next argument. -/
def readLetters? (specs : List OptionSpec) :
    List Char → Option (List (String × Option String))
  | [] => some []
  | letter :: rest => do
    let spec ← specs.find? (·.letter == some letter)
    if spec.isLast then some [(spec.name, some "")]
    else if spec.takesValue then
      match rest with
      | [] => some [(spec.name, none)]
      | '=' :: value => some [(spec.name, some (String.ofList value))]
      | value => some [(spec.name, some (String.ofList value))]
    else
      let others ← readLetters? specs rest
      some ((spec.name, some "") :: others)

def readLong? (specs : List OptionSpec) (text : List Char) :
    Option (String × Option String) := do
  let (name, value) := splitAt '=' text
  let spec ← specs.find? (·.name == String.ofList name)
  if spec.takesValue then some (spec.name, value.map String.ofList)
  else if value.isSome then none
  else some (spec.name, some "")

def readOption? (specs : List OptionSpec) :
    List Char → Option (List (String × Option String))
  | '-' :: '-' :: name => (readLong? specs name).map ([·])
  | '-' :: letters => readLetters? specs letters
  | _ => none

def endsReading (specs : List OptionSpec) (options : List (String × Option String)) : Bool :=
  options.any fun (name, _) => specs.any fun spec => spec.isLast && spec.name == name

/-- Reads arguments against the options of a command. If `leading`, the first positional
argument ends the options, everything from it on is positional, and `--` is no argument. -/
def read? (specs : List OptionSpec) (leading : Bool) : List String → Option Arguments
  | [] => some ⟨[], []⟩
  | argument :: rest =>
    if argument = "--" then
      if leading then none else some ⟨[], rest⟩
    else if isValue argument then
      if leading then some ⟨[], argument :: rest⟩
      else (read? specs leading rest).map (addPositional argument)
    else do
      let options ← readOption? specs argument.toList
      match options.getLast?, rest with
      | some (_, none), [] => none
      | some (_, none), value :: rest =>
        if isValue value then
          let arguments ← read? specs leading rest
          options.foldrM (fun (name, own) arguments =>
            addOption? name (own.getD value) arguments) arguments
        else none
      | _, rest =>
        let arguments ←
          if endsReading specs options then some ⟨[], []⟩ else read? specs leading rest
        options.foldrM (fun (name, own) arguments =>
          addOption? name (own.getD "") arguments) arguments

def value? (arguments : Arguments) (name : String) : Option String :=
  arguments.given.lookup name

def flag (arguments : Arguments) (name : String) : Bool :=
  (arguments.value? name).isSome

end Arguments

/-- The count of 64 bits that a text denotes; a plus sign may come first. -/
def countOfText? (text : String) : Option Nat := do
  let digits := match text.toList with
    | '+' :: digits => digits
    | digits => digits
  let count ← natural? digits
  if count < Nat.pow 2 64 then some count else none

end Pipeline
