import Pipeline.Json

/-!
# Writing JSON

The compact form, without any blanks, and the pretty form, with one item or member a
line and two spaces for each level.
-/

set_option autoImplicit false

namespace Pipeline.Json

def hexDigit (n : Nat) : Char :=
  if n < 10 then Char.ofNat ('0'.toNat + n) else Char.ofNat ('a'.toNat + (n - 10))

/-- How one character stands inside a JSON string: only the quote, the backslash and
the controls are escaped. -/
def escapeChar (c : Char) : List Char :=
  if c = '"' then ['\\', '"']
  else if c = '\\' then ['\\', '\\']
  else if c = '\x08' then ['\\', 'b']
  else if c = '\x0c' then ['\\', 'f']
  else if c = '\n' then ['\\', 'n']
  else if c = '\r' then ['\\', 'r']
  else if c = '\t' then ['\\', 't']
  else if c.toNat < 0x20 then
    ['\\', 'u', '0', '0', hexDigit (c.toNat / 16), hexDigit (c.toNat % 16)]
  else [c]

def stringText (text : String) : String :=
  String.ofList ('"' :: text.toList.flatMap escapeChar ++ ['"'])

/-- A number; a double that is not finite has no digits and becomes null. -/
def numberText : Number → String
  | .integer n => toString n.toInt
  | .float x => Layout.json.write x

/-- Parts between brackets, separated by commas. -/
def enclosed (opening closing : String) (parts : List String) : String :=
  opening ++ ",".intercalate parts ++ closing

mutual

def compact : Json → String
  | null => "null"
  | boolean value => if value then "true" else "false"
  | number value => numberText value
  | string value => stringText value
  | array items => enclosed "[" "]" (compactItems items)
  | object members => enclosed "\x7b" "\x7d" (compactMembers members)
termination_by structural json => json

def compactItems : List Json → List String
  | [] => []
  | item :: rest => compact item :: compactItems rest
termination_by structural items => items

def compactMembers : List (String × Json) → List String
  | [] => []
  | (name, value) :: rest => (stringText name ++ ":" ++ compact value) :: compactMembers rest
termination_by structural members => members

end

/-- The start of a line at the given level. -/
def newLine (level : Nat) : String :=
  "\n" ++ String.ofList (List.replicate (2 * level) ' ')

/-- Parts between brackets, one a line, where `level` is that of the brackets. -/
def enclosedLines (opening closing : String) (level : Nat) (parts : List String) : String :=
  if parts.isEmpty then opening ++ closing
  else
    opening ++ newLine (level + 1) ++ ("," ++ newLine (level + 1)).intercalate parts ++
      newLine level ++ closing

mutual

/-- The pretty form of a value whose brackets stand at the given level. -/
def prettyAt (level : Nat) : Json → String
  | null => "null"
  | boolean value => if value then "true" else "false"
  | number value => numberText value
  | string value => stringText value
  | array items => enclosedLines "[" "]" level (prettyItems (level + 1) items)
  | object members =>
    enclosedLines "\x7b" "\x7d" level (prettyMembers (level + 1) members)
termination_by structural json => json

def prettyItems (level : Nat) : List Json → List String
  | [] => []
  | item :: rest => prettyAt level item :: prettyItems level rest
termination_by structural items => items

def prettyMembers (level : Nat) : List (String × Json) → List String
  | [] => []
  | (name, value) :: rest =>
    (stringText name ++ ": " ++ prettyAt level value) :: prettyMembers level rest
termination_by structural members => members

end

def pretty (json : Json) : String :=
  prettyAt 0 json

end Pipeline.Json
