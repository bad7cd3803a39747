import Pipeline.Json.Raw

/-!
# Reading JSON

The grammar of JSON over lists of characters. Each reader takes what it reads from
the front and returns the rest.
-/

set_option autoImplicit false

namespace Pipeline.Json

/-- The text after the blanks of JSON. -/
def skipBlanks : List Char → List Char :=
  List.dropWhile fun c => c == ' ' || c == '\n' || c == '\t' || c == '\r'

/-- The digits at the front, at least one. -/
def readDigits? (text : List Char) : Option (List Char × List Char) :=
  let digits := text.takeWhile isDigit
  if digits.isEmpty then none else some (digits, text.dropWhile isDigit)

/-- The digits of a whole part, which starts with zero only if it is zero. -/
def readWhole? : List Char → Option (List Char × List Char)
  | '0' :: rest => if (rest.head?.map isDigit).getD false then none else some (['0'], rest)
  | text => readDigits? text

def readFraction? : List Char → Option (Option (List Char) × List Char)
  | '.' :: rest => (readDigits? rest).map fun (digits, rest) => (some digits, rest)
  | text => some (none, text)

/-- An exponent after its mark. -/
def readSignedDigits? : List Char → Option (Option (Bool × List Char) × List Char)
  | '-' :: rest => (readDigits? rest).map fun (digits, rest) => (some (true, digits), rest)
  | '+' :: rest => (readDigits? rest).map fun (digits, rest) => (some (false, digits), rest)
  | text => (readDigits? text).map fun (digits, rest) => (some (false, digits), rest)

def readExponent? : List Char → Option (Option (Bool × List Char) × List Char)
  | 'e' :: rest => readSignedDigits? rest
  | 'E' :: rest => readSignedDigits? rest
  | text => some (none, text)

def readUnsigned? (negative : Bool) (text : List Char) : Option (NumberLiteral × List Char) := do
  let (whole, text) ← readWhole? text
  let (fraction, text) ← readFraction? text
  let (exponent, text) ← readExponent? text
  some (⟨negative, whole, fraction, exponent⟩, text)

def readNumber? : List Char → Option (NumberLiteral × List Char)
  | '-' :: rest => readUnsigned? true rest
  | text => readUnsigned? false text

def hexValue? (c : Char) : Option Nat :=
  if isDigit c then some (c.toNat - '0'.toNat)
  else if 'a' ≤ c ∧ c ≤ 'f' then some (c.toNat - 'a'.toNat + 10)
  else if 'A' ≤ c ∧ c ≤ 'F' then some (c.toNat - 'A'.toNat + 10)
  else none

def hexCode? (a b c d : Char) : Option Nat := do
  let a ← hexValue? a
  let b ← hexValue? b
  let c ← hexValue? c
  let d ← hexValue? d
  some (((a * 16 + b) * 16 + c) * 16 + d)

def escaped? : Char → Option Char
  | '"' => some '"'
  | '\\' => some '\\'
  | '/' => some '/'
  | 'b' => some '\x08'
  | 'f' => some '\x0c'
  | 'n' => some '\n'
  | 'r' => some '\r'
  | 't' => some '\t'
  | _ => none

/-- The rest of a string after its opening quote. Controls stand only as escapes. -/
def readString? : List Char → Option (List Piece × List Char)
  | [] => none
  | '"' :: rest => some ([], rest)
  | '\\' :: 'u' :: a :: b :: c :: d :: rest => do
    let code ← hexCode? a b c d
    let (pieces, rest) ← readString? rest
    some (.unit code :: pieces, rest)
  | '\\' :: letter :: rest => do
    let c ← escaped? letter
    let (pieces, rest) ← readString? rest
    some (.char c :: pieces, rest)
  | c :: rest =>
    if c = '\\' ∨ c.toNat < 0x20 then none
    else do
      let (pieces, rest) ← readString? rest
      some (.char c :: pieces, rest)

def readWord? (word : String) (value : Raw) (text : List Char) : Option (Raw × List Char) :=
  if word.toList.isPrefixOf text then some (value, text.drop word.length) else none

mutual

/-- A value after any blanks. Every step of the mutual readers uses one unit of fuel. -/
def readValue? : Nat → List Char → Option (Raw × List Char)
  | 0, _ => none
  | fuel + 1, text =>
    match skipBlanks text with
    | '"' :: rest => (readString? rest).map fun (pieces, rest) => (.string pieces, rest)
    | '[' :: rest =>
      match skipBlanks rest with
      | ']' :: rest => some (.array [], rest)
      | rest => (readItems? fuel rest).map fun (items, rest) => (.array items, rest)
    | '\x7b' :: rest =>
      match skipBlanks rest with
      | '\x7d' :: rest => some (.object [], rest)
      | rest => (readMembers? fuel rest).map fun (members, rest) => (.object members, rest)
    | 'n' :: rest => readWord? "ull" .null rest
    | 't' :: rest => readWord? "rue" (.boolean true) rest
    | 'f' :: rest => readWord? "alse" (.boolean false) rest
    | text => (readNumber? text).map fun (literal, rest) => (.number literal, rest)

def readItems? : Nat → List Char → Option (List Raw × List Char)
  | 0, _ => none
  | fuel + 1, text => do
    let (item, text) ← readValue? fuel text
    match skipBlanks text with
    | ']' :: rest => some ([item], rest)
    | ',' :: rest => do
      let (items, rest) ← readItems? fuel rest
      some (item :: items, rest)
    | _ => none

def readMembers? : Nat → List Char → Option (List (List Piece × Raw) × List Char)
  | 0, _ => none
  | fuel + 1, text =>
    match skipBlanks text with
    | '"' :: rest => do
      let (name, text) ← readString? rest
      match skipBlanks text with
      | ':' :: rest => do
        let (value, text) ← readValue? fuel rest
        match skipBlanks text with
        | '\x7d' :: rest => some ([(name, value)], rest)
        | ',' :: rest => do
          let (members, rest) ← readMembers? fuel rest
          some ((name, value) :: members, rest)
        | _ => none
      | _ => none
    | _ => none

end

/-- The raw value that makes up a whole text. A value and the list around it each use a
unit of fuel for one character at least, so twice the length is enough. -/
def readRaw? (text : String) : Option Raw := do
  let cs := text.toList
  let (raw, rest) ← readValue? (2 * cs.length + 1) cs
  if (skipBlanks rest).isEmpty then some raw else none

def read? (text : String) : Option Json := do
  let raw ← readRaw? text
  raw.value? maxNesting

end Pipeline.Json
