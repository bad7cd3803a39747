import Pipeline.Script.Token
import Pipeline.Text.Blank
import Pipeline.Text.Numeric

/-!
# From characters to tokens

The scanner takes one token from the front of a text. It sees the whole rest of the
text and nothing else, so a position in a script is known from the rest that starts
there: it is the length of the script less that of the rest.
-/

set_option autoImplicit false

namespace Pipeline

/-- Why a text has no next token. Each fault knows its position in the script. -/
inductive LexicalError where
  | unexpectedChar (c : Char) (position : Nat)
  | unterminatedText (position : Nat)
  | invalidEscape (c : Char) (position : Nat)
  | unfinishedEscape (position : Nat)
  | bareEquals (position : Nat)
deriving DecidableEq

def LexicalError.message : LexicalError → String
  | unexpectedChar c position =>
    "Unexpected character '" ++ String.singleton c ++ "' at position " ++ toString position
  | unterminatedText position =>
    "Unterminated string starting at position " ++ toString position
  | invalidEscape c position =>
    "Invalid escape sequence '\\" ++ String.singleton c ++ "' at position " ++ toString position
  | unfinishedEscape position =>
    "Unexpected end of input after '\\' at position " ++ toString position
  | bareEquals position =>
    "Unexpected '=' at position " ++ toString position ++ " (did you mean '==' or '!='?)"

/-- What is found at the front of a text. -/
inductive Scan where
  /-- Nothing but blanks, up to the end. -/
  | finished
  | token (token : Token) (rest : List Char)
  /-- No token; `rest` is what the scanner has not passed. -/
  | fault (error : LexicalError) (rest : List Char)

namespace Scan

def escaped? : Char → Option Char
  | 'n' => some '\n'
  | 't' => some '\t'
  | 'r' => some '\r'
  | '"' => some '"'
  | '\'' => some '\''
  | '\\' => some '\\'
  | _ => none

/-- What is found after an opening quote. -/
inductive TextScan where
  | closed (content rest : List Char)
  | unterminated
  | invalidEscape (c : Char) (rest : List Char)
  | unfinishedEscape

/-- Adds a character in front of a closed text. -/
def TextScan.cons (c : Char) : TextScan → TextScan
  | closed content rest => closed (c :: content) rest
  | other => other

/-- Reads a text up to the given quote. -/
def readText (quote : Char) : List Char → TextScan
  | [] => .unterminated
  | '\\' :: [] => .unfinishedEscape
  | '\\' :: letter :: rest =>
    match escaped? letter with
    | some c => (readText quote rest).cons c
    | none => .invalidEscape letter (letter :: rest)
  | c :: rest => if c = quote then .closed [] rest else (readText quote rest).cons c

/-- Reads the digits at the front of a text and drops the underscores between them. Returns
the digits and the rest. -/
def readDigits : List Char → List Char × List Char
  | [] => ([], [])
  | '_' :: next :: rest =>
    if isDigit next then readDigits (next :: rest) else ([], '_' :: next :: rest)
  | c :: rest =>
    if isDigit c then
      let (digits, rest) := readDigits rest
      (c :: digits, rest)
    else ([], c :: rest)

/-- A number at the front of a text that starts with a digit. -/
def readNumber (text : List Char) : Token × List Char :=
  let (whole, rest) := readDigits text
  match rest with
  | '.' :: next :: rest =>
    if isDigit next then
      let (fraction, rest) := readDigits (next :: rest)
      let value := Double.ofDecimal false (digitsValue 0 (whole ++ fraction)) (-fraction.length)
      (.float value, rest)
    else (.integer (String.ofList whole), '.' :: next :: rest)
  | rest => (.integer (String.ofList whole), rest)

def startsName (c : Char) : Bool :=
  Text.isLetter c || c == '_'

def continuesName (c : Char) : Bool :=
  Text.isLetterOrNumeral c || c == '_'

/-- The token that a word is: a keyword or a name. -/
def wordToken (word : String) : Token :=
  if word = "and" then .symbol .and
  else if word = "or" then .symbol .or
  else if word = "not" then .symbol .not
  else if word = "true" then .boolean true
  else if word = "false" then .boolean false
  else .name word

/-- The symbol at the front of a text, if there is one, and the rest. -/
def readSymbol? : List Char → Option (Symbol × List Char)
  -- Of two symbols that start alike the longer one is taken.
  | '-' :: '>' :: rest => some (.arrow, rest)
  | '=' :: '=' :: rest => some (.equal, rest)
  | '!' :: '=' :: rest => some (.notEqual, rest)
  | '>' :: '=' :: rest => some (.greaterEqual, rest)
  | '<' :: '=' :: rest => some (.lessEqual, rest)
  | '&' :: '&' :: rest => some (.and, rest)
  | '|' :: '|' :: rest => some (.or, rest)
  | '.' :: rest => some (.dot, rest)
  | ',' :: rest => some (.comma, rest)
  | '?' :: rest => some (.question, rest)
  | ':' :: rest => some (.colon, rest)
  | '(' :: rest => some (.leftParen, rest)
  | ')' :: rest => some (.rightParen, rest)
  | '+' :: rest => some (.plus, rest)
  | '*' :: rest => some (.star, rest)
  | '/' :: rest => some (.slash, rest)
  | '%' :: rest => some (.percent, rest)
  | '-' :: rest => some (.minus, rest)
  | '!' :: rest => some (.not, rest)
  | '>' :: rest => some (.greater, rest)
  | '<' :: rest => some (.less, rest)
  | _ => none

/-- The text token whose opening quote is at the front of a text. -/
def textToken (length : Nat) (quote : Char) (text : List Char) : Scan :=
  match readText quote text.tail with
  | .closed content rest => .token (.text (String.ofList content)) rest
  | .unterminated => .fault (.unterminatedText (length - text.length)) []
  | .invalidEscape c rest => .fault (.invalidEscape c (length - rest.length)) rest
  | .unfinishedEscape => .fault (.unfinishedEscape length) []

/-- What is found at the front of a text without leading blanks; `length` is the length
of the whole script. -/
def visible (length : Nat) (text : List Char) : Scan :=
  match readSymbol? text with
  | some (symbol, rest) => .token (.symbol symbol) rest
  | none =>
    match text with
    | [] => .finished
    | c :: _ =>
      if c = '"' ∨ c = '\'' then textToken length c text
      else if startsName c then
        .token (wordToken (String.ofList (text.takeWhile continuesName)))
          (text.dropWhile continuesName)
      else if isDigit c then
        let (number, rest) := readNumber text
        .token number rest
      else if c = '=' then .fault (.bareEquals (length - text.length)) text
      else .fault (.unexpectedChar c (length - text.length)) text

/-- What is found at the front of a text, after blanks. -/
def next (length : Nat) (text : List Char) : Scan :=
  visible length (Text.trimStart text)

end Scan

/-- The tokens of a script, each with the position behind it, and the fault with which
they break off, if they do, with the position where the scanner stopped. -/
structure Lexed where
  tokens : List (Nat × Token)
  fault : Option (Nat × LexicalError)

namespace Lexed

def cons (position : Nat) (token : Token) (lexed : Lexed) : Lexed :=
  { lexed with tokens := (position, token) :: lexed.tokens }

/-- The tokens at the front of the rest of a script of the given length, at most `steps`
of them. -/
def ofRest (length : Nat) : Nat → List Char → Lexed
  | 0, _ => ⟨[], none⟩
  | steps + 1, text =>
    match Scan.next length text with
    | .finished => ⟨[], none⟩
    | .fault error rest => ⟨[], some (length - rest.length, error)⟩
    | .token token rest => (ofRest length steps rest).cons (length - rest.length) token

/-- The tokens of a script. Every token takes a character at least, so there are not
more tokens than characters. -/
def ofScript (script : String) : Lexed :=
  let text := script.toList
  ofRest text.length (text.length + 1) text

end Lexed

end Pipeline
