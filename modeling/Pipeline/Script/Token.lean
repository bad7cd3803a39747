import Pipeline.Number
import Pipeline.Text.Quoted

/-!
# Tokens

The words of scripts. The end of a script is no token.
-/

set_option autoImplicit false

namespace Pipeline

/-- Operators and delimiters, by what they say and not by how they are spelled. -/
inductive Symbol where
  | arrow
  | equal
  | notEqual
  | less
  | greater
  | lessEqual
  | greaterEqual
  | plus
  | minus
  | star
  | slash
  | percent
  | and
  | or
  | not
  | leftParen
  | rightParen
  | dot
  | comma
  | question
  | colon
deriving DecidableEq

/-- A token. An integer keeps its digits, since only its place in the script decides
which integers are allowed there. -/
inductive Token where
  | integer (digits : String)
  | float (value : Double)
  | text (value : String)
  | boolean (value : Bool)
  | name (spelling : String)
  | symbol (which : Symbol)
deriving DecidableEq

def Symbol.label : Symbol → String
  | arrow => "Arrow"
  | equal => "EqEq"
  | notEqual => "NotEq"
  | less => "Lt"
  | greater => "Gt"
  | lessEqual => "LtEq"
  | greaterEqual => "GtEq"
  | plus => "Plus"
  | minus => "Minus"
  | star => "Star"
  | slash => "Slash"
  | percent => "Percent"
  | and => "And"
  | or => "Or"
  | not => "Not"
  | leftParen => "LParen"
  | rightParen => "RParen"
  | dot => "Dot"
  | comma => "Comma"
  | question => "Question"
  | colon => "Colon"

/-- How a token is shown in messages. -/
def Token.label : Token → String
  | integer digits => "Integer(" ++ Text.quoted digits ++ ")"
  | float value => "Float(" ++ Layout.token.write value ++ ")"
  | text value => "String(" ++ Text.quoted value ++ ")"
  | boolean value => "Boolean(" ++ toString value ++ ")"
  | name spelling => "Identifier(" ++ Text.quoted spelling ++ ")"
  | symbol which => which.label

/-- How the next token, or the end of the script, is shown in messages. -/
def Token.labelOrEnd : Option Token → String
  | some token => token.label
  | none => "Eof"

end Pipeline
