import Pipeline.Policy.Error
import Pipeline.Text.Word

/-!
# Screening the text of a script

The first layer of the policy looks at the text alone: its length, and the words that
no script may contain outside its string literals.
-/

set_option autoImplicit false

namespace Pipeline

/-- The words that name concurrency, the building of objects, the environment or
reflection. -/
def forbiddenWords : List String :=
  ["parallel", "parallelStream", "forEach", "peek", "new", "System", "Runtime", "Thread",
    "Class", "getClass", "reflect", "exec", "spawn", "unsafe", "std", "env", "process", "File"]

/-- One space for each byte of a character. -/
def blanksFor (c : Char) : List Char :=
  List.replicate c.utf8Size ' '

/-- The text with the contents of its string literals blanked out, byte for byte; `quote`
is the quote of the literal in which the text starts, if it does. The character behind
a backslash never ends a literal. -/
def maskFrom : Option Char → List Char → List Char
  | _, [] => []
  | none, c :: rest => c :: maskFrom (if c = '"' ∨ c = '\'' then some c else none) rest
  | some quote, '\\' :: c :: rest =>
    blanksFor '\\' ++ (blanksFor c ++ maskFrom (some quote) rest)
  | some quote, c :: rest =>
    if c = quote then c :: maskFrom none rest else blanksFor c ++ maskFrom (some quote) rest

/-- A script with the contents of its string literals blanked out. -/
def maskLiterals (script : String) : List Char :=
  maskFrom none script.toList

/-- Refuses a script that is too long or contains a forbidden word. -/
def screen (limit : Nat) (script : String) : Except PolicyError Unit :=
  if limit < script.utf8ByteSize then .error (.tooLong script.utf8ByteSize limit)
  else
    match Text.firstWord? forbiddenWords none (maskLiterals script) with
    | some word => .error (.forbidden word)
    | none => .ok ()

end Pipeline
