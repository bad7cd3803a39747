import Pipeline.Command

/-!
# The program

Reads what the command needs, writes what it answers, and ends with its code.
-/

set_option autoImplicit false

namespace Pipeline.Main

/-- The variables of the environment that commands look at. -/
def environment : IO (List (String × String)) := do
  let mut found := []
  for name in ["STREAMY_DEADLINE_MS", "STREAMY_MAX_ELEMENTS"] do
    if let some value ← IO.getEnv name then
      found := (name, value) :: found
  return found

/-- The standard input, if the command reads it and it is no terminal. -/
def standardInput (command : Command) : IO (Option String) := do
  let stdin ← IO.getStdin
  if command.readsInput && !(← stdin.isTty) then
    let mut text := ""
    repeat
      let line ← stdin.getLine
      if line.isEmpty then break
      text := text ++ line
    return some text
  return none

/-- The text of the catalogue file, if the command reads one and it can be read. -/
def catalogueText (command : Command) : IO (Option String) := do
  match command.catalogueFile? with
  | none => return none
  | some file =>
    try return some (← IO.FS.readFile file)
    catch _ => return none

/-- Reads what the command needs, and writes its answer. -/
def run (arguments : List String) : IO UInt32 := do
  let response ← match Command.read? arguments (← environment) with
    | none => pure Response.usage
    | some command =>
      pure (command.respond ⟨← standardInput command, ← catalogueText command⟩)
  IO.print response.standardOutput
  IO.eprint response.standardError
  return response.code

end Pipeline.Main

/-- The program: the code that `run` returns is its exit code. -/
def main (arguments : List String) : IO UInt32 :=
  Pipeline.Main.run arguments
