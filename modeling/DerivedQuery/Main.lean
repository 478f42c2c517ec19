import DerivedQuery.Command.Run

/-!
# The command line program

Reads files and writes lines; everything else is done by `Command.run`.
-/

namespace DerivedQuery

/-- Reads a file. -/
def readText (path : String) : IO (Except String String) := do
  try
    return .ok (← IO.FS.readFile path)
  catch error =>
    return .error (toString error)

/-- Runs a command line and gives the exit code. -/
def runProgram (arguments : List String) : IO UInt32 := do
  match Command.parse? arguments with
  | none =>
    IO.eprintln "usage: docrepo (explain|query) --entity NAME --method NAME [--config PATH] [--args JSON] [--page-size N] [--continuation TOKEN]"
    return 2
  | some line =>
    let (result, transcript) ← (Command.run readText line).run.run {}
    IO.eprint transcript.errorText
    IO.print transcript.outputText
    match result with
    | .ok () => return 0
    | .error error =>
      IO.eprintln error.display
      return 1

end DerivedQuery

/-- The command line program. -/
def main (arguments : List String) : IO UInt32 := DerivedQuery.runProgram arguments
