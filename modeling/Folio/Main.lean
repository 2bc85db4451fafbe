import Folio.CommandLine

/-!
# The program

Reads files, prints, and leaves everything else to `CommandLine.run`.
-/

namespace Folio

open CommandLine

/-- The bytes of a file. -/
def readBytes (path : String) : IO (Except FileError (List UInt8)) := do
  try
    return .ok (← IO.FS.readBinFile path).toList
  catch e =>
    match e with
    | .noFileOrDirectory _ _ _ => return .error .notFound
    | .inappropriateType _ _ _ => return .error .isDirectory
    | e => return .error (.other (toString e))

end Folio

/-- Run the command line, print what it leaves and give back its exit code. -/
def main (args : List String) : IO UInt32 := do
  let outcome ← Folio.CommandLine.run Folio.readBytes args
  (← IO.getStderr).putStr outcome.stderr
  (← IO.getStdout).putStr outcome.stdout
  return UInt32.ofNat outcome.exit
