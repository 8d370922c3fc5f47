import Reckoner.CommandLine

/-!
# The program

Connects the command line with the files and streams of the system.
-/

namespace Reckoner.CommandLine

/-- Why a file cannot be read. -/
def reasonText : IO.Error → String
  | .noFileOrDirectory _ code _ => s!"No such file or directory (os error {code})"
  | error => toString error

/-- The files and streams of the system. -/
def systemHost : Host IO where
  fileText path := do
    try return .ok (← IO.FS.readFile path)
    catch error => return .error (reasonText error)
  readLine := do
    let line ← (← IO.getStdin).getLine
    return if line.isEmpty then none else some line
  write text := do
    let out ← IO.getStdout
    out.putStr text
    out.flush
  writeError text := do
    (← IO.getStderr).putStr text

end Reckoner.CommandLine

/-- Runs the program. -/
def main (args : List String) : IO UInt32 := do
  match Reckoner.CommandLine.read args with
  | none =>
    IO.eprintln "error: the arguments are not understood"
    return 2
  | some a =>
    if ← Reckoner.CommandLine.run Reckoner.CommandLine.systemHost a then return 0 else return 1
