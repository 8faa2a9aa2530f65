/-
The program. It reads a snapshot from standard input and analyzes the
directory that the first argument names, or the sample without one.
The environment chooses how much is told on standard error.
-/
import QueryLint.CommandLine
import QueryLint.Snapshot

namespace QueryLint

/-- The lines of a stream up to its end. -/
partial def readLines (stream : IO.FS.Stream) : IO (List String) := do
  let line ← stream.getLine
  if line.isEmpty then return []
  let rest ← readLines stream
  return String.ofList (line.toList.filter (· != '\n')) :: rest

/-- The variable that names the level. -/
def levelVariable : String := "EF_ROCKET_LOG_LEVEL"

end QueryLint

section

open QueryLint

/-- Runs the program. -/
def main (args : List String) : IO UInt32 := do
  let lines ← readLines (← IO.getStdin)
  let level ← IO.getEnv levelVariable
  let some snapshot := Snapshot.ofLines? lines
    | do
      (← IO.getStderr).putStrLn "malformed snapshot"
      return 2
  match CommandLine.run snapshot.parse? snapshot.files level args with
  | .ok out =>
    (← IO.getStderr).putStr out.stderr
    (← IO.getStdout).putStr out.stdout
    return 0
  | .error e =>
    (← IO.getStderr).putStrLn e.message
    return 1

end
