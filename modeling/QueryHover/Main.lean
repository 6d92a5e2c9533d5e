import QueryHover.Command.Run

/-
  The command line.

  Files and standard input are read first; what is written
  and the exit code follow from them.
-/

namespace QueryHover

namespace Main

/- Read a file. -/
def readFile
    (path : String) : IO (Except ReadError String) := do
  try
    pure (.ok (← IO.FS.readFile path))
  catch e =>
    match e with
    | .noFileOrDirectory .. => pure (.error (.missing path))
    | .inappropriateType _ _ reason =>
        let reason := reason.toLower
        if reason = "is a directory" then
          pure (.error (.isDirectory path))
        else
          pure (.error (.failed path reason))
    | e => pure (.error (.failed path (toString e)))

/- Files by their paths; any other path is missing. -/
def lookup
    (files : List (String × Except ReadError String))
    (path : String) : Except ReadError String :=
  (files.lookup path).getD (.error (.missing path))

/- Run the words of the command line. -/
def run
    (words : List String) : IO UInt32 := do
  let directory := (← IO.currentDir).toString
  let needs := Command.needs directory words
  let files ← needs.files.mapM fun path => do
    pure (path, ← readFile path)
  let input ←
    if needs.input then
      (← IO.getStdin).readToEnd
    else
      pure ""
  let outcome :=
    Command.run
      { directory, input, color := false
        read := lookup files }
      words
  IO.print outcome.stdout
  IO.eprint outcome.stderr
  pure (if outcome.error.isSome then 1 else 0)

end Main

end QueryHover

/- The entry point. -/
def main
    (words : List String) : IO UInt32 :=
  QueryHover.Main.run words
