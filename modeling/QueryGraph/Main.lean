import QueryGraph.CommandLine.Run

/-!
# The program

Reads the files and variables that a run may need, and writes what it leaves behind.
-/

open QueryGraph CommandLine

/-- The text of a file, if it can be read. -/
def fileText? (path : String) : IO (Option String) := do
  try
    return some (← IO.FS.readFile path)
  catch _ =>
    return none

/-- The paths that a run with some arguments may read. -/
def neededPaths (arguments : List String) : List String :=
  ".env" ::
    match Request.ofArguments arguments with
    | .ok (.compile arguments) =>
        arguments.schema :: arguments.query :: arguments.config.toList
    | _ => []

/-- The variables of a configuration that are set. -/
def setVariables : IO (List (String × String)) := do
  let names :=
    [CompilerConfig.strictVariable, CompilerConfig.sharedVariable,
      CompilerConfig.unsharedVariable]
  let values ← names.mapM fun name => do
    return (← IO.getEnv name).map fun value => (name, value)
  return values.filterMap fun value => value

/-- Runs the program. -/
def main (arguments : List String) : IO UInt32 := do
  let files ← (neededPaths arguments).mapM fun path => do
    return (path, ← fileText? path)
  let outcome := run {
    environment := Environment.ofTexts (← setVariables)
    fileText := fun path => (files.lookup path).join } arguments
  IO.print outcome.output
  match outcome.complaint with
  | some complaint => IO.eprintln ("Error: " ++ complaint)
  | none => pure ()
  return UInt32.ofNat outcome.code
