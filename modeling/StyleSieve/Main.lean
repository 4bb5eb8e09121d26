import StyleSieve.CommandLine.Execution

/-!
# The program

The program works on what it knows of the files.  As long as it looks at paths
that it does not know yet, these are looked up and it starts again; only then is
anything printed or written.
-/

namespace StyleSieve

open CommandLine (Outcome)

/-- The name of the program. -/
def programName : String := "csstrim"

/-- What stands at a path. -/
def lookUp (path : String) : IO Fetch.Entry := do
  try
    return .file (← IO.FS.readBinFile path).toList
  catch
    | .noFileOrDirectory .. => return .free
    | .inappropriateType .. => return .directory
    | .permissionDenied .. => return .closedFile
    | _ => return .noParent

/-- The rest of a stream. -/
partial def readRest (stream : IO.FS.Stream) (read : String) : IO String := do
  let line ← stream.getLine
  if line.isEmpty then return read else readRest stream (read ++ line)

/-- What the program ends with, where some files are known. -/
partial def settle (directory input : String) (arguments : List String)
    (known : List (String × Fetch.Entry)) : IO Outcome := do
  let world : Fetch.World := {
    directory
    files := fun path => (known.lookup path).getD .free
    network := Fetch.offline }
  let unknown := (CommandLine.pathsLookedAt world input arguments).filter fun path =>
    (known.lookup path).isNone
  if unknown.isEmpty then
    return CommandLine.runProgram world programName input arguments
  let found ← unknown.mapM fun path => do return (path, ← lookUp path)
  settle directory input arguments (known ++ found)

end StyleSieve

/-- Runs the program with the arguments it is given. -/
def main (arguments : List String) : IO UInt32 := do
  let input ←
    if StyleSieve.CommandLine.readsInput arguments then
      StyleSieve.readRest (← IO.getStdin) ""
    else pure ""
  let outcome ←
    StyleSieve.settle (← IO.currentDir).toString input arguments []
  IO.print outcome.output
  IO.eprint outcome.messages
  match outcome.written with
  | some file => IO.FS.writeFile file.path file.text
  | none => pure ()
  return outcome.status.toUInt32
