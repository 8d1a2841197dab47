import ChoiceLang.Check.Program

/-!
# The command line

Reads the files that a command line names, runs the program on them, and prints.
-/

namespace ChoiceLang.Check

/-- The text of a file or why it cannot be read. -/
def readPath (path : String) : IO (Except ReadFailure String) := do
  try
    let bytes ← IO.FS.readBinFile path
    return match String.fromUTF8? bytes with
      | some text => .ok text
      | none => .error .notText
  catch error =>
    return .error <|
      match error with
      | .noFileOrDirectory .. => .missing
      | .inappropriateType .. => .directory
      | _ => .other (toString error)

/-- The files that a command line names. -/
def namedFiles (arguments : List String) : IO Files := do
  match Invocation.ofArguments arguments with
  | .error _ => return fun _ => .error .missing
  | .ok invocation =>
    let paths := invocation.paths
    let texts ← (paths.policy :: paths.references.toList ++ paths.files).mapM fun path => do
      return (path, ← readPath path)
    return fun path => (texts.lookup path).getD (.error .missing)

end ChoiceLang.Check

open ChoiceLang Check in
/-- The program `choice-check`. -/
def main (arguments : List String) : IO UInt32 := do
  let environment ← IO.getEnv "CHOICE_CHECK_LOG_LEVEL"
  let files ← namedFiles arguments
  let outcome := run arguments environment files
  for record in outcome.log do
    IO.eprintln record.line
  IO.print outcome.output
  return outcome.exitCode.toUInt32
