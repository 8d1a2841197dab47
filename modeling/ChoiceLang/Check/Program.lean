import ChoiceLang.Check.Arguments

/-!
# The program

The command line, the environment and the files determine what the program prints and logs and
the code it exits with: 0 if all is well, 1 if a value failed, 2 if nothing could be checked.
-/

namespace ChoiceLang.Check

/-- What the program does. -/
structure Outcome where
  exitCode : UInt8
  output : String := ""
  log : List LogRecord := []
deriving DecidableEq

/-- The text that tells the version. -/
def versionText : String := "choice-check 0.3.0\n"

/-- The text that tells how to call the program. -/
def helpText : String :=
  "Usage: choice-check [--log-level LEVEL] COMMAND --policy FILE [--references FILE] FILES...\n\n"
    ++ "Commands:\n"
    ++ "  check    report rejected values and unresolved references\n"
    ++ "  unparse  print the canonical text of each value\n"
    ++ "  tree     print the trees of all values as JSON\n"

/-- The outcome of a command line that starts no command. -/
def UsageError.outcome : UsageError → Outcome
  | .displayVersion => { exitCode := 0, output := versionText }
  | .displayHelp => { exitCode := 0, output := helpText }
  | _ => { exitCode := 2 }

/-- The record about an environment that sets no level. -/
def LevelError.record (error : LevelError) : LogRecord where
  level := .error
  target := "choice_check"
  message := "invalid configuration"
  fields := [("error", error.message)]

/-- The record about a command that gives no report. -/
def Failure.record (failure : Failure) : LogRecord where
  level := .error
  target := "choice_check"
  message := "choice-check failed"
  fields := [("error", failure.message)]

/-- The record about values that failed. -/
def Summary.record (summary : Summary) : LogRecord where
  level := .info
  target := "choice_check"
  message := "some expressions failed"
  fields := [("failed", toString summary.failed)]

/-- The outcome of a command. -/
def Report.outcome (report : Report) : Outcome :=
  if report.summary.isClean then { exitCode := 0, output := report.output, log := report.log }
  else
    { exitCode := 1, output := report.output, log := report.log ++ [report.summary.record] }

/-- The outcome of a command that may give no report. -/
def outcomeOf : Except Failure Report → Outcome
  | .ok report => report.outcome
  | .error failure => { exitCode := 2, log := [failure.record] }

/-- The outcome of a command line; `environment` is the level that the environment names. -/
def run (arguments : List String) (environment : Option String) (files : Files) : Outcome :=
  match Invocation.ofArguments arguments, environmentLevel environment with
  | .error usage, _ => usage.outcome
  | .ok _, .error error => { exitCode := 2, log := [error.record] }
  | .ok invocation, .ok level =>
    let outcome := outcomeOf (invocation.command.run files invocation.paths)
    { outcome with log := (overrideLevel level invocation.logLevel).select outcome.log }

end ChoiceLang.Check
