import ChoiceLang.Log

/-!
# The log level of a check

The level is given on the command line or in the environment, by its name in letters of either
case; the command line wins.
-/

namespace ChoiceLang.Check

/-- A text that names no level. -/
structure LevelError where
  text : String
deriving DecidableEq

/-- The wording of the error. -/
def LevelError.message (error : LevelError) : String :=
  "invalid configuration: unknown log level '" ++ error.text
    ++ "', expected one of: trace, debug, info, warn, error"

/-- The names of the levels. -/
def levelNames : List (String × Level) :=
  [("trace", .trace), ("debug", .debug), ("info", .info), ("warn", .warn), ("warning", .warn),
   ("error", .error)]

/-- The level that a text names. -/
def readLevel (text : String) : Except LevelError Level :=
  match levelNames.find? fun entry => entry.1 = text.toLower with
  | some (_, level) => .ok level
  | none => .error ⟨text⟩

/-- The level without a setting. -/
def standardLevel : Level := .warn

/-- The level that the environment sets. -/
def environmentLevel : Option String → Except LevelError Level
  | none => .ok standardLevel
  | some text => readLevel text

/-- The level in force when the command line gives one or none. -/
def overrideLevel (level : Level) (flag : Option Level) : Level := flag.getD level

end ChoiceLang.Check
