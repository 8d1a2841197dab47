import ChoiceLang.Text.Quoted

/-!
# Log records

What a program says about its own work: records with a level, the part of the program they come
from, a message and named values.
-/

namespace ChoiceLang

/-- How important a log record is, from the least to the most. -/
inductive Level where
  | trace
  | debug
  | info
  | warn
  | error
deriving DecidableEq

namespace Level

/-- The place of a level in the order of importance. -/
def rank : Level → Nat
  | trace => 0
  | debug => 1
  | info => 2
  | warn => 3
  | error => 4

/-- The name of a level in lower case. -/
def name : Level → String
  | trace => "trace"
  | debug => "debug"
  | info => "info"
  | warn => "warn"
  | error => "error"

/-- The name of a level as log lines show it. -/
def label : Level → String
  | trace => "TRACE"
  | debug => "DEBUG"
  | info => "INFO"
  | warn => "WARN"
  | error => "ERROR"

end Level

/-- One thing that was logged. -/
structure LogRecord where
  level : Level
  target : String
  message : String
  fields : List (String × String) := []
deriving DecidableEq

/-- The form of a character of a message in a log line: controls that steer a terminal are shown
by their number. -/
def lineChar (c : Char) : List Char :=
  if c.toNat = 0x07 ∨ c.toNat = 0x08 then ['\\', 'x', '0'] ++ Text.hexDigits c.toNat
  else if c.toNat = 0x0C then ['\\', 'x', '0', 'c']
  else if c.toNat = 0x1B ∨ c.toNat = 0x7F then ['\\', 'x'] ++ Text.hexDigits c.toNat
  else if 0x80 ≤ c.toNat ∧ c.toNat ≤ 0x9F then
    ['\\', 'u', '\x7b'] ++ Text.hexDigits c.toNat ++ ['\x7d']
  else [c]

/-- The line of a log record, without the time. -/
def LogRecord.line (record : LogRecord) : String :=
  record.level.label ++ " " ++ record.target ++ ": "
    ++ String.ofList (record.message.toList.flatMap lineChar)
    ++ String.join (record.fields.map fun field => " " ++ field.1 ++ "=" ++ field.2)

/-- The records that are at least as important as a level. -/
def Level.select (level : Level) (records : List LogRecord) : List LogRecord :=
  records.filter fun record => level.rank ≤ record.level.rank

end ChoiceLang
