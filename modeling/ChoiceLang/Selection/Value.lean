import ChoiceLang.Expression.Reader
import ChoiceLang.Log
import ChoiceLang.Selection

/-!
# Values

A value is a sub-token and an expression with `|` between them. Reading a value gives a selection
and leaves a log record about the outcome.
-/

namespace ChoiceLang

open Expression

/-- Takes the sub-token off a value, which has to be that of the configuration. -/
def Config.expressionOf (config : Config) (value : String) : Except Rejection (List Char) :=
  match value.toList with
  | [] => .error .emptyInput
  | text =>
    match Text.cutAt '|' text with
    | none => .error (.missingExpression value)
    | some (before, after) =>
      let found := String.ofList before
      if found ≠ config.subToken then .error (.unknownSubToken config.subToken found)
      else if after = [] then .error (.missingExpression value)
      else .ok after

/-- Reads a value. -/
def Reader.readValue (reader : Reader) (value : String) : Inquiry Selection := do
  let text ← .ofResult (reader.config.expressionOf value)
  let root ← reader.readExpression .strict text
  return ⟨reader.config.subToken, reader.config.title, root⟩

/-- The log record about a value that was read. -/
def readingRecord (value : String) : Except Rejection Selection → LogRecord
  | .ok _ =>
    { level := .trace, target := "choice_grammar::parse"
      message := "parsed choice value `" ++ value ++ "`" }
  | .error rejection =>
    { level := .debug, target := "choice_grammar::parse"
      message := "rejected choice value `" ++ value ++ "`: " ++ rejection.message }

end ChoiceLang
