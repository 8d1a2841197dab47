import ChoiceLang.Check.Inputs
import ChoiceLang.Selection.Value

/-!
# Reports

A check reads every value of its inputs. What is reported depends on the command: the values that
are rejected or refer to objects that do not exist, the canonical text of the accepted values, or
their trees.
-/

namespace ChoiceLang.Check

/-- What is done with the values. -/
inductive Command where
  | check
  | unparse
  | tree
deriving DecidableEq

/-- The name of a command. -/
def Command.name : Command → String
  | check => "check"
  | unparse => "unparse"
  | tree => "tree"

/-- How many values were read, and how many failed. -/
structure Summary where
  checked : Nat
  failed : Nat
deriving DecidableEq

/-- Whether no value failed. -/
def Summary.isClean (summary : Summary) : Bool := summary.failed = 0

/-- What a command prints and logs, and its summary. -/
structure Report where
  output : String
  log : List LogRecord
  summary : Summary
deriving DecidableEq

/-- A value of the inputs and what came of reading it. -/
structure Reading where
  line : Entry
  result : Except Rejection Selection

/-- The reader for the values of the inputs. -/
def Inputs.reader (inputs : Inputs) : Reader where
  config := inputs.config
  oracle := inputs.references.map Catalogue.knows

/-- Reads the values in order. -/
def Inputs.readings (inputs : Inputs) : List Reading :=
  inputs.lines.map fun line => ⟨line, (inputs.reader.readValue line.text).result⟩

namespace Reading

/-- The record about reading a value. -/
def record (reading : Reading) : LogRecord := readingRecord reading.line.text reading.result

/-- Where a value stands, as reports show it. -/
def location (reading : Reading) : String :=
  reading.line.path ++ ":" ++ toString reading.line.number

/-- Why a value is rejected, if it is. -/
def rejection? (reading : Reading) : Option Rejection :=
  match reading.result with
  | .ok _ => none
  | .error rejection => some rejection

/-- The selection of an accepted value. -/
def selection? (reading : Reading) : Option Selection :=
  match reading.result with
  | .ok selection => some selection
  | .error _ => none

/-- The line that reports the failure of a value, if it fails: it is rejected, or objects are
listed and not all its references are among them. -/
def failure? (references : Option Catalogue) (reading : Reading) : Option String :=
  match reading.result, references with
  | .error rejection, _ =>
    some (reading.location ++ ": rejected: " ++ rejection.message ++ "\n")
  | .ok selection, some catalogue =>
    match (selection.unresolved catalogue.knows).answer with
    | [] => none
    | unresolved => some (reading.location ++ ": unresolved: " ++ reportText unresolved ++ "\n")
  | .ok _, none => none

/-- The warning about a value that is left out because it is rejected. -/
def warning? (reading : Reading) : Option LogRecord :=
  reading.rejection?.map fun rejection =>
    { level := .warn, target := "choice_check::cli", message := "skipping rejected expression"
      fields :=
        [("file", reading.line.path), ("line", toString reading.line.number),
         ("error", rejection.message)] }

/-- What is logged about a value that is left out if it is rejected. -/
def records (reading : Reading) : List LogRecord := reading.record :: reading.warning?.toList

end Reading

/-- The report on the failures of the values. -/
def Inputs.check (inputs : Inputs) : Report :=
  let readings := inputs.readings
  let failures := readings.filterMap (Reading.failure? inputs.references)
  let summary := ⟨readings.length, failures.length⟩
  { output :=
      String.join failures ++ toString summary.checked ++ " checked, " ++ toString summary.failed
        ++ " failed\n"
    log := readings.map Reading.record
    summary }

/-- The report with a given output on the values that are accepted. -/
def Inputs.acceptance (inputs : Inputs) (output : String) : Report where
  output := output
  log := inputs.readings.flatMap Reading.records
  summary := ⟨inputs.readings.length, (inputs.readings.filterMap Reading.rejection?).length⟩

/-- Lines with the canonical texts of selections. -/
def canonicalLines : List Selection → Except Unwritable String
  | [] => .ok ""
  | selection :: others => do
    let text ← selection.canonicalText
    let later ← canonicalLines others
    return text ++ "\n" ++ later

/-- The report with the canonical texts of the accepted values. -/
def Inputs.unparse (inputs : Inputs) : Except Unwritable Report :=
  (canonicalLines (inputs.readings.filterMap Reading.selection?)).map inputs.acceptance

/-- An accepted value as JSON: where it stands and its tree. -/
def Reading.toJson? (reading : Reading) : Option Json :=
  reading.selection?.map fun selection =>
    .object
      [("file", .string reading.line.path), ("line", .number reading.line.number),
       ("choice", selection.toJson)]

/-- The report with the trees of the accepted values. -/
def Inputs.tree (inputs : Inputs) : Report :=
  inputs.acceptance (Json.pretty (.array (inputs.readings.filterMap Reading.toJson?)) ++ "\n")

/-- The report of a command. -/
def Inputs.report (inputs : Inputs) : Command → Except Unwritable Report
  | .check => .ok inputs.check
  | .unparse => inputs.unparse
  | .tree => .ok inputs.tree

/-- Why a command gives no report. -/
inductive Failure where
  | load (error : LoadError)
  | write (error : Unwritable)

/-- The wording of a failure. -/
def Failure.message : Failure → String
  | load error => error.message
  | write error => error.message

/-- The record about inputs that were loaded. -/
def Inputs.record (inputs : Inputs) : LogRecord where
  level := .info
  target := "choice_check::cli"
  message := "loaded inputs"
  fields :=
    [("expressions", toString inputs.lines.length), ("sub_token", inputs.config.subToken)]

/-- Loads inputs and makes the report of a command on them. -/
def Command.run (command : Command) (files : Files) (paths : Paths) : Except Failure Report := do
  let inputs ← (Inputs.load files paths).mapError .load
  let report ← (inputs.report command).mapError .write
  return { report with log := inputs.record :: report.log }

end ChoiceLang.Check
