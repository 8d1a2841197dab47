import ChoiceLang.Config.Json
import ChoiceLang.Reference.Catalogue
import ChoiceLang.Text.Line

/-!
# The inputs of a check

A check has a policy file with a configuration, perhaps a file that lists existing objects, and
files with one value per line. They are read in this order, and the first failure ends the check.
-/

namespace ChoiceLang.Check

/-- Why a file cannot be read. -/
inductive ReadFailure where
  | missing
  | directory
  | notText
  | other (description : String)
deriving DecidableEq

/-- The wording of a failure. -/
def ReadFailure.message : ReadFailure → String
  | missing => "No such file or directory (os error 2)"
  | directory => "Is a directory (os error 21)"
  | notText => "stream did not contain valid UTF-8"
  | other description => description

/-- The files as they are read: the text or the failure for each path. -/
abbrev Files := String → Except ReadFailure String

/-- Why inputs cannot be loaded. -/
inductive LoadError where
  | unreadable (path : String) (failure : ReadFailure)
  | policy (path : String) (error : ConfigError)
  /-- A line of a list of objects has an empty class or name. -/
  | emptyReference (path : String) (line : Nat)

/-- The wording of an error in a configuration. -/
def configErrorMessage : ConfigError → String
  | .fault .malformed => "malformed JSON"
  | .fault .ended => "JSON that ends too early"
  | .shape error => error.message
  | .refused reason => reason.message

/-- The wording of an error. -/
def LoadError.message : LoadError → String
  | unreadable path failure => "failed to read " ++ path ++ ": " ++ failure.message
  | policy path error => "invalid policy file " ++ path ++ ": " ++ configErrorMessage error
  | emptyReference path line =>
    path ++ ":" ++ toString line ++ ": reference line has an empty class or name"

/-- The text of a file. -/
def Files.text (files : Files) (path : String) : Except LoadError String :=
  (files path).mapError (.unreadable path)

/-- The configuration in a policy file. -/
def Files.config (files : Files) (path : String) : Except LoadError Config := do
  let text ← files.text path
  (Config.ofJsonText text.toList).mapError (.policy path)

/-- The reference on a line: a class and a name with `|` between them, or a name alone. -/
def lineReference (defaultClass : String) (line : List Char) : Reference :=
  match Text.cutAt '|' line with
  | some (className, name) => ⟨String.ofList className, String.ofList name⟩
  | none => ⟨defaultClass, String.ofList line⟩

/-- Whether a reference has an empty class or name. -/
def isIncomplete (reference : Reference) : Bool :=
  reference.className = "" || reference.name = ""

/-- Adds the objects on lines to a catalogue, up to the first line with an empty class or name,
whose number is the error. -/
def addLines (defaultClass : String) (catalogue : Catalogue) :
    List Text.Line → Except Nat Catalogue
  | [] => .ok catalogue
  | line :: others =>
    let reference := lineReference defaultClass line.text
    if isIncomplete reference then .error line.number
    else addLines defaultClass (catalogue.insert reference) others

/-- The objects that a text lists. -/
def readReferences (defaultClass text : String) : Except Nat Catalogue :=
  addLines defaultClass .empty (Text.linesWithContent text.toList)

/-- The objects that a file lists. -/
def Files.catalogue (files : Files) (path defaultClass : String) : Except LoadError Catalogue := do
  let text ← files.text path
  (readReferences defaultClass text).mapError (.emptyReference path)

/-- A value and where it stands. -/
structure Entry where
  path : String
  number : Nat
  text : String
deriving DecidableEq

/-- The values in a text. -/
def entriesOf (path text : String) : List Entry :=
  (Text.linesWithContent text.toList).map fun line => ⟨path, line.number, String.ofList line.text⟩

/-- The values in files, in order. -/
def Files.entries (files : Files) : List String → Except LoadError (List Entry)
  | [] => .ok []
  | path :: others => do
    let text ← files.text path
    let later ← files.entries others
    return entriesOf path text ++ later

/-- Where the inputs of a check lie. -/
structure Paths where
  policy : String
  references : Option String
  files : List String
deriving DecidableEq

/-- The inputs of a check. -/
structure Inputs where
  config : Config
  references : Option Catalogue
  lines : List Entry

/-- Loads inputs. -/
def Inputs.load (files : Files) (paths : Paths) : Except LoadError Inputs := do
  let config ← files.config paths.policy
  let references ←
    match paths.references with
    | none => pure none
    | some path => some <$> files.catalogue path config.targetClass
  let lines ← files.entries paths.files
  return { config, references, lines }

end ChoiceLang.Check
