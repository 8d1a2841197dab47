import ChoiceLang.Record
import ChoiceLang.Reference.Catalogue
import ChoiceLang.Selection.Value

/-!
# Contexts

A context is a record and the objects that exist where it is loaded. A configuration reads values
into the record of a context, always under the same key, and reads them back. What is stored there
by others and is no selection is a violation of contract, which is also logged.
-/

namespace ChoiceLang

/-- A record and the objects that exist around it. -/
structure Context where
  catalogue : Catalogue
  record : Record

/-- A context without objects, with an empty record. -/
def Context.empty (name : String) : Context := ⟨.empty, .empty name⟩

/-- A value and what was logged on the way to it. -/
structure Logged (α : Type) where
  log : List LogRecord
  value : α

/-- The key of the selection of a record. -/
def selectionKey : String := "CHOOSE_INFO"

/-- Puts a selection under its key. -/
def Record.store (record : Record) (selection : Selection) : Record :=
  record.put selectionKey (.selection selection)

/-- The reader of a configuration in a context. -/
def Config.readerIn (config : Config) (context : Context) : Reader :=
  ⟨config, some context.catalogue.knows⟩

/-- Reads a value and stores the selection on the record of a context. -/
def Config.storeValue (config : Config) (context : Context) (value : String) :
    Logged (Except Rejection Context) :=
  let result := ((config.readerIn context).readValue value).result
  ⟨[readingRecord value result],
    result.map fun selection => { context with record := context.record.store selection }⟩

/-- The log record about a property that is no selection. -/
def violationRecord (config : Config) (record : Record) (mismatch : Mismatch) : LogRecord where
  level := .warn
  target := "choice_grammar::token"
  message :=
    "`" ++ config.subToken ++ "` on object `" ++ record.name
      ++ "` violates the choice contract: " ++ mismatch.message

/-- The selection of a record. -/
def Config.storedSelection (config : Config) (record : Record) :
    Logged (Except Unwritable (Option Selection)) :=
  match record.get selectionKey Property.selection? with
  | .ok selection => ⟨[], .ok selection⟩
  | .error mismatch =>
    ⟨[violationRecord config record mismatch],
      .error (.contractViolation mismatch.key mismatch.found.typeName)⟩

/-- The text of the selection of a record. -/
def Config.storedText (config : Config) (record : Record) :
    Logged (Except Unwritable (Option String)) :=
  let stored := config.storedSelection record
  ⟨stored.log,
    match stored.value with
    | .ok (some selection) => selection.canonicalText.map some
    | .ok none => .ok none
    | .error error => .error error⟩

/-- The outcome of checking the references of a selection. -/
structure Validity where
  isResolved : Bool
  unresolved : List Reference
deriving DecidableEq

/-- Checks the selection of the record of a context against its objects. -/
def Config.storedValidity (config : Config) (context : Context) :
    Logged (Except Unwritable (Option Validity)) :=
  let stored := config.storedSelection context.record
  ⟨stored.log,
    stored.value.map fun selection? =>
      selection?.map fun selection =>
        ⟨(selection.isResolved context.catalogue.knows).answer,
          (selection.unresolved context.catalogue.knows).answer⟩⟩

/-- Whether two records have the same selection, or both none. -/
def Config.sameSelection (config : Config) (first second : Record) :
    Logged (Except Unwritable Bool) :=
  let here := config.storedSelection first
  match here.value with
  | .error error => ⟨here.log, .error error⟩
  | .ok selection =>
    let there := config.storedSelection second
    ⟨here.log ++ there.log, there.value.map fun other => selection = other⟩

end ChoiceLang
