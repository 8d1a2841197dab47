import ChoiceLang.Choice.Tree
import ChoiceLang.Choice.Written

/-!
# Selections

A selection is an expression that has been read, together with the sub-token and the title it goes
by. It can be written back as the value it stands for, listed as JSON, and checked against the
objects that exist.
-/

namespace ChoiceLang

/-- An expression with its sub-token and title. -/
structure Selection where
  subToken : String
  title : String
  root : Group
deriving DecidableEq

/-- Why what is stored as a selection has no text. -/
inductive Unwritable where
  /-- The selection, with this text, cannot be used as written. -/
  | invalidGrouping (text : String)
  /-- Under the key lies a value of another type. -/
  | contractViolation (key found : String)
deriving DecidableEq

/-- The wording of an error. -/
def Unwritable.message : Unwritable → String
  | invalidGrouping text =>
    "choice set `" ++ text ++ "` has an invalid grouping and cannot be unparsed"
  | contractViolation key found =>
    "contract violation: `" ++ key ++ "` holds `" ++ found ++ "`, expected a choice set"

namespace Selection

/-- The value that a selection stands for, whether it can be used or not. -/
def text (selection : Selection) : String :=
  selection.subToken ++ "|" ++ String.ofList selection.root.text

/-- The value that a selection stands for, if it can be used as written. -/
def canonicalText (selection : Selection) : Except Unwritable String :=
  if selection.root.flags.isValid then .ok selection.text
  else .error (.invalidGrouping selection.text)

/-- The references in a selection, in written order. -/
def references (selection : Selection) : List Reference := selection.root.references

/-- A selection as JSON. -/
def toJson (selection : Selection) : Json :=
  .object
    [("sub_token", .string selection.subToken), ("title", .string selection.title),
     ("root", selection.root.toJson)]

end Selection

/-! ## Checking references -/

/-- An answer and the questions that an oracle was asked for it, in order. -/
structure Consultation (α : Type) where
  asked : List Question
  answer : α

/-- Whether all references name an existing object. The first that does not ends the
questions. -/
def Oracle.knowsAll (oracle : Oracle) : List Reference → Consultation Bool
  | [] => ⟨[], true⟩
  | reference :: others =>
    let question := oracle.ask reference
    if question.known then
      let later := oracle.knowsAll others
      ⟨question :: later.asked, later.answer⟩
    else ⟨[question], false⟩

/-- The references that name no existing object. -/
def Oracle.unknown (oracle : Oracle) : List Reference → Consultation (List Reference)
  | [] => ⟨[], []⟩
  | reference :: others =>
    let question := oracle.ask reference
    let later := oracle.unknown others
    ⟨question :: later.asked, if question.known then later.answer else reference :: later.answer⟩

/-- What is found is exactly what is not known. -/
theorem Oracle.answer_unknown (oracle : Oracle) (references : List Reference) :
    (oracle.unknown references).answer = references.filter fun reference => !oracle reference := by
  induction references with
  | nil => rfl
  | cons reference others ih =>
    by_cases known : oracle reference <;> simp [unknown, ask, known, ih]

/-- All references are known if the oracle knows each. -/
theorem Oracle.answer_knowsAll (oracle : Oracle) (references : List Reference) :
    (oracle.knowsAll references).answer = references.all oracle := by
  induction references with
  | nil => rfl
  | cons reference others ih =>
    by_cases known : oracle reference <;> simp [knowsAll, ask, known, ih]

namespace Selection

/-- Whether all references of a selection name an existing object. -/
def isResolved (selection : Selection) (oracle : Oracle) : Consultation Bool :=
  oracle.knowsAll selection.references

/-- The references of a selection that name no existing object, in written order. -/
def unresolved (selection : Selection) (oracle : Oracle) : Consultation (List Reference) :=
  oracle.unknown selection.references

end Selection

/-- The text of a report on references. -/
def reportText (references : List Reference) : String :=
  ", ".intercalate (references.map Reference.report)

end ChoiceLang
