import ChoiceLang.Context

/-!
# Sessions

A session is a run of steps on a fixed number of contexts. Each step belongs to one context, may
look at another one, and gives an answer; a step that fails changes nothing, and the session goes
on after it.
-/

namespace ChoiceLang

/-- The contexts of a session. -/
abbrev Session (n : Nat) := Vector Context n

/-- A step of a session on the context `here`. Steps that read or write selections do so for a
configuration. -/
inductive Step (n : Nat) where
  /-- Adds an object. -/
  | create (here : Fin n) (reference : Reference)
  /-- Reads a value and stores the selection. -/
  | parse (here : Fin n) (config : Config) (value : String)
  /-- Reads an expression leniently and stores it with a sub-token and title. -/
  | putGrouping (here : Fin n) (config : Config) (text subToken title : String)
  /-- Stores the selection of another context. -/
  | copy (here there : Fin n) (config : Config)
  /-- Puts a property under a key. -/
  | put (here : Fin n) (key : String) (property : Property)
  /-- Clears a key. -/
  | remove (here : Fin n) (key : String)
  /-- Writes the stored selection. -/
  | text (here : Fin n) (config : Config)
  /-- Reads the stored selection. -/
  | selection (here : Fin n) (config : Config)
  /-- Checks the stored selection. -/
  | validity (here : Fin n) (config : Config)
  /-- Compares the stored selections of two contexts. -/
  | compare (here there : Fin n) (config : Config)
  /-- Reads a property of a kind. -/
  | get (here : Fin n) (key : String) (kind : Kind)
  /-- Tells whether something lies under a key. -/
  | contains (here : Fin n) (key : String)
  /-- Describes the record. -/
  | describe (here : Fin n)

/-- The context that a step belongs to. -/
def Step.here {n : Nat} : Step n → Fin n
  | create i _ => i
  | parse i _ _ => i
  | putGrouping i _ _ _ _ => i
  | copy i _ _ => i
  | put i _ _ => i
  | remove i _ => i
  | text i _ => i
  | selection i _ => i
  | validity i _ => i
  | compare i _ _ => i
  | get i _ _ => i
  | contains i _ => i
  | describe i => i

/-- The answer to a step. -/
inductive Answer where
  /-- Whether what a step asks for was so. -/
  | truth (value : Bool)
  /-- There is nothing to say. -/
  | done
  | stored (result : Except Rejection Unit)
  | text (result : Except Unwritable (Option String))
  | selection (result : Except Unwritable (Option Selection))
  | validity (result : Except Unwritable (Option Validity))
  | comparison (result : Except Unwritable Bool)
  | property (result : Except Mismatch (Option Property))
  | description (text : String)

namespace Session

variable {n : Nat}

/-- Replaces a record of a session. -/
def setRecord (session : Session n) (i : Fin n) (record : Record) : Session n :=
  session.set i { session[i] with record }

/-- The outcome of a step: the contexts after it, what was logged, and the answer. -/
structure Outcome (n : Nat) where
  session : Session n
  log : List LogRecord := []
  answer : Answer

/-- Takes a step. -/
def step (session : Session n) : Step n → Outcome n
  | .create i reference =>
    let context := session[i]
    { session := session.set i { context with catalogue := context.catalogue.insert reference }
      answer := .truth (!context.catalogue.knows reference) }
  | .parse i config value =>
    let ⟨log, result⟩ := config.storeValue session[i] value
    match result with
    | .ok context => { session := session.set i context, log, answer := .stored (.ok ()) }
    | .error rejection => { session, log, answer := .stored (.error rejection) }
  | .putGrouping i config text subToken title =>
    match (Reader.readExpression ⟨config, none⟩ .lenient text.toList).result with
    | .ok root =>
      let selection := ⟨subToken, title, root⟩
      { session := session.setRecord i (session[i].record.store selection)
        answer := .stored (.ok ()) }
    | .error rejection => { session, answer := .stored (.error rejection) }
  | .copy i j config =>
    let ⟨log, result⟩ := config.storedSelection session[j].record
    match result with
    | .ok (some selection) =>
      { session := session.setRecord i (session[i].record.store selection)
        log, answer := .comparison (.ok true) }
    | .ok none => { session, log, answer := .comparison (.ok false) }
    | .error error => { session, log, answer := .comparison (.error error) }
  | .put i key property =>
    { session := session.setRecord i (session[i].record.put key property), answer := .done }
  | .remove i key =>
    { session := session.setRecord i (session[i].record.remove key)
      answer := .truth (session[i].record.contains key) }
  | .text i config =>
    let ⟨log, result⟩ := config.storedText session[i].record
    { session, log, answer := .text result }
  | .selection i config =>
    let ⟨log, result⟩ := config.storedSelection session[i].record
    { session, log, answer := .selection result }
  | .validity i config =>
    let ⟨log, result⟩ := config.storedValidity session[i]
    { session, log, answer := .validity result }
  | .compare i j config =>
    let ⟨log, result⟩ := config.sameSelection session[i].record session[j].record
    { session, log, answer := .comparison result }
  | .get i key kind =>
    { session, answer := .property (session[i].record.get key (Property.ofKind? kind)) }
  | .contains i key => { session, answer := .truth (session[i].record.contains key) }
  | .describe i => { session, answer := .description session[i].record.description }

/-- Takes the steps in order; their outcomes. -/
def run (session : Session n) : List (Step n) → List (Outcome n)
  | [] => []
  | first :: others =>
    let outcome := session.step first
    outcome :: outcome.session.run others

end Session

end ChoiceLang
