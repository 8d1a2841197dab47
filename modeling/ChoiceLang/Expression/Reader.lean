import ChoiceLang.Choice.Legality
import ChoiceLang.Config
import ChoiceLang.Expression.Form
import ChoiceLang.Expression.Inquiry
import ChoiceLang.Expression.Segments

/-!
# Reading expressions

A level of an expression is the whole expression or the body of a qualifier. It is split at `|`
into segments and these at `,` into items; the body in an item is read by the same rules in a
scope of its own, at most 64 bodies deep. A strict reader rejects a group that breaks a rule, a
lenient one records that in the flags of the group.
-/

namespace ChoiceLang

open Expression

/-- What becomes of a group that breaks a rule. -/
inductive Mode where
  /-- The expression is rejected. -/
  | strict
  /-- The group is kept, with flags that tell of it. -/
  | lenient
deriving DecidableEq

/-- What holds for the items of a level: the class of their references and the permissions. -/
structure Scope where
  className : String
  permitted : Permissions
deriving DecidableEq

/-- The scope of a body. The permissions are those of the qualifier alone. -/
def Scope.within (scope : Scope) (qualifier : Qualifier) : Scope where
  className := qualifier.targetClass.getD scope.className
  permitted := ⟨qualifier.allLegal, qualifier.typeLegal⟩

/-- The scope of the items outside of bodies. -/
def Config.scope (config : Config) : Scope where
  className := config.targetClass
  permitted := ⟨config.policy.allLegal, config.policy.typeLegal⟩

/-- The qualifier that a name without brackets stands for. -/
def Config.bareQualifier? (config : Config) (name : String) : Option Qualifier :=
  if config.policy.allowsQualifier then
    (config.qualifiers.find? name).filter fun qualifier => qualifier.body = .optional
  else none

/-- The qualifier that a name before a bracket stands for. -/
def Config.namedQualifier (config : Config) (name : String) : Except Rejection Qualifier :=
  if config.policy.allowsQualifier then
    match config.qualifiers.find? name with
    | some qualifier => .ok qualifier
    | none => .error (.unknownQualifier name)
  else .error (.qualifierForbidden name)

/-- The number of bodies that may lie in each other. -/
def nestingLimit : Nat := 64

/-- Builds a type filter from the list after its start. The item is the whole text of the
filter. -/
def TypeFilter.ofText (item : List Char) (negated : Bool) (list : List Char) :
    Except Rejection TypeFilter :=
  if list = [] then .error (.emptyTypeList (String.ofList item))
  else if '[' ∈ list ∨ ']' ∈ list then .error (.bracketInTypeName (String.ofList item))
  else
    let names := Text.pieces '.' list
    if [] ∈ names then .error (.emptyTypeName (String.ofList item))
    else .ok ⟨negated, .ofList (names.map String.ofList)⟩

/-- Builds a group, which a strict reader rejects if it breaks a rule. -/
def Permissions.buildGroup (permitted : Permissions) (mode : Mode) (operator : Operator)
    (terms : List Choice) : Except Rejection Group :=
  match mode, permitted.violation? terms with
  | .strict, some rejection => .error rejection
  | _, _ => .ok (permitted.group operator terms)

/-- Reads expressions of a configuration. Without an oracle no object is known to exist. -/
structure Reader where
  config : Config
  oracle : Option Oracle := none

namespace Reader

/-- Reads a reference, which has to name an existing object if the policy says so. -/
def readReference (reader : Reader) (scope : Scope) (name : List Char) : Inquiry Choice :=
  let reference : Reference := ⟨scope.className, String.ofList name⟩
  if reader.config.policy.requiresLiteral then
    match reader.oracle with
    | none => .reject (.unresolvedLiteral reference)
    | some oracle =>
      let question := oracle.ask reference
      ⟨[question],
        if question.known then .ok (.reference reference)
        else .error (.unresolvedLiteral reference)⟩
  else .pure (.reference reference)

/-- Reads a text that is neither `ALL` nor a type filter and has no bracket. -/
def readPlain (reader : Reader) (scope : Scope) (item : List Char) (negated : Bool)
    (name : List Char) : Inquiry Choice :=
  match reader.config.bareQualifier? (String.ofList name) with
  | some qualifier =>
    if negated ∧ ¬ qualifier.allowNegation then .reject (.negationForbidden qualifier.name)
    else .pure (.bareQualifier qualifier.name negated)
  | none =>
    if negated then .reject (.negatedReference (String.ofList item))
    else reader.readReference scope name

/-- The text between the brackets of an item, which have to enclose some text and end it. -/
def bodyText (item : List Char) (negated : Bool) (name after : List Char) :
    Except Rejection (List Char) :=
  match cutClose 0 after with
  | none =>
    .error
      (.unbalancedBrackets (String.ofList item)
        (Text.byteLength (negation negated) + Text.byteLength name))
  | some (inner, trailing) =>
    if trailing ≠ [] then .error (.danglingText (String.ofList name) (String.ofList trailing))
    else if inner = [] then .error (.emptyQualifierBody (String.ofList name))
    else .ok inner

/-- A way to read a level of an expression. -/
abbrev LevelReader := Scope → List Char → Inquiry Group

/-- Reads a qualifier with a body. -/
def readBracketed (reader : Reader) (readBody : LevelReader) (scope : Scope) (item : List Char)
    (negated : Bool) (name after : List Char) : Inquiry Choice := do
  let qualifier ← .ofResult (reader.config.namedQualifier (String.ofList name))
  let inner ← .ofResult (bodyText item negated name after)
  let body ← readBody (scope.within qualifier) inner
  if negated ∧ ¬ qualifier.allowNegation then .reject (.negationForbidden qualifier.name)
  else return .qualifier qualifier.name negated body

/-- Reads an item. -/
def readItem (reader : Reader) (readBody : LevelReader) (scope : Scope) (item : List Char) :
    Inquiry Choice :=
  match Form.ofText item with
  | .all => .pure .all
  | .types negated list => .ofResult ((TypeFilter.ofText item negated list).map .types)
  | .bracketed negated name after => reader.readBracketed readBody scope item negated name after
  | .plain negated name => reader.readPlain scope item negated name

/-- The pieces of a text between the separators of an operator. -/
def splitAt (operator : Operator) (text : List Char) : Except Rejection (List (List Char)) :=
  (split operator.separator text).mapError (Defect.rejection operator.separator text)

/-- Reads a segment: one item, or a group of items that all have to hold. -/
def readSegment (reader : Reader) (mode : Mode) (readBody : LevelReader) (scope : Scope)
    (segment : List Char) : Inquiry Choice := do
  let items ← .ofResult (splitAt .and segment)
  let choices ← Inquiry.forEach (reader.readItem readBody scope) items
  match choices with
  | [choice] => return choice
  | _ => .ofResult ((scope.permitted.buildGroup mode .and choices).map .group)

/-- Reads a level, with a reader for the bodies in it. -/
def readLevel (reader : Reader) (mode : Mode) (readBody : LevelReader) : LevelReader :=
  fun scope text => do
    let segments ← .ofResult (splitAt .or text)
    let terms ← Inquiry.forEach (reader.readSegment mode readBody scope) segments
    .ofResult (scope.permitted.buildGroup mode .or terms)

/-- Reads a level in which bodies may lie in each other as often as there is room for. -/
def readWithin (reader : Reader) (mode : Mode) : Nat → LevelReader
  | 0 => reader.readLevel mode fun _ _ => .reject (.nestingTooDeep nestingLimit)
  | room + 1 => reader.readLevel mode (reader.readWithin mode room)

/-- Reads an expression. -/
def readExpression (reader : Reader) (mode : Mode) (text : List Char) : Inquiry Group :=
  reader.readWithin mode nestingLimit reader.config.scope text

end Reader

end ChoiceLang
