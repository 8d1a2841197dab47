import ChoiceLang.Choice.Written

/-!
# Forms of an item

The form of an item is seen from its text alone, before it is known what its names mean. The forms
are told apart in a fixed order: `ALL`, type filters, texts with a bracket, and all others.
-/

namespace ChoiceLang.Expression

/-- The form of an item. -/
inductive Form where
  | all
  /-- A type filter, with the text after its start. -/
  | types (negated : Bool) (list : List Char)
  /-- A text with a bracket, cut at the first one. -/
  | bracketed (negated : Bool) (name after : List Char)
  | plain (negated : Bool) (name : List Char)
deriving DecidableEq

/-- The starts of a type filter. -/
def filterStarts : List (List Char) := [filterStart, ['T', 'Y', 'P', 'E', '.']]

/-- The text after the start of a type filter. -/
def filterList? (text : List Char) : Option (List Char) :=
  filterStarts.findSome? fun start => start.isPrefixOf? text

/-- Takes off a negation. -/
def negated? : List Char → Bool × List Char
  | '!' :: rest => (true, rest)
  | text => (false, text)

/-- The form of a text that is not `ALL`, without its negation. -/
def Form.ofBody (negated : Bool) (body : List Char) : Form :=
  match filterList? body with
  | some list => .types negated list
  | none =>
    match Text.cutAt '[' body with
    | some (name, after) => .bracketed negated name after
    | none => .plain negated body

/-- The form of an item. -/
def Form.ofText (item : List Char) : Form :=
  if item = wildcard then .all
  else
    let (negated, body) := negated? item
    .ofBody negated body

/-- A text is its negation and the rest. -/
theorem negation_append_negated? (text : List Char) :
    negation (negated? text).1 ++ (negated? text).2 = text := by
  unfold negated?
  split <;> rfl

end ChoiceLang.Expression
