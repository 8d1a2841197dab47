import ChoiceLang.Choice
import ChoiceLang.Text.Chars

/-!
# The written form of choices

Choices are written as they are read, with the choices of a group separated by the character of
its operator and a body between brackets. Type filters have two spellings to read and one to
write, `TYPE=`.
-/

namespace ChoiceLang

/-- The mark in front of a negated choice. -/
def negation (negated : Bool) : List Char := if negated then ['!'] else []

/-- The word for everything. -/
def wildcard : List Char := ['A', 'L', 'L']

/-- The start of a type filter as it is written. -/
def filterStart : List Char := ['T', 'Y', 'P', 'E', '=']

/-- The text of a type filter. -/
def TypeFilter.text (filter : TypeFilter) : List Char :=
  negation filter.negated ++ filterStart
    ++ Text.joinWith '.' (filter.types.names.map String.toList)

namespace Choice

mutual

/-- The text of a choice. -/
def text : Choice → List Char
  | all => wildcard
  | reference r => r.name.toList
  | types filter => filter.text
  | bareQualifier name negated => negation negated ++ name.toList
  | qualifier name negated ⟨operator, terms, _⟩ =>
    negation negated ++ name.toList ++ '[' :: Text.joinWith operator.separator (texts terms)
      ++ [']']
  | group ⟨operator, terms, _⟩ => Text.joinWith operator.separator (texts terms)

/-- The texts of several choices. -/
def texts : List Choice → List (List Char)
  | [] => []
  | choice :: others => choice.text :: texts others

end

/-- A list of choices is written one by one. -/
theorem texts_eq_map (choices : List Choice) : texts choices = choices.map text := by
  induction choices with
  | nil => rfl
  | cons choice others ih => rw [texts, ih]; rfl

end Choice

/-- The text of a group. -/
def Grouping.text (group : Group) : List Char :=
  Text.joinWith group.operator.separator (group.terms.map Choice.text)

/-- A group among the terms of another is written as it is on its own. -/
@[simp] theorem Choice.text_group (group : Group) : (Choice.group group).text = group.text := by
  rw [Choice.text, Choice.texts_eq_map]; rfl

/-- A qualifier is written with the text of its body in brackets. -/
@[simp] theorem Choice.text_qualifier (name : String) (negated : Bool) (body : Group) :
    (Choice.qualifier name negated body).text
      = negation negated ++ name.toList ++ '[' :: body.text ++ [']'] := by
  rw [Choice.text, Choice.texts_eq_map]; rfl

end ChoiceLang
