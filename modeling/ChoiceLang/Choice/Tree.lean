import ChoiceLang.Choice
import ChoiceLang.Json.Value

/-!
# Choices as JSON

The form in which trees of choices are listed. A choice that is no group is an object that names
its kind; a group is an object with its operator, its terms and its flags, so it never looks like
another choice.
-/

namespace ChoiceLang

/-- The flags of a group as JSON. -/
def Flags.toJson (flags : Flags) : Json :=
  .object
    [("allows_all", .bool flags.allowsAll), ("allows_type", .bool flags.allowsType),
     ("allows_list", .bool flags.allowsList), ("is_valid", .bool flags.isValid)]

/-- A group as JSON, given its terms as JSON. -/
def groupJson (operator : Operator) (terms : List Json) (flags : Flags) : Json :=
  .object
    [("operator", .string operator.name), ("terms", .array terms), ("state", flags.toJson)]

namespace Choice

mutual

/-- A choice as JSON. -/
def toJson : Choice → Json
  | all => .object [("kind", .string "all")]
  | reference r =>
    .object
      [("kind", .string "reference"), ("class", .string r.className), ("name", .string r.name)]
  | types filter =>
    .object
      [("kind", .string "type_filter"), ("negated", .bool filter.negated),
       ("types", .array (filter.types.names.map .string))]
  | bareQualifier name negated =>
    .object
      [("kind", .string "qualifier"), ("name", .string name), ("negated", .bool negated),
       ("body", .null)]
  | qualifier name negated ⟨operator, terms, flags⟩ =>
    .object
      [("kind", .string "qualifier"), ("name", .string name), ("negated", .bool negated),
       ("body", groupJson operator (toJsons terms) flags)]
  | group ⟨operator, terms, flags⟩ => groupJson operator (toJsons terms) flags

/-- Several choices as JSON. -/
def toJsons : List Choice → List Json
  | [] => []
  | choice :: others => choice.toJson :: toJsons others

end

/-- A list of choices is turned into JSON one by one. -/
theorem toJsons_eq_map (choices : List Choice) : toJsons choices = choices.map toJson := by
  induction choices with
  | nil => rfl
  | cons choice others ih => rw [toJsons, ih]; rfl

end Choice

/-- A group as JSON. -/
def Grouping.toJson (group : Group) : Json :=
  groupJson group.operator (group.terms.map Choice.toJson) group.flags

end ChoiceLang
