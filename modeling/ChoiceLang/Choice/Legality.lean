import ChoiceLang.Choice.Written
import ChoiceLang.Rejection

/-!
# Legality of groups

Whether `ALL` and type filters are permitted is decided where a group stands: at the top of an
expression or in the body of a qualifier. The flags of a group follow from its terms and these
permissions, and so does the first rule that the group breaks by itself.
-/

namespace ChoiceLang

/-- What is permitted to the choices of a group. -/
structure Permissions where
  /-- `ALL` may stand alone in the group. -/
  allLegal : Bool
  /-- The group may hold type filters. -/
  typeLegal : Bool
deriving DecidableEq

namespace Choice

/-- Whether a term brings `ALL` into its group. -/
def bringsAll : Choice → Bool
  | all => true
  | group inner => !inner.flags.allowsList
  | _ => false

/-- The filter that a term is, if it is one. -/
def filter? : Choice → Option TypeFilter
  | types filter => some filter
  | _ => none

/-- Whether the type filters in the groups inside a term are permitted. -/
def innerTypesLegal : Choice → Bool
  | group inner => inner.flags.allowsType
  | _ => true

/-- Whether what lies inside a term, a group or a body, can be used as written. -/
def innerValid : Choice → Bool
  | group inner => inner.flags.isValid
  | qualifier _ _ body => body.flags.isValid
  | _ => true

end Choice

namespace Permissions

/-- The first type filter among the terms of a group, where none is permitted. -/
def forbiddenFilter? (permitted : Permissions) (terms : List Choice) : Option TypeFilter :=
  if permitted.typeLegal then none else terms.findSome? Choice.filter?

/-- The flags of a group with the given terms. -/
def flags (permitted : Permissions) (terms : List Choice) : Flags :=
  let allowsAll := terms = [.all] && permitted.allLegal
  let allowsType :=
    (permitted.forbiddenFilter? terms).isNone && terms.all Choice.innerTypesLegal
  let allowsList := !terms.any Choice.bringsAll
  { allowsAll, allowsType, allowsList
    isValid := terms.all Choice.innerValid && allowsType && (allowsList || allowsAll) }

/-- The group of the given terms. -/
def group (permitted : Permissions) (operator : Operator) (terms : List Choice) : Group :=
  ⟨operator, terms, permitted.flags terms⟩

/-- The first rule that a group of the given terms breaks, what lies inside its terms apart. -/
def violation? (permitted : Permissions) (terms : List Choice) : Option Rejection :=
  if terms = [.all] then
    if permitted.allLegal then none else some .allForbidden
  else if terms.any Choice.bringsAll then some .allCombined
  else
    (permitted.forbiddenFilter? terms).map fun filter =>
      .typeForbidden (String.ofList filter.text)

end Permissions

end ChoiceLang
