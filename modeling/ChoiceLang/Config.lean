import ChoiceLang.Qualifier

/-!
# Configurations

A configuration fixes the language of one kind of choice: the sub-token its values start with, the
class of its references, what is permitted at the top of an expression, and the qualifiers.
-/

namespace ChoiceLang

/-- What is permitted at the top of an expression. -/
structure Policy where
  /-- Type filters are permitted. -/
  typeLegal : Bool := true
  /-- `ALL` is permitted. -/
  allLegal : Bool := true
  /-- Qualifiers are permitted. -/
  allowsQualifier : Bool := true
  /-- References have to name an existing object when they are read. -/
  requiresLiteral : Bool := false
deriving DecidableEq

/-- The language of one kind of choice. -/
structure Config where
  subToken : String
  /-- A description that is stored with every choice. -/
  title : String := subToken
  /-- The class of the references outside of bodies. -/
  targetClass : String
  policy : Policy := {}
  qualifiers : QualifierTable := .empty
deriving DecidableEq

end ChoiceLang
