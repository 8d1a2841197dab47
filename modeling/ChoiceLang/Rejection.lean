import ChoiceLang.Reference

/-!
# Rejections

Why the text of a choice is rejected, and the wording of each reason. Positions are offsets in
bytes of UTF-8, counted from zero.
-/

namespace ChoiceLang

/-- What is wrong about a separator. -/
inductive SeparatorFault where
  | emptyExpression
  | leading
  | consecutive
  | trailing
deriving DecidableEq

/-- The wording of a separator fault. -/
def SeparatorFault.message : SeparatorFault → String
  | emptyExpression => "empty expression"
  | leading => "leading separator"
  | consecutive => "consecutive separators"
  | trailing => "trailing separator"

/-- A reason to reject a text. -/
inductive Rejection where
  /-- The whole value is empty. -/
  | emptyInput
  /-- A value holds no expression after its sub-token. -/
  | missingExpression (value : String)
  /-- A value starts with another sub-token than the configured one. -/
  | unknownSubToken (expected found : String)
  /-- A separator does not stand between two pieces of text. -/
  | separator (fault : SeparatorFault) (mark : Char) (position : Nat)
  /-- A bracket has no partner. -/
  | unbalancedBrackets (text : String) (position : Nat)
  /-- A type filter names no types. -/
  | emptyTypeList (item : String)
  /-- A type filter has nothing before, after or between dots. -/
  | emptyTypeName (item : String)
  /-- A type filter holds a bracket. -/
  | bracketInTypeName (item : String)
  /-- A type filter stands where none is permitted. -/
  | typeForbidden (filter : String)
  /-- `ALL` stands where it is not permitted. -/
  | allForbidden
  /-- `ALL` stands beside other choices. -/
  | allCombined
  /-- A qualifier is used while qualifiers are switched off. -/
  | qualifierForbidden (name : String)
  /-- A text before a bracket names no qualifier. -/
  | unknownQualifier (name : String)
  /-- A qualifier has nothing between its brackets. -/
  | emptyQualifierBody (name : String)
  /-- Bodies lie in more bodies than permitted. -/
  | nestingTooDeep (limit : Nat)
  /-- Text follows the closing bracket of a qualifier. -/
  | danglingText (name trailing : String)
  /-- A qualifier is negated that cannot be. -/
  | negationForbidden (name : String)
  /-- A reference is negated. -/
  | negatedReference (item : String)
  /-- A reference names no existing object where it has to. -/
  | unresolvedLiteral (reference : Reference)
deriving DecidableEq

/-- A text between backquotes. -/
def backquoted (text : String) : String := "`" ++ text ++ "`"

/-- The wording of a position. -/
def positionText (position : Nat) : String :=
  "at byte " ++ toString position ++ " (zero-based)"

/-- The wording of a rejection. -/
def Rejection.message : Rejection → String
  | emptyInput => "choice value is empty"
  | missingExpression value =>
    "choice value " ++ backquoted value ++ " has no expression after its sub-token"
  | unknownSubToken expected found =>
    "unknown sub-token " ++ backquoted found ++ ", expected " ++ backquoted expected
  | separator fault mark position =>
    fault.message ++ " " ++ backquoted (String.singleton mark) ++ " " ++ positionText position
  | unbalancedBrackets text position =>
    "unbalanced brackets in " ++ backquoted text ++ " " ++ positionText position
  | emptyTypeList item => "type filter " ++ backquoted item ++ " names no types"
  | emptyTypeName item => "type filter " ++ backquoted item ++ " contains an empty type name"
  | bracketInTypeName item => "type filter " ++ backquoted item ++ " contains a bracket"
  | typeForbidden filter => "type filter " ++ backquoted filter ++ " is not permitted here"
  | allForbidden => "`ALL` is not permitted here"
  | allCombined => "`ALL` cannot be combined with other choices"
  | qualifierForbidden name => "qualifier " ++ backquoted name ++ " is not permitted here"
  | unknownQualifier name => "unknown qualifier " ++ backquoted name
  | emptyQualifierBody name => "qualifier " ++ backquoted name ++ " has an empty body"
  | nestingTooDeep limit =>
    "qualifiers are nested more than " ++ toString limit ++ " levels deep"
  | danglingText name trailing =>
    "unexpected text " ++ backquoted trailing ++ " after qualifier " ++ backquoted name
  | negationForbidden name => "qualifier " ++ backquoted name ++ " cannot be negated"
  | negatedReference item => backquoted item ++ " cannot be negated"
  | unresolvedLiteral reference =>
    backquoted reference.name ++ " does not name a known " ++ reference.className

end ChoiceLang
