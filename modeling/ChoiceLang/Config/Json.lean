import ChoiceLang.Config
import ChoiceLang.Json.Decode
import ChoiceLang.Json.Value

/-!
# Configurations as JSON

A configuration is written with all its fields. It is read from an object or an array; what has a
default may be left out.
-/

namespace ChoiceLang

open Json

/-! ## Writing -/

/-- The name of a rule for bodies. -/
def BodyRequirement.name : BodyRequirement → String
  | required => "required"
  | optional => "optional"

/-- A qualifier as JSON. -/
def Qualifier.toJson (qualifier : Qualifier) : Json :=
  .object
    [("name", .string qualifier.name), ("allow_negation", .bool qualifier.allowNegation),
     ("body", .string qualifier.body.name), ("all_legal", .bool qualifier.allLegal),
     ("type_legal", .bool qualifier.typeLegal),
     ("target_class", (qualifier.targetClass.map Json.string).getD .null)]

/-- A policy as JSON. -/
def Policy.toJson (policy : Policy) : Json :=
  .object
    [("type_legal", .bool policy.typeLegal), ("all_legal", .bool policy.allLegal),
     ("allows_qualifier", .bool policy.allowsQualifier),
     ("requires_literal", .bool policy.requiresLiteral)]

/-- A configuration as JSON. -/
def Config.toJson (config : Config) : Json :=
  .object
    [("sub_token", .string config.subToken), ("title", .string config.title),
     ("target_class", .string config.targetClass), ("policy", config.policy.toJson),
     ("qualifiers", .array (config.qualifiers.qualifiers.map Qualifier.toJson))]

/-! ## Reading -/

/-- Why a configuration cannot be read. -/
abbrev ConfigError := DecodeError RegistrationError

/-- A field of a draft that is set or not. -/
def draftField {α σ : Type} (name : String) (decode : Decoder RegistrationError α)
    (get : σ → Option α) (put : α → σ → σ) : Field RegistrationError σ where
  name := name
  isSet draft := (get draft).isSome
  set document draft := (decode document).map fun value => put value draft

/-- The value of a field that has no default. -/
def requireField {α : Type} (name : String) : Option α → Except String α
  | some value => .ok value
  | none => .error name

/-- A policy of which some fields are known. -/
structure PolicyDraft where
  typeLegal : Option Bool := none
  allLegal : Option Bool := none
  allowsQualifier : Option Bool := none
  requiresLiteral : Option Bool := none

/-- The policy of a draft, with the defaults for what is not known. -/
def PolicyDraft.finish (draft : PolicyDraft) : Policy :=
  let standard : Policy := {}
  { typeLegal := draft.typeLegal.getD standard.typeLegal
    allLegal := draft.allLegal.getD standard.allLegal
    allowsQualifier := draft.allowsQualifier.getD standard.allowsQualifier
    requiresLiteral := draft.requiresLiteral.getD standard.requiresLiteral }

/-- The form of a policy. -/
def Policy.record : Record RegistrationError PolicyDraft Policy where
  name := "ChoicePolicy"
  empty := {}
  fields :=
    [draftField "type_legal" decodeBool (·.typeLegal) fun v d => { d with typeLegal := some v },
     draftField "all_legal" decodeBool (·.allLegal) fun v d => { d with allLegal := some v },
     draftField "allows_qualifier" decodeBool (·.allowsQualifier)
       fun v d => { d with allowsQualifier := some v },
     draftField "requires_literal" decodeBool (·.requiresLiteral)
       fun v d => { d with requiresLiteral := some v }]
  finish draft := .ok draft.finish

/-- A qualifier of which some fields are known. -/
structure QualifierDraft where
  name : Option String := none
  allowNegation : Option Bool := none
  body : Option BodyRequirement := none
  allLegal : Option Bool := none
  typeLegal : Option Bool := none
  targetClass : Option (Option String) := none

/-- The qualifier of a draft, with the defaults for what is not known. -/
def QualifierDraft.finish (draft : QualifierDraft) : Except String Qualifier := do
  let name ← requireField "name" draft.name
  let standard : Qualifier := { name }
  return {
    name
    allowNegation := draft.allowNegation.getD standard.allowNegation
    body := draft.body.getD standard.body
    allLegal := draft.allLegal.getD standard.allLegal
    typeLegal := draft.typeLegal.getD standard.typeLegal
    targetClass := draft.targetClass.getD standard.targetClass }

/-- Decodes a rule for bodies. -/
def BodyRequirement.decode : Decoder RegistrationError BodyRequirement :=
  decodeName [(required.name, required), (optional.name, optional)]

/-- The form of a qualifier. -/
def Qualifier.record : Record RegistrationError QualifierDraft Qualifier where
  name := "QualifierSpec"
  empty := {}
  fields :=
    [draftField "name" decodeString (·.name) fun v d => { d with name := some v },
     draftField "allow_negation" decodeBool (·.allowNegation)
       fun v d => { d with allowNegation := some v },
     draftField "body" BodyRequirement.decode (·.body) fun v d => { d with body := some v },
     draftField "all_legal" decodeBool (·.allLegal) fun v d => { d with allLegal := some v },
     draftField "type_legal" decodeBool (·.typeLegal) fun v d => { d with typeLegal := some v },
     draftField "target_class" (decodeOption decodeString) (·.targetClass)
       fun v d => { d with targetClass := some v }]
  finish := QualifierDraft.finish

/-- Decodes a table of qualifiers. All are decoded before the first is registered. -/
def QualifierTable.decode : Decoder RegistrationError QualifierTable := fun document => do
  let qualifiers ← decodeList Qualifier.record.decode document
  match QualifierTable.ofList qualifiers with
  | .ok table => return table
  | .error reason => .error (.refused reason)

/-- A configuration of which some fields are known. -/
structure ConfigDraft where
  subToken : Option String := none
  title : Option String := none
  targetClass : Option String := none
  policy : Option Policy := none
  qualifiers : Option QualifierTable := none

/-- The configuration of a draft, with the defaults for what is not known. -/
def ConfigDraft.finish (draft : ConfigDraft) : Except String Config := do
  let subToken ← requireField "sub_token" draft.subToken
  let title ← requireField "title" draft.title
  let targetClass ← requireField "target_class" draft.targetClass
  return {
    subToken, title, targetClass
    policy := draft.policy.getD {}
    qualifiers := draft.qualifiers.getD .empty }

/-- The form of a configuration. -/
def Config.record : Record RegistrationError ConfigDraft Config where
  name := "ChoiceConfig"
  empty := {}
  fields :=
    [draftField "sub_token" decodeString (·.subToken) fun v d => { d with subToken := some v },
     draftField "title" decodeString (·.title) fun v d => { d with title := some v },
     draftField "target_class" decodeString (·.targetClass)
       fun v d => { d with targetClass := some v },
     draftField "policy" Policy.record.decode (·.policy) fun v d => { d with policy := some v },
     draftField "qualifiers" QualifierTable.decode (·.qualifiers)
       fun v d => { d with qualifiers := some v }]
  finish := ConfigDraft.finish

/-- Reads a configuration from a text. -/
def Config.ofJsonText (text : List Char) : Except ConfigError Config :=
  decodeText Config.record.decode text

end ChoiceLang
