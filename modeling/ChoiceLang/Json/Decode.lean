import ChoiceLang.Json.Document
import ChoiceLang.Text.Quoted

/-!
# Decoding of JSON documents

Decoders turn a document into a value from left to right; the first thing that is wrong decides
the error. A record may be written as an object, whose members come in any order and may include
unknown ones, or as an array with the fields in order, where fields at the end may be left out.
-/

namespace ChoiceLang.Json

/-- What a value of the wrong type is. -/
inductive Found where
  | null
  | bool (value : Bool)
  | number (value : Number)
  | string (value : String)
  | sequence
  | map

/-- The description of a value of the wrong type. -/
def Found.text : Found → String
  | null => "null"
  | bool value => "boolean `" ++ toString value ++ "`"
  | number (.integer value) => "integer `" ++ toString value ++ "`"
  | number (.double value) => "floating point `" ++ String.ofList (doubleText value) ++ "`"
  | string value => "string " ++ String.ofList (Text.quoted value.toList)
  | sequence => "sequence"
  | map => "map"

/-- How a document differs from what is wanted. -/
inductive ShapeError where
  | invalidType (found : Found) (expected : String)
  | invalidLength (length : Nat) (record : String) (fields : Nat)
  | missingField (name : String)
  | duplicateField (name : String)
  | unknownVariant (name : String) (variants : List String)

namespace ShapeError

/-- Names in backquotes, with a word between them. -/
def alternatives : List String → String
  | [] => ""
  | [last] => "`" ++ last ++ "`"
  | [first, second] => "`" ++ first ++ "` or `" ++ second ++ "`"
  | first :: others => "`" ++ first ++ "`, " ++ alternatives others

/-- The wording of an error. -/
def message : ShapeError → String
  | invalidType found expected => "invalid type: " ++ found.text ++ ", expected " ++ expected
  | invalidLength length record fields =>
    "invalid length " ++ toString length ++ ", expected struct " ++ record ++ " with "
      ++ toString fields ++ (if fields = 1 then " element" else " elements")
  | missingField name => "missing field `" ++ name ++ "`"
  | duplicateField name => "duplicate field `" ++ name ++ "`"
  | unknownVariant name variants =>
    "unknown variant `" ++ name ++ "`, expected " ++ alternatives variants

end ShapeError

/-- Why a text does not decode: it is no JSON, it has the wrong shape, or a value of the right
shape is refused for a reason of its own. -/
inductive DecodeError (ε : Type) where
  | fault (fault : Fault)
  | shape (error : ShapeError)
  | refused (reason : ε)

/-- A decoder of documents. -/
abbrev Decoder (ε α : Type) := Document → Except (DecodeError ε) α

variable {ε α σ : Type}

/-- A fault of the text as an error of decoding. -/
def faulty : Except Fault α → Except (DecodeError ε) α
  | .ok value => .ok value
  | .error fault => .error (.fault fault)

/-- The error for a document that is not what is expected. -/
def mismatch (expected : String) : Document → DecodeError ε
  | .missing => .fault .ended
  | .torn read _ => .fault read
  | .tornString read _ => .fault read
  | .null => .shape (.invalidType .null expected)
  | .bool value => .shape (.invalidType (.bool value) expected)
  | .number text =>
    match text.value with
    | some value => .shape (.invalidType (.number value) expected)
    | none => .fault .malformed
  | .string (.ok value) => .shape (.invalidType (.string value) expected)
  | .string (.error fault) => .fault fault
  | .array .. => .shape (.invalidType .sequence expected)
  | .object .. => .shape (.invalidType .map expected)

/-- Decodes a string. -/
def decodeString : Decoder ε String
  | .string (.ok value) => .ok value
  | document => .error (mismatch "a string" document)

/-- Decodes a truth value. -/
def decodeBool : Decoder ε Bool
  | .bool value => .ok value
  | document => .error (mismatch "a boolean" document)

/-- Decodes null, which stands for the only value of a type with one value. -/
def decodeUnit : Decoder ε Unit
  | .null => .ok ()
  | document => .error (mismatch "unit" document)

/-- Decodes null as nothing, and everything else with the given decoder. -/
def decodeOption (decode : Decoder ε α) : Decoder ε (Option α)
  | .null => .ok none
  | document => (decode document).map some

/-- Decodes the items of an array in order. -/
def decodeItems (decode : Decoder ε α) : List Document → Except (DecodeError ε) (List α)
  | [] => .ok []
  | item :: items => do
    let value ← decode item
    let values ← decodeItems decode items
    return value :: values

/-- Decodes an array of values. -/
def decodeList (decode : Decoder ε α) : Decoder ε (List α)
  | .array items ending => do
    let values ← decodeItems decode items
    faulty (Document.close ending)
    return values
  | document => .error (mismatch "a sequence" document)

/-- The key of a member. -/
def decodeKey : Document → Except Fault String
  | .string value => value
  | .tornString read _ => .error read
  | .missing => .error .ended
  | _ => .error .malformed

/-- Decodes one of several names, written as a string or as the only key of an object that holds
null. As in every object the key has to be a string, or the text is malformed. -/
def decodeName (variants : List (String × α)) : Decoder ε α
  | .string (.ok name) => variant name
  | .string (.error fault) => .error (.fault fault)
  | .tornString read _ => .error (.fault read)
  | .missing => .error (.fault .ended)
  | .object ((key, value) :: members) ending => do
    let name ← faulty (decodeKey key)
    let result ← variant name
    decodeUnit value
    match members with
    | [] => faulty (Document.close ending)
    | _ :: _ => .error (.fault .malformed)
    return result
  | _ => .error (.fault .malformed)
where
  /-- The value that goes by a name. -/
  variant (name : String) : Except (DecodeError ε) α :=
    match variants.find? fun entry => entry.1 = name with
    | some (_, value) => .ok value
    | none => .error (.shape (.unknownVariant name (variants.map Prod.fst)))

/-! ## Records -/

/-- A field of a record that is filled in step by step in a draft of type `σ`. -/
structure Field (ε σ : Type) where
  name : String
  isSet : σ → Bool
  set : Document → σ → Except (DecodeError ε) σ

/-- A record: the name it goes by in errors, an empty draft, its fields in order, and the value of
a draft or else the name of its first missing field. -/
structure Record (ε σ α : Type) where
  name : String
  empty : σ
  fields : List (Field ε σ)
  finish : σ → Except String α

/-- Fills in the fields named by the members of an object. -/
def fillMembers (fields : List (Field ε σ)) :
    List (Document × Document) → σ → Except (DecodeError ε) σ
  | [], draft => .ok draft
  | (key, value) :: members, draft => do
    let name ← faulty (decodeKey key)
    match fields.find? fun field => field.name = name with
    | none =>
      faulty value.skip
      fillMembers fields members draft
    | some field =>
      if field.isSet draft then .error (.shape (.duplicateField name))
      else
        let draft ← field.set value draft
        fillMembers fields members draft

/-- Fills in the fields in order from the items of an array. -/
def fillItems : List (Field ε σ) → List Document → σ → Except (DecodeError ε) σ
  | _, [], draft => .ok draft
  | [], _ :: _, _ => .error (.fault .malformed)
  | field :: fields, item :: items, draft => do
    let draft ← field.set item draft
    fillItems fields items draft

/-- Decodes a record. -/
def Record.decode (record : Record ε σ α) : Decoder ε α
  | .object members ending => do
    let draft ← fillMembers record.fields members record.empty
    faulty (Document.close ending)
    match record.finish draft with
    | .ok value => return value
    | .error name => .error (.shape (.missingField name))
  | .array items ending => do
    let draft ← fillItems record.fields items record.empty
    faulty (Document.close ending)
    match record.finish draft with
    | .ok value => return value
    | .error _ =>
      .error (.shape (.invalidLength items.length record.name record.fields.length))
  | document => .error (mismatch ("struct " ++ record.name) document)

/-- Decodes a whole text: one value with nothing but white space around it. -/
def decodeText (decode : Decoder ε α) (text : List Char) : Except (DecodeError ε) α := do
  let (document, rest) := Document.ofText text
  let value ← decode document
  match rest.map skipSpace with
  | some [] => return value
  | _ => .error (.fault .malformed)

end ChoiceLang.Json
