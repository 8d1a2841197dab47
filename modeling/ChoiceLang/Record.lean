import ChoiceLang.Selection
import ChoiceLang.Text.Quoted

/-!
# Records

A record is a named object with properties. Under each key lies at most one property, of any of
several kinds; reading it as a value of the wrong kind is an error.
-/

namespace ChoiceLang

/-- The kinds of properties. -/
inductive Kind where
  | flag
  | text
  | natural
  | negative
  | selection
deriving DecidableEq

/-- The name of a kind in messages. -/
def Kind.typeName : Kind → String
  | flag => "bool"
  | text => "alloc::string::String"
  | natural => "u64"
  | negative => "i64"
  | selection => "choice_grammar::choice_set::ChoiceSet"

/-- What lies under a key. -/
inductive Property where
  | flag (value : Bool)
  | text (value : String)
  | natural (value : UInt64)
  | negative (value : Int64)
  | selection (value : Selection)
deriving DecidableEq

namespace Property

/-- The kind of a property. -/
def kind : Property → Kind
  | flag _ => .flag
  | text _ => .text
  | natural _ => .natural
  | negative _ => .negative
  | selection _ => .selection

/-- A property as a selection. -/
def selection? : Property → Option Selection
  | selection value => some value
  | _ => none

/-- A property, if it is of the given kind. -/
def ofKind? (kind : Kind) (property : Property) : Option Property :=
  if property.kind = kind then some property else none

end Property

/-- Under a key lies a property of another kind than was asked for. -/
structure Mismatch where
  key : String
  found : Kind
deriving DecidableEq

/-- The wording of a mismatch. -/
def Mismatch.message (mismatch : Mismatch) : String :=
  "`" ++ mismatch.key ++ "` holds a value of type `" ++ mismatch.found.typeName ++ "`"

/-- A named object with properties under different keys. -/
structure Record where
  name : String
  properties : List (String × Property)
  distinct : (properties.map Prod.fst).Nodup
deriving DecidableEq

namespace Record

/-- The record without properties. -/
def empty (name : String) : Record := ⟨name, [], List.nodup_nil⟩

/-- The property under a key in a list of keys and properties. -/
def find? (properties : List (String × Property)) (key : String) : Option Property :=
  match properties with
  | [] => none
  | entry :: others => if key = entry.1 then some entry.2 else find? others key

/-- What lies under a key. -/
def property? (record : Record) (key : String) : Option Property :=
  find? record.properties key

/-- Clears a key. -/
def remove (record : Record) (key : String) : Record where
  name := record.name
  properties := record.properties.filter fun entry => entry.1 ≠ key
  distinct := record.distinct.sublist (List.filter_sublist.map Prod.fst)

/-- Puts a property under a key, in place of what lies there. -/
def put (record : Record) (key : String) (property : Property) : Record where
  name := record.name
  properties := (key, property) :: (record.remove key).properties
  distinct := by
    refine List.nodup_cons.2 ⟨?_, (record.remove key).distinct⟩
    intro mem
    obtain ⟨entry, mem, eq⟩ := List.mem_map.1 mem
    simpa [eq] using (List.mem_filter.1 mem).2

/-- Whether something lies under a key. -/
def contains (record : Record) (key : String) : Bool := (record.property? key).isSome

/-- The number of properties. -/
def size (record : Record) : Nat := record.properties.length

/-- Whether there are no properties. -/
def isEmpty (record : Record) : Bool := record.properties.isEmpty

/-- Reads what lies under a key in the wanted form. -/
def get {α : Type} (record : Record) (key : String) (want : Property → Option α) :
    Except Mismatch (Option α) :=
  match record.property? key with
  | none => .ok none
  | some property =>
    match want property with
    | some value => .ok (some value)
    | none => .error ⟨key, property.kind⟩

/-- A property in a description: its key and the name of its kind. -/
def entryText (entry : String × Property) : List Char :=
  '(' :: Text.quoted entry.1.toList ++ ',' :: ' ' :: Text.quoted entry.2.kind.typeName.toList
    ++ [')']

/-- The description of a record, with the kinds of its properties in the order of their keys. -/
def description (record : Record) : String :=
  let entries := record.properties.mergeSort fun a b => decide (a.1 ≤ b.1)
  "ObjectRecord \x7b name: " ++ String.ofList (Text.quoted record.name.toList) ++ ", slots: ["
    ++ ", ".intercalate (entries.map fun entry => String.ofList (entryText entry)) ++ "] \x7d"

/-- Putting a property keeps the name. -/
@[simp] theorem name_put (record : Record) (key : String) (property : Property) :
    (record.put key property).name = record.name := rfl

/-- Removing a property keeps the name. -/
@[simp] theorem name_remove (record : Record) (key : String) :
    (record.remove key).name = record.name := rfl

/-- Where entries of one key are left out, those of the others are found as before. -/
theorem find?_filter (properties : List (String × Property)) (key key' : String) :
    find? (properties.filter fun entry => entry.1 ≠ key) key'
      = if key' = key then none else find? properties key' := by
  induction properties with
  | nil => simp [find?]
  | cons entry others ih =>
    by_cases here : entry.1 = key
    · by_cases eq : key' = key <;> simp_all [find?]
    · by_cases eq : key' = entry.1 <;> simp_all [find?]

/-- Clearing a key clears that key only. -/
@[simp] theorem property?_remove (record : Record) (key key' : String) :
    (record.remove key).property? key' = if key' = key then none else record.property? key' :=
  find?_filter record.properties key key'

/-- Putting a property under a key changes what lies under that key only. -/
@[simp] theorem property?_put (record : Record) (key key' : String) (property : Property) :
    (record.put key property).property? key'
      = if key' = key then some property else record.property? key' := by
  have := property?_remove record key key'
  by_cases eq : key' = key <;> simp_all [property?, put, find?]

end Record

end ChoiceLang
