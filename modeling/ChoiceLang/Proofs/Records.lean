import ChoiceLang.Json.Decode
import ChoiceLang.Proofs.Documents
import ChoiceLang.Proofs.Outcomes

/-!
# Documents of records

A record is written as an object or as an array. `RecordSpelled` says which documents are a record
whose fields have given values, without following the decoder: members stand in any order and among
unknown ones, and what may be left out is left out or written. A decoder whose drafts hold one field
after the other (`DraftsOf`) reads all of them as the same value. It never accepts an object that
writes a field twice (`Repeats`).
-/

namespace ChoiceLang.Json

/-! ## Objects and arrays -/

/-- A member with a key that is a text. -/
def keyed (member : String × Document) : Document × Document :=
  (.string (.ok member.1), member.2)

/-- The values of the members with a name, in order. -/
def valuesOf (name : String) (members : List (String × Document)) : List Document :=
  members.filterMap fun member => if member.1 = name then some member.2 else none

/-- How a field of a record is written: under its name, as one of some documents, or not at all if
it may be left out. -/
structure FieldSpelling where
  name : String
  spelledBy : Document → Prop
  omissible : Prop

/-- A field is written once among members, or is left out. -/
inductive FieldSpelling.SpelledAmong (field : FieldSpelling) (members : List (String × Document)) :
    Prop where
  | written {value} :
    valuesOf field.name members = [value] →
    field.spelledBy value →
    SpelledAmong field members
  | omitted :
    valuesOf field.name members = [] →
    field.omissible →
    SpelledAmong field members

/-- The documents of a record. -/
inductive RecordSpelled (fields : List FieldSpelling) : Document → Prop where
  | object {members} :
    (∀ field ∈ fields, field.SpelledAmong members) →
    RecordSpelled fields (.object (members.map keyed) none)
  | array {written left items} :
    fields = written ++ left →
    List.Forall₂ FieldSpelling.spelledBy written items →
    (∀ field ∈ left, field.omissible) →
    RecordSpelled fields (.array items none)

/-- An object in which one of some names stands twice. -/
inductive Repeats (names : List String) : Document → Prop where
  | intro {name before first between second after ending} :
    name ∈ names →
    Repeats names
      (.object (before ++ keyed (name, first) :: between ++ keyed (name, second) :: after) ending)

/-- What is written for one of the fields with given names. -/
inductive StandsFor (names : List String) (name : String) : Document → Document → Prop where
  | member {members value ending} :
    keyed (name, value) ∈ members →
    StandsFor names name (.object members ending) value
  | item {items value ending} {place : Nat} :
    names[place]? = some name →
    items[place]? = some value →
    StandsFor names name (.array items ending) value

section

variable {name other : String} {value : Document} {members : List (String × Document)}

/-- A member of the name adds its value. -/
lemma valuesOf_cons_self :
    valuesOf name ((name, value) :: members) = value :: valuesOf name members := by
  rw [valuesOf, List.filterMap_cons, if_pos rfl]
  rfl

/-- A member of another name adds nothing. -/
lemma valuesOf_cons_of_ne (ne : other ≠ name) :
    valuesOf name ((other, value) :: members) = valuesOf name members := by
  rw [valuesOf, List.filterMap_cons, if_neg ne]
  rfl

end

/-! ## Steps of a decoder -/

variable {ε α σ : Type}

/-- Naming the fault of a step changes no value of it. -/
lemma faulty_eq_ok_iff {result : Except Fault α} {value : α} :
    (faulty result : Except (DecodeError ε) α) = .ok value ↔ result = .ok value := by
  cases result <;> simp [faulty]

/-- A key is decoded if it is a string that is a text. -/
lemma decodeKey_eq_ok_iff {key : Document} {name : String} :
    decodeKey key = .ok name ↔ key = .string (.ok name) := by
  cases key <;> simp [decodeKey]

/-- What one member does to a draft: it is skipped, or sets the field of its name, which was not set
before. -/
inductive Takes (fields : List (Field ε σ)) (draft : σ) : Document × Document → σ → Prop where
  | skipped {name value} :
    fields.find? (fun field => field.name = name) = none →
    value.skip = .ok () →
    Takes fields draft (keyed (name, value)) draft
  | set {name value field next} :
    fields.find? (fun field => field.name = name) = some field →
    field.isSet draft = false →
    field.set value draft = .ok next →
    Takes fields draft (keyed (name, value)) next

section

variable {fields : List (Field ε σ)} {draft next : σ} {member : Document × Document}
  {members : List (Document × Document)}

/-- Members are filled in one by one. -/
lemma fillMembers_cons_eq_ok_iff :
    fillMembers fields (member :: members) draft = .ok next ↔
      ∃ middle, Takes fields draft member middle ∧
        fillMembers fields members middle = .ok next := by
  obtain ⟨key, value⟩ := member
  refine Except.bind_eq_ok_iff.trans ⟨?_, ?_⟩
  · rintro ⟨name, isKey, filled⟩
    obtain rfl := decodeKey_eq_ok_iff.1 (faulty_eq_ok_iff.1 isKey)
    cases found : fields.find? fun field => field.name = name with
    | none =>
      rw [found] at filled
      obtain ⟨_, skipped, filled⟩ := Except.bind_eq_ok_iff.1 filled
      exact ⟨draft, .skipped found (faulty_eq_ok_iff.1 skipped), filled⟩
    | some field =>
      rw [found] at filled
      dsimp only at filled
      cases isSet : field.isSet draft with
      | true =>
        rw [isSet] at filled
        cases filled
      | false =>
        rw [isSet] at filled
        obtain ⟨middle, set, filled⟩ := Except.bind_eq_ok_iff.1 filled
        exact ⟨middle, .set found isSet set, filled⟩
  · rintro ⟨middle, takes, filled⟩
    cases takes with
    | @skipped name value unknown skipped =>
      refine ⟨name, rfl, ?_⟩
      rw [unknown]
      exact Except.bind_eq_ok_iff.2 ⟨(), faulty_eq_ok_iff.2 skipped, filled⟩
    | @set name value field next found unset set =>
      refine ⟨name, rfl, ?_⟩
      rw [found]
      dsimp only
      rw [unset]
      exact Except.bind_eq_ok_iff.2 ⟨_, set, filled⟩

/-- Members in a row are filled in one part after the other. -/
lemma fillMembers_append_eq_ok_iff {others : List (Document × Document)} :
    fillMembers fields (members ++ others) draft = .ok next ↔
      ∃ middle, fillMembers fields members draft = .ok middle ∧
        fillMembers fields others middle = .ok next := by
  induction members generalizing draft with
  | nil => simp [fillMembers]
  | cons member members ih =>
    simp only [List.cons_append, fillMembers_cons_eq_ok_iff, ih]
    exact ⟨fun ⟨first, takes, second, filled, later⟩ => ⟨second, ⟨first, takes, filled⟩, later⟩,
      fun ⟨second, ⟨first, takes, filled⟩, later⟩ => ⟨first, takes, second, filled, later⟩⟩

/-- The first item sets the first field, and the others the later ones. -/
lemma fillItems_cons_eq_ok_iff {field : Field ε σ} {item : Document} {items : List Document} :
    fillItems (field :: fields) (item :: items) draft = .ok next ↔
      ∃ middle, field.set item draft = .ok middle ∧ fillItems fields items middle = .ok next :=
  Except.bind_eq_ok_iff

end

/-- A list or an object is closed if nothing cut it off. -/
lemma close_eq_ok_iff {ending : Option Fault} : Document.close ending = .ok () ↔ ending = none := by
  cases ending <;> simp [Document.close]

/-- Items are decoded one by one. -/
lemma decodeItems_eq_ok_iff {decode : Decoder ε α} {items : List Document} {values : List α} :
    decodeItems decode items = .ok values ↔
      List.Forall₂ (fun item value => decode item = .ok value) items values := by
  induction items generalizing values with
  | nil =>
    rw [List.forall₂_nil_left_iff]
    exact ⟨fun decoded => by cases decoded; rfl, fun eq => by rw [eq]; rfl⟩
  | cons item others ih =>
    rw [List.forall₂_cons_left_iff]
    constructor
    · intro decoded
      obtain ⟨value, here, decoded⟩ := Except.bind_eq_ok_iff.1 decoded
      obtain ⟨later, there, decoded⟩ := Except.bind_eq_ok_iff.1 decoded
      cases decoded
      exact ⟨value, later, here, ih.1 there, rfl⟩
    · rintro ⟨value, later, here, there, rfl⟩
      exact Except.bind_eq_ok_iff.2 ⟨value, here, Except.bind_eq_ok_iff.2 ⟨later, ih.2 there, rfl⟩⟩

/-- A list is decoded from an array, item by item. -/
lemma decodeList_eq_ok_iff {decode : Decoder ε α} {document : Document} {values : List α} :
    decodeList decode document = .ok values ↔
      ∃ items, document = .array items none ∧
        List.Forall₂ (fun item value => decode item = .ok value) items values := by
  constructor
  · intro decoded
    cases document with
    | array items ending =>
      obtain ⟨values, itemsDecoded, decoded⟩ := Except.bind_eq_ok_iff.1 decoded
      obtain ⟨_, closed, decoded⟩ := Except.bind_eq_ok_iff.1 decoded
      obtain rfl := close_eq_ok_iff.1 (faulty_eq_ok_iff.1 closed)
      cases decoded
      exact ⟨items, rfl, decodeItems_eq_ok_iff.1 itemsDecoded⟩
    | _ => cases decoded
  · rintro ⟨items, rfl, decoded⟩
    refine Except.bind_eq_ok_iff.2 ⟨values, decodeItems_eq_ok_iff.2 decoded, ?_⟩
    exact Except.bind_eq_ok_iff.2 ⟨(), rfl, rfl⟩

/-- A record is decoded from an object or an array whose fields are filled in. -/
lemma Record.decode_eq_ok_iff {record : Record ε σ α} {document : Document} {value : α} :
    record.decode document = .ok value ↔
      ∃ draft, record.finish draft = .ok value ∧
        ((∃ members, document = .object members none ∧
            fillMembers record.fields members record.empty = .ok draft) ∨
          ∃ items, document = .array items none ∧
            fillItems record.fields items record.empty = .ok draft) := by
  constructor
  · intro decoded
    cases document with
    | object members ending =>
      obtain ⟨draft, filled, decoded⟩ := Except.bind_eq_ok_iff.1 decoded
      obtain ⟨_, closed, decoded⟩ := Except.bind_eq_ok_iff.1 decoded
      obtain rfl := close_eq_ok_iff.1 (faulty_eq_ok_iff.1 closed)
      split at decoded
      · next other complete =>
        cases decoded
        exact ⟨draft, complete, .inl ⟨members, rfl, filled⟩⟩
      · cases decoded
    | array items ending =>
      obtain ⟨draft, filled, decoded⟩ := Except.bind_eq_ok_iff.1 decoded
      obtain ⟨_, closed, decoded⟩ := Except.bind_eq_ok_iff.1 decoded
      obtain rfl := close_eq_ok_iff.1 (faulty_eq_ok_iff.1 closed)
      split at decoded
      · next other complete =>
        cases decoded
        exact ⟨draft, complete, .inr ⟨items, rfl, filled⟩⟩
      · cases decoded
    | _ => cases decoded
  · rintro ⟨draft, complete, ⟨members, rfl, filled⟩ | ⟨items, rfl, filled⟩⟩
    · refine Except.bind_eq_ok_iff.2 ⟨draft, filled, Except.bind_eq_ok_iff.2 ⟨(), rfl, ?_⟩⟩
      rw [complete]
      rfl
    · refine Except.bind_eq_ok_iff.2 ⟨draft, filled, Except.bind_eq_ok_iff.2 ⟨(), rfl, ?_⟩⟩
      rw [complete]
      rfl

/-! ## Drafts of a value -/

/-- How a field of a decoder fills in drafts that hold the fields of some names: from the documents
that its value is written as. -/
structure FillsIn (draft : List String → σ) (field : Field ε σ) (spelling : FieldSpelling) :
    Prop where
  name : field.name = spelling.name
  isSet : ∀ held, field.isSet (draft held) = decide (spelling.name ∈ held)
  set : ∀ held document, spelling.spelledBy document → document.skip = .ok () →
    field.set document (draft held) = .ok (draft (spelling.name :: held))

/-- The drafts of a value that hold the fields of some names. A draft gives the value if it holds
all fields that may not be left out. -/
structure DraftsOf (record : Record ε σ α) (spellings : List FieldSpelling)
    (draft : List String → σ) (value : α) : Prop where
  empty : draft [] = record.empty
  fields : List.Forall₂ (FillsIn draft) record.fields spellings
  finish : ∀ held, (∀ spelling ∈ spellings, spelling.name ∈ held ∨ spelling.omissible) →
    record.finish (draft held) = .ok value

section

variable {fields : List (Field ε σ)} {spellings : List FieldSpelling} {draft : List String → σ}

/-- Members fill in a draft with the fields that are written among them. -/
lemma exists_fillMembers_of_spelled (fill : List.Forall₂ (FillsIn draft) fields spellings)
    {members : List (String × Document)} (whole : ∀ member ∈ members, member.2.skip = .ok ())
    (held : List String)
    (once : ∀ spelling ∈ spellings, valuesOf spelling.name members = [] ∨
      spelling.name ∉ held ∧ ∃ value, valuesOf spelling.name members = [value] ∧
        spelling.spelledBy value) :
    ∃ after, fillMembers fields (members.map keyed) (draft held) = .ok (draft after) ∧
      ∀ spelling ∈ spellings,
        spelling.name ∈ after ↔ spelling.name ∈ held ∨ valuesOf spelling.name members ≠ [] := by
  induction members generalizing held with
  | nil => exact ⟨held, rfl, fun spelling _ => by simp [valuesOf]⟩
  | cons member others ih =>
    obtain ⟨name, value⟩ := member
    obtain ⟨wholeHere, wholeLater⟩ := List.forall_mem_cons.1 whole
    rw [List.map_cons]
    cases found : fields.find? fun field => field.name = name with
    | none =>
      have unknown : ∀ spelling ∈ spellings, name ≠ spelling.name := by
        rintro spelling mem rfl
        obtain ⟨field, inFields, fills⟩ := fill.exists_of_mem_right mem
        exact absurd fills.name (by simpa using List.find?_eq_none.1 found field inFields)
      have same : ∀ spelling ∈ spellings,
          valuesOf spelling.name ((name, value) :: others) = valuesOf spelling.name others :=
        fun spelling mem => valuesOf_cons_of_ne (unknown spelling mem)
      obtain ⟨after, filled, holds⟩ := ih wholeLater held fun spelling mem => by
        rw [← same spelling mem]
        exact once spelling mem
      refine ⟨after, fillMembers_cons_eq_ok_iff.2 ⟨_, .skipped found wholeHere, filled⟩, ?_⟩
      intro spelling mem
      rw [same spelling mem]
      exact holds spelling mem
    | some field =>
      have name_eq : field.name = name := by simpa using List.find?_some found
      obtain ⟨spelling, mem, fills⟩ := fill.exists_of_mem_left (List.mem_of_find?_eq_some found)
      obtain rfl : spelling.name = name := fills.name.symm.trans name_eq
      -- the field is written here, so that it was not before and is not later
      have here := once spelling mem
      rw [valuesOf_cons_self] at here
      obtain ⟨notHeld, _, values_eq, isSpelled⟩ := here.resolve_left (List.cons_ne_nil _ _)
      obtain ⟨rfl, noneLater⟩ := List.cons.inj values_eq
      have unset : field.isSet (draft held) = false := by
        rw [fills.isSet]
        exact decide_eq_false notHeld
      have set := fills.set held value isSpelled wholeHere
      obtain ⟨after, filled, holds⟩ := ih wholeLater (spelling.name :: held) fun other mem => by
        by_cases same : other.name = spelling.name
        · exact .inl (same ▸ noneLater)
        · have there := once other mem
          rw [valuesOf_cons_of_ne (Ne.symm same)] at there
          refine there.imp_right fun ⟨notHeld, written⟩ => ⟨?_, written⟩
          exact fun mem => (List.mem_cons.1 mem).elim same notHeld
      refine ⟨after, fillMembers_cons_eq_ok_iff.2 ⟨_, .set found unset set, filled⟩, ?_⟩
      intro other mem
      rw [holds other mem, List.mem_cons]
      by_cases same : other.name = spelling.name
      · simp [same, valuesOf_cons_self]
      · simp [same, valuesOf_cons_of_ne (Ne.symm same)]

/-- Items fill in a draft with the fields in order, as far as they go. -/
lemma exists_fillItems_of_spelled {written left : List FieldSpelling} {items : List Document}
    (fill : List.Forall₂ (FillsIn draft) fields (written ++ left))
    (spelled : List.Forall₂ FieldSpelling.spelledBy written items)
    (whole : ∀ item ∈ items, item.skip = .ok ()) (held : List String) :
    ∃ after, fillItems fields items (draft held) = .ok (draft after) ∧
      (∀ name ∈ held, name ∈ after) ∧ ∀ spelling ∈ written, spelling.name ∈ after := by
  induction spelled generalizing fields held with
  | nil =>
    refine ⟨held, ?_, fun _ mem => mem, fun _ mem => absurd mem List.not_mem_nil⟩
    cases fields <;> rfl
  | @cons spelling item written items here _ ih =>
    obtain ⟨wholeHere, wholeLater⟩ := List.forall_mem_cons.1 whole
    cases fill with
    | @cons field _ fields _ fills fill =>
      obtain ⟨after, filled, keeps, holds⟩ := ih fill wholeLater (spelling.name :: held)
      obtain ⟨keepsHere, keeps⟩ := List.forall_mem_cons.1 keeps
      have set := fills.set held item here wholeHere
      exact ⟨after, fillItems_cons_eq_ok_iff.2 ⟨_, set, filled⟩, keeps,
        List.forall_mem_cons.2 ⟨keepsHere, holds⟩⟩

end

/-- The documents of a record are decoded as its value. -/
lemma DraftsOf.decode_eq_ok {record : Record ε σ α} {spellings : List FieldSpelling}
    {draft : List String → σ} {value : α} (drafts : DraftsOf record spellings draft value)
    {document : Document} (spelled : RecordSpelled spellings document)
    (whole : document.skip = .ok ()) : record.decode document = .ok value := by
  rw [Record.decode_eq_ok_iff, ← drafts.empty]
  cases spelled with
  | @object members among =>
    have wholeMembers : ∀ member ∈ members, member.2.skip = .ok () := fun member mem =>
      (Document.skip_object_eq_ok_iff.1 whole _ (List.mem_map_of_mem mem)).2
    obtain ⟨after, filled, holds⟩ :=
        exists_fillMembers_of_spelled drafts.fields wholeMembers [] fun spelling mem => by
      cases among spelling mem with
      | written values_eq isSpelled => exact .inr ⟨List.not_mem_nil, _, values_eq, isSpelled⟩
      | omitted values_eq _ => exact .inl values_eq
    refine ⟨draft after, drafts.finish after fun spelling mem => ?_, .inl ⟨_, rfl, filled⟩⟩
    cases among spelling mem with
    | written values_eq _ =>
      exact .inl ((holds spelling mem).2 (.inr (by simp [values_eq])))
    | omitted _ omissible => exact .inr omissible
  | @array written left items eq isSpelled omissible =>
    subst eq
    obtain ⟨after, filled, -, holds⟩ :=
      exists_fillItems_of_spelled drafts.fields isSpelled (Document.skip_array_eq_ok_iff.1 whole) []
    refine ⟨draft after, drafts.finish after fun spelling mem => ?_, .inr ⟨items, rfl, filled⟩⟩
    exact (List.mem_append.1 mem).imp (holds spelling) (omissible spelling)

/-! ## Fields that are written twice -/

/-- When a field is set, those that were set before stay set. -/
structure Field.Keeps (fields : List (Field ε σ)) (field : Field ε σ) : Prop where
  isSet : ∀ {document draft next}, field.set document draft = .ok next → field.isSet next = true
  others : ∀ {document draft next}, field.set document draft = .ok next →
    ∀ other ∈ fields, other.isSet draft = true → other.isSet next = true

/-- A field of a record that is set stays set. -/
def Record.KeepsFields (record : Record ε σ α) : Prop :=
  ∀ field ∈ record.fields, field.Keeps record.fields

section

variable {record : Record ε σ α} {members : List (Document × Document)} {draft next : σ}

/-- A field that is set stays set while members are filled in. -/
lemma Record.KeepsFields.fillMembers (keeps : record.KeepsFields)
    (filled : fillMembers record.fields members draft = .ok next) {field : Field ε σ}
    (mem : field ∈ record.fields) (isSet : field.isSet draft = true) : field.isSet next = true := by
  induction members generalizing draft with
  | nil =>
    cases filled
    exact isSet
  | cons member others ih =>
    obtain ⟨middle, takes, filled⟩ := fillMembers_cons_eq_ok_iff.1 filled
    refine ih filled ?_
    cases takes with
    | skipped _ _ => exact isSet
    | set found _ set =>
      exact (keeps _ (List.mem_of_find?_eq_some found)).others set field mem isSet

/-- A member with the name of a field sets the first field of that name. -/
lemma exists_set_of_takes {fields : List (Field ε σ)} {name : String} {value : Document}
    (known : name ∈ fields.map Field.name) (takes : Takes fields draft (keyed (name, value)) next) :
    ∃ field, fields.find? (fun field => field.name = name) = some field ∧
      field.isSet draft = false ∧ field.set value draft = .ok next := by
  generalize member : keyed (name, value) = other at takes
  cases takes with
  | skipped unknown _ =>
    cases member
    obtain ⟨field, mem, rfl⟩ := List.mem_map.1 known
    have ne := List.find?_eq_none.1 unknown field mem
    simp at ne
  | set found unset set =>
    cases member
    exact ⟨_, found, unset, set⟩

/-- No object is accepted in which a field is written twice. -/
lemma Record.KeepsFields.not_repeats (keeps : record.KeepsFields) {document : Document} {value : α}
    (decoded : record.decode document = .ok value) :
    ¬ Repeats (record.fields.map Field.name) document := by
  rintro ⟨known⟩
  obtain ⟨draft, -, ⟨members, eq, filled⟩ | ⟨items, eq, -⟩⟩ := Record.decode_eq_ok_iff.1 decoded
  · cases eq
    rw [List.append_assoc, List.cons_append, fillMembers_append_eq_ok_iff] at filled
    obtain ⟨start, -, filled⟩ := filled
    obtain ⟨first, takesFirst, filled⟩ := fillMembers_cons_eq_ok_iff.1 filled
    obtain ⟨middle, between, filled⟩ := fillMembers_append_eq_ok_iff.1 filled
    obtain ⟨second, takesSecond, -⟩ := fillMembers_cons_eq_ok_iff.1 filled
    obtain ⟨field, found, -, set⟩ := exists_set_of_takes known takesFirst
    obtain ⟨again, foundAgain, unset, -⟩ := exists_set_of_takes known takesSecond
    obtain rfl := Option.some.inj (found.symm.trans foundAgain)
    have mem := List.mem_of_find?_eq_some found
    have isSet := keeps.fillMembers between mem ((keeps field mem).isSet set)
    rw [isSet] at unset
    cases unset
  · cases eq

/-- The items of an array set the fields in the same places. -/
lemma exists_set_of_item {fields : List (Field ε σ)} {items : List Document}
    (filled : fillItems fields items draft = .ok next) {place : Nat} {item : Document}
    (isItem : items[place]? = some item) :
    ∃ field, fields[place]? = some field ∧ ∃ before after, field.set item before = .ok after := by
  induction items generalizing fields draft place with
  | nil => cases isItem
  | cons first others ih =>
    cases fields with
    | nil => cases filled
    | cons field fields =>
      obtain ⟨middle, set, filled⟩ := fillItems_cons_eq_ok_iff.1 filled
      cases place with
      | zero =>
        cases isItem
        exact ⟨field, rfl, draft, middle, set⟩
      | succ place => exact ih filled isItem

/-- What stands for a field is what that field is set to. -/
lemma Record.exists_set_of_standsFor {document part : Document} {value : α} {name : String}
    (decoded : record.decode document = .ok value)
    (stands : StandsFor (record.fields.map Field.name) name document part)
    (known : name ∈ record.fields.map Field.name) :
    ∃ field ∈ record.fields, field.name = name ∧
      ∃ draft next, field.set part draft = .ok next := by
  obtain ⟨draft, -, ⟨members, rfl, filled⟩ | ⟨items, rfl, filled⟩⟩ :=
    Record.decode_eq_ok_iff.1 decoded
  · cases stands with
    | member mem =>
      obtain ⟨before, after, rfl⟩ := List.append_of_mem mem
      obtain ⟨start, -, filled⟩ := fillMembers_append_eq_ok_iff.1 filled
      obtain ⟨next, takes, -⟩ := fillMembers_cons_eq_ok_iff.1 filled
      obtain ⟨field, found, -, set⟩ := exists_set_of_takes known takes
      refine ⟨field, List.mem_of_find?_eq_some found, ?_, start, next, set⟩
      simpa using List.find?_some found
  · cases stands with
    | item hasName isItem =>
      obtain ⟨field, inPlace, set⟩ := exists_set_of_item filled isItem
      rw [List.getElem?_map, inPlace] at hasName
      exact ⟨field, List.mem_of_getElem? inPlace, Option.some.inj hasName, set⟩

end

end ChoiceLang.Json
