import ChoiceLang.Config.Json
import ChoiceLang.Proofs.Records
import ChoiceLang.Proofs.Registration
import ChoiceLang.Proofs.WrittenJson
import Mathlib.Data.List.Nodup

/-!
# Texts of configurations

A configuration has many texts: its fields and those of its policy and qualifiers come in any order,
among unknown ones or without names, and what has its standard value may be left out. All of them
are read as that configuration. A text is refused if one of these objects names a field twice.
-/

namespace ChoiceLang

open Json

/-! ## Spellings -/

/-- A text that has to be written. -/
def textSpelling (name value : String) : FieldSpelling where
  name := name
  spelledBy document := document = .string (.ok value)
  omissible := False

/-- A truth value that may be left out if it is the standard one. -/
def flagSpelling (name : String) (value standard : Bool) : FieldSpelling where
  name := name
  spelledBy document := document = .bool value
  omissible := value = standard

/-- The fields of a policy. -/
def Policy.spellings (policy : Policy) : List FieldSpelling :=
  [flagSpelling "type_legal" policy.typeLegal true,
   flagSpelling "all_legal" policy.allLegal true,
   flagSpelling "allows_qualifier" policy.allowsQualifier true,
   flagSpelling "requires_literal" policy.requiresLiteral false]

/-- The documents of a rule for bodies. -/
inductive BodyRequirement.SpelledBy (body : BodyRequirement) : Document → Prop where
  | name :
    SpelledBy body (.string (.ok body.name))
  | member :
    SpelledBy body (.object [keyed (body.name, .null)] none)

/-- The documents of a class that may be left open. -/
inductive ClassSpelled : Option String → Document → Prop where
  | none :
    ClassSpelled none .null
  | some {className} :
    ClassSpelled (some className) (.string (.ok className))

/-- The fields of a qualifier. -/
def Qualifier.spellings (qualifier : Qualifier) : List FieldSpelling :=
  [textSpelling "name" qualifier.name,
   flagSpelling "allow_negation" qualifier.allowNegation false,
   ⟨"body", qualifier.body.SpelledBy, qualifier.body = .required⟩,
   flagSpelling "all_legal" qualifier.allLegal true,
   flagSpelling "type_legal" qualifier.typeLegal true,
   ⟨"target_class", ClassSpelled qualifier.targetClass, qualifier.targetClass = none⟩]

/-- The documents of a table of qualifiers. -/
inductive QualifierTable.SpelledBy (table : QualifierTable) : Document → Prop where
  | intro {items} :
    List.Forall₂ (fun qualifier => RecordSpelled qualifier.spellings) table.qualifiers items →
    SpelledBy table (.array items none)

/-- The fields of a configuration. -/
def Config.spellings (config : Config) : List FieldSpelling :=
  [textSpelling "sub_token" config.subToken,
   textSpelling "title" config.title,
   textSpelling "target_class" config.targetClass,
   ⟨"policy", RecordSpelled config.policy.spellings, config.policy = ⟨true, true, true, false⟩⟩,
   ⟨"qualifiers", config.qualifiers.SpelledBy, config.qualifiers.qualifiers = []⟩]

/-- The texts of a configuration. -/
inductive Config.SpelledBy (config : Config) (text : List Char) : Prop where
  | intro {document} :
    TextSpelled document text →
    RecordSpelled config.spellings document →
    SpelledBy config text

/-- The names of the fields of a policy. -/
def policyFields : List String :=
  ["type_legal", "all_legal", "allows_qualifier", "requires_literal"]

/-- The names of the fields of a qualifier. -/
def qualifierFields : List String :=
  ["name", "allow_negation", "body", "all_legal", "type_legal", "target_class"]

/-- The names of the fields of a configuration. -/
def configFields : List String :=
  ["sub_token", "title", "target_class", "policy", "qualifiers"]

/-- A document in which the configuration, its policy or one of its qualifiers is an object that
names a field twice. -/
inductive NamesTwice (document : Document) : Prop where
  | config :
    Repeats configFields document →
    NamesTwice document
  | policy {policy} :
    StandsFor configFields "policy" document policy →
    Repeats policyFields policy →
    NamesTwice document
  | qualifier {items ending qualifier} :
    StandsFor configFields "qualifiers" document (.array items ending) →
    qualifier ∈ items →
    Repeats qualifierFields qualifier →
    NamesTwice document

/-- An object is a record if its members are. -/
lemma recordSpelled_object {fields : List FieldSpelling} {members : List (String × Json)}
    (among : ∀ field ∈ fields,
      field.SpelledAmong (members.map fun member => (member.1, member.2.document))) :
    RecordSpelled fields (Json.object members).document := by
  have spelled := RecordSpelled.object among
  rw [List.map_map] at spelled
  rw [document, memberDocuments_eq_map]
  exact spelled

/-! ## Drafts -/

section

variable {α σ : Type}

/-- The slot of a field in a draft that holds the fields of some names. -/
def slot (held : List String) (name : String) (value : α) : Option α :=
  if name ∈ held then some value else none

variable {held : List String} {name other : String} {value standard : α}

/-- A draft that holds nothing has empty slots. -/
@[simp] lemma slot_nil : slot [] name value = none := if_neg List.not_mem_nil

/-- The slots of the held names are the filled ones. -/
@[simp] lemma isSome_slot : (slot held name value).isSome = decide (name ∈ held) := by
  unfold slot
  split <;> simp [*]

/-- The slot that was filled last is filled. -/
@[simp] lemma slot_cons_self : slot (name :: held) name value = some value :=
  if_pos List.mem_cons_self

/-- Filling a slot leaves the others as they are. -/
@[simp] lemma slot_cons_of_ne (ne : name ≠ other) :
    slot (other :: held) name value = slot held name value := by
  simp [slot, ne]

/-- The slot of a held name has the value. -/
lemma slot_of_mem (mem : name ∈ held) : slot held name value = some value := if_pos mem

/-- A slot has the value if that is the standard one where it is empty. -/
lemma slot_getD (h : name ∈ held ∨ value = standard) :
    (slot held name value).getD standard = value := by
  by_cases mem : name ∈ held
  · rw [slot_of_mem mem]
    rfl
  · rw [slot, if_neg mem]
    exact (h.resolve_left mem).symm

/-- A field of a draft is set by putting in what is decoded. -/
lemma draftField_set_eq_ok_iff {decode : Decoder RegistrationError α} {get : σ → Option α}
    {put : α → σ → σ} {document : Document} {draft next : σ} :
    (draftField name decode get put).set document draft = .ok next ↔
      ∃ value, decode document = .ok value ∧ put value draft = next :=
  Except.map_eq_ok_iff

/-- A field fills in a draft if its spellings are decoded and putting in fills its slot. -/
lemma fillsIn_draftField {spelledBy : Document → Prop} {omissible : Prop}
    {decode : Decoder RegistrationError α} {get : σ → Option α} {put : α → σ → σ}
    {draft : List String → σ}
    (decoded : ∀ document, spelledBy document → document.skip = .ok () →
      decode document = .ok value)
    (get_eq : ∀ held, get (draft held) = slot held name value)
    (put_eq : ∀ held, put value (draft held) = draft (name :: held)) :
    FillsIn draft (draftField name decode get put) ⟨name, spelledBy, omissible⟩ where
  name := rfl
  isSet held := by
    show (get (draft held)).isSome = _
    rw [get_eq, isSome_slot]
  set held document spelled whole := by
    rw [← put_eq]
    exact draftField_set_eq_ok_iff.2 ⟨value, decoded document spelled whole, rfl⟩

end

/-- The drafts of a policy. -/
def Policy.draft (policy : Policy) (held : List String) : PolicyDraft where
  typeLegal := slot held "type_legal" policy.typeLegal
  allLegal := slot held "all_legal" policy.allLegal
  allowsQualifier := slot held "allows_qualifier" policy.allowsQualifier
  requiresLiteral := slot held "requires_literal" policy.requiresLiteral

/-- A truth value is decoded as itself. -/
lemma decodeBool_of_eq {value : Bool} (document : Document) (eq : document = .bool value)
    (_ : document.skip = .ok ()) :
    (decodeBool document : Except (DecodeError RegistrationError) Bool) = .ok value := by
  rw [eq]
  rfl

/-- The drafts of a policy lead to it. -/
lemma Policy.draftsOf (policy : Policy) :
    DraftsOf Policy.record policy.spellings policy.draft policy where
  empty := by simp [draft, Policy.record]
  fields := by
    refine .cons ?_ (.cons ?_ (.cons ?_ (.cons ?_ .nil)))
    · exact fillsIn_draftField decodeBool_of_eq (fun _ => rfl) fun _ => by simp [draft]
    · exact fillsIn_draftField decodeBool_of_eq (fun _ => rfl) fun _ => by simp [draft]
    · exact fillsIn_draftField decodeBool_of_eq (fun _ => rfl) fun _ => by simp [draft]
    · exact fillsIn_draftField decodeBool_of_eq (fun _ => rfl) fun _ => by simp [draft]
  finish held complete := by
    simp only [spellings, flagSpelling, List.forall_mem_cons] at complete
    obtain ⟨typeLegal, allLegal, allowsQualifier, requiresLiteral, -⟩ := complete
    show Except.ok (policy.draft held).finish = _
    simp only [PolicyDraft.finish, draft, slot_getD typeLegal, slot_getD allLegal,
      slot_getD allowsQualifier, slot_getD requiresLiteral]

/-- The drafts of a qualifier. -/
def Qualifier.draft (qualifier : Qualifier) (held : List String) : QualifierDraft where
  name := slot held "name" qualifier.name
  allowNegation := slot held "allow_negation" qualifier.allowNegation
  body := slot held "body" qualifier.body
  allLegal := slot held "all_legal" qualifier.allLegal
  typeLegal := slot held "type_legal" qualifier.typeLegal
  targetClass := slot held "target_class" qualifier.targetClass

/-- A string that is a text is decoded as that text. -/
lemma decodeString_of_eq {value : String} (document : Document)
    (eq : document = .string (.ok value)) (_ : document.skip = .ok ()) :
    (decodeString document : Except (DecodeError RegistrationError) String) = .ok value := by
  rw [eq]
  rfl

/-- Both spellings of a requirement are decoded, the bare name and the object. -/
lemma BodyRequirement.decode_of_spelled {body : BodyRequirement} (document : Document)
    (spelled : body.SpelledBy document) (_ : document.skip = .ok ()) :
    BodyRequirement.decode document = .ok body := by
  cases spelled with
  | name => cases body <;> rfl
  | member => cases body <;> rfl

/-- A class, or the missing one, is decoded from each of its spellings. -/
lemma decode_of_classSpelled {targetClass : Option String} (document : Document)
    (spelled : ClassSpelled targetClass document) (_ : document.skip = .ok ()) :
    (decodeOption decodeString document : Except (DecodeError RegistrationError) (Option String)) =
      .ok targetClass := by
  cases spelled with
  | none => rfl
  | some => rfl

/-- The drafts of a qualifier lead to it. -/
lemma Qualifier.draftsOf (qualifier : Qualifier) :
    DraftsOf Qualifier.record qualifier.spellings qualifier.draft qualifier where
  empty := by simp [draft, Qualifier.record]
  fields := by
    refine .cons ?_ (.cons ?_ (.cons ?_ (.cons ?_ (.cons ?_ (.cons ?_ .nil)))))
    · exact fillsIn_draftField decodeString_of_eq (fun _ => rfl) fun _ => by simp [draft]
    · exact fillsIn_draftField decodeBool_of_eq (fun _ => rfl) fun _ => by simp [draft]
    · exact fillsIn_draftField BodyRequirement.decode_of_spelled (fun _ => rfl)
        fun _ => by simp [draft]
    · exact fillsIn_draftField decodeBool_of_eq (fun _ => rfl) fun _ => by simp [draft]
    · exact fillsIn_draftField decodeBool_of_eq (fun _ => rfl) fun _ => by simp [draft]
    · exact fillsIn_draftField decode_of_classSpelled (fun _ => rfl) fun _ => by simp [draft]
  finish held complete := by
    simp only [spellings, textSpelling, flagSpelling, List.forall_mem_cons, or_false] at complete
    obtain ⟨name, allowNegation, body, allLegal, typeLegal, targetClass, -⟩ := complete
    show (qualifier.draft held).finish = _
    simp only [QualifierDraft.finish, draft, slot_of_mem name, slot_getD allowNegation,
      slot_getD body, slot_getD allLegal, slot_getD typeLegal, slot_getD targetClass]
    rfl

/-- A table is decoded as the qualifiers of the list, none of which is refused. -/
lemma QualifierTable.decode_eq_ok_iff {table : QualifierTable} {document : Document} :
    QualifierTable.decode document = .ok table ↔
      decodeList Qualifier.record.decode document = .ok table.qualifiers := by
  refine Except.bind_eq_ok_iff.trans ⟨?_, ?_⟩
  · rintro ⟨qualifiers, decoded, registered⟩
    cases result : ofList qualifiers with
    | error reason =>
      rw [result] at registered
      cases registered
    | ok other =>
      rw [result] at registered
      cases registered
      rw [decoded, ofList_eq_ok_iff.1 result]
  · intro decoded
    refine ⟨table.qualifiers, decoded, ?_⟩
    rw [ofList_eq_ok_iff.2 rfl]
    rfl

/-- A table is decoded from the spellings of its qualifiers in order. -/
lemma QualifierTable.decode_of_spelled {table : QualifierTable} (document : Document)
    (spelled : table.SpelledBy document) (whole : document.skip = .ok ()) :
    QualifierTable.decode document = .ok table := by
  rw [QualifierTable.decode_eq_ok_iff, decodeList_eq_ok_iff]
  cases spelled with
  | @intro items spelled =>
    have whole := Document.skip_array_eq_ok_iff.1 whole
    refine ⟨items, rfl, List.Forall₂.flip (spelled.imp_of_mem_right ?_)⟩
    exact fun qualifier item mem itemSpelled =>
      qualifier.draftsOf.decode_eq_ok itemSpelled (whole item mem)

/-- The drafts of a configuration. -/
def Config.draft (config : Config) (held : List String) : ConfigDraft where
  subToken := slot held "sub_token" config.subToken
  title := slot held "title" config.title
  targetClass := slot held "target_class" config.targetClass
  policy := slot held "policy" config.policy
  qualifiers := slot held "qualifiers" config.qualifiers

/-- The drafts of a configuration lead to it. -/
lemma Config.draftsOf (config : Config) :
    DraftsOf Config.record config.spellings config.draft config where
  empty := by simp [draft, Config.record]
  fields := by
    refine .cons ?_ (.cons ?_ (.cons ?_ (.cons ?_ (.cons ?_ .nil))))
    · exact fillsIn_draftField decodeString_of_eq (fun _ => rfl) fun _ => by simp [draft]
    · exact fillsIn_draftField decodeString_of_eq (fun _ => rfl) fun _ => by simp [draft]
    · exact fillsIn_draftField decodeString_of_eq (fun _ => rfl) fun _ => by simp [draft]
    · exact fillsIn_draftField (fun _ => config.policy.draftsOf.decode_eq_ok) (fun _ => rfl)
        fun _ => by simp [draft]
    · exact fillsIn_draftField QualifierTable.decode_of_spelled (fun _ => rfl)
        fun _ => by simp [draft]
  finish held complete := by
    simp only [spellings, textSpelling, List.forall_mem_cons, or_false] at complete
    obtain ⟨subToken, title, targetClass, policy, qualifiers, -⟩ := complete
    -- a table may be left out only if it is empty, so that the default is the same
    have noneWritten : "qualifiers" ∈ held ∨ config.qualifiers = .empty :=
      qualifiers.imp_right QualifierTable.eq_of_qualifiers_eq
    show (config.draft held).finish = _
    simp only [ConfigDraft.finish, draft, slot_of_mem subToken, slot_of_mem title,
      slot_of_mem targetClass, slot_getD policy, slot_getD noneWritten]
    rfl

/-! ## Names that stand twice -/

section

variable {α σ : Type} {name : String} {decode : Decoder RegistrationError α} {get : σ → Option α}
  {put : α → σ → σ}

/-- A field keeps a draft filled if putting in fills its own slot and empties no other. -/
lemma keeps_draftField {fields : List (Field RegistrationError σ)}
    (isSet : ∀ value draft, (get (put value draft)).isSome = true)
    (others : ∀ value draft, ∀ other ∈ fields, other.isSet draft = true →
      other.isSet (put value draft) = true) :
    (draftField name decode get put).Keeps fields where
  isSet set := by
    obtain ⟨value, -, rfl⟩ := draftField_set_eq_ok_iff.1 set
    exact isSet value _
  others set := by
    obtain ⟨value, -, rfl⟩ := draftField_set_eq_ok_iff.1 set
    exact others value _

/-- What stands for a field of a record that is accepted is decoded as that field. -/
lemma exists_decode_of_standsFor {β : Type} {record : Record RegistrationError σ β} {whole : β}
    {document part : Document} (decoded : record.decode document = .ok whole)
    (distinct : (record.fields.map Field.name).Nodup)
    (mem : draftField name decode get put ∈ record.fields)
    (stands : StandsFor (record.fields.map Field.name) name document part) :
    ∃ value, decode part = .ok value := by
  have known : name ∈ record.fields.map Field.name := List.mem_map_of_mem mem
  obtain ⟨field, isField, hasName, draft, next, set⟩ :=
    Record.exists_set_of_standsFor decoded stands known
  obtain rfl : field = draftField name decode get put :=
    List.inj_on_of_nodup_map distinct isField mem hasName
  obtain ⟨value, decoded, -⟩ := draftField_set_eq_ok_iff.1 set
  exact ⟨value, decoded⟩

end

/-- Setting a field of a policy unsets none. -/
lemma Policy.keepsFields : Policy.record.KeepsFields := by
  unfold Record.KeepsFields Policy.record
  simp only [List.forall_mem_cons]
  refine ⟨?_, ?_, ?_, ?_, fun _ mem => absurd mem List.not_mem_nil⟩
  all_goals exact keeps_draftField (fun _ _ => rfl) (by simp +contextual [draftField])

/-- Setting a field of a qualifier unsets none. -/
lemma Qualifier.keepsFields : Qualifier.record.KeepsFields := by
  unfold Record.KeepsFields Qualifier.record
  simp only [List.forall_mem_cons]
  refine ⟨?_, ?_, ?_, ?_, ?_, ?_, fun _ mem => absurd mem List.not_mem_nil⟩
  all_goals exact keeps_draftField (fun _ _ => rfl) (by simp +contextual [draftField])

/-- Setting a field of a configuration unsets none. -/
lemma Config.keepsFields : Config.record.KeepsFields := by
  unfold Record.KeepsFields Config.record
  simp only [List.forall_mem_cons]
  refine ⟨?_, ?_, ?_, ?_, ?_, fun _ mem => absurd mem List.not_mem_nil⟩
  all_goals exact keeps_draftField (fun _ _ => rfl) (by simp +contextual [draftField])

section

variable {document part : Document} {config : Config}
  (decoded : Config.record.decode document = .ok config)

include decoded

/-- What stands for the policy of a configuration that is accepted is accepted as a policy. -/
lemma exists_policy_of_standsFor (stands : StandsFor configFields "policy" document part) :
    ∃ policy, Policy.record.decode part = .ok policy :=
  exists_decode_of_standsFor decoded (by decide) (.tail _ (.tail _ (.tail _ (.head _)))) stands

/-- What stands for the qualifiers of a configuration that is accepted is accepted as a table. -/
lemma exists_qualifiers_of_standsFor (stands : StandsFor configFields "qualifiers" document part) :
    ∃ table, QualifierTable.decode part = .ok table :=
  exists_decode_of_standsFor decoded (by decide)
    (.tail _ (.tail _ (.tail _ (.tail _ (.head _))))) stands

/-- A configuration is accepted only from a document that names nothing twice. -/
lemma not_namesTwice_of_decode : ¬ NamesTwice document := by
  intro twice
  cases twice with
  | config repeats => exact Config.keepsFields.not_repeats decoded repeats
  | policy stands repeats =>
    obtain ⟨policy, decoded⟩ := exists_policy_of_standsFor decoded stands
    exact Policy.keepsFields.not_repeats decoded repeats
  | qualifier stands mem repeats =>
    obtain ⟨table, decoded⟩ := exists_qualifiers_of_standsFor decoded stands
    rw [QualifierTable.decode_eq_ok_iff, decodeList_eq_ok_iff] at decoded
    obtain ⟨items, eq, decoded⟩ := decoded
    cases eq
    obtain ⟨qualifier, -, decoded⟩ := decoded.exists_of_mem_left mem
    exact Qualifier.keepsFields.not_repeats decoded repeats

end

/-! ## Texts -/

section

variable {ε α : Type} {decode : Decoder ε α} {text : List Char} {value : α}

/-- A text is decoded as the document that it is read as, if only white space follows. -/
lemma decodeText_eq_ok_of_spacing {document : Document} {after : List Char}
    (read : Document.ofText text = (document, some after)) (spacing : Spacing after)
    (decoded : decode document = .ok value) : decodeText decode text = .ok value := by
  have noMore : skipSpace after = [] := by
    have skipped := skipSpace_append spacing []
    rwa [List.append_nil] at skipped
  unfold decodeText
  rw [read]
  dsimp only
  rw [decoded, Option.map_some, noMore]
  rfl

/-- A text that is one document is decoded as that document. -/
lemma decodeText_eq_ok {document : Document} (read : Document.ofText text = (document, some []))
    (decoded : decode document = .ok value) : decodeText decode text = .ok value :=
  decodeText_eq_ok_of_spacing read spacing_nil decoded

/-- A text is accepted only if the document in front of it is decoded. -/
lemma decode_of_decodeText (decoded : decodeText decode text = .ok value) :
    decode (Document.ofText text).1 = .ok value := by
  obtain ⟨other, decoded, rest⟩ := Except.bind_eq_ok_iff.1 decoded
  split at rest
  · cases rest
    exact decoded
  · cases rest

end

/-- A text that spells a configuration is read as it. -/
lemma Config.SpelledBy.ofJsonText_eq_ok {config : Config} {text : List Char}
    (spelled : config.SpelledBy text) : Config.ofJsonText text = .ok config := by
  cases spelled with
  | intro spelled record =>
    obtain ⟨after, spacing, read⟩ := Document.exists_ofText_of_textSpelled spelled
    have decoded := config.draftsOf.decode_eq_ok record (Document.skip_of_textSpelled spelled)
    exact decodeText_eq_ok_of_spacing read spacing decoded

/-- **Texts of a configuration.** All texts that spell a configuration are read as it. No text is
accepted of a document in which the configuration, its policy or one of its qualifiers is an object
that names a field twice, and neither is a text that is no JSON behind such an object. -/
theorem Config.ofJsonText_of_spelled :
    (∀ (config : Config) (text : List Char), config.SpelledBy text →
      Config.ofJsonText text = .ok config) ∧
    (∀ (document : Document) (text : List Char), TextSpelled document text → NamesTwice document →
      ∀ config, Config.ofJsonText text ≠ .ok config) ∧
    ∀ text : List Char, NamesTwice (Document.ofText text).1 →
      ∀ config, Config.ofJsonText text ≠ .ok config := by
  have refuses (text : List Char) (twice : NamesTwice (Document.ofText text).1) (config : Config) :
      Config.ofJsonText text ≠ .ok config := fun accepted =>
    not_namesTwice_of_decode (decode_of_decodeText accepted) twice
  refine ⟨fun _ _ spelled => spelled.ofJsonText_eq_ok, ?_, refuses⟩
  intro document text spelled twice
  obtain ⟨after, -, read⟩ := Document.exists_ofText_of_textSpelled spelled
  refine refuses text ?_
  rw [read]
  exact twice

/-- Spells in whose bodies references may be to races. -/
def raceConfig : Config where
  subToken := "SPELL"
  title := "Spells"
  targetClass := "Spell"
  policy := { allLegal := false }
  qualifiers :=
    { qualifiers :=
        [{ name := "RACE", body := .optional, allLegal := false, targetClass := some "Race" },
         { name := "ANY", allowNegation := true }]
      legal := by decide
      distinct := by decide }

/-- One way to write this configuration, with arrays for the policy and for the second qualifier. -/
def raceJson : Json :=
  .object
    [("qualifiers", .array
       [.object
          [("target_class", .string "Race"), ("note", .array [.number 1, .object []]),
           ("all_legal", .bool false), ("name", .string "RACE"),
           ("body", .object [("optional", .null)])],
        .array [.string "ANY", .bool true]]),
     ("title", .string "Spells"), ("policy", .array [.bool true, .bool false]), ("note", .null),
     ("note", .string ""), ("target_class", .string "Spell"), ("sub_token", .string "SPELL")]

/-- A qualifier whose name is written twice. -/
def twiceJson : Json :=
  .object [("qualifiers", .array [.object [("name", .string "ANY"), ("name", .string "ANY")]])]

/-- Each field of the configuration is found among the members, in whatever order. -/
lemma spelled_raceJson : RecordSpelled raceConfig.spellings raceJson.document := by
  have policy : RecordSpelled (Policy.spellings { allLegal := false })
      (Json.array [.bool true, .bool false]).document := by
    have written : List.Forall₂ FieldSpelling.spelledBy
        [flagSpelling "type_legal" true true, flagSpelling "all_legal" false true]
        [.bool true, .bool false] :=
      .cons rfl (.cons rfl .nil)
    refine .array rfl written ?_
    simp [flagSpelling]
  have race : RecordSpelled
      (Qualifier.spellings
        { name := "RACE", body := .optional, allLegal := false, targetClass := some "Race" })
      (Json.object
        [("target_class", .string "Race"), ("note", .array [.number 1, .object []]),
         ("all_legal", .bool false), ("name", .string "RACE"),
         ("body", .object [("optional", .null)])]).document := by
    refine recordSpelled_object ?_
    simp only [Qualifier.spellings, List.forall_mem_cons]
    exact ⟨.written rfl rfl, .omitted rfl rfl, .written rfl .member, .written rfl rfl,
      .omitted rfl rfl, .written rfl .some, fun _ mem => absurd mem List.not_mem_nil⟩
  have any : RecordSpelled (Qualifier.spellings { name := "ANY", allowNegation := true })
      (Json.array [.string "ANY", .bool true]).document := by
    have written : List.Forall₂ FieldSpelling.spelledBy
        [textSpelling "name" "ANY", flagSpelling "allow_negation" true false]
        [.string (.ok "ANY"), .bool true] :=
      .cons rfl (.cons rfl .nil)
    refine .array rfl written ?_
    simp [flagSpelling]
  refine recordSpelled_object ?_
  simp only [raceConfig, Config.spellings, List.forall_mem_cons]
  exact ⟨.written rfl rfl, .written rfl rfl, .written rfl rfl, .written rfl policy,
    .written rfl (.intro (.cons race (.cons any .nil))), fun _ mem => absurd mem List.not_mem_nil⟩

/-- The name is repeated in an item of the list of qualifiers. -/
lemma namesTwice_twiceJson : NamesTwice twiceJson.document := by
  have stands : StandsFor configFields "qualifiers" twiceJson.document
      (Json.array [.object [("name", .string "ANY"), ("name", .string "ANY")]]).document :=
    .member List.mem_cons_self
  have repeats : Repeats qualifierFields
      (Json.object [("name", .string "ANY"), ("name", .string "ANY")]).document :=
    @Repeats.intro _ "name" [] (.string (.ok "ANY")) [] (.string (.ok "ANY")) [] none (by decide)
  exact .qualifier stands List.mem_cons_self repeats

/-- White space around the text is skipped, and so are unknown members. -/
theorem ofJsonText_of_races :
    let text := "\n\x7b\"qualifiers\":[\x7b\"target_class\":\"Race\",\"note\":[1,\x7b\x7d]," ++
      "\"all_legal\":false,\"name\":\"RACE\",\"body\":\x7b\"optional\":null\x7d\x7d," ++
      "[\"ANY\",true]],\"title\":\"Spells\",\"policy\":[true,false],\"note\":null," ++
      "\"note\":\"\",\"target_class\":\"Spell\",\"sub_token\":\"SPELL\"\x7d\n"
    let twice := "\x7b\"qualifiers\":[\x7b\"name\":\"ANY\",\"name\":\"ANY\"\x7d]\x7d"
    raceConfig.SpelledBy text.toList ∧ Config.ofJsonText text.toList = .ok raceConfig ∧
      TextSpelled twiceJson.document twice.toList ∧ NamesTwice twiceJson.document ∧
      (∀ config, Config.ofJsonText twice.toList ≠ .ok config) ∧
      NamesTwice (Document.ofText (twice ++ "]").toList).1 ∧
      ∀ config, Config.ofJsonText (twice ++ "]").toList ≠ .ok config := by
  intro text twice
  have written : text.toList = '\n' :: raceJson.compactText ++ ['\n'] := by
    simp only [text, String.toList_append]
    decide +kernel
  have writtenTwice : twice.toList = twiceJson.compactText := by
    decide +kernel
  have lineEnd : Spacing ['\n'] := spacing_newLine 0
  obtain ⟨depth, spelled⟩ := exists_spelled_compactText raceJson
  have spelledBy : raceConfig.SpelledBy text.toList := by
    rw [written]
    exact .intro (.intro lineEnd spelled lineEnd) spelled_raceJson
  obtain ⟨depth, spelled⟩ := exists_spelled_compactText twiceJson
  rw [← writtenTwice] at spelled
  have spelledTwice : TextSpelled twiceJson.document twice.toList := by
    have textSpelled := TextSpelled.intro spacing_nil spelled spacing_nil
    rwa [List.nil_append, List.append_nil] at textSpelled
  have readTwice : NamesTwice (Document.ofText (twice ++ "]").toList).1 := by
    have ends : EndsNumber [']'] := Document.endsNumber_append spacing_nil (by decide) []
    have read := Document.ofText_append_of_spelled spacing_nil spelled ends
    rw [String.toList_append]
    rw [List.nil_append] at read
    exact read ▸ namesTwice_twiceJson
  obtain ⟨accepts, refuses, refusesRead⟩ := Config.ofJsonText_of_spelled
  exact ⟨spelledBy, accepts raceConfig text.toList spelledBy, spelledTwice, namesTwice_twiceJson,
    refuses twiceJson.document twice.toList spelledTwice namesTwice_twiceJson, readTwice,
    refusesRead (twice ++ "]").toList readTwice⟩

end ChoiceLang
