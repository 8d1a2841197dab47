import ChoiceLang.Config.Json
import ChoiceLang.Proofs.Registration
import ChoiceLang.Selection.Value
import Mathlib.Data.List.Perm.Basic

/-!
# Registries with an index

A registry keeps its qualifiers in order of registration, and beside them an index from each name
to a place in that order. `Registry.Represents` says that the two hold what a `QualifierTable`
holds, whose look-up goes through the list alone. One call keeps that, whether it succeeds or
fails, so every registry that calls lead to represents a table, and nothing that is read from it
can tell the two apart. What is read with a table depends on its look-up only, hence not on the
order of its list.
-/

namespace ChoiceLang

open Expression

/-- Qualifiers in order of registration, with the place of each by its name. -/
structure Registry where
  qualifiers : List Qualifier := []
  places : Std.HashMap String Nat := ∅

namespace Registry

/-- The registry after an attempt to register a qualifier, and what became of that. -/
def register (registry : Registry) (qualifier : Qualifier) :
    Registry × Except RegistrationError Unit :=
  if isIdentifier qualifier.name = false then
    (registry, .error (.invalidName qualifier.name))
  else if qualifier.name ∈ reservedNames then
    (registry, .error (.reservedName qualifier.name))
  else if registry.places.contains qualifier.name then
    (registry, .error (.duplicate qualifier.name))
  else
    ({ qualifiers := registry.qualifiers ++ [qualifier]
       places := registry.places.insert qualifier.name registry.qualifiers.length }, .ok ())

/-- The registry with one more qualifier, if that is registered. -/
def extend (registry : Registry) (qualifier : Qualifier) : Except RegistrationError Registry :=
  match registry.register qualifier with
  | (next, .ok ()) => .ok next
  | (_, .error reason) => .error reason

/-- The registry of the given qualifiers. -/
def ofList (qualifiers : List Qualifier) : Except RegistrationError Registry :=
  qualifiers.foldlM extend {}

/-- Decodes a registry. All qualifiers are decoded before the first is registered. -/
def decode : Json.Decoder RegistrationError Registry := fun document => do
  let qualifiers ← Json.decodeList Qualifier.record.decode document
  match ofList qualifiers with
  | .ok registry => return registry
  | .error reason => .error (.refused reason)

/-- The qualifier at the place that the index gives for a name. -/
def get (registry : Registry) (name : String) : Option Qualifier :=
  registry.places[name]?.bind fun place => registry.qualifiers[place]?

/-- The registries that calls lead to, in any order and whether they succeed or fail. -/
inductive Reachable : Registry → Prop where
  | new :
    Reachable {}
  | register {registry qualifier} :
    Reachable registry →
    Reachable (registry.register qualifier).1
  | extend {registry next qualifier} :
    Reachable registry →
    registry.extend qualifier = .ok next →
    Reachable next
  | ofList {registry qualifiers} :
    ofList qualifiers = .ok registry →
    Reachable registry
  | decode {registry document} :
    decode document = .ok registry →
    Reachable registry

/-- A registry holds the qualifiers of a table, and its index tells their places there. -/
structure Represents (registry : Registry) (table : QualifierTable) : Prop where
  qualifiers : registry.qualifiers = table.qualifiers
  places : ∀ (name : String) (place : Nat),
    registry.places[name]? = some place ↔ table.names[place]? = some name

/-- A registry and a table come of the same call, or the same error. -/
inductive Agree {ε : Type} : Except ε Registry → Except ε QualifierTable → Prop where
  | ok {registry table} :
    Represents registry table →
    Agree (.ok registry) (.ok table)
  | error {reason} :
    Agree (.error reason) (.error reason)

/-- The list of a registry and what its index finds in it. -/
structure InStep (registry : Registry) : Prop extends Acceptable registry.qualifiers where
  found : ∀ name qualifier, registry.get name = some qualifier ↔
    qualifier ∈ registry.qualifiers ∧ qualifier.name = name

/-- What comes of an attempt to register a qualifier. -/
structure Registers (registry : Registry) (qualifier : Qualifier) : Prop where
  refused : ∀ reason, (registry.register qualifier).2 = .error reason ↔
    Refused registry.qualifiers qualifier reason
  unchanged : ∀ reason, (registry.register qualifier).2 = .error reason →
    (registry.register qualifier).1 = registry
  appended : (registry.register qualifier).2 = .ok () →
    (registry.register qualifier).1.qualifiers = registry.qualifiers ++ [qualifier]
  found : (registry.register qualifier).2 = .ok () →
    ∀ name, (registry.register qualifier).1.get name =
      if name = qualifier.name then some qualifier else registry.get name

/-! ## Calls -/

variable {registry next : Registry} {table added : QualifierTable} {qualifier : Qualifier}
  {reason : RegistrationError}

/-- A registry is extended by what is registered, and unchanged by what is refused. -/
lemma register_of_extend (registry : Registry) (qualifier : Qualifier) :
    registry.register qualifier =
      match registry.extend qualifier with
      | .ok next => (next, .ok ())
      | .error reason => (registry, .error reason) := by
  unfold extend register
  split_ifs <;> rfl

/-- The new registry represents the empty table. -/
lemma represents_empty : Represents {} .empty where
  qualifiers := rfl
  places name place := by simp [QualifierTable.names, QualifierTable.empty]

/-- A name behind a list takes the place after the last and leaves the others theirs. -/
lemma getElem?_concat_eq_some_iff {names : List String} {last name : String} {place : Nat} :
    (names ++ [last])[place]? = some name ↔
      names[place]? = some name ∨ place = names.length ∧ last = name := by
  rw [List.getElem?_append]
  split
  · next before => simp [Nat.ne_of_lt before]
  · next behind =>
    have last_place : place - names.length = 0 ↔ place = names.length := by omega
    rw [List.getElem?_eq_none (Nat.not_lt.1 behind), List.getElem?_singleton]
    by_cases eq : place = names.length <;> simp [last_place, eq]

namespace Represents

/-- The index has the names of the table. -/
lemma contains_iff (same : registry.Represents table) (name : String) :
    registry.places.contains name = true ↔ name ∈ table.names := by
  rw [Std.HashMap.contains_eq_isSome_getElem?, Option.isSome_iff_exists, List.mem_iff_getElem?]
  exact exists_congr (same.places name)

/-- The index leads to what is found by a walk along the list. -/
lemma get_eq (same : registry.Represents table) (name : String) :
    registry.get name = table.find? name := by
  ext qualifier
  rw [QualifierTable.find?_eq_some_iff, Registry.get, Option.bind_eq_some_iff]
  constructor
  · rintro ⟨place, indexed, there⟩
    rw [same.qualifiers] at there
    have named := (same.places name place).1 indexed
    rw [QualifierTable.names, List.getElem?_map, there] at named
    exact ⟨List.mem_of_getElem? there, Option.some.inj named⟩
  · rintro ⟨mem, rfl⟩
    obtain ⟨place, there⟩ := List.mem_iff_getElem?.1 mem
    refine ⟨place, (same.places _ place).2 ?_, same.qualifiers ▸ there⟩
    rw [QualifierTable.names, List.getElem?_map, there]
    rfl

/-- The place of a new qualifier is the number of those before it. -/
lemma insert (same : registry.Represents table) (new : qualifier.name ∉ table.names)
    (added_eq : added.qualifiers = table.qualifiers ++ [qualifier]) :
    Represents
      { qualifiers := registry.qualifiers ++ [qualifier]
        places := registry.places.insert qualifier.name registry.qualifiers.length } added where
  qualifiers := by rw [added_eq, same.qualifiers]
  places name place := by
    have names : added.names = table.names ++ [qualifier.name] := by
      rw [QualifierTable.names, added_eq, List.map_append]
      rfl
    -- the index is written with the length of the list before the qualifier is added to it
    have length : registry.qualifiers.length = table.names.length := by
      rw [same.qualifiers, QualifierTable.names, List.length_map]
    rw [Std.HashMap.getElem?_insert, names, length, getElem?_concat_eq_some_iff]
    by_cases here : qualifier.name = name
    · subst here
      -- an overwritten place would belong to a name of the table, but this one is new
      have notBefore : table.names[place]? ≠ some qualifier.name :=
        fun there => new (List.mem_of_getElem? there)
      simp [notBefore, eq_comm]
    · rw [if_neg (by simpa using here), same.places]
      simp [here]

/-- A registry refuses what a table refuses, and otherwise writes to its list and its index. -/
lemma extend (same : registry.Represents table) (qualifier : Qualifier) :
    Agree (registry.extend qualifier) (table.register qualifier) := by
  unfold Registry.extend Registry.register
  cases outcome : table.register qualifier with
  | ok added =>
    obtain ⟨legal, new, added_eq⟩ := QualifierTable.register_eq_ok_iff.1 outcome
    rw [if_neg (by simp [legal.1]), if_neg legal.2, if_neg fun known => new <|
      (same.contains_iff qualifier.name).1 known]
    exact .ok (same.insert new added_eq)
  | error reason =>
    cases QualifierTable.register_eq_error_iff.1 outcome with
    | invalidName notForm =>
      rw [← isIdentifier_iff, Bool.not_eq_true] at notForm
      rw [if_pos notForm]
      exact .error
    | reservedName form reserved =>
      rw [if_neg (by simp [isIdentifier_iff.2 form]), if_pos (mem_reservedNames_iff.2 reserved)]
      exact .error
    | duplicate form notReserved mem eq =>
      have legal := legalName_iff.2 ⟨form, notReserved⟩
      have known : qualifier.name ∈ table.names := List.mem_map.2 ⟨_, mem, eq⟩
      rw [if_neg (by simp [legal.1]), if_neg legal.2,
        if_pos ((same.contains_iff qualifier.name).2 known)]
      exact .error

end Represents

namespace Agree

variable {ε : Type} {one : Except ε Registry} {other : Except ε QualifierTable}

/-- A registry that was made represents the table of the same call. -/
lemma exists_represents (agree : Agree one other) (made : one = .ok registry) :
    ∃ table, other = .ok table ∧ registry.Represents table := by
  subst made
  cases agree with
  | ok same => exact ⟨_, rfl, same⟩

/-- Both calls fail for the same reasons. -/
lemma error_iff {reason : ε} (agree : Agree one other) :
    one = .error reason ↔ other = .error reason := by
  cases agree with
  | ok same => exact iff_of_false nofun nofun
  | error => rw [Except.error.injEq, Except.error.injEq]

/-- Calls that agree go on to agree if every next step does. -/
lemma bind {onward : Registry → Except ε Registry}
    {further : QualifierTable → Except ε QualifierTable} (agree : Agree one other)
    (step : ∀ registry table, Represents registry table → Agree (onward registry) (further table)) :
    Agree (one.bind onward) (other.bind further) := by
  cases agree with
  | ok same => exact step _ _ same
  | error => exact .error

end Agree

/-- A registry and its table still agree when they are extended by a list. -/
lemma Represents.extendAll (same : registry.Represents table) (qualifiers : List Qualifier) :
    Agree (qualifiers.foldlM Registry.extend registry) (table.registerAll qualifiers) := by
  induction qualifiers generalizing registry table with
  | nil => exact .ok same
  | cons qualifier others ih => exact (same.extend qualifier).bind fun _ _ same => ih same

/-- The registry and the table of a list agree. -/
lemma agree_ofList (qualifiers : List Qualifier) :
    Agree (ofList qualifiers) (QualifierTable.ofList qualifiers) :=
  represents_empty.extendAll qualifiers

/-- The qualifiers of a table make a registry. -/
lemma exists_ofList (table : QualifierTable) :
    ∃ registry, ofList table.qualifiers = .ok registry ∧ registry.Represents table := by
  have agree := agree_ofList table.qualifiers
  rw [QualifierTable.ofList_eq_ok_iff.2 rfl] at agree
  generalize ofList table.qualifiers = made at agree ⊢
  cases agree with
  | ok same => exact ⟨_, rfl, same⟩

section

variable {qualifiers : List Qualifier}

/-- The lists that make a registry are the acceptable ones. -/
lemma exists_ofList_iff :
    (∃ registry, ofList qualifiers = .ok registry) ↔ Acceptable qualifiers := by
  rw [← QualifierTable.exists_qualifiers_eq_iff]
  constructor
  · intro ⟨registry, made⟩
    obtain ⟨table, collected, -⟩ := (agree_ofList qualifiers).exists_represents made
    exact ⟨table, QualifierTable.ofList_eq_ok_iff.1 collected⟩
  · intro ⟨table, same⟩
    obtain ⟨registry, made, -⟩ := exists_ofList table
    rw [same] at made
    exact ⟨registry, made⟩

/-- A registry keeps the list it was made of. -/
lemma qualifiers_of_ofList (made : ofList qualifiers = .ok registry) :
    registry.qualifiers = qualifiers := by
  obtain ⟨table, collected, same⟩ := (agree_ofList qualifiers).exists_represents made
  rw [same.qualifiers, QualifierTable.ofList_eq_ok_iff.1 collected]

/-- A list is refused for the first qualifier that is refused behind those before it. -/
lemma ofList_eq_error_iff :
    ofList qualifiers = .error reason ↔
      ∃ before qualifier after, qualifiers = before ++ qualifier :: after ∧
        Acceptable before ∧ Refused before qualifier reason := by
  rw [(agree_ofList qualifiers).error_iff]
  exact QualifierTable.registerAll_eq_error_iff

end

/-- The registry and the table of a document agree. -/
lemma agree_decode (document : Json.Document) :
    Agree (decode document) (QualifierTable.decode document) := by
  unfold decode QualifierTable.decode
  cases Json.decodeList Qualifier.record.decode document with
  | error fault => exact .error
  | ok qualifiers =>
    dsimp only [Bind.bind, Except.bind]
    have agree := agree_ofList qualifiers
    generalize ofList qualifiers = one, QualifierTable.ofList qualifiers = other at agree
    cases agree with
    | ok same => exact .ok same
    | error => exact .error

/-- Every registry that calls lead to represents a table. -/
lemma Reachable.exists_represents (reachable : Reachable registry) :
    ∃ table, registry.Represents table := by
  induction reachable with
  | new => exact ⟨_, represents_empty⟩
  | @register registry qualifier _ ih =>
    obtain ⟨table, same⟩ := ih
    rw [register_of_extend]
    cases extended : registry.extend qualifier with
    | ok next =>
      obtain ⟨added, -, same⟩ := (same.extend qualifier).exists_represents extended
      exact ⟨added, same⟩
    | error => exact ⟨table, same⟩
  | @extend registry next qualifier _ extended ih =>
    obtain ⟨table, same⟩ := ih
    obtain ⟨added, -, same⟩ := (same.extend qualifier).exists_represents extended
    exact ⟨added, same⟩
  | @ofList registry qualifiers made =>
    obtain ⟨table, -, same⟩ := (agree_ofList qualifiers).exists_represents made
    exact ⟨table, same⟩
  | @decode registry document decoded =>
    obtain ⟨table, -, same⟩ := (agree_decode document).exists_represents decoded
    exact ⟨table, same⟩

namespace Represents

/-- What represents a table is found by its index. -/
lemma inStep (same : registry.Represents table) : registry.InStep where
  toAcceptable := QualifierTable.exists_qualifiers_eq_iff.1 ⟨table, same.qualifiers.symm⟩
  found name qualifier := by rw [same.get_eq, same.qualifiers, QualifierTable.find?_eq_some_iff]

/-- A registry that has registered a qualifier represents the table that has done the same. -/
lemma exists_register (same : registry.Represents table)
    (accepted : (registry.register qualifier).2 = .ok ()) :
    ∃ added, table.register qualifier = .ok added ∧
      (registry.register qualifier).1.Represents added := by
  rw [register_of_extend] at accepted ⊢
  cases extended : registry.extend qualifier with
  | ok next => exact (same.extend qualifier).exists_represents extended
  | error reason =>
    rw [extended] at accepted
    cases accepted

/-- A qualifier is registered with what represents a table as it is with the table. -/
lemma registers (same : registry.Represents table) (qualifier : Qualifier) :
    registry.Registers qualifier where
  refused reason := by
    rw [same.qualifiers, ← QualifierTable.register_eq_error_iff,
      ← (same.extend qualifier).error_iff, register_of_extend]
    cases registry.extend qualifier <;> simp
  unchanged reason refused := by
    rw [register_of_extend] at refused ⊢
    cases extended : registry.extend qualifier with
    | ok next =>
      rw [extended] at refused
      cases refused
    | error reason => rfl
  appended accepted := by
    obtain ⟨added, registered, next⟩ := same.exists_register accepted
    rw [next.qualifiers, QualifierTable.register_eq_ok_iff_qualifiers_eq.1 registered,
      same.qualifiers]
  found accepted name := by
    obtain ⟨added, registered, next⟩ := same.exists_register accepted
    rw [next.get_eq, same.get_eq, QualifierTable.find?_of_register registered]

end Represents

end Registry

/-! ## The order of a list -/

namespace Reader

variable {config : Config} {table : QualifierTable} {oracle : Option Oracle}

variable (found : ∀ name, table.find? name = config.qualifiers.find? name)

include found

/-- An item is read in the same way with every table in which the same is found. -/
lemma readItem_of_find? (readBody : LevelReader) (scope : Scope) (item : List Char) :
    readItem ⟨{ config with qualifiers := table }, oracle⟩ readBody scope item =
      readItem ⟨config, oracle⟩ readBody scope item := by
  have same : table.find? = config.qualifiers.find? := funext found
  unfold readItem readPlain readBracketed Config.bareQualifier? Config.namedQualifier
  rw [same]
  rfl

/-- A level is read in the same way as well. -/
lemma readLevel_of_find? (mode : Mode) (readBody : LevelReader) :
    readLevel ⟨{ config with qualifiers := table }, oracle⟩ mode readBody =
      readLevel ⟨config, oracle⟩ mode readBody := by
  have items : readItem ⟨{ config with qualifiers := table }, oracle⟩ readBody =
      readItem ⟨config, oracle⟩ readBody := by
    funext scope item
    exact readItem_of_find? found readBody scope item
  unfold readLevel readSegment
  rw [items]

/-- By induction on the room, so are all levels below. -/
lemma readWithin_of_find? (mode : Mode) (room : Nat) :
    readWithin ⟨{ config with qualifiers := table }, oracle⟩ mode room =
      readWithin ⟨config, oracle⟩ mode room := by
  induction room with
  | zero => exact readLevel_of_find? found mode _
  | succ room ih => rw [readWithin, readWithin, ih, readLevel_of_find? found]

/-- An expression is read in the same way with every table in which the same is found. -/
lemma readExpression_of_find? (mode : Mode) (text : List Char) :
    readExpression ⟨{ config with qualifiers := table }, oracle⟩ mode text =
      readExpression ⟨config, oracle⟩ mode text := by
  unfold readExpression
  rw [readWithin_of_find? found]
  rfl

/-- A value is read in the same way with every table in which the same is found. -/
lemma readValue_of_find? (value : String) :
    readValue ⟨{ config with qualifiers := table }, oracle⟩ value =
      readValue ⟨config, oracle⟩ value := by
  have expressions : readExpression ⟨{ config with qualifiers := table }, oracle⟩ .strict =
      readExpression ⟨config, oracle⟩ .strict := by
    funext text
    exact readExpression_of_find? found .strict text
  unfold readValue
  rw [expressions]
  rfl

end Reader

namespace Registry

/-- The list and the index of a registry stay in step through all calls, which do what they do to a
table; and what is read does not tell the order of the list. -/
theorem index_keeps_in_step :
    (∀ registry : Registry, registry.Reachable →
      registry.InStep ∧ (∀ qualifier, registry.Registers qualifier) ∧
        ∃ table, registry.Represents table ∧ (∀ name, registry.get name = table.find? name) ∧
          ∀ qualifier, Agree (registry.extend qualifier) (table.register qualifier)) ∧
    (∀ table : QualifierTable, ∃ registry, Reachable registry ∧ registry.Represents table) ∧
    (∀ document, Agree (decode document) (QualifierTable.decode document)) ∧
    (∀ qualifiers : List Qualifier,
      ((∃ registry, ofList qualifiers = .ok registry) ↔ Acceptable qualifiers) ∧
      (∀ registry, ofList qualifiers = .ok registry → registry.qualifiers = qualifiers) ∧
      ∀ reason, ofList qualifiers = .error reason ↔
        ∃ before qualifier after, qualifiers = before ++ qualifier :: after ∧
          Acceptable before ∧ Refused before qualifier reason) ∧
    ∀ (config : Config) (table : QualifierTable),
      config.qualifiers.qualifiers.Perm table.qualifiers →
      ∀ oracle : Option Oracle,
        (∀ value, Reader.readValue ⟨{ config with qualifiers := table }, oracle⟩ value =
          Reader.readValue ⟨config, oracle⟩ value) ∧
        ∀ mode text, Reader.readExpression ⟨{ config with qualifiers := table }, oracle⟩ mode text =
          Reader.readExpression ⟨config, oracle⟩ mode text := by
  refine ⟨fun registry reachable => ?_, fun table => ?_, agree_decode,
    fun qualifiers => ⟨?_, ?_, ?_⟩, fun config table perm oracle => ?_⟩
  · obtain ⟨table, same⟩ := reachable.exists_represents
    exact ⟨same.inStep, same.registers, table, same, same.get_eq, same.extend⟩
  · obtain ⟨registry, made, same⟩ := exists_ofList table
    exact ⟨registry, .ofList made, same⟩
  · exact exists_ofList_iff
  · exact fun registry => qualifiers_of_ofList
  · exact fun reason => ofList_eq_error_iff
  · have found := fun name => (QualifierTable.find?_of_perm perm name).symm
    exact ⟨Reader.readValue_of_find? found, Reader.readExpression_of_find? found⟩

end Registry

end ChoiceLang
