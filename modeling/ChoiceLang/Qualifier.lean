/-!
# Qualifiers

A qualifier is a name that may stand before a bracketed expression, with the rules for its use.
The qualifiers of a configuration form a table in order of registration, whose names are legal
and differ from each other.
-/

namespace ChoiceLang

/-- Whether a qualifier has to be written with a body. -/
inductive BodyRequirement where
  | required
  /-- The name alone is the qualifier without a restriction. -/
  | optional
deriving DecidableEq

/-- The rules for the use of a qualifier. -/
structure Qualifier where
  name : String
  /-- The qualifier may be negated. -/
  allowNegation : Bool := false
  body : BodyRequirement := .required
  /-- `ALL` may stand alone in the body. -/
  allLegal : Bool := true
  /-- The body may hold type filters. -/
  typeLegal : Bool := true
  /-- The class of the references in the body, if it is not the one around the qualifier. -/
  targetClass : Option String := none
deriving DecidableEq

/-- Why a qualifier is not registered. -/
inductive RegistrationError where
  | invalidName (name : String)
  | reservedName (name : String)
  | duplicate (name : String)
deriving DecidableEq

/-- The wording of an error. -/
def RegistrationError.message : RegistrationError → String
  | invalidName name => "invalid qualifier name `" ++ name ++ "`"
  | reservedName name => "qualifier name `" ++ name ++ "` is reserved"
  | duplicate name => "qualifier `" ++ name ++ "` is already registered"

/-- Whether a text is an identifier: an ASCII letter, then ASCII letters, digits and
underscores. -/
def isIdentifier (name : String) : Bool :=
  match name.toList with
  | [] => false
  | first :: others => first.isAlpha && others.all fun c => c.isAlphanum || c = '_'

/-- The words that name no qualifier. -/
def reservedNames : List String := ["ALL", "TYPE"]

/-- Whether a qualifier may have a name. -/
def LegalName (name : String) : Prop := isIdentifier name = true ∧ name ∉ reservedNames

instance (name : String) : Decidable (LegalName name) :=
  inferInstanceAs (Decidable (_ ∧ _))

/-- Qualifiers with legal names that differ, in order of registration. -/
structure QualifierTable where
  qualifiers : List Qualifier
  legal : ∀ qualifier ∈ qualifiers, LegalName qualifier.name
  distinct : (qualifiers.map Qualifier.name).Nodup
deriving DecidableEq

namespace QualifierTable

/-- The table without qualifiers. -/
def empty : QualifierTable := ⟨[], by simp, by simp⟩

/-- The qualifier of a name. -/
def find? (table : QualifierTable) (name : String) : Option Qualifier :=
  table.qualifiers.find? fun qualifier => qualifier.name = name

/-- The names of the qualifiers, in order of registration. -/
def names (table : QualifierTable) : List String := table.qualifiers.map Qualifier.name

/-- Adds a qualifier at the end of the table. -/
def register (table : QualifierTable) (qualifier : Qualifier) :
    Except RegistrationError QualifierTable :=
  if identifier : isIdentifier qualifier.name = true then
    if reserved : qualifier.name ∈ reservedNames then
      .error (.reservedName qualifier.name)
    else if known : qualifier.name ∈ table.names then
      .error (.duplicate qualifier.name)
    else
      .ok
        { qualifiers := table.qualifiers ++ [qualifier]
          legal := by
            intro other mem
            rcases List.mem_append.1 mem with mem | mem
            · exact table.legal other mem
            · rw [List.mem_singleton.1 mem]
              exact ⟨identifier, reserved⟩
          distinct := by
            rw [List.map_append, List.nodup_append]
            refine ⟨table.distinct, by simp, ?_⟩
            rintro name mem _ mem' rfl
            exact known (List.mem_singleton.1 mem' ▸ mem) }
  else .error (.invalidName qualifier.name)

/-- Registers further qualifiers in order. -/
def registerAll (table : QualifierTable) : List Qualifier → Except RegistrationError QualifierTable
  | [] => .ok table
  | qualifier :: others => do
    let table ← table.register qualifier
    table.registerAll others

/-- The table of the given qualifiers. -/
def ofList (qualifiers : List Qualifier) : Except RegistrationError QualifierTable :=
  empty.registerAll qualifiers

/-- A name finds exactly the qualifier of the table that bears it. -/
theorem find?_eq_some_iff {table : QualifierTable} {name : String} {qualifier : Qualifier} :
    table.find? name = some qualifier ↔ qualifier ∈ table.qualifiers ∧ qualifier.name = name := by
  obtain ⟨qualifiers, legal, distinct⟩ := table
  change qualifiers.find? (fun qualifier => qualifier.name = name) = _ ↔ qualifier ∈ qualifiers ∧ _
  clear legal
  induction qualifiers with
  | nil => simp
  | cons first others ih =>
    obtain ⟨notMem, distinct⟩ := List.nodup_cons.1 distinct
    by_cases here : first.name = name
    · subst here
      simp only [List.find?_cons, decide_true, Option.some.injEq, List.mem_cons]
      constructor
      · rintro rfl
        exact ⟨.inl rfl, rfl⟩
      · rintro ⟨rfl | mem, eq⟩
        · rfl
        · exact absurd (List.mem_map.2 ⟨qualifier, mem, eq⟩) notMem
    · simp only [List.find?_cons, here, decide_false, List.mem_cons]
      refine (ih distinct).trans ⟨fun ⟨mem, eq⟩ => ⟨.inr mem, eq⟩, ?_⟩
      rintro ⟨rfl | mem, eq⟩
      · exact absurd eq here
      · exact ⟨mem, eq⟩

end QualifierTable

end ChoiceLang
