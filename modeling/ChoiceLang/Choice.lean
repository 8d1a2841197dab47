import ChoiceLang.Reference

/-!
# Choices

An expression offers alternatives between `|`; an alternative joins choices between `,`. A choice
is the wildcard `ALL`, a reference, a filter on types, or a qualifier, which may restrict what it
offers by an expression of its own. A group of choices carries flags that say whether it can be
used as written.
-/

namespace ChoiceLang

/-- How the choices of a group combine: all of them, or any of them. -/
inductive Operator where
  | and
  | or
deriving DecidableEq

namespace Operator

/-- The character between two choices of a group. -/
def separator : Operator → Char
  | and => ','
  | or => '|'

/-- The name of an operator. -/
def name : Operator → String
  | and => "and"
  | or => "or"

/-- The operators have different separators. -/
theorem separator_injective {a b : Operator} (h : a.separator = b.separator) : a = b := by
  cases a <;> cases b <;> simp_all [separator]

end Operator

/-- What is known of a group of choices as a whole. -/
structure Flags where
  /-- The group is nothing but a permitted `ALL`. -/
  allowsAll : Bool
  /-- The type filters in the group are permitted. -/
  allowsType : Bool
  /-- The group holds no `ALL`. -/
  allowsList : Bool
  /-- The group and every body in it can be used as written. -/
  isValid : Bool
deriving DecidableEq

/-- Choices joined by an operator. -/
structure Grouping (α : Type) where
  operator : Operator
  terms : List α
  flags : Flags
deriving DecidableEq

/-- The values of a list without repetition, each at the place of its first occurrence. -/
def keepFirst {α : Type} [DecidableEq α] : List α → List α
  | [] => []
  | a :: others => a :: (keepFirst others).filter (· ≠ a)

/-- Each value is kept once. -/
theorem nodup_keepFirst {α : Type} [DecidableEq α] (values : List α) :
    (keepFirst values).Nodup := by
  induction values with
  | nil => simp [keepFirst]
  | cons a others ih => exact List.nodup_cons.2 ⟨by simp, ih.filter _⟩

/-- No value is lost. -/
@[simp] theorem mem_keepFirst {α : Type} [DecidableEq α] (values : List α) (b : α) :
    b ∈ keepFirst values ↔ b ∈ values := by
  induction values with
  | nil => simp [keepFirst]
  | cons a others ih => by_cases eq : b = a <;> simp [keepFirst, ih, eq]

/-- A list without repetition is kept as it is. -/
theorem keepFirst_eq_self {α : Type} [DecidableEq α] {values : List α} (h : values.Nodup) :
    keepFirst values = values := by
  induction values with
  | nil => rfl
  | cons a others ih =>
    obtain ⟨notMem, nodup⟩ := List.nodup_cons.1 h
    rw [keepFirst, ih nodup, List.filter_eq_self.2]
    intro b mem
    simpa using fun eq : b = a => notMem (eq ▸ mem)

/-- Names of types, in order and without repetition. -/
structure TypeList where
  names : List String
  nodup : names.Nodup
deriving DecidableEq

/-- The names of a list, each at the place of its first occurrence. -/
def TypeList.ofList (names : List String) : TypeList :=
  ⟨keepFirst names, nodup_keepFirst names⟩

/-- A filter for objects that carry all the named types, or for all other objects. -/
structure TypeFilter where
  negated : Bool
  types : TypeList
deriving DecidableEq

/-- A choice: one item of an expression, or a group of items. -/
inductive Choice where
  /-- Everything. -/
  | all
  | reference (reference : Reference)
  | types (filter : TypeFilter)
  /-- A qualifier that is written without a body and restricts nothing. -/
  | bareQualifier (name : String) (negated : Bool)
  /-- A qualifier with the expression between its brackets. -/
  | qualifier (name : String) (negated : Bool) (body : Grouping Choice)
  | group (group : Grouping Choice)

/-- A group of choices. -/
abbrev Group := Grouping Choice

namespace Choice

/-- What holds for a choice if it holds for the terms of the group or body in it holds for all. -/
@[elab_as_elim]
theorem induct {motive : Choice → Prop} (all : motive all)
    (reference : ∀ r, motive (reference r)) (types : ∀ filter, motive (types filter))
    (bareQualifier : ∀ name negated, motive (bareQualifier name negated))
    (qualifier : ∀ name negated body, (∀ term ∈ body.terms, motive term) →
      motive (qualifier name negated body))
    (group : ∀ inner, (∀ term ∈ inner.terms, motive term) → motive (group inner)) :
    ∀ choice, motive choice
  | .all => all
  | .reference r => reference r
  | .types filter => types filter
  | .bareQualifier name negated => bareQualifier name negated
  | .qualifier name negated ⟨operator, terms, flags⟩ =>
    qualifier name negated ⟨operator, terms, flags⟩ fun term mem =>
      have _ := List.sizeOf_lt_of_mem mem
      induct all reference types bareQualifier qualifier group term
  | .group ⟨operator, terms, flags⟩ =>
    group ⟨operator, terms, flags⟩ fun term mem =>
      have _ := List.sizeOf_lt_of_mem mem
      induct all reference types bareQualifier qualifier group term
termination_by choice => sizeOf choice

mutual

/-- Equality of choices can be decided. -/
def decEq : (a b : Choice) → Decidable (a = b)
  | all, b => by
    cases b with
    | all => exact isTrue rfl
    | _ => exact isFalse nofun
  | reference r, b => by
    cases b with
    | reference s => exact decidable_of_iff (r = s) (by simp)
    | _ => exact isFalse nofun
  | types f, b => by
    cases b with
    | types g => exact decidable_of_iff (f = g) (by simp)
    | _ => exact isFalse nofun
  | bareQualifier n m, b => by
    cases b with
    | bareQualifier n' m' => exact decidable_of_iff (n = n' ∧ m = m') (by simp)
    | _ => exact isFalse nofun
  | qualifier n m ⟨o, ts, fs⟩, b => by
    cases b with
    | qualifier n' m' body =>
      obtain ⟨o', ts', fs'⟩ := body
      have := decEqList ts ts'
      exact decidable_of_iff (n = n' ∧ m = m' ∧ o = o' ∧ ts = ts' ∧ fs = fs') (by simp)
    | _ => exact isFalse nofun
  | group ⟨o, ts, fs⟩, b => by
    cases b with
    | group g =>
      obtain ⟨o', ts', fs'⟩ := g
      have := decEqList ts ts'
      exact decidable_of_iff (o = o' ∧ ts = ts' ∧ fs = fs') (by simp)
    | _ => exact isFalse nofun

/-- Equality of lists of choices can be decided. -/
def decEqList : (a b : List Choice) → Decidable (a = b)
  | [], [] => isTrue rfl
  | [], _ :: _ => isFalse nofun
  | _ :: _, [] => isFalse nofun
  | c :: cs, d :: ds =>
    have := decEq c d
    have := decEqList cs ds
    decidable_of_iff (c = d ∧ cs = ds) (by simp)

end

instance : DecidableEq Choice := decEq

mutual

/-- The references in a choice, bodies included, in written order. -/
def references : Choice → List Reference
  | all => []
  | reference r => [r]
  | types _ => []
  | bareQualifier .. => []
  | qualifier _ _ ⟨_, terms, _⟩ => referencesOf terms
  | group ⟨_, terms, _⟩ => referencesOf terms

/-- The references in several choices, in written order. -/
def referencesOf : List Choice → List Reference
  | [] => []
  | choice :: others => choice.references ++ referencesOf others

end

/-- Whether a choice is the wildcard. -/
def isAll : Choice → Bool
  | all => true
  | _ => false

/-- The references of a list are those of each choice, in order. -/
theorem referencesOf_eq_flatMap (choices : List Choice) :
    referencesOf choices = choices.flatMap references := by
  induction choices with
  | nil => rfl
  | cons choice others ih => rw [referencesOf, ih]; rfl

end Choice

/-- The references in a group, bodies included, in written order. -/
def Grouping.references (group : Group) : List Reference :=
  group.terms.flatMap Choice.references

end ChoiceLang
