import ChoiceLang.Proofs.WrittenJson
import ChoiceLang.Selection

/-!
# Trees as JSON

A choice that is no group names its kind first, and a group its operator. So no group is listed as
another choice, and the JSON of a tree tells it from all others. With the text of JSON, which tells
the value that it was written for, the listing of a selection loses nothing.
-/

namespace ChoiceLang

open Json

/-- The operators have different names. -/
lemma Operator.name_injective : Function.Injective Operator.name := by
  intro first second same
  cases first <;> cases second <;> first | rfl | simp [name] at same

/-- The listing of flags tells all four of them. -/
lemma Flags.toJson_injective : Function.Injective Flags.toJson := by
  intro first second same
  cases first
  cases second
  simp only [toJson, object.injEq, List.cons.injEq, Prod.mk.injEq, bool.injEq] at same
  simp [same]

/-- Groups with the same JSON are the same if their terms are told by theirs. -/
lemma Grouping.eq_of_toJson_eq {first second : Group}
    (terms : ∀ term ∈ first.terms, ∀ other, term.toJson = other.toJson → term = other)
    (same : first.toJson = second.toJson) : first = second := by
  simp only [toJson, groupJson, object.injEq, List.cons.injEq, Prod.mk.injEq, string.injEq,
    array.injEq] at same
  obtain ⟨⟨-, operators⟩, ⟨-, lists⟩, ⟨-, states⟩, -⟩ := same
  cases first
  cases second
  congr
  · exact Operator.name_injective operators
  · exact List.eq_of_map_eq_map terms lists
  · exact Flags.toJson_injective states

namespace Choice

/-- A qualifier with a body is listed with the listing of the body. -/
lemma toJson_qualifier (name : String) (negated : Bool) (body : Group) :
    (qualifier name negated body).toJson =
      .object
        [("kind", .string "qualifier"), ("name", .string name), ("negated", .bool negated),
         ("body", body.toJson)] := by
  obtain ⟨operator, terms, flags⟩ := body
  rw [toJson, toJsons_eq_map]
  rfl

/-- A group among the terms of another is listed as it is on its own. -/
lemma toJson_group (inner : Group) : (group inner).toJson = inner.toJson := by
  obtain ⟨operator, terms, flags⟩ := inner
  rw [toJson, toJsons_eq_map]
  rfl

/-- The first member of the object that a choice is listed as. -/
def heading : Choice → String × Json
  | all => ("kind", .string "all")
  | reference _ => ("kind", .string "reference")
  | types _ => ("kind", .string "type_filter")
  | bareQualifier .. => ("kind", .string "qualifier")
  | qualifier .. => ("kind", .string "qualifier")
  | group inner => ("operator", .string inner.operator.name)

/-- A choice is listed as an object that starts with its heading. -/
lemma exists_toJson_eq (choice : Choice) :
    ∃ others, choice.toJson = .object (choice.heading :: others) := by
  cases choice with
  | qualifier name negated body => exact ⟨_, toJson_qualifier name negated body⟩
  | group inner => exact ⟨_, toJson_group inner⟩
  | _ => exact ⟨_, rfl⟩

/-- Choices with the same listing have the same heading. -/
lemma heading_eq_of_toJson_eq {first second : Choice} (same : first.toJson = second.toJson) :
    first.heading = second.heading := by
  obtain ⟨others, eq⟩ := exists_toJson_eq first
  obtain ⟨others', eq'⟩ := exists_toJson_eq second
  rw [eq, eq'] at same
  exact (List.cons.inj (object.inj same)).1

/-- A body that is left out is listed as null, and one that is there as an object. -/
lemma toJson_bareQualifier_ne (name name' : String) (negated negated' : Bool) (body : Group) :
    (bareQualifier name negated).toJson ≠ (qualifier name' negated' body).toJson := by
  rw [toJson_qualifier, Grouping.toJson, groupJson]
  simp [toJson]

/-- By induction on the first choice, a listing tells which choice it is of. -/
lemma toJson_injective : Function.Injective toJson := by
  intro first
  induction first using induct with
  | all =>
    intro second same
    cases second with
    | all => rfl
    | _ => exact absurd (heading_eq_of_toJson_eq same) (by simp [heading])
  | reference r =>
    intro second same
    cases second with
    | reference s =>
      obtain ⟨className, name⟩ := r
      obtain ⟨className', name'⟩ := s
      cases same
      rfl
    | _ => exact absurd (heading_eq_of_toJson_eq same) (by simp [heading])
  | types filter =>
    intro second same
    cases second with
    | types other =>
      obtain ⟨negated, names, nodup⟩ := filter
      obtain ⟨negated', names', nodup'⟩ := other
      simp only [toJson, object.injEq, List.cons.injEq, Prod.mk.injEq, bool.injEq,
        array.injEq] at same
      obtain ⟨-, ⟨-, rfl⟩, ⟨-, same⟩, -⟩ := same
      have names : names = names' :=
        List.eq_of_map_eq_map (fun _ _ _ same => Json.string.inj same) same
      subst names
      rfl
    | _ => exact absurd (heading_eq_of_toJson_eq same) (by simp [heading])
  -- qualifiers with and without a body have the same heading; their bodies tell them apart
  | bareQualifier name negated =>
    intro second same
    cases second with
    | bareQualifier name' negated' =>
      cases same
      rfl
    | qualifier name' negated' body => exact (toJson_bareQualifier_ne _ _ _ _ _ same).elim
    | _ => exact absurd (heading_eq_of_toJson_eq same) (by simp [heading])
  | qualifier name negated body ih =>
    intro second same
    cases second with
    | bareQualifier name' negated' => exact (toJson_bareQualifier_ne _ _ _ _ _ same.symm).elim
    | qualifier name' negated' body' =>
      simp only [toJson_qualifier, object.injEq, List.cons.injEq, Prod.mk.injEq, string.injEq,
        bool.injEq] at same
      obtain ⟨-, ⟨-, rfl⟩, ⟨-, rfl⟩, ⟨-, bodies⟩, -⟩ := same
      rw [Grouping.eq_of_toJson_eq ih bodies]
    | _ => exact absurd (heading_eq_of_toJson_eq same) (by simp [heading])
  | group inner ih =>
    intro second same
    cases second with
    | group other =>
      rw [toJson_group, toJson_group] at same
      rw [Grouping.eq_of_toJson_eq ih same]
    | _ => exact absurd (heading_eq_of_toJson_eq same) (by simp [heading])

end Choice

/-! ## Listings -/

namespace Selection

/-- A listing tells which selection it is of. -/
lemma toJson_injective : Function.Injective toJson := by
  intro first second same
  obtain ⟨subToken, title, root⟩ := first
  obtain ⟨subToken', title', root'⟩ := second
  simp only [toJson, object.injEq, List.cons.injEq, Prod.mk.injEq, string.injEq] at same
  obtain ⟨⟨-, rfl⟩, ⟨-, rfl⟩, ⟨-, roots⟩, -⟩ := same
  rw [Grouping.eq_of_toJson_eq (fun _ _ _ same => Choice.toJson_injective same) roots]

/-- The listing of a selection loses nothing, and neither do the listings of the parts of its tree
on whatever line they start. -/
theorem pretty_toJson_loses_nothing :
    (∀ first second : Selection, first.toJson.pretty = second.toJson.pretty → first = second) ∧
    (∀ (first second : Choice) (indent indent' : Nat),
      first.toJson.prettyText indent = second.toJson.prettyText indent' → first = second) ∧
    (∀ (inner : Group) (choice : Choice), (∀ other, choice ≠ .group other) →
      ∀ indent indent', inner.toJson.prettyText indent ≠ choice.toJson.prettyText indent') ∧
    (∀ (name name' : String) (negated negated' : Bool) (body : Group) (indent indent' : Nat),
      (Choice.bareQualifier name negated).toJson.prettyText indent ≠
        (Choice.qualifier name' negated' body).toJson.prettyText indent') ∧
    ∀ first second : String, stringText first = stringText second → first = second := by
  refine ⟨fun first second same => ?_, fun first second indent indent' same => ?_,
    fun inner choice notGroup indent indent' same => ?_,
    fun name name' negated negated' body indent indent' same => ?_, fun first second same => ?_⟩
  · exact toJson_injective (eq_of_prettyText_eq (String.ofList_injective same))
  · exact Choice.toJson_injective (eq_of_prettyText_eq same)
  · have same := eq_of_prettyText_eq same
    rw [← Choice.toJson_group] at same
    exact notGroup inner (Choice.toJson_injective same).symm
  · exact Choice.toJson_bareQualifier_ne _ _ _ _ _ (eq_of_prettyText_eq same)
  · have same : (Json.string first).prettyText 0 = (Json.string second).prettyText 0 := same
    exact Json.string.inj (eq_of_prettyText_eq same)

end Selection

end ChoiceLang
