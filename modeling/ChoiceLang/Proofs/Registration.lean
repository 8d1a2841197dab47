import ChoiceLang.Proofs.Outcomes
import ChoiceLang.Qualifier

/-!
# Registration

Qualifiers are registered one by one at the end of a table, each with a legal name that the table
does not hold yet. So a list of qualifiers makes a table if and only if it is the list of one, and
fails for the first qualifier that is refused behind those before it.
-/

namespace ChoiceLang

/-! ## Names -/

/-- A name matches `[A-Za-z][A-Za-z0-9_]*` as a whole. -/
inductive NameForm : String → Prop where
  | intro {first : Char} {others : List Char} :
    'A' ≤ first ∧ first ≤ 'Z' ∨ 'a' ≤ first ∧ first ≤ 'z' →
    (∀ c ∈ others,
      'A' ≤ c ∧ c ≤ 'Z' ∨ 'a' ≤ c ∧ c ≤ 'z' ∨ '0' ≤ c ∧ c ≤ '9' ∨ c = '_') →
    NameForm (String.ofList (first :: others))

/-- The letters are those of the alphabet, large and small. -/
lemma isAlpha_iff {c : Char} :
    c.isAlpha = true ↔ 'A' ≤ c ∧ c ≤ 'Z' ∨ 'a' ≤ c ∧ c ≤ 'z' := by
  have upper : c.isUpper = true ↔ 'A' ≤ c ∧ c ≤ 'Z' := decide_eq_true_iff
  have lower : c.isLower = true ↔ 'a' ≤ c ∧ c ≤ 'z' := by
    change (decide ('a' ≤ c) && decide (c ≤ 'z')) = true ↔ _
    rw [Bool.and_eq_true, decide_eq_true_iff, decide_eq_true_iff]
  change (c.isUpper || c.isLower) = true ↔ _
  rw [Bool.or_eq_true, upper, lower]

/-- A name goes on with letters, digits and underscores. -/
lemma isWordChar_iff {c : Char} :
    (c.isAlphanum || c = '_') = true ↔
      'A' ≤ c ∧ c ≤ 'Z' ∨ 'a' ≤ c ∧ c ≤ 'z' ∨ '0' ≤ c ∧ c ≤ '9' ∨ c = '_' := by
  have digit : c.isDigit = true ↔ '0' ≤ c ∧ c ≤ '9' := by
    change (decide ('0' ≤ c) && decide (c ≤ '9')) = true ↔ _
    rw [Bool.and_eq_true, decide_eq_true_iff, decide_eq_true_iff]
  change ((c.isAlpha || c.isDigit) || decide (c = '_')) = true ↔ _
  rw [Bool.or_eq_true, Bool.or_eq_true, isAlpha_iff, digit, decide_eq_true_iff, or_assoc, or_assoc]

/-- The check of names accepts the names of the right form. -/
lemma isIdentifier_iff {name : String} : isIdentifier name = true ↔ NameForm name := by
  constructor
  · intro identifier
    unfold isIdentifier at identifier
    split at identifier
    · cases identifier
    · next first others chars =>
      rw [Bool.and_eq_true, List.all_eq_true] at identifier
      have form := NameForm.intro (isAlpha_iff.1 identifier.1)
        fun c mem => isWordChar_iff.1 (identifier.2 c mem)
      rwa [← chars, String.ofList_toList] at form
  · intro form
    cases form with
    | @intro first others letter word =>
      rw [isIdentifier, String.toList_ofList]
      dsimp only
      rw [Bool.and_eq_true, List.all_eq_true]
      exact ⟨isAlpha_iff.2 letter, fun c mem => isWordChar_iff.2 (word c mem)⟩

/-- A qualifier is refused behind others. -/
inductive Refused (before : List Qualifier) (qualifier : Qualifier) : RegistrationError → Prop where
  | invalidName :
    ¬ NameForm qualifier.name →
    Refused before qualifier (.invalidName qualifier.name)
  | reservedName :
    NameForm qualifier.name →
    qualifier.name = "ALL" ∨ qualifier.name = "TYPE" →
    Refused before qualifier (.reservedName qualifier.name)
  | duplicate {other} :
    NameForm qualifier.name →
    qualifier.name ≠ "ALL" ∧ qualifier.name ≠ "TYPE" →
    other ∈ before →
    other.name = qualifier.name →
    Refused before qualifier (.duplicate qualifier.name)

/-- Qualifiers whose names are legal and differ. -/
structure Acceptable (qualifiers : List Qualifier) : Prop where
  form : ∀ qualifier ∈ qualifiers, NameForm qualifier.name
  unreserved : ∀ qualifier ∈ qualifiers, qualifier.name ≠ "ALL" ∧ qualifier.name ≠ "TYPE"
  distinct : (qualifiers.map Qualifier.name).Nodup

/-- The first part of an acceptable list is acceptable. -/
lemma Acceptable.left {first second : List Qualifier} (h : Acceptable (first ++ second)) :
    Acceptable first where
  form qualifier mem := h.form qualifier (List.mem_append_left second mem)
  unreserved qualifier mem := h.unreserved qualifier (List.mem_append_left second mem)
  distinct := by
    have distinct := h.distinct
    rw [List.map_append] at distinct
    exact (List.nodup_append.1 distinct).1

/-- Two names are reserved. -/
lemma mem_reservedNames_iff {name : String} :
    name ∈ reservedNames ↔ name = "ALL" ∨ name = "TYPE" := by
  simp [reservedNames]

/-- A name is legal if it has the right form and is not reserved. -/
lemma legalName_iff {name : String} :
    LegalName name ↔ NameForm name ∧ name ≠ "ALL" ∧ name ≠ "TYPE" := by
  rw [LegalName, isIdentifier_iff, mem_reservedNames_iff, not_or]

namespace QualifierTable

/-! ## Registered qualifiers -/

variable {table added : QualifierTable} {qualifier : Qualifier} {qualifiers : List Qualifier}
  {reason : RegistrationError}

/-- A table is its list of qualifiers. -/
lemma eq_of_qualifiers_eq {first second : QualifierTable}
    (same : first.qualifiers = second.qualifiers) : first = second := by
  cases first
  cases second
  cases same
  rfl

/-- A qualifier with a legal new name is added behind the others. -/
lemma register_eq_ok_iff :
    table.register qualifier = .ok added ↔
      LegalName qualifier.name ∧ qualifier.name ∉ table.names ∧
        added.qualifiers = table.qualifiers ++ [qualifier] := by
  unfold register
  split
  · next identifier =>
    split
    · next reserved => simp [LegalName, reserved]
    · next notReserved =>
      split
      · next known => simp [known]
      · next new =>
        constructor
        · intro registered
          cases registered
          exact ⟨⟨identifier, notReserved⟩, new, rfl⟩
        · intro ⟨_, _, same⟩
          exact congrArg Except.ok (eq_of_qualifiers_eq same.symm)
  · next notIdentifier => simp [LegalName, notIdentifier]

/-- The qualifiers that a table can hold. -/
lemma exists_qualifiers_eq_iff :
    (∃ table : QualifierTable, table.qualifiers = qualifiers) ↔ Acceptable qualifiers := by
  constructor
  · rintro ⟨table, rfl⟩
    exact
      { form := fun qualifier mem => (legalName_iff.1 (table.legal qualifier mem)).1
        unreserved := fun qualifier mem => (legalName_iff.1 (table.legal qualifier mem)).2
        distinct := table.distinct }
  · intro acceptable
    have legal : ∀ qualifier ∈ qualifiers, LegalName qualifier.name := fun qualifier mem =>
      legalName_iff.2 ⟨acceptable.form qualifier mem, acceptable.unreserved qualifier mem⟩
    exact ⟨⟨qualifiers, legal, acceptable.distinct⟩, rfl⟩

/-- A qualifier is registered if and only if a table can hold it behind the others. -/
lemma register_eq_ok_iff_qualifiers_eq :
    table.register qualifier = .ok added ↔ added.qualifiers = table.qualifiers ++ [qualifier] := by
  constructor
  · exact fun registered => (register_eq_ok_iff.1 registered).2.2
  · intro same
    have last : qualifier ∈ added.qualifiers := by rw [same]; simp
    have distinct := added.distinct
    rw [same, List.map_append, List.nodup_append] at distinct
    have new : qualifier.name ∉ table.names :=
      fun known => distinct.2.2 _ known _ List.mem_cons_self rfl
    exact register_eq_ok_iff.2 ⟨added.legal qualifier last, new, same⟩

/-- A registration changes what one name finds. -/
lemma find?_of_register (registered : table.register qualifier = .ok added) (name : String) :
    added.find? name = if name = qualifier.name then some qualifier else table.find? name := by
  have added_eq := register_eq_ok_iff_qualifiers_eq.1 registered
  split
  · next here =>
    refine find?_eq_some_iff.2 ⟨?_, here.symm⟩
    rw [added_eq]
    exact List.mem_append_right _ List.mem_cons_self
  · next other =>
    ext found
    rw [find?_eq_some_iff, find?_eq_some_iff, added_eq, List.mem_append, List.mem_singleton]
    constructor
    · rintro ⟨mem | rfl, rfl⟩
      · exact ⟨mem, rfl⟩
      · exact absurd rfl other
    · exact fun ⟨mem, eq⟩ => ⟨.inl mem, eq⟩

/-- All qualifiers are registered if and only if a table can hold them behind the others. -/
lemma registerAll_eq_ok_iff :
    table.registerAll qualifiers = .ok added ↔
      added.qualifiers = table.qualifiers ++ qualifiers := by
  induction qualifiers generalizing table with
  | nil =>
    rw [List.append_nil]
    constructor
    · intro registered
      cases registered
      rfl
    · intro same
      exact congrArg Except.ok (eq_of_qualifiers_eq same.symm)
  | cons qualifier others ih =>
    constructor
    · intro registered
      obtain ⟨next, first, later⟩ := Except.bind_eq_ok_iff.1 registered
      rw [ih.1 later, register_eq_ok_iff_qualifiers_eq.1 first, List.append_assoc,
        List.singleton_append]
    · intro same
      rw [List.append_cons] at same
      -- the first of the qualifiers are those of a table themselves
      have acceptable := exists_qualifiers_eq_iff.1 ⟨added, same⟩
      obtain ⟨next, next_eq⟩ := exists_qualifiers_eq_iff.2 acceptable.left
      have first := register_eq_ok_iff_qualifiers_eq.2 next_eq
      rw [← next_eq] at same
      exact Except.bind_eq_ok_iff.2 ⟨next, first, ih.2 same⟩

/-- A list makes the table that has it as its list. -/
lemma ofList_eq_ok_iff : ofList qualifiers = .ok table ↔ table.qualifiers = qualifiers :=
  registerAll_eq_ok_iff

/-- A name finds the same in two tables with the same qualifiers. -/
lemma find?_of_perm {first second : QualifierTable}
    (perm : first.qualifiers.Perm second.qualifiers) (name : String) :
    first.find? name = second.find? name := by
  ext qualifier
  rw [find?_eq_some_iff, find?_eq_some_iff, perm.mem_iff]

/-! ## Refused qualifiers -/

/-- A qualifier is refused for its name and nothing else. -/
lemma register_eq_error_iff :
    table.register qualifier = .error reason ↔ Refused table.qualifiers qualifier reason := by
  have same : qualifier.name ∈ table.names ↔
      ∃ other ∈ table.qualifiers, other.name = qualifier.name := List.mem_map
  constructor
  · intro refused
    unfold register at refused
    split at refused
    · next identifier =>
      have form := isIdentifier_iff.1 identifier
      split at refused
      · next reserved =>
        cases refused
        exact .reservedName form (mem_reservedNames_iff.1 reserved)
      · next notReserved =>
        rw [mem_reservedNames_iff, not_or] at notReserved
        split at refused
        · next known =>
          cases refused
          obtain ⟨other, mem, eq⟩ := same.1 known
          exact .duplicate form notReserved mem eq
        · cases refused
    · next notIdentifier =>
      cases refused
      exact .invalidName fun form => notIdentifier (isIdentifier_iff.2 form)
  · intro refused
    unfold register
    cases refused with
    | invalidName notForm =>
      rw [dif_neg fun identifier => notForm (isIdentifier_iff.1 identifier)]
    | reservedName form reserved =>
      rw [dif_pos (isIdentifier_iff.2 form), dif_pos (mem_reservedNames_iff.2 reserved)]
    | duplicate form notReserved mem eq =>
      have legal := legalName_iff.2 ⟨form, notReserved⟩
      rw [dif_pos legal.1, dif_neg legal.2, dif_pos (same.2 ⟨_, mem, eq⟩)]

/-- A list is refused for the first of its qualifiers that is refused behind those before it. -/
lemma registerAll_eq_error_iff :
    table.registerAll qualifiers = .error reason ↔
      ∃ before qualifier after, qualifiers = before ++ qualifier :: after ∧
        Acceptable (table.qualifiers ++ before) ∧
        Refused (table.qualifiers ++ before) qualifier reason := by
  induction qualifiers generalizing table with
  | nil =>
    constructor
    · intro refused
      cases refused
    · rintro ⟨before, _, _, eq, -⟩
      cases before <;> cases eq
  | cons qualifier others ih =>
    rw [registerAll]
    refine Except.bind_eq_error_iff.trans ⟨?_, ?_⟩
    · rintro (refused | ⟨next, registered, refused⟩)
      · refine ⟨[], qualifier, others, rfl, ?_, ?_⟩
        · rw [List.append_nil]
          exact exists_qualifiers_eq_iff.1 ⟨table, rfl⟩
        · rw [List.append_nil]
          exact register_eq_error_iff.1 refused
      · have next_eq := register_eq_ok_iff_qualifiers_eq.1 registered
        obtain ⟨before, last, after, rfl, acceptable, refused⟩ := ih.1 refused
        rw [next_eq, List.append_assoc, List.singleton_append] at acceptable refused
        exact ⟨qualifier :: before, last, after, rfl, acceptable, refused⟩
    · rintro ⟨before, last, after, eq, acceptable, refused⟩
      cases before with
      | nil =>
        cases eq
        rw [List.append_nil] at refused
        exact .inl (register_eq_error_iff.2 refused)
      | cons first before =>
        cases eq
        rw [List.append_cons] at acceptable refused
        obtain ⟨next, next_eq⟩ := exists_qualifiers_eq_iff.2 acceptable.left
        have registered := register_eq_ok_iff_qualifiers_eq.2 next_eq
        rw [← next_eq] at acceptable refused
        exact .inr ⟨next, registered, ih.2 ⟨before, last, after, rfl, acceptable, refused⟩⟩

end QualifierTable

end ChoiceLang
