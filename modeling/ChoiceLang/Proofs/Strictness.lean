import ChoiceLang.Choice
import ChoiceLang.Proofs.RoundTrip
import ChoiceLang.Selection

/-!
# Strictness

A strict reader is a lenient one that stops at groups which break a rule. `Restricts` relates the
two results on one text: a valid value and an error about the text are the same for both readers,
and where the strict reader has an error about a rule, the lenient one has an invalid value or an
error that it met later. The relation is kept when readings follow each other, so it goes up from
items to levels.

The two readers judge by different formulas, the strict one by the first rule broken in the terms of
a group, the flags by folding those of its terms. `Permissions.isValid_flags_iff` says that both
come to the same once what lies inside the terms is valid.
-/

namespace ChoiceLang

open Expression

/-- A rejection for a rule about `ALL` or type filters that is broken by a group. -/
inductive Rejection.IsIllegality : Rejection → Prop where
  | allCombined :
    IsIllegality .allCombined
  | allForbidden :
    IsIllegality .allForbidden
  | typeForbidden {filter} :
    IsIllegality (.typeForbidden filter)

/-! ## Results of two readers -/

/-- A lenient result cannot be used: it is an invalid value, or an error about the text. -/
inductive Spoiled {α : Type} (valid : α → Prop) : Except Rejection α → Prop where
  | invalid {value} :
    ¬ valid value →
    Spoiled valid (.ok value)
  | malformed {rejection} :
    ¬ rejection.IsIllegality →
    Spoiled valid (.error rejection)

/-- A strict result is the lenient one, or an error about a rule where that cannot be used. -/
inductive Restricts {α : Type} (valid : α → Prop) :
    Except Rejection α → Except Rejection α → Prop where
  | valid {value} :
    valid value →
    Restricts valid (.ok value) (.ok value)
  | malformed {rejection} :
    ¬ rejection.IsIllegality →
    Restricts valid (.error rejection) (.error rejection)
  | illegal {rejection lenient} :
    rejection.IsIllegality →
    Spoiled valid lenient →
    Restricts valid (.error rejection) lenient

section

variable {α β : Type} {valid : α → Prop} {validNext : β → Prop}

/-- What never fails for a rule and finds valid values only restricts itself. -/
lemma Restricts.refl {result : Except Rejection α} (ok : ∀ value, result = .ok value → valid value)
    (error : ∀ rejection, result = .error rejection → ¬ rejection.IsIllegality) :
    Restricts valid result result := by
  cases result with
  | ok value => exact .valid (ok value rfl)
  | error rejection => exact .malformed (error rejection rfl)

section

variable {strict lenient : Except Rejection α}

/-- A lenient reader never fails for a rule. -/
lemma Restricts.not_isIllegality (h : Restricts valid strict lenient) {rejection : Rejection}
    (failed : lenient = .error rejection) : ¬ rejection.IsIllegality := by
  subst failed
  cases h with
  | malformed legal => exact legal
  | illegal _ spoiled =>
    cases spoiled with
    | malformed legal => exact legal

/-- A strict reader finds the valid values. -/
lemma Restricts.eq_ok_iff (h : Restricts valid strict lenient) {value : α} :
    strict = .ok value ↔ lenient = .ok value ∧ valid value := by
  cases h with
  | valid isValid =>
    constructor
    · rintro ⟨⟩
      exact ⟨rfl, isValid⟩
    · exact And.left
  | malformed _ => simp
  | illegal _ spoiled =>
    constructor
    · nofun
    · rintro ⟨rfl, isValid⟩
      cases spoiled with
      | invalid isInvalid => exact absurd isValid isInvalid

/-- A strict reader rejects an invalid value for a rule. -/
lemma Restricts.of_invalid (h : Restricts valid strict lenient) {value : α}
    (found : lenient = .ok value) (invalid : ¬ valid value) :
    ∃ rejection : Rejection, rejection.IsIllegality ∧ strict = .error rejection := by
  subst found
  cases h with
  | valid isValid => exact absurd isValid invalid
  | illegal illegal _ => exact ⟨_, illegal, rfl⟩

/-- A strict reader has the error of a lenient one, or one for a rule. -/
lemma Restricts.of_error (h : Restricts valid strict lenient) {rejection : Rejection}
    (failed : lenient = .error rejection) :
    strict = .error rejection ∨
      ∃ other : Rejection, other.IsIllegality ∧ strict = .error other := by
  subst failed
  cases h with
  | malformed _ => exact .inl rfl
  | illegal illegal _ => exact .inr ⟨_, illegal, rfl⟩

end

/-- Readings that follow each other keep to the relation if they do so after every valid value, and
if nothing valid comes after an invalid one. -/
lemma Restricts.bind {strict lenient : Inquiry α} {nextStrict nextLenient : α → Inquiry β}
    (h : Restricts valid strict.result lenient.result)
    (after : ∀ value, lenient.result = .ok value → valid value →
      Restricts validNext (nextStrict value).result (nextLenient value).result)
    (spoils : ∀ value, lenient.result = .ok value → ¬ valid value →
      Spoiled validNext (nextLenient value).result) :
    Restricts validNext (strict >>= nextStrict).result (lenient >>= nextLenient).result := by
  rw [Inquiry.result_bind, Inquiry.result_bind]
  generalize strict.result = strictResult at h
  generalize lenient.result = lenientResult at h after spoils
  cases h with
  | @valid value isValid => exact after value rfl isValid
  | malformed legal => exact .malformed legal
  | illegal illegal spoiled =>
    apply Restricts.illegal illegal
    cases spoiled with
    | @invalid value isInvalid => exact spoils value rfl isInvalid
    | malformed legal => exact .malformed legal

/-- A reading that has nothing to do with rules comes first in both readers. -/
lemma Restricts.bind_same {inquiry : Inquiry α} {nextStrict nextLenient : α → Inquiry β}
    (error : ∀ rejection, inquiry.result = .error rejection → ¬ rejection.IsIllegality)
    (after : ∀ value, inquiry.result = .ok value →
      Restricts validNext (nextStrict value).result (nextLenient value).result) :
    Restricts validNext (inquiry >>= nextStrict).result (inquiry >>= nextLenient).result := by
  have same : Restricts (fun _ => True) inquiry.result inquiry.result :=
    .refl (fun _ _ => trivial) error
  apply same.bind
  · exact fun value found _ => after value found
  · exact fun _ _ invalid => absurd trivial invalid

/-- What cannot be used is no better inside something else. -/
lemma Spoiled.map {result : Except Rejection α} (f : α → β)
    (h : Spoiled (fun a => validNext (f a)) result) : Spoiled validNext (result.map f) := by
  cases h with
  | invalid isInvalid => exact .invalid isInvalid
  | malformed legal => exact .malformed legal

/-- The relation is kept if the values are put into something else. -/
lemma Restricts.map {strict lenient : Except Rejection α} (f : α → β)
    (h : Restricts (fun a => validNext (f a)) strict lenient) :
    Restricts validNext (strict.map f) (lenient.map f) := by
  cases h with
  | valid isValid => exact .valid isValid
  | malformed legal => exact .malformed legal
  | illegal illegal spoiled => exact .illegal illegal (spoiled.map f)

/-- A whole list is read by the relation if each of its elements is. -/
lemma restricts_forEach {γ : Type} {strict lenient : γ → Inquiry α} {values : List γ}
    (h : ∀ value ∈ values, Restricts valid (strict value).result (lenient value).result) :
    Restricts (fun found => ∀ a ∈ found, valid a) (Inquiry.forEach strict values).result
      (Inquiry.forEach lenient values).result := by
  induction values with
  | nil => exact .valid fun _ mem => absurd mem List.not_mem_nil
  | cons value others ih =>
    obtain ⟨here, there⟩ := List.forall_mem_cons.1 h
    have rest := ih there
    apply here.bind
    · intro first _ isValid
      apply rest.bind
      · intro later _ areValid
        exact .valid (List.forall_mem_cons.2 ⟨isValid, areValid⟩)
      · intro later _ areInvalid
        exact .invalid fun all => areInvalid (List.forall_mem_cons.1 all).2
    · intro first _ isInvalid
      -- an invalid value stays in the list, whatever is found after it
      rw [Inquiry.result_bind]
      cases found : (Inquiry.forEach lenient others).result with
      | ok later => exact .invalid fun all => isInvalid (List.forall_mem_cons.1 all).1
      | error rejection => exact .malformed (rest.not_isIllegality found)

end

/-! ## Groups -/

namespace Permissions

variable {permitted : Permissions} {operator : Operator} {terms : List Choice}

/-- What a group is rejected for is a rule about `ALL` or type filters. -/
lemma isIllegality_of_violation? {rejection : Rejection}
    (h : permitted.violation? terms = some rejection) : rejection.IsIllegality := by
  unfold violation? at h
  split at h
  · split at h
    · cases h
    · cases h
      exact .allForbidden
  · split at h
    · cases h
      exact .allCombined
    · obtain ⟨filter, _, rfl⟩ := Option.map_eq_some_iff.1 h
      exact .typeForbidden

/-- A group breaks no rule if its flags permit its type filters and what it has of `ALL`. -/
lemma violation?_eq_none_iff (h : ∀ term ∈ terms, term.innerTypesLegal = true) :
    permitted.violation? terms = none ↔
      (permitted.flags terms).allowsType = true ∧
        ((permitted.flags terms).allowsList = true ∨ (permitted.flags terms).allowsAll = true) := by
  have innerLegal : terms.all Choice.innerTypesLegal = true := List.all_eq_true.2 h
  simp only [violation?, flags, innerLegal, Bool.and_true]
  by_cases sole : terms = [.all]
  · subst sole
    cases permitted.allLegal <;> simp [forbiddenFilter?, Choice.bringsAll, Choice.filter?]
  · rw [if_neg sole]
    cases terms.any Choice.bringsAll <;> simp [sole]

/-- A group is valid if what lies inside its terms is and the group itself breaks no rule. -/
lemma isValid_flags_iff
    (h : ∀ term ∈ terms, term.innerValid = true → term.innerTypesLegal = true) :
    (permitted.flags terms).isValid = true ↔
      (∀ term ∈ terms, term.innerValid = true) ∧ permitted.violation? terms = none := by
  have isValid_eq : (permitted.flags terms).isValid =
      (terms.all Choice.innerValid && (permitted.flags terms).allowsType &&
        ((permitted.flags terms).allowsList || (permitted.flags terms).allowsAll)) := rfl
  rw [isValid_eq, Bool.and_eq_true, Bool.and_eq_true, Bool.or_eq_true, List.all_eq_true, and_assoc]
  apply and_congr_right
  intro valid
  -- a valid term permits the filters inside it, so that only the terms themselves are left
  exact (violation?_eq_none_iff fun term mem => h term mem (valid term mem)).symm

/-- A strict reader builds a group of valid terms if it breaks no rule. -/
lemma restricts_buildGroup
    (h : ∀ term ∈ terms, term.innerValid = true → term.innerTypesLegal = true)
    (valid : ∀ term ∈ terms, term.innerValid = true) :
    Restricts (fun group => group.flags.isValid = true)
      (permitted.buildGroup .strict operator terms)
      (permitted.buildGroup .lenient operator terms) := by
  have isValid_iff : (permitted.flags terms).isValid = true ↔ _ := isValid_flags_iff h
  unfold buildGroup
  cases broken : permitted.violation? terms with
  | none => exact .valid (isValid_iff.2 ⟨valid, broken⟩)
  | some rejection =>
    apply Restricts.illegal (isIllegality_of_violation? broken)
    apply Spoiled.invalid
    intro isValid
    rw [(isValid_iff.1 isValid).2] at broken
    cases broken

/-- No group with an invalid term is valid. -/
lemma spoiled_buildGroup
    (h : ∀ term ∈ terms, term.innerValid = true → term.innerTypesLegal = true)
    (invalid : ¬ ∀ term ∈ terms, term.innerValid = true) :
    Spoiled (fun group => group.flags.isValid = true)
      (permitted.buildGroup .lenient operator terms) :=
  .invalid fun isValid => invalid ((isValid_flags_iff h).1 isValid).1

end Permissions

/-! ## Readers -/

namespace Reader

variable {reader : Reader} {scope : Scope}

/-- A type filter is rejected for its text only. -/
lemma not_isIllegality_of_typeFilter {item list : List Char} {negated : Bool}
    {rejection : Rejection} (h : TypeFilter.ofText item negated list = .error rejection) :
    ¬ rejection.IsIllegality := by
  unfold TypeFilter.ofText at h
  split at h
  · cases h
    nofun
  · split at h
    · cases h
      nofun
    · dsimp only at h
      split at h
      · cases h
        nofun
      · cases h

/-- A name in front of a bracket is rejected for itself. -/
lemma not_isIllegality_of_namedQualifier {config : Config} {name : String} {rejection : Rejection}
    (h : config.namedQualifier name = .error rejection) : ¬ rejection.IsIllegality := by
  unfold Config.namedQualifier at h
  split at h
  · split at h
    · cases h
    · cases h
      nofun
  · cases h
    nofun

/-- The brackets of an item are rejected for what stands in and behind them. -/
lemma not_isIllegality_of_bodyText {item name after : List Char} {negated : Bool}
    {rejection : Rejection} (h : bodyText item negated name after = .error rejection) :
    ¬ rejection.IsIllegality := by
  unfold bodyText at h
  split at h
  · cases h
    nofun
  · split at h
    · cases h
      nofun
    · split at h
      · cases h
        nofun
      · cases h

/-- A text that cannot be split is rejected for its separators or brackets. -/
lemma not_isIllegality_of_splitAt {operator : Operator} {text : List Char} {rejection : Rejection}
    (h : splitAt operator text = .error rejection) : ¬ rejection.IsIllegality := by
  unfold splitAt at h
  cases found : split operator.separator text with
  | ok pieces =>
    rw [found] at h
    cases h
  | error defect =>
    rw [found] at h
    cases defect with
    | separator fault position =>
      cases h
      nofun
    | bracket position =>
      cases h
      nofun

/-- A reference is rejected for being unknown. -/
lemma not_isIllegality_of_readReference {name : List Char} {rejection : Rejection}
    (h : (reader.readReference scope name).result = .error rejection) :
    ¬ rejection.IsIllegality := by
  unfold readReference at h
  split at h
  · split at h
    · cases h
      nofun
    · dsimp only at h
      split at h
      · cases h
      · cases h
        nofun
  · cases h

/-- A plain item is rejected for its negation or for being unknown. -/
lemma not_isIllegality_of_readPlain {item name : List Char} {negated : Bool} {rejection : Rejection}
    (h : (reader.readPlain scope item negated name).result = .error rejection) :
    ¬ rejection.IsIllegality := by
  unfold readPlain at h
  split at h
  · split at h
    · cases h
      nofun
    · cases h
  · split at h
    · cases h
      nofun
    · exact not_isIllegality_of_readReference h

/-- Items without a body are valid. -/
lemma innerValid_of_readPlain {item name : List Char} {negated : Bool} {choice : Choice}
    (h : (reader.readPlain scope item negated name).result = .ok choice) :
    choice.innerValid = true := by
  rcases result_readPlain_eq_ok_iff.1 h with ⟨_, _, _, rfl⟩ | ⟨_, _, _, rfl⟩
  · rfl
  · rfl

/-- An item is no group, so that it holds no group with type filters. -/
lemma innerTypesLegal_of_readItem {readBody : LevelReader} {item : List Char} {choice : Choice}
    (h : (reader.readItem readBody scope item).result = .ok choice) :
    choice.innerTypesLegal = true := by
  have derived := (result_readItem_eq_ok_iff fun _ _ _ => Iff.rfl).1 h
  cases derived <;> rfl

/-- The type filters in a valid segment are permitted. -/
lemma innerTypesLegal_of_readSegment {readBody : LevelReader} {segment : List Char} {term : Choice}
    (h : (reader.readSegment .lenient readBody scope segment).result = .ok term)
    (valid : term.innerValid = true) : term.innerTypesLegal = true := by
  have derived := (result_readSegment_eq_ok_iff fun _ _ _ => Iff.rfl).1 h
  cases derived with
  | item _ derived =>
    exact innerTypesLegal_of_readItem ((result_readItem_eq_ok_iff fun _ _ _ => Iff.rfl).2 derived)
  | @group items choices _ _ _ =>
    have valid : (scope.permitted.flags choices).isValid = true := valid
    rw [Permissions.flags] at valid
    exact (Bool.and_eq_true_iff.1 (Bool.and_eq_true_iff.1 valid).1).2

section

variable {strictBody lenientBody : LevelReader}
variable (h : ∀ scope text, Restricts (fun body => body.flags.isValid = true)
  (strictBody scope text).result (lenientBody scope text).result)

include h

/-- A qualifier with a body is read alike if its body is. -/
lemma restricts_readBracketed (item name after : List Char) (negated : Bool) :
    Restricts (fun choice => choice.innerValid = true)
      (reader.readBracketed strictBody scope item negated name after).result
      (reader.readBracketed lenientBody scope item negated name after).result := by
  unfold readBracketed
  apply Restricts.bind_same fun _ => not_isIllegality_of_namedQualifier
  intro qualifier _
  apply Restricts.bind_same fun _ => not_isIllegality_of_bodyText
  intro inner _
  apply (h _ _).bind
  · intro body _ isValid
    split
    · exact .malformed nofun
    · exact .valid isValid
  · intro body _ isInvalid
    split
    · exact .malformed nofun
    · exact .invalid isInvalid

/-- Items are read alike if bodies are. -/
lemma restricts_readItem (item : List Char) :
    Restricts (fun choice => choice.innerValid = true)
      (reader.readItem strictBody scope item).result
      (reader.readItem lenientBody scope item).result := by
  unfold readItem
  cases Form.ofText item with
  | all => exact .valid rfl
  | types negated list =>
    apply Restricts.refl
    · intro choice built
      obtain ⟨filter, _, rfl⟩ := Except.map_eq_ok_iff.1 built
      rfl
    · intro rejection failed
      exact not_isIllegality_of_typeFilter (Except.map_eq_error_iff.1 failed)
  | bracketed negated name after => exact restricts_readBracketed h item name after negated
  | plain negated name =>
    exact .refl (fun _ => innerValid_of_readPlain) fun _ => not_isIllegality_of_readPlain

/-- Segments are read alike if bodies are, as far as the groups of their items break no rule. -/
lemma restricts_readSegment (segment : List Char) :
    Restricts (fun term => term.innerValid = true)
      (reader.readSegment .strict strictBody scope segment).result
      (reader.readSegment .lenient lenientBody scope segment).result := by
  unfold readSegment
  apply Restricts.bind_same fun _ => not_isIllegality_of_splitAt
  intro items _
  have itemLegal {choices : List Choice}
      (read : (Inquiry.forEach (reader.readItem lenientBody scope) items).result = .ok choices) :
      ∀ choice ∈ choices, choice.innerValid = true → choice.innerTypesLegal = true := by
    have found := Inquiry.result_forEach_eq_ok_iff.1 read
    exact found.forall_mem_right fun _ _ _ readItem _ => innerTypesLegal_of_readItem readItem
  apply (restricts_forEach fun item _ => restricts_readItem h item).bind
  · intro choices read valid
    -- a single item is not put into a group, so that no rule for groups applies to it
    split
    · exact .valid (valid _ (by simp))
    · rw [Inquiry.result_ofResult, Inquiry.result_ofResult]
      apply Restricts.map Choice.group
      exact Permissions.restricts_buildGroup (itemLegal read) valid
  · intro choices read invalid
    split
    · exact .invalid fun valid => invalid (by simpa using valid)
    · rw [Inquiry.result_ofResult]
      apply Spoiled.map Choice.group
      exact Permissions.spoiled_buildGroup (itemLegal read) invalid

/-- Levels are read alike if bodies are, as far as their groups break no rule. -/
lemma restricts_readLevel (scope : Scope) (text : List Char) :
    Restricts (fun group => group.flags.isValid = true)
      (reader.readLevel .strict strictBody scope text).result
      (reader.readLevel .lenient lenientBody scope text).result := by
  unfold readLevel
  apply Restricts.bind_same fun _ => not_isIllegality_of_splitAt
  intro segments _
  have termLegal {terms : List Choice}
      (read : (Inquiry.forEach (reader.readSegment .lenient lenientBody scope) segments).result =
        .ok terms) :
      ∀ term ∈ terms, term.innerValid = true → term.innerTypesLegal = true := by
    have found := Inquiry.result_forEach_eq_ok_iff.1 read
    exact found.forall_mem_right fun _ _ _ readTerm => innerTypesLegal_of_readSegment readTerm
  apply (restricts_forEach fun segment _ => restricts_readSegment h segment).bind
  · exact fun terms read valid => Permissions.restricts_buildGroup (termLegal read) valid
  · exact fun terms read invalid => Permissions.spoiled_buildGroup (termLegal read) invalid

end

/-- A strict reader reads as a lenient one does until a rule is broken, with any room for bodies. -/
lemma restricts_readWithin (reader : Reader) (room : Nat) (scope : Scope) (text : List Char) :
    Restricts (fun group => group.flags.isValid = true)
      (reader.readWithin .strict room scope text).result
      (reader.readWithin .lenient room scope text).result := by
  induction room generalizing scope text with
  | zero =>
    apply restricts_readLevel
    intro scope text
    rw [Inquiry.result_reject]
    exact .malformed nofun
  | succ room ih => exact restricts_readLevel ih scope text

/-- A strict reader reads expressions as a lenient one does until a rule is broken. -/
lemma restricts_readExpression (reader : Reader) (text : List Char) :
    Restricts (fun group => group.flags.isValid = true)
      (reader.readExpression .strict text).result (reader.readExpression .lenient text).result :=
  restricts_readWithin reader nestingLimit reader.config.scope text

/-- What a strict reader accepts is accepted by a lenient one, as a valid group. -/
lemma readExpression_strict_eq_ok_iff {reader : Reader} {text : List Char} {group : Group} :
    (reader.readExpression .strict text).result = .ok group ↔
      (reader.readExpression .lenient text).result = .ok group ∧ group.flags.isValid = true :=
  (restricts_readExpression reader text).eq_ok_iff

end Reader

/-- A selection has no text if and only if its group is not valid. -/
lemma Selection.canonicalText_eq_error_iff {selection : Selection} :
    selection.canonicalText = .error (.invalidGrouping selection.text) ↔
      ¬ selection.root.flags.isValid = true := by
  unfold canonicalText
  split
  · next isValid => simp [isValid]
  · next isInvalid => simp [isInvalid]

/-- A strict reader differs from a lenient one by the validity of groups alone. A group that the
lenient reader finds is accepted if it is valid, and else the text is rejected for a rule; an error
of the lenient reader is no broken rule, and the strict one has the same unless it finds a broken
rule before. So all that the strict reader accepts is valid, and a selection that a lenient reader
finds cannot be written if and only if the strict reader rejects what would be written. -/
theorem readExpression_strict (reader : Reader) (text : List Char) :
    (∀ group, (reader.readExpression .lenient text).result = .ok group →
      (group.flags.isValid = true → (reader.readExpression .strict text).result = .ok group) ∧
      (¬ group.flags.isValid = true → ∃ rejection : Rejection, rejection.IsIllegality ∧
        (reader.readExpression .strict text).result = .error rejection)) ∧
    (∀ rejection, (reader.readExpression .lenient text).result = .error rejection →
      ¬ rejection.IsIllegality ∧
      ((reader.readExpression .strict text).result = .error rejection ∨
        ∃ other : Rejection, other.IsIllegality ∧
          (reader.readExpression .strict text).result = .error other)) ∧
    (∀ group, (reader.readExpression .strict text).result = .ok group →
      group.flags.isValid = true) ∧
    (∀ selection : Selection,
      (reader.readExpression .lenient text).result = .ok selection.root →
      (selection.canonicalText = .error (.invalidGrouping selection.text) ↔
        ∃ rejection, (reader.readExpression .strict selection.root.text).result =
          .error rejection)) := by
  have restricts : Restricts _ (reader.readExpression .strict text).result
      (reader.readExpression .lenient text).result :=
    Reader.restricts_readWithin reader nestingLimit reader.config.scope text
  refine ⟨?_, ?_, fun group accepted => (restricts.eq_ok_iff.1 accepted).2, ?_⟩
  · intro group read
    exact ⟨fun isValid => restricts.eq_ok_iff.2 ⟨read, isValid⟩, restricts.of_invalid read⟩
  · intro rejection failed
    exact ⟨restricts.not_isIllegality failed, restricts.of_error failed⟩
  · intro selection read
    have again := Reader.readExpression_text read
    have atText : Restricts _ (reader.readExpression .strict selection.root.text).result
        (reader.readExpression .lenient selection.root.text).result :=
      Reader.restricts_readWithin reader nestingLimit reader.config.scope selection.root.text
    rw [Selection.canonicalText_eq_error_iff]
    constructor
    · intro isInvalid
      obtain ⟨rejection, _, rejected⟩ := atText.of_invalid again isInvalid
      exact ⟨rejection, rejected⟩
    · rintro ⟨rejection, rejected⟩ isValid
      rw [atText.eq_ok_iff.2 ⟨again, isValid⟩] at rejected
      cases rejected

end ChoiceLang
