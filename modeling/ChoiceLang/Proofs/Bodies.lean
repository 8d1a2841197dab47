import ChoiceLang.Proofs.Nesting

/-!
# Bodies as expressions

The body of a qualifier is read like an expression of a configuration of its own: the one around it
with the class of the qualifier and the permissions that the qualifier gives. Both readings differ
in the room that is left for further bodies alone, so that they agree on all texts whose brackets
are nested less deep than the limit.
-/

namespace ChoiceLang

open Expression

/-- The configuration by which the body of a qualifier is an expression. -/
def Config.within (config : Config) (qualifier : Qualifier) : Config :=
  { config with
    targetClass := qualifier.targetClass.getD config.targetClass
    policy :=
      { config.policy with allLegal := qualifier.allLegal, typeLegal := qualifier.typeLegal } }

/-- The reader of expressions that are bodies of a qualifier. -/
def Reader.within (reader : Reader) (qualifier : Qualifier) : Reader :=
  { reader with config := reader.config.within qualifier }

/-- The text of a qualifier in front of its body, and of the body in brackets. -/
def Qualifier.bracketed (qualifier : Qualifier) (negated : Bool) (inner : List Char) : List Char :=
  negation negated ++ qualifier.name.toList ++ '[' :: inner ++ [']']

/-! ## Items in brackets -/

/-- An item is not split by either separator. -/
lemma IsItem.splits {text : List Char} (h : IsItem text) (operator : Operator) :
    Splits operator text [text] := by
  have single : Splits operator (Text.joinWith operator.separator [text]) [text] := by
    apply splits_joinWith (List.cons_ne_nil _ _)
    · exact List.forall_mem_singleton.2 h.some_text
    · refine List.forall_mem_singleton.2 (h.encloses.mono ?_)
      cases operator <;> simp
  exact single

/-- Splitting does not cut a text in front of its first bracket if no separator stands there. -/
lemma Expression.Splits.head_eq {operator : Operator} {start rest piece : List Char}
    {others : List (List Char)} (h : Splits operator (start ++ '[' :: rest) (piece :: others))
    (notMem : operator.separator ∉ start) : ∃ tail, piece = start ++ '[' :: tail := by
  have joined := h.joined
  -- behind the first piece stands a separator, if anything does
  obtain ⟨behind, whole, isSeparator⟩ : ∃ behind, piece ++ behind = start ++ '[' :: rest ∧
      ∀ c tail, behind = c :: tail → c = operator.separator := by
    cases others with
    | nil => exact ⟨[], by simpa [Text.joinWith] using joined, nofun⟩
    | cons next others =>
      refine ⟨_, joined, ?_⟩
      intro c tail eq
      exact (List.cons.inj eq).1.symm
  obtain ⟨tail, startEq, eq⟩ | ⟨tail, rfl, eq⟩ := List.append_eq_append_iff.1 whole
  · cases tail with
    | nil => exact absurd (isSeparator '[' rest eq) operator.separator_ne_open.symm
    | cons c tail =>
      rw [startEq, isSeparator c _ eq] at notMem
      exact absurd (by simp) notMem
  · cases tail with
    | nil => exact absurd (isSeparator '[' rest eq.symm) operator.separator_ne_open.symm
    | cons c tail =>
      obtain ⟨rfl, -⟩ := List.cons.inj eq
      exact ⟨tail, rfl⟩

namespace Reader

variable {reader : Reader} {bodies : Grammar.Bodies} {scope : Scope} {qualifier : Qualifier}
variable {negated : Bool} {text after : List Char} {group body : Group}

/-- A text that starts with a qualifier and a bracket is an item only as that qualifier. -/
lemma item_name_bracket {choice : Choice}
    (registered : qualifier ∈ reader.config.qualifiers.qualifiers)
    (derived : Grammar.Item reader bodies scope
      (negation negated ++ qualifier.name.toList ++ '[' :: after) choice) :
    ∃ inner body, reader.config.Permits qualifier negated ∧ after = inner ++ [']'] ∧
      bodies (scope.within qualifier) inner body ∧
      choice = .qualifier qualifier.name negated body := by
  have form := QualifierTable.ofText_name_bracket registered negated after
  have hasBracket : '[' ∈ negation negated ++ qualifier.name.toList ++ '[' :: after := by simp
  generalize negation negated ++ qualifier.name.toList ++ '[' :: after = item at *
  cases derived with
  | all => exact absurd hasBracket (by decide)
  | @types negated _ _ isStart _ areNames =>
    have noBracket : '[' ∉ negation negated ++ _ ++ _ :=
      not_mem_filter isStart (by decide) fun name mem => (areNames name mem).2.2.1
    exact absurd hasBracket noBracket
  | @qualifier _ other inner body permitted _ _ derived =>
    rw [List.append_assoc, List.cons_append,
      QualifierTable.ofText_name_bracket permitted.registered] at form
    obtain ⟨rfl, name_eq, rfl⟩ := Form.bracketed.inj form
    obtain rfl := QualifierTable.eq_of_name_eq permitted.registered registered
      (String.toList_inj.1 name_eq)
    exact ⟨inner, body, permitted, rfl, derived, rfl⟩
  | bareQualifier permitted =>
    have noBracket := QualifierTable.mark_not_mem_name permitted.registered
    exact absurd hasBracket (noBracket _ '[' (by decide))
  | reference _ _ noBracket => exact absurd hasBracket noBracket

/-- A text between the brackets of a qualifier is read as its body, and as nothing else. -/
lemma derives_bracketed_iff {room : Nat} (permitted : reader.config.Permits qualifier negated) :
    reader.Derives (room + 1) scope (qualifier.bracketed negated text)
        (scope.permitted.group .or [.qualifier qualifier.name negated body]) ↔
      reader.Derives room (scope.within qualifier) text body := by
  constructor
  · intro h
    generalize groupEq : scope.permitted.group .or [.qualifier qualifier.name negated body] = group
      at h
    cases h with
    | @segments segments terms split derived =>
      obtain rfl : [_] = terms := congrArg Grouping.terms groupEq
      obtain ⟨segment, others, ofSegment, none, rfl⟩ := List.forall₂_cons_right_iff.1 derived
      cases List.forall₂_nil_right_iff.1 none
      obtain rfl : segment = _ := split.joined
      cases ofSegment with
      | @item item _ split derived =>
        obtain rfl : item = _ := split.joined
        rw [Qualifier.bracketed, List.append_assoc, List.cons_append] at derived
        obtain ⟨inner, body, -, same, derived, eq⟩ :=
          item_name_bracket permitted.registered derived
        cases List.append_cancel_right same
        cases eq
        exact derived
  · intro derived
    obtain ⟨segments, split⟩ := derived.splits
    have isName := QualifierTable.isItem_name permitted.registered negated
    have isItem : IsItem (qualifier.bracketed negated text) :=
      isName.append_bracketed split.balanced
    refine Grammar.Level.segments (isItem.splits .or) (.cons ?_ .nil)
    refine Grammar.Segment.item (isItem.splits .and) ?_
    exact .qualifier permitted split.text_ne_nil split.balanced derived

/-- Every segment is split into items, whether it makes a group or not. -/
lemma exists_items {segment : List Char} {term : Choice}
    (derived : Grammar.Segment reader bodies scope segment term) :
    ∃ items choices, Splits .and segment items ∧
      List.Forall₂ (Grammar.Item reader bodies scope) items choices := by
  cases derived with
  | item split derived => exact ⟨_, _, split, .cons derived .nil⟩
  | group split _ derived => exact ⟨_, _, split, derived⟩

/-- Segments that stand for nothing but `ALL` are a single one, with no other item. -/
lemma eq_wildcard_of_segments {segments : List (List Char)} (split : Splits .or text segments)
    (derived : List.Forall₂ (Grammar.Segment reader bodies scope) segments [.all]) :
    text = wildcard := by
  obtain ⟨segment, _, ofSegment, none, rfl⟩ := List.forall₂_cons_right_iff.1 derived
  cases List.forall₂_nil_right_iff.1 none
  obtain rfl : segment = text := split.joined
  cases ofSegment with
  | @item item _ split ofItem =>
    obtain rfl : item = segment := split.joined
    cases ofItem
    rfl

/-- A qualifier in front of a level is permitted, whatever stands behind its first bracket. -/
lemma permits_of_level {group : Group}
    (registered : qualifier ∈ reader.config.qualifiers.qualifiers)
    (level : Grammar.Level reader bodies scope
      (negation negated ++ qualifier.name.toList ++ '[' :: after) group) :
    reader.config.Permits qualifier negated := by
  have noMark := QualifierTable.mark_not_mem_name registered negated
  cases level with
  | @segments segments terms split derived =>
    obtain ⟨segment, others, rfl⟩ := List.exists_cons_of_ne_nil split.some_piece
    obtain ⟨tail, rfl⟩ := split.head_eq (noMark _ (by decide))
    obtain ⟨term, _, ofSegment, -, rfl⟩ := List.forall₂_cons_left_iff.1 derived
    obtain ⟨items, choices, split, derived⟩ := exists_items ofSegment
    obtain ⟨item, others, rfl⟩ := List.exists_cons_of_ne_nil split.some_piece
    obtain ⟨tail, rfl⟩ := split.head_eq (noMark _ (by decide))
    obtain ⟨choice, _, ofItem, -, rfl⟩ := List.forall₂_cons_left_iff.1 derived
    obtain ⟨inner, body, permitted, -⟩ := item_name_bracket registered ofItem
    exact permitted

/-- Readers that differ in the class and the permissions at the top read all levels alike. -/
lemma readWithin_within (reader : Reader) (qualifier : Qualifier) (mode : Mode) (room : Nat) :
    (reader.within qualifier).readWithin mode room = reader.readWithin mode room := by
  induction room with
  | zero => rfl
  | succ room ih =>
    rw [readWithin, readWithin, ih]
    rfl

/-- Inside a qualifier the same is derived as in its scope. -/
lemma derives_within {room : Nat} :
    (reader.within qualifier).Derives room scope text group ↔
      reader.Derives room scope text group := by
  rw [← result_readWithin_eq_ok_iff, ← result_readWithin_eq_ok_iff, readWithin_within]

/-- A group has the flags of its terms in its scope. -/
lemma Derives.eq_group {room : Nat} (h : reader.Derives room scope text group) :
    group = scope.permitted.group .or group.terms := by
  obtain ⟨bodies, derives_iff⟩ := reader.exists_level room
  have level := (derives_iff _ _ _).1 h
  cases level with
  | segments => rfl

/-- A qualifier with a body, alone in its group, is as valid as the body. -/
lemma isValid_group_qualifier {permitted : Permissions} {operator : Operator} {name : String} :
    (permitted.group operator [.qualifier name negated body]).flags.isValid =
      body.flags.isValid := by
  simp [Permissions.group, Permissions.flags, Permissions.forbiddenFilter?, Choice.filter?,
    Choice.innerTypesLegal, Choice.innerValid, Choice.bringsAll]

end Reader

/-- The body of a qualifier is what its text is read as by itself, in the configuration of the
qualifier, if that leaves room for the brackets around it. A negation changes nothing where it is
permitted, and where it is not no text that starts so is accepted. -/
theorem body_is_expression (reader : Reader) (qualifier : Qualifier)
    (allowed : reader.config.policy.allowsQualifier = true)
    (registered : qualifier ∈ reader.config.qualifiers.qualifiers) (mode : Mode)
    (text : List Char) :
    (∀ negated body, (negated = true → qualifier.allowNegation = true) →
      ((∃ group,
          (reader.readExpression mode (qualifier.bracketed negated text)).result = .ok group ∧
          group.terms = [.qualifier qualifier.name negated body]) ↔
        ((reader.within qualifier).readExpression mode text).result = .ok body ∧
          nesting text < nestingLimit)) ∧
    (qualifier.allowNegation = false → ∃ rejection,
      (reader.readExpression mode (qualifier.bracketed true text)).result = .error rejection) := by
  constructor
  · intro negated body negation
    have permitted : reader.config.Permits qualifier negated := ⟨allowed, registered, negation⟩
    constructor
    · rintro ⟨group, accepted, terms⟩
      obtain ⟨derived, valid⟩ := Reader.readExpression_eq_ok_iff.1 accepted
      have group_eq := derived.eq_group
      rw [terms] at group_eq
      subst group_eq
      have ofBody : reader.Derives 63 (reader.config.scope.within qualifier) text body :=
        (Reader.derives_bracketed_iff permitted).1 derived
      have shallow : nesting text < nestingLimit := by
        rw [ofBody.mirrors.nesting]
        exact Nat.lt_succ_of_le ofBody.nesting_le
      refine ⟨Reader.readExpression_eq_ok_iff.2 ⟨?_, ?_⟩, shallow⟩
      · exact Reader.derives_within.2 (ofBody.of_nesting_le (Nat.le_of_lt shallow))
      · exact fun strict => Reader.isValid_group_qualifier.symm.trans (valid strict)
    · rintro ⟨accepted, shallow⟩
      obtain ⟨derived, valid⟩ := Reader.readExpression_eq_ok_iff.1 accepted
      have ofBody : reader.Derives 63 (reader.config.scope.within qualifier) text body :=
        (Reader.derives_within.1 derived).of_nesting_le (Nat.le_of_lt_succ shallow)
      let group := reader.config.scope.permitted.group .or [.qualifier qualifier.name negated body]
      refine ⟨group, Reader.readExpression_eq_ok_iff.2 ⟨?_, ?_⟩, rfl⟩
      · exact (Reader.derives_bracketed_iff permitted).2 ofBody
      · exact fun strict => Reader.isValid_group_qualifier.trans (valid strict)
  · intro forbidden
    apply Except.exists_error_of_ne_ok
    intro group accepted
    obtain ⟨derived, -⟩ := Reader.readExpression_eq_ok_iff.1 accepted
    have level : Grammar.Level reader (reader.Derives 63) _ _ group := derived
    rw [Qualifier.bracketed, List.append_assoc, List.cons_append] at level
    have permitted := Reader.permits_of_level registered level
    rw [permitted.negation rfl] at forbidden
    cases forbidden

/-- The deities whose prayers can be asked for. -/
def deity : Qualifier where
  name := "DEITY"
  allowNegation := true
  typeLegal := false
  targetClass := some "Deity"

/-- Prayers, but not all of them, or those of deities. -/
def prayers : Config where
  subToken := "PRAYER"
  targetClass := "Prayer"
  policy := { allLegal := false }
  qualifiers := ⟨[deity], by decide, by decide⟩

/-- The group of everything, where that is permitted. -/
def everything : Group := ⟨.or, [.all], ⟨true, true, false, true⟩⟩

/-- Prayers can be asked for that are of no deity at all. -/
theorem body_is_expression_of_deities :
    ((Reader.within ⟨prayers, none⟩ deity).readExpression .strict wildcard).result =
      .ok everything ∧
    ∃ group,
      (Reader.readExpression ⟨prayers, none⟩ .strict (deity.bracketed true wildcard)).result =
        .ok group ∧
      group.terms = [.qualifier "DEITY" true everything] := by
  have read : ((Reader.within ⟨prayers, none⟩ deity).readExpression .strict wildcard).result =
      .ok everything := by
    decide +kernel
  have atDeity := body_is_expression ⟨prayers, none⟩ deity rfl (List.mem_singleton_self _)
    .strict wildcard
  exact ⟨read, (atDeity.1 true everything fun _ => rfl).2 ⟨read, by decide⟩⟩

end ChoiceLang
