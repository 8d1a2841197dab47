import ChoiceLang.Expression.Reader
import ChoiceLang.Proofs.Forms
import ChoiceLang.Proofs.Segments

/-!
# The grammar of expressions

The rules by which a text stands for a group of choices, given as relations between texts and trees
that know nothing of how a text is read. `Grammar.Item`, `Grammar.Segment` and `Grammar.Level` are
the rules for one level, over a relation `bodies` that says what the bodies of its qualifiers stand
for; `Reader.Derives` puts levels into each other, `room` bodies deep at most.

The items of a level are told apart in a fixed order. Most rules exclude each other by the shape of
their texts, since the names of qualifiers are identifiers; only a reference has to say that nothing
else fits it.

Every function of the reader has a lemma that says when it has a value. The lemmas follow the
functions from the leaves up to `result_readWithin_eq_ok_iff`, by which a lenient reader accepts a
text with a tree if and only if the grammar derives the tree for the text.
-/

namespace ChoiceLang

open Expression

/-! ## Rules -/

/-- A reader takes a reference if it need not be resolved or names an object that exists. -/
def Reader.Accepts (reader : Reader) (reference : Reference) : Prop :=
  reader.config.policy.requiresLiteral = true →
    ∃ oracle, reader.oracle = some oracle ∧ oracle reference = true

/-- A qualifier may be used, negated or not. -/
structure Config.Permits (config : Config) (qualifier : Qualifier) (negated : Bool) : Prop where
  allowed : config.policy.allowsQualifier = true
  registered : qualifier ∈ config.qualifiers.qualifiers
  negation : negated = true → qualifier.allowNegation = true

/-- A name stands for a qualifier without a body. -/
structure Config.StandsBare (config : Config) (qualifier : Qualifier) (name : List Char) :
    Prop where
  allowed : config.policy.allowsQualifier = true
  registered : qualifier ∈ config.qualifiers.qualifiers
  optional : qualifier.body = .optional
  name_eq : qualifier.name.toList = name

/-- The name of a type: neither empty nor with a dot or a bracket in it. -/
def IsTypeName (name : List Char) : Prop := name ≠ [] ∧ '.' ∉ name ∧ '[' ∉ name ∧ ']' ∉ name

namespace Grammar

/-- What the bodies of qualifiers stand for in their scopes. -/
abbrev Bodies := Scope → List Char → Group → Prop

/-- The choice that an item stands for. -/
inductive Item (reader : Reader) (bodies : Bodies) (scope : Scope) : List Char → Choice → Prop where
  | all :
    Item reader bodies scope wildcard .all
  | types {negated start names} :
    start ∈ filterStarts →
    names ≠ [] →
    (∀ name ∈ names, IsTypeName name) →
    Item reader bodies scope (negation negated ++ start ++ Text.joinWith '.' names)
      (.types ⟨negated, .ofList (names.map String.ofList)⟩)
  /-- The body stands in the class of the qualifier, or else in the one around it, and with the
  permissions of the qualifier alone. -/
  | qualifier {negated qualifier inner body} :
    reader.config.Permits qualifier negated →
    inner ≠ [] →
    Balanced inner →
    bodies
      { className := qualifier.targetClass.getD scope.className
        permitted := ⟨qualifier.allLegal, qualifier.typeLegal⟩ } inner body →
    Item reader bodies scope (negation negated ++ qualifier.name.toList ++ '[' :: inner ++ [']'])
      (.qualifier qualifier.name negated body)
  | bareQualifier {negated qualifier} :
    reader.config.Permits qualifier negated →
    qualifier.body = .optional →
    Item reader bodies scope (negation negated ++ qualifier.name.toList)
      (.bareQualifier qualifier.name negated)
  | reference {name} :
    name ≠ wildcard →
    ¬ IsFilter name →
    '[' ∉ name →
    name.head? ≠ some '!' →
    (∀ qualifier, ¬ reader.config.StandsBare qualifier name) →
    reader.Accepts ⟨scope.className, String.ofList name⟩ →
    Item reader bodies scope name (.reference ⟨scope.className, String.ofList name⟩)

/-- The choice that a segment stands for: its only item, or a group of several. -/
inductive Segment (reader : Reader) (bodies : Bodies) (scope : Scope) :
    List Char → Choice → Prop where
  | item {segment item choice} :
    Splits .and segment [item] →
    Item reader bodies scope item choice →
    Segment reader bodies scope segment choice
  | group {segment items choices} :
    Splits .and segment items →
    2 ≤ items.length →
    List.Forall₂ (Item reader bodies scope) items choices →
    Segment reader bodies scope segment (.group (scope.permitted.group .and choices))

/-- The group that a level stands for, with the flags that follow from the scope. -/
inductive Level (reader : Reader) (bodies : Bodies) (scope : Scope) : List Char → Group → Prop where
  | segments {text segments terms} :
    Splits .or text segments →
    List.Forall₂ (Segment reader bodies scope) segments terms →
    Level reader bodies scope text (scope.permitted.group .or terms)

end Grammar

/-- The group that a level stands for in which `room` bodies may lie in each other. -/
def Reader.Derives (reader : Reader) : Nat → Grammar.Bodies
  | 0 => Grammar.Level reader fun _ _ _ => False
  | room + 1 => Grammar.Level reader (reader.Derives room)

/-- With any room a level is derived by the rules for one level. -/
lemma Reader.exists_level (reader : Reader) (room : Nat) :
    ∃ bodies, ∀ scope text group,
      reader.Derives room scope text group ↔ Grammar.Level reader bodies scope text group := by
  cases room with
  | zero => exact ⟨_, fun _ _ _ => Iff.rfl⟩
  | succ room => exact ⟨_, fun _ _ _ => Iff.rfl⟩

/-! ## What the leaves of the reader accept -/

/-- The list of a type filter is names between dots. -/
lemma TypeFilter.ofText_eq_ok_iff {item list : List Char} {negated : Bool} {filter : TypeFilter} :
    TypeFilter.ofText item negated list = .ok filter ↔
      ∃ names, names ≠ [] ∧ (∀ name ∈ names, IsTypeName name) ∧ list = Text.joinWith '.' names ∧
        filter = ⟨negated, .ofList (names.map String.ofList)⟩ := by
  unfold TypeFilter.ofText
  constructor
  · intro h
    split at h
    · cases h
    · split at h
      · cases h
      · next noBracket =>
        dsimp only at h
        split at h
        · cases h
        · next noEmpty =>
          refine ⟨Text.pieces '.' list, Text.pieces_ne_nil '.' list, ?_,
            (Text.joinWith_pieces '.' list).symm, (Except.ok.inj h).symm⟩
          intro name mem
          have sub : name ⊆ list := Text.joinWith_pieces '.' list ▸ Text.subset_joinWith mem
          refine ⟨fun empty => noEmpty (empty ▸ mem), Text.not_mem_of_mem_pieces mem, ?_, ?_⟩
          · exact fun bracket => noBracket (.inl (sub bracket))
          · exact fun bracket => noBracket (.inr (sub bracket))
  · rintro ⟨names, some_name, areNames, rfl, rfl⟩
    have noBracket (c : Char) (notDot : c ≠ '.') (notIn : ∀ name ∈ names, c ∉ name) :
        c ∉ Text.joinWith '.' names := by
      intro mem
      obtain isDot | ⟨name, mem, inName⟩ := Text.eq_or_mem_of_mem_joinWith mem
      · exact notDot isDot
      · exact notIn name mem inName
    have someText : Text.joinWith '.' names ≠ [] := by
      obtain ⟨first, others, rfl⟩ := List.exists_cons_of_ne_nil some_name
      exact Text.joinWith_ne_nil (areNames first List.mem_cons_self).1
    rw [if_neg someText, if_neg,
      Text.pieces_joinWith some_name fun name mem => (areNames name mem).2.1, if_neg]
    · exact fun empty => (areNames [] empty).1 rfl
    · rintro (mem | mem)
      · exact noBracket '[' (by decide) (fun name mem => (areNames name mem).2.2.1) mem
      · exact noBracket ']' (by decide) (fun name mem => (areNames name mem).2.2.2) mem

namespace Config

variable {config : Config} {name : String} {qualifier : Qualifier}

/-- A name in front of a bracket has to be that of a qualifier. -/
lemma namedQualifier_eq_ok_iff :
    config.namedQualifier name = .ok qualifier ↔
      config.policy.allowsQualifier = true ∧ qualifier ∈ config.qualifiers.qualifiers ∧
        qualifier.name = name := by
  unfold namedQualifier
  split
  · next allowed =>
    rw [← QualifierTable.find?_eq_some_iff]
    cases config.qualifiers.find? name <;> simp [allowed]
  · next forbidden => simp [forbidden]

/-- A name alone stands for a qualifier whose body is optional. -/
lemma bareQualifier?_eq_some_iff :
    config.bareQualifier? name = some qualifier ↔ config.StandsBare qualifier name.toList := by
  unfold bareQualifier?
  constructor
  · intro h
    split at h
    · next allowed =>
      obtain ⟨found, optional⟩ := Option.filter_eq_some_iff.1 h
      obtain ⟨registered, rfl⟩ := QualifierTable.find?_eq_some_iff.1 found
      exact ⟨allowed, registered, of_decide_eq_true optional, rfl⟩
    · cases h
  · rintro ⟨allowed, registered, optional, name_eq⟩
    rw [if_pos allowed, Option.filter_eq_some_iff, QualifierTable.find?_eq_some_iff]
    exact ⟨⟨registered, String.toList_inj.1 name_eq⟩, decide_eq_true optional⟩

end Config

/-- Whatever the mode, a group that is built is that of its terms. -/
lemma Permissions.eq_group_of_buildGroup {permitted : Permissions} {mode : Mode}
    {operator : Operator} {terms : List Choice} {group : Group}
    (h : permitted.buildGroup mode operator terms = .ok group) :
    group = permitted.group operator terms := by
  unfold buildGroup at h
  split at h
  · cases h
  · cases h
    rfl

namespace Reader

variable {reader : Reader} {scope : Scope}

/-- The body of a qualifier is balanced and ends with the item. -/
lemma bodyText_eq_ok_iff {item name after inner : List Char} {negated : Bool} :
    bodyText item negated name after = .ok inner ↔
      after = inner ++ [']'] ∧ Balanced inner ∧ inner ≠ [] := by
  unfold bodyText
  constructor
  · intro h
    split at h
    · cases h
    · next cut =>
      obtain ⟨rfl, balanced⟩ := cutClose_eq_some_iff.1 cut
      split at h
      · cases h
      · next noTrailing =>
        split at h
        · cases h
        · next someText =>
          cases h
          rw [not_not.1 noTrailing]
          exact ⟨rfl, balanced, someText⟩
  · rintro ⟨rfl, balanced, someText⟩
    rw [cutClose_eq_some_iff.2 ⟨rfl, balanced⟩]
    simp [someText]

/-- A reference is read if it need not be resolved or is. -/
lemma result_readReference_eq_ok_iff {name : List Char} {choice : Choice} :
    (reader.readReference scope name).result = .ok choice ↔
      reader.Accepts ⟨scope.className, String.ofList name⟩ ∧
        choice = .reference ⟨scope.className, String.ofList name⟩ := by
  unfold readReference Accepts
  split
  · next required =>
    cases asked : reader.oracle with
    | none =>
      constructor
      · intro h
        cases h
      · rintro ⟨known, -⟩
        obtain ⟨oracle, eq, -⟩ := known required
        cases eq
    | some oracle =>
      constructor
      · intro h
        dsimp only at h
        split at h
        · next known => exact ⟨fun _ => ⟨oracle, rfl, known⟩, (Except.ok.inj h).symm⟩
        · cases h
      · rintro ⟨known, rfl⟩
        obtain ⟨oracle, ⟨⟩, known⟩ := known required
        exact if_pos known
  · next free =>
    constructor
    · intro h
      exact ⟨fun required => absurd required free, (Except.ok.inj h).symm⟩
    · rintro ⟨-, rfl⟩
      rfl

/-- A plain item is read as a qualifier without a body, or else as a reference. -/
lemma result_readPlain_eq_ok_iff {item name : List Char} {negated : Bool} {choice : Choice} :
    (reader.readPlain scope item negated name).result = .ok choice ↔
      (∃ qualifier, reader.config.StandsBare qualifier name ∧
        (negated = true → qualifier.allowNegation = true) ∧
        choice = .bareQualifier qualifier.name negated) ∨
      ((∀ qualifier, ¬ reader.config.StandsBare qualifier name) ∧ negated = false ∧
        reader.Accepts ⟨scope.className, String.ofList name⟩ ∧
        choice = .reference ⟨scope.className, String.ofList name⟩) := by
  have bare_iff (qualifier : Qualifier) :
      reader.config.bareQualifier? (String.ofList name) = some qualifier ↔
        reader.config.StandsBare qualifier name := by
    rw [Config.bareQualifier?_eq_some_iff, String.toList_ofList]
  unfold readPlain
  cases bare : reader.config.bareQualifier? (String.ofList name) with
  | some qualifier =>
    have standsBare := (bare_iff qualifier).1 bare
    constructor
    · intro h
      dsimp only at h
      split at h
      · cases h
      · next permitted =>
        cases h
        refine .inl ⟨qualifier, standsBare, fun isNegated => ?_, rfl⟩
        exact of_not_not fun forbidden => permitted ⟨isNegated, forbidden⟩
    · rintro (⟨other, otherBare, permitted, rfl⟩ | ⟨notBare, -⟩)
      · rw [(bare_iff other).2 otherBare] at bare
        cases bare
        exact congrArg Inquiry.result (if_neg fun h => h.2 (permitted h.1))
      · exact absurd standsBare (notBare qualifier)
  | none =>
    have notBare (qualifier : Qualifier) : ¬ reader.config.StandsBare qualifier name := by
      intro standsBare
      rw [(bare_iff qualifier).2 standsBare] at bare
      cases bare
    cases negated with
    | true =>
      constructor
      · intro h
        cases h
      · rintro (⟨qualifier, standsBare, -⟩ | ⟨-, eq, -⟩)
        · exact absurd standsBare (notBare qualifier)
        · cases eq
    | false =>
      refine result_readReference_eq_ok_iff.trans ⟨fun h => .inr ⟨notBare, rfl, h⟩, ?_⟩
      rintro (⟨qualifier, standsBare, -⟩ | ⟨-, -, h⟩)
      · exact absurd standsBare (notBare qualifier)
      · exact h

/-- A qualifier with a body is read if it is permitted and its body is read. -/
lemma result_readBracketed_eq_ok_iff {readBody : LevelReader} {item name after : List Char}
    {negated : Bool} {choice : Choice} :
    (reader.readBracketed readBody scope item negated name after).result = .ok choice ↔
      ∃ qualifier inner body, reader.config.Permits qualifier negated ∧
        qualifier.name.toList = name ∧ after = inner ++ [']'] ∧ Balanced inner ∧ inner ≠ [] ∧
        (readBody (scope.within qualifier) inner).result = .ok body ∧
        choice = .qualifier qualifier.name negated body := by
  unfold readBracketed
  constructor
  · intro h
    obtain ⟨qualifier, named, atBody⟩ := Inquiry.result_bind_eq_ok_iff.1 h
    obtain ⟨inner, enclosed, atRead⟩ := Inquiry.result_bind_eq_ok_iff.1 atBody
    obtain ⟨body, read, atEnd⟩ := Inquiry.result_bind_eq_ok_iff.1 atRead
    obtain ⟨allowed, registered, name_eq⟩ := Config.namedQualifier_eq_ok_iff.1 named
    obtain ⟨rfl, balanced, someText⟩ := bodyText_eq_ok_iff.1 enclosed
    split at atEnd
    · cases atEnd
    · next permitted =>
      cases atEnd
      refine ⟨qualifier, inner, body, ⟨allowed, registered, fun isNegated => ?_⟩, ?_, rfl, balanced,
        someText, read, rfl⟩
      · exact of_not_not fun forbidden => permitted ⟨isNegated, forbidden⟩
      · rw [name_eq, String.toList_ofList]
  · rintro ⟨qualifier, inner, body, permitted, rfl, rfl, balanced, someText, read, rfl⟩
    refine Inquiry.result_bind_eq_ok_iff.2 ⟨qualifier, ?_, ?_⟩
    · exact Config.namedQualifier_eq_ok_iff.2
        ⟨permitted.allowed, permitted.registered, String.ofList_toList.symm⟩
    refine Inquiry.result_bind_eq_ok_iff.2 ⟨inner, ?_, ?_⟩
    · exact bodyText_eq_ok_iff.2 ⟨rfl, balanced, someText⟩
    refine Inquiry.result_bind_eq_ok_iff.2 ⟨body, read, ?_⟩
    exact congrArg Inquiry.result (if_neg fun h => h.2 (permitted.negation h.1))

/-- Splitting in the reader is splitting. -/
lemma splitAt_eq_ok_iff {operator : Operator} {text : List Char} {pieces : List (List Char)} :
    splitAt operator text = .ok pieces ↔ Splits operator text pieces := by
  rw [splitAt, Except.mapError_eq_ok_iff, split_eq_ok_iff]

/-! ## What the reader accepts -/

section

variable {readBody : LevelReader} {bodies : Grammar.Bodies}
variable (h : ∀ scope text body, (readBody scope text).result = .ok body ↔ bodies scope text body)

include h

/-- Items are read by the rule that fits their form. -/
lemma result_readItem_eq_ok_iff {item : List Char} {choice : Choice} :
    (reader.readItem readBody scope item).result = .ok choice ↔
      Grammar.Item reader bodies scope item choice := by
  unfold readItem
  constructor
  · intro read
    cases form : Form.ofText item with
    | all =>
      rw [form] at read
      cases read
      rw [ofText_eq_all_iff.1 form]
      exact .all
    | types negated list =>
      rw [form] at read
      obtain ⟨filter, built, rfl⟩ := Except.map_eq_ok_iff.1 read
      obtain ⟨names, some_name, areNames, rfl, rfl⟩ := TypeFilter.ofText_eq_ok_iff.1 built
      obtain ⟨start, mem, rfl⟩ := ofText_eq_types_iff.1 form
      exact .types mem some_name areNames
    | bracketed negated name after =>
      rw [form] at read
      obtain ⟨qualifier, inner, body, permitted, rfl, rfl, balanced, someText, bodyRead, rfl⟩ :=
        result_readBracketed_eq_ok_iff.1 read
      rw [(ofText_eq_bracketed_iff.1 form).2.1, ← List.cons_append, ← List.append_assoc]
      -- the reader goes into the scope that the rule writes out
      exact .qualifier permitted someText balanced ((h _ _ _).1 bodyRead)
    | plain negated name =>
      rw [form] at read
      obtain ⟨notAll, notFilter, rfl, noBracket, unmarked⟩ := ofText_eq_plain_iff.1 form
      rcases result_readPlain_eq_ok_iff.1 read with
        ⟨qualifier, standsBare, negation, rfl⟩ | ⟨notBare, rfl, accepted, rfl⟩
      · obtain ⟨allowed, registered, optional, rfl⟩ := standsBare
        exact .bareQualifier ⟨allowed, registered, negation⟩ optional
      · exact .reference notAll notFilter noBracket (unmarked rfl) notBare accepted
  · intro item
    cases item with
    | all => rfl
    | @types negated start names mem some_name areNames =>
      rw [ofText_eq_types_iff.2 ⟨start, mem, rfl⟩]
      refine Except.map_eq_ok_iff.2 ⟨_, ?_, rfl⟩
      exact TypeFilter.ofText_eq_ok_iff.2 ⟨names, some_name, areNames, rfl, rfl⟩
    | @qualifier negated qualifier inner body permitted someText balanced derived =>
      rw [List.append_assoc, List.cons_append,
        QualifierTable.ofText_name_bracket permitted.registered]
      exact result_readBracketed_eq_ok_iff.2
        ⟨qualifier, inner, body, permitted, rfl, rfl, balanced, someText, (h _ _ _).2 derived, rfl⟩
    | @bareQualifier negated qualifier permitted optional =>
      rw [QualifierTable.ofText_name permitted.registered]
      exact result_readPlain_eq_ok_iff.2 (.inl ⟨qualifier,
        ⟨permitted.allowed, permitted.registered, optional, rfl⟩, permitted.negation, rfl⟩)
    | reference notAll notFilter noBracket unmarked notBare accepted =>
      have form : Form.ofText item = .plain false item :=
        ofText_eq_plain_iff.2 ⟨notAll, notFilter, rfl, noBracket, fun _ => unmarked⟩
      rw [form]
      exact result_readPlain_eq_ok_iff.2 (.inr ⟨notBare, rfl, accepted, rfl⟩)

/-- Items are read one by one, each by one of the rules. -/
lemma result_forEach_readItem_eq_ok_iff {items : List (List Char)} {choices : List Choice} :
    (Inquiry.forEach (reader.readItem readBody scope) items).result = .ok choices ↔
      List.Forall₂ (Grammar.Item reader bodies scope) items choices := by
  simp only [Inquiry.result_forEach_eq_ok_iff, result_readItem_eq_ok_iff h]

/-- What is read of a segment, in whichever mode, is what the segment stands for. -/
lemma segment_of_readSegment {mode : Mode} {segment : List Char} {choice : Choice}
    (read : (reader.readSegment mode readBody scope segment).result = .ok choice) :
    Grammar.Segment reader bodies scope segment choice := by
  unfold readSegment at read
  obtain ⟨items, found, atItems⟩ := Inquiry.result_bind_eq_ok_iff.1 read
  obtain ⟨choices, itemsRead, atEnd⟩ := Inquiry.result_bind_eq_ok_iff.1 atItems
  have split := splitAt_eq_ok_iff.1 found
  have derived := (result_forEach_readItem_eq_ok_iff h).1 itemsRead
  cases choices with
  | nil => exact absurd (List.forall₂_nil_right_iff.1 derived) split.some_piece
  | cons first others =>
    cases others with
    | nil =>
      cases atEnd
      obtain ⟨item, rest, itemDerived, none, rfl⟩ := List.forall₂_cons_right_iff.1 derived
      cases List.forall₂_nil_right_iff.1 none
      exact .item split itemDerived
    | cons second others =>
      obtain ⟨group, built, rfl⟩ := Except.map_eq_ok_iff.1 atEnd
      rw [Permissions.eq_group_of_buildGroup built]
      exact .group split (by simp [derived.length_eq]) derived

/-- Segments are read item by item, and several items are joined in a group. -/
lemma result_readSegment_eq_ok_iff {segment : List Char} {choice : Choice} :
    (reader.readSegment .lenient readBody scope segment).result = .ok choice ↔
      Grammar.Segment reader bodies scope segment choice := by
  constructor
  · exact segment_of_readSegment h
  · intro segment
    cases segment with
    | @item item _ split derived =>
      refine Inquiry.result_bind_eq_ok_iff.2 ⟨[item], splitAt_eq_ok_iff.2 split, ?_⟩
      refine Inquiry.result_bind_eq_ok_iff.2 ⟨[choice], ?_, rfl⟩
      exact (result_forEach_readItem_eq_ok_iff h).2 (.cons derived .nil)
    | @group items choices split several derived =>
      refine Inquiry.result_bind_eq_ok_iff.2 ⟨items, splitAt_eq_ok_iff.2 split, ?_⟩
      have read := (result_forEach_readItem_eq_ok_iff h).2 derived
      refine Inquiry.result_bind_eq_ok_iff.2 ⟨choices, read, ?_⟩
      -- with two choices or more the reader does not take the branch of a single item
      rw [derived.length_eq] at several
      match choices, several with
      | _ :: _ :: _, _ => rfl

/-- Levels are read segment by segment. -/
lemma result_readLevel_eq_ok_iff {text : List Char} {group : Group} :
    (reader.readLevel .lenient readBody scope text).result = .ok group ↔
      Grammar.Level reader bodies scope text group := by
  have segments_iff {segments : List (List Char)} {terms : List Choice} :
      (Inquiry.forEach (reader.readSegment .lenient readBody scope) segments).result = .ok terms ↔
        List.Forall₂ (Grammar.Segment reader bodies scope) segments terms := by
    simp only [Inquiry.result_forEach_eq_ok_iff, result_readSegment_eq_ok_iff h]
  unfold readLevel
  constructor
  · intro read
    obtain ⟨segments, found, atSegments⟩ := Inquiry.result_bind_eq_ok_iff.1 read
    obtain ⟨terms, segmentsRead, atEnd⟩ := Inquiry.result_bind_eq_ok_iff.1 atSegments
    cases atEnd
    exact .segments (splitAt_eq_ok_iff.1 found) (segments_iff.1 segmentsRead)
  · intro level
    cases level with
    | segments split derived =>
      refine Inquiry.result_bind_eq_ok_iff.2 ⟨_, splitAt_eq_ok_iff.2 split, ?_⟩
      exact Inquiry.result_bind_eq_ok_iff.2 ⟨_, segments_iff.2 derived, rfl⟩

end

/-- A lenient reader accepts what the grammar derives, with any room for bodies. -/
lemma result_readWithin_eq_ok_iff (reader : Reader) (room : Nat) (scope : Scope)
    (text : List Char) (group : Group) :
    (reader.readWithin .lenient room scope text).result = .ok group ↔
      reader.Derives room scope text group := by
  induction room generalizing scope text group with
  | zero =>
    apply result_readLevel_eq_ok_iff
    intro scope text body
    constructor
    · intro h
      cases h
    · exact False.elim
  | succ room ih => exact result_readLevel_eq_ok_iff ih

/-- A lenient reader accepts a text as a group if and only if the grammar derives it, with as many
bodies in each other as are permitted. -/
theorem readExpression_eq_ok_iff_derives (reader : Reader) (text : List Char) (group : Group) :
    (reader.readExpression .lenient text).result = .ok group ↔
      reader.Derives nestingLimit reader.config.scope text group :=
  result_readWithin_eq_ok_iff reader nestingLimit reader.config.scope text group

end Reader

end ChoiceLang
