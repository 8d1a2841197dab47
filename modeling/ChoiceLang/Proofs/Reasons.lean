import ChoiceLang.Proofs.Bodies
import ChoiceLang.Proofs.Splitting

/-!
# Reasons of rejections

A text is rejected for a defect that it has. `Reader.Reason` says for every rejection what the text
holds then: which of its levels or items is at fault, with the names, texts and offsets that the
rejection carries. Levels are found in the text as the reader finds them (`Config.LevelOf`), so that
each comes with the scope whose permissions decide.

The reader is followed from items to levels. Each of its functions fails for a fault of its own
text, or because one that it calls does.
-/

namespace ChoiceLang

open Expression

/-! ## Places in a text -/

/-- An item of a level stands between its separators. -/
inductive HasItem (level item : List Char) : Prop where
  | intro {segments segment items} :
    Splits .or level segments →
    segment ∈ segments →
    Splits .and segment items →
    item ∈ items →
    HasItem level item

/-- A level of a text: the whole text, or what a qualifier in a level has between its brackets. -/
inductive Config.LevelOf (config : Config) (text : List Char) :
    Nat → Scope → List Char → Prop where
  | whole :
    LevelOf config text 0 config.scope text
  /-- The body stands in the class of the qualifier, or else in the one around it, and with the
  permissions of the qualifier alone. -/
  | body {depth scope level negated qualifier inner} :
    LevelOf config text depth scope level →
    HasItem level (qualifier.bracketed negated inner) →
    config.Permits qualifier false →
    Balanced inner →
    inner ≠ [] →
    LevelOf config text (depth + 1)
      { className := qualifier.targetClass.getD scope.className
        permitted := ⟨qualifier.allLegal, qualifier.typeLegal⟩ } inner

/-- An item that is cut at its first bracket. -/
structure IsBracketed (item : List Char) (negated : Bool) (name after : List Char) : Prop where
  no_filter : ¬ IsFilter item
  text : item = negation negated ++ name ++ '[' :: after
  no_bracket : '[' ∉ name
  unmarked : negated = false → (name ++ '[' :: after).head? ≠ some '!'

/-! ## Faults -/

/-- What an item is rejected for. -/
inductive Reader.ItemFault (reader : Reader) (scope : Scope) (item : List Char) :
    Rejection → Prop where
  | emptyTypeList {negated start} :
    start ∈ filterStarts →
    item = negation negated ++ start →
    ItemFault reader scope item (.emptyTypeList (String.ofList item))
  | bracketInTypeName {negated start list} :
    start ∈ filterStarts →
    item = negation negated ++ start ++ list →
    '[' ∈ list ∨ ']' ∈ list →
    ItemFault reader scope item (.bracketInTypeName (String.ofList item))
  | emptyTypeName {negated start names} :
    start ∈ filterStarts →
    item = negation negated ++ start ++ Text.joinWith '.' names →
    2 ≤ names.length →
    [] ∈ names →
    ItemFault reader scope item (.emptyTypeName (String.ofList item))
  | qualifierForbidden {negated name after} :
    IsBracketed item negated name after →
    reader.config.policy.allowsQualifier = false →
    ItemFault reader scope item (.qualifierForbidden (String.ofList name))
  | unknownQualifier {negated name after} :
    IsBracketed item negated name after →
    reader.config.policy.allowsQualifier = true →
    (∀ qualifier ∈ reader.config.qualifiers.qualifiers, qualifier.name.toList ≠ name) →
    ItemFault reader scope item (.unknownQualifier (String.ofList name))
  | emptyQualifierBody {negated qualifier} :
    reader.config.Permits qualifier false →
    item = qualifier.bracketed negated [] →
    ItemFault reader scope item (.emptyQualifierBody qualifier.name)
  | danglingText {negated qualifier inner trailing} :
    reader.config.Permits qualifier false →
    item = qualifier.bracketed negated inner ++ trailing →
    Balanced inner →
    trailing ≠ [] →
    ItemFault reader scope item (.danglingText qualifier.name (String.ofList trailing))
  | negationForbidden {qualifier inner} :
    reader.config.Permits qualifier false →
    item = qualifier.bracketed true inner →
    Balanced inner →
    qualifier.allowNegation = false →
    ItemFault reader scope item (.negationForbidden qualifier.name)
  | bareNegationForbidden {qualifier name} :
    reader.config.StandsBare qualifier name →
    item = '!' :: name →
    qualifier.allowNegation = false →
    ItemFault reader scope item (.negationForbidden qualifier.name)
  | negatedReference {name} :
    item = '!' :: name →
    ¬ IsFilter item →
    '[' ∉ name →
    (∀ qualifier, ¬ reader.config.StandsBare qualifier name) →
    ItemFault reader scope item (.negatedReference (String.ofList item))
  | unresolvedLiteral :
    item ≠ wildcard →
    ¬ IsFilter item →
    '[' ∉ item →
    item.head? ≠ some '!' →
    (∀ qualifier, ¬ reader.config.StandsBare qualifier item) →
    ¬ reader.Accepts ⟨scope.className, String.ofList item⟩ →
    ItemFault reader scope item (.unresolvedLiteral ⟨scope.className, String.ofList item⟩)

/-- What a strict reader rejects a level for. -/
inductive Scope.RuleFault (scope : Scope) (level : List Char) : Rejection → Prop where
  | typeForbidden {item negated start names} :
    HasItem level item →
    start ∈ filterStarts →
    item = negation negated ++ start ++ Text.joinWith '.' names →
    scope.permitted.typeLegal = false →
    RuleFault scope level (.typeForbidden
      (String.ofList (TypeFilter.text ⟨negated, .ofList (names.map String.ofList)⟩)))
  | allForbidden :
    level = wildcard →
    scope.permitted.allLegal = false →
    RuleFault scope level .allForbidden
  | allCombined {segments segment items} :
    Splits .or level segments →
    segment ∈ segments →
    Splits .and segment items →
    wildcard ∈ items →
    2 ≤ segments.length ∨ 2 ≤ items.length →
    RuleFault scope level .allCombined

/-- What a text holds that is rejected. -/
inductive Reader.Reason (reader : Reader) (mode : Mode) (text : List Char) : Rejection → Prop where
  | emptyExpression :
    text = [] →
    Reason reader mode text (.separator .emptyExpression '|' 0)
  | unbalancedBrackets {position} :
    Unpaired text position →
    Reason reader mode text (.unbalancedBrackets (String.ofList text) position)
  | levelSeparator {depth scope level fault position} :
    reader.config.LevelOf text depth scope level →
    EmptyPiece .or level fault position →
    Reason reader mode text (.separator fault '|' position)
  | segmentSeparator {depth scope level segments segment fault position} :
    reader.config.LevelOf text depth scope level →
    Splits .or level segments →
    segment ∈ segments →
    EmptyPiece .and segment fault position →
    Reason reader mode text (.separator fault ',' position)
  | item {depth scope level item rejection} :
    reader.config.LevelOf text depth scope level →
    HasItem level item →
    reader.ItemFault scope item rejection →
    Reason reader mode text rejection
  | rule {depth scope level rejection} :
    reader.config.LevelOf text depth scope level →
    mode = .strict →
    scope.RuleFault level rejection →
    Reason reader mode text rejection
  | nestingTooDeep {scope level} :
    reader.config.LevelOf text (nestingLimit + 1) scope level →
    nestingLimit < nesting text →
    Reason reader mode text (.nestingTooDeep nestingLimit)

/-! ## Levels of a text -/

section

variable {config : Config} {text level item : List Char} {depth : Nat} {scope : Scope}

/-- The brackets of an item are paired in it. -/
lemma HasItem.balanced (h : HasItem level item) : Balanced item := by
  cases h with
  | intro _ _ split mem => exact (split.encloses item mem).closes

/-- An item is nested no deeper than its level. -/
lemma HasItem.nesting_le (h : HasItem level item) : nesting item ≤ nesting level := by
  cases h with
  | intro levelSplit segmentMem split mem =>
    exact Nat.le_trans (split.nesting_le mem) (levelSplit.nesting_le segmentMem)

/-- Only the whole text can be empty or unbalanced. -/
lemma Config.LevelOf.whole_or_balanced (h : config.LevelOf text depth scope level) :
    level = text ∨ (Balanced level ∧ level ≠ []) := by
  cases h with
  | whole => exact .inl rfl
  | body _ _ _ balanced some_text => exact .inr ⟨balanced, some_text⟩

/-- A level lies in as many brackets as bodies. -/
lemma Config.LevelOf.nesting_le (h : config.LevelOf text depth scope level) :
    depth + nesting level ≤ nesting text := by
  induction h with
  | whole => exact Nat.le_of_eq (Nat.zero_add _)
  | @body depth _ level negated qualifier inner _ hasItem permitted balanced _ ih =>
    have noBracket := QualifierTable.mark_not_mem_name permitted.registered negated '[' (by decide)
    have inItem : nesting (qualifier.bracketed negated inner) = nesting inner + 1 :=
      nesting_bracketed noBracket balanced
    have inLevel := hasItem.nesting_le
    omega

end

/-! ## Why groups are rejected -/

namespace Permissions

variable {permitted : Permissions} {mode : Mode} {terms : List Choice} {rejection : Rejection}

/-- A group is refused by a strict reader only, for the rule that its terms break. -/
lemma buildGroup_eq_error {operator : Operator}
    (h : permitted.buildGroup mode operator terms = .error rejection) :
    mode = .strict ∧ permitted.violation? terms = some rejection := by
  unfold buildGroup at h
  split at h
  · next violation =>
    cases h
    exact ⟨rfl, violation⟩
  · cases h

/-- What breaks a rule is a sole `ALL`, an `ALL` besides others, or a type filter. -/
lemma violation?_eq_some (h : permitted.violation? terms = some rejection) :
    (terms = [.all] ∧ permitted.allLegal = false ∧ rejection = .allForbidden) ∨
    (terms ≠ [.all] ∧ terms.any Choice.bringsAll = true ∧ rejection = .allCombined) ∨
    (permitted.typeLegal = false ∧ ∃ filter, .types filter ∈ terms ∧
      rejection = .typeForbidden (String.ofList filter.text)) := by
  unfold violation? at h
  split at h
  · next sole =>
    split at h
    · cases h
    · next illegal =>
      cases h
      exact .inl ⟨sole, Bool.eq_false_iff.2 illegal, rfl⟩
  next several =>
  split at h
  · next brings =>
    cases h
    exact .inr (.inl ⟨several, brings, rfl⟩)
  · obtain ⟨filter, found, rfl⟩ := Option.map_eq_some_iff.1 h
    unfold forbiddenFilter? at found
    split at found
    · cases found
    · next illegal =>
      obtain ⟨term, mem, isFilter⟩ := List.exists_of_findSome?_eq_some found
      refine .inr (.inr ⟨Bool.eq_false_iff.2 illegal, filter, ?_, rfl⟩)
      cases term with
      | types other =>
        cases isFilter
        exact mem
      | _ => cases isFilter

end Permissions

/-! ## Why functions of the reader fail -/

namespace Reader

variable {reader : Reader} {scope : Scope} {mode : Mode} {rejection : Rejection}

/-- A text that cannot be split is empty, or has an empty piece or an unpaired bracket. -/
lemma reason_of_splitAt {operator : Operator} {text : List Char}
    (h : splitAt operator text = .error rejection) :
    (text = [] ∧ rejection = .separator .emptyExpression operator.separator 0) ∨
    (∃ fault position, EmptyPiece operator text fault position ∧
      rejection = .separator fault operator.separator position) ∨
    ∃ position, Unpaired text position ∧
      rejection = .unbalancedBrackets (String.ofList text) position := by
  obtain ⟨defect, found, rfl⟩ := Except.mapError_eq_error_iff.1 h
  by_cases none : text = []
  · subst none
    cases found
    exact .inl ⟨rfl, rfl⟩
  · cases hasDefect_of_split none found with
    | separator emptyPiece => exact .inr (.inl ⟨_, _, emptyPiece, rfl⟩)
    | bracket unpaired => exact .inr (.inr ⟨_, unpaired, rfl⟩)

/-- A type filter is rejected for its list, a bracket in it, or an empty name. -/
lemma itemFault_of_typeFilter {item start list : List Char} {negated : Bool}
    (isStart : start ∈ filterStarts) (text : item = negation negated ++ start ++ list)
    (h : TypeFilter.ofText item negated list = .error rejection) :
    reader.ItemFault scope item rejection := by
  unfold TypeFilter.ofText at h
  split at h
  · next none =>
    cases h
    rw [none, List.append_nil] at text
    exact .emptyTypeList isStart text
  next some_list =>
  split at h
  · next hasBracket =>
    cases h
    exact .bracketInTypeName isStart text hasBracket
  dsimp only at h
  split at h
  · next hasEmpty =>
    cases h
    have joined := Text.joinWith_pieces '.' list
    refine .emptyTypeName isStart (joined.symm ▸ text) ?_ hasEmpty
    -- a list that is not empty has an empty name only besides others
    obtain ⟨first, others, eq⟩ := List.exists_cons_of_ne_nil (Text.pieces_ne_nil '.' list)
    rw [eq] at hasEmpty joined ⊢
    cases others with
    | nil =>
      rw [← List.mem_singleton.1 hasEmpty] at joined
      exact absurd joined.symm some_list
    | cons second others => simp
  · cases h

/-- A name in front of a bracket is rejected where qualifiers are, or if it names none. -/
lemma namedQualifier_eq_error {config : Config} {name : String}
    (h : config.namedQualifier name = .error rejection) :
    (config.policy.allowsQualifier = false ∧ rejection = .qualifierForbidden name) ∨
    (config.policy.allowsQualifier = true ∧
      (∀ qualifier ∈ config.qualifiers.qualifiers, qualifier.name ≠ name) ∧
      rejection = .unknownQualifier name) := by
  unfold Config.namedQualifier at h
  split at h
  · next allowed =>
    split at h
    · cases h
    · next unknown =>
      cases h
      refine .inr ⟨allowed, ?_, rfl⟩
      rintro qualifier registered rfl
      rw [QualifierTable.find?_eq_some_iff.2 ⟨registered, rfl⟩] at unknown
      cases unknown
  · next forbidden =>
    cases h
    exact .inl ⟨Bool.eq_false_iff.2 forbidden, rfl⟩

/-- The brackets of an item are rejected for what stands behind or between them, unless the first
has no partner. -/
lemma bodyText_eq_error {item name after : List Char} {negated : Bool}
    (h : bodyText item negated name after = .error rejection) :
    cutClose 0 after = none ∨
    (∃ inner trailing, after = inner ++ ']' :: trailing ∧ Balanced inner ∧ trailing ≠ [] ∧
      rejection = .danglingText (String.ofList name) (String.ofList trailing)) ∨
    (after = [']'] ∧ rejection = .emptyQualifierBody (String.ofList name)) := by
  unfold bodyText at h
  split at h
  · next uncut => exact .inl uncut
  · next inner trailing cut =>
    obtain ⟨rfl, balanced⟩ := cutClose_eq_some_iff.1 cut
    split at h
    · next dangling =>
      cases h
      exact .inr (.inl ⟨inner, trailing, rfl, balanced, dangling, rfl⟩)
    · next ended =>
      split at h
      · next none =>
        cases h
        exact .inr (.inr ⟨by rw [none, not_not.1 ended]; rfl, rfl⟩)
      · cases h

/-- A reference is rejected only if it has to be known and is not. -/
lemma readReference_eq_error {name : List Char}
    (h : (reader.readReference scope name).result = .error rejection) :
    rejection = .unresolvedLiteral ⟨scope.className, String.ofList name⟩ ∧
      ¬ reader.Accepts ⟨scope.className, String.ofList name⟩ := by
  have unaccepted : ¬ reader.Accepts ⟨scope.className, String.ofList name⟩ := by
    intro accepted
    rw [result_readReference_eq_ok_iff.2 ⟨accepted, rfl⟩] at h
    cases h
  refine ⟨?_, unaccepted⟩
  unfold readReference at h
  split at h
  · split at h
    · cases h
      rfl
    · dsimp only at h
      split at h
      · cases h
      · cases h
        rfl
  · cases h

/-- An item without brackets is rejected for its negation, or as a reference. -/
lemma itemFault_of_readPlain {item name : List Char} {negated : Bool}
    (form : Form.ofText item = .plain negated name)
    (h : (reader.readPlain scope item negated name).result = .error rejection) :
    reader.ItemFault scope item rejection := by
  obtain ⟨notAll, notFilter, text, noBracket, unmarked⟩ := ofText_eq_plain_iff.1 form
  have bare_iff (qualifier : Qualifier) :
      reader.config.bareQualifier? (String.ofList name) = some qualifier ↔
        reader.config.StandsBare qualifier name := by
    rw [Config.bareQualifier?_eq_some_iff, String.toList_ofList]
  unfold readPlain at h
  split at h
  · next qualifier bare =>
    split at h
    · next forbidden =>
      cases h
      rw [forbidden.1] at text
      exact .bareNegationForbidden ((bare_iff qualifier).1 bare) text
        (Bool.eq_false_iff.2 forbidden.2)
    · cases h
  · next none =>
    have notBare (qualifier : Qualifier) : ¬ reader.config.StandsBare qualifier name := by
      intro bare
      rw [(bare_iff qualifier).2 bare] at none
      cases none
    cases negated with
    | true =>
      cases h
      exact .negatedReference text notFilter noBracket notBare
    | false =>
      obtain ⟨rfl, unaccepted⟩ := readReference_eq_error h
      obtain rfl : item = name := text
      exact .unresolvedLiteral notAll notFilter noBracket (unmarked rfl) notBare unaccepted

/-- The first bracket of a balanced item has a partner, next to which the item is at fault. -/
lemma itemFault_of_bodyText {qualifier : Qualifier} {item after : List Char} {negated : Bool}
    (permitted : reader.config.Permits qualifier false)
    (text : item = negation negated ++ qualifier.name.toList ++ '[' :: after)
    (balanced : Balanced item)
    (h : bodyText item negated qualifier.name.toList after = .error rejection) :
    reader.ItemFault scope item rejection := by
  have cut : cutClose 0 after ≠ none := by
    have isName := QualifierTable.isItem_name permitted.registered negated
    rw [text] at balanced
    have behind := ((encloses_append isName.encloses.closes).1 balanced).2
    obtain ⟨inner, rest, eq, balancedInner⟩ := exists_interior behind
    rw [cutClose_eq_some_iff.2 ⟨eq, balancedInner⟩]
    exact Option.some_ne_none _
  rcases bodyText_eq_error h with uncut |
    ⟨inner, trailing, rfl, balancedInner, dangling, rfl⟩ | ⟨rfl, rfl⟩
  · exact absurd uncut cut
  · have item_eq : item = qualifier.bracketed negated inner ++ trailing := by
      simp [text, Qualifier.bracketed]
    rw [String.ofList_toList]
    exact .danglingText permitted item_eq balancedInner dangling
  · have item_eq : item = qualifier.bracketed negated [] := by
      simp [text, Qualifier.bracketed]
    rw [String.ofList_toList]
    exact .emptyQualifierBody permitted item_eq

/-- An item in brackets is at fault, or the body in it is. -/
lemma itemFault_of_readBracketed {readBody : LevelReader} {item name after : List Char}
    {negated : Bool} (bracketed : IsBracketed item negated name after) (balanced : Balanced item)
    (h : (reader.readBracketed readBody scope item negated name after).result =
      .error rejection) :
    reader.ItemFault scope item rejection ∨
      ∃ qualifier inner, reader.config.Permits qualifier false ∧
        item = qualifier.bracketed negated inner ∧ Balanced inner ∧ inner ≠ [] ∧
        (readBody (scope.within qualifier) inner).result = .error rejection := by
  unfold readBracketed at h
  rcases Inquiry.result_bind_eq_error_iff.1 h with unnamed | ⟨qualifier, named, atBody⟩
  · rcases namedQualifier_eq_error unnamed with ⟨forbidden, rfl⟩ | ⟨allowed, unknown, rfl⟩
    · exact .inl (.qualifierForbidden bracketed forbidden)
    · refine .inl (.unknownQualifier bracketed allowed ?_)
      rintro qualifier registered rfl
      exact unknown qualifier registered String.ofList_toList.symm
  obtain ⟨allowed, registered, name_eq⟩ := Config.namedQualifier_eq_ok_iff.1 named
  obtain rfl : qualifier.name.toList = name := by rw [name_eq, String.toList_ofList]
  have permitted : reader.config.Permits qualifier false := ⟨allowed, registered, nofun⟩
  have text := bracketed.text
  rcases Inquiry.result_bind_eq_error_iff.1 atBody with unenclosed | ⟨inner, enclosed, atRead⟩
  · exact .inl (itemFault_of_bodyText permitted text balanced unenclosed)
  obtain ⟨rfl, balancedInner, some_text⟩ := bodyText_eq_ok_iff.1 enclosed
  have item_eq : item = qualifier.bracketed negated inner := by
    simp [text, Qualifier.bracketed]
  rcases Inquiry.result_bind_eq_error_iff.1 atRead with unread | ⟨body, read, atEnd⟩
  · exact .inr ⟨qualifier, inner, permitted, item_eq, balancedInner, some_text, unread⟩
  · split at atEnd
    · next forbidden =>
      cases atEnd
      rw [forbidden.1] at item_eq
      exact .inl (.negationForbidden permitted item_eq balancedInner
        (Bool.eq_false_iff.2 forbidden.2))
    · cases atEnd

/-- An item is at fault, or the body in it is. -/
lemma itemFault_of_readItem {readBody : LevelReader} {item : List Char} (balanced : Balanced item)
    (h : (reader.readItem readBody scope item).result = .error rejection) :
    reader.ItemFault scope item rejection ∨
      ∃ negated qualifier inner, reader.config.Permits qualifier false ∧
        item = qualifier.bracketed negated inner ∧ Balanced inner ∧ inner ≠ [] ∧
        (readBody (scope.within qualifier) inner).result = .error rejection := by
  unfold readItem at h
  cases form : Form.ofText item with
  | all =>
    rw [form] at h
    cases h
  | types negated list =>
    rw [form] at h
    obtain ⟨start, isStart, text⟩ := ofText_eq_types_iff.1 form
    exact .inl (itemFault_of_typeFilter isStart text (Except.map_eq_error_iff.1 h))
  | bracketed negated name after =>
    rw [form] at h
    obtain ⟨notFilter, text, noBracket, unmarked⟩ := ofText_eq_bracketed_iff.1 form
    have bracketed : IsBracketed item negated name after := ⟨notFilter, text, noBracket, unmarked⟩
    rcases itemFault_of_readBracketed bracketed balanced h with fault | inBody
    · exact .inl fault
    · exact .inr ⟨negated, inBody⟩
  | plain negated name =>
    rw [form] at h
    exact .inl (itemFault_of_readPlain form h)

/-! ## Broken rules -/

section

variable {bodies : Grammar.Bodies} {level item segment : List Char}
variable {segments items : List (List Char)} {terms choices : List Choice}

/-- Only the wildcard is read as what brings `ALL`. -/
lemma eq_wildcard_of_item {choice : Choice}
    (derived : Grammar.Item reader bodies scope item choice) (brings : choice.bringsAll = true) :
    choice = .all ∧ item = wildcard := by
  cases derived with
  | all => exact ⟨rfl, rfl⟩
  | types => cases brings
  | qualifier => cases brings
  | bareQualifier => cases brings
  | reference => cases brings

/-- Where one of the choices brings `ALL`, one of the items is the wildcard. -/
lemma wildcard_mem_of_items
    (derived : List.Forall₂ (Grammar.Item reader bodies scope) items choices)
    (brings : choices.any Choice.bringsAll = true) : wildcard ∈ items := by
  obtain ⟨choice, inChoices, brings⟩ := List.any_eq_true.1 brings
  obtain ⟨item, inItems, ofItem⟩ := derived.exists_of_mem_right inChoices
  obtain ⟨-, rfl⟩ := eq_wildcard_of_item ofItem brings
  exact inItems

/-- A type filter in a level that forbids them is a fault of the level. -/
lemma typeForbidden_of_item {filter : TypeFilter} (hasItem : HasItem level item)
    (derived : Grammar.Item reader bodies scope item (.types filter))
    (illegal : scope.permitted.typeLegal = false) :
    scope.RuleFault level (.typeForbidden (String.ofList filter.text)) := by
  cases derived with
  | types isStart => exact .typeForbidden hasItem isStart rfl illegal

/-- What is wrong with the choices of one segment is a fault of the level. -/
lemma ruleFault_of_items (split : Splits .or level segments) (mem : segment ∈ segments)
    (itemSplit : Splits .and segment items)
    (derived : List.Forall₂ (Grammar.Item reader bodies scope) items choices)
    (several : 2 ≤ items.length) (h : scope.permitted.violation? choices = some rejection) :
    scope.RuleFault level rejection := by
  rcases Permissions.violation?_eq_some h with ⟨rfl, -⟩ | ⟨-, brings, rfl⟩ |
    ⟨illegal, filter, inChoices, rfl⟩
  · rw [derived.length_eq] at several
    exact absurd several (by decide)
  · have inItems := wildcard_mem_of_items derived brings
    exact .allCombined split mem itemSplit inItems (.inr several)
  · obtain ⟨item, inItems, derived⟩ := derived.exists_of_mem_right inChoices
    exact typeForbidden_of_item (.intro split mem itemSplit inItems) derived illegal

/-- A segment that brings `ALL` besides others is at fault, by its only item or by a group. -/
lemma allCombined_of_segment (split : Splits .or level segments) (mem : segment ∈ segments)
    {term : Choice} (derived : Grammar.Segment reader bodies scope segment term)
    (brings : term.bringsAll = true) (besides : term = .all → 2 ≤ segments.length) :
    scope.RuleFault level .allCombined := by
  cases derived with
  | item itemSplit ofItem =>
    obtain ⟨rfl, rfl⟩ := eq_wildcard_of_item ofItem brings
    exact .allCombined split mem itemSplit (List.mem_singleton_self _) (.inl (besides rfl))
  | @group items choices itemSplit several ofItems =>
    -- a group that may not be listed brings `ALL`
    have brings : (!(!choices.any Choice.bringsAll)) = true := brings
    rw [Bool.not_not] at brings
    have inItems := wildcard_mem_of_items ofItems brings
    exact .allCombined split mem itemSplit inItems (.inr several)

/-- What is wrong with the terms of a level is a fault of the level. -/
lemma ruleFault_of_segments (split : Splits .or level segments)
    (derived : List.Forall₂ (Grammar.Segment reader bodies scope) segments terms)
    (h : scope.permitted.violation? terms = some rejection) :
    scope.RuleFault level rejection := by
  rcases Permissions.violation?_eq_some h with ⟨rfl, illegal, rfl⟩ | ⟨others, brings, rfl⟩ |
    ⟨illegal, filter, inTerms, rfl⟩
  · exact .allForbidden (eq_wildcard_of_segments split derived) illegal
  · obtain ⟨term, inTerms, brings⟩ := List.any_eq_true.1 brings
    obtain ⟨segment, mem, ofTerm⟩ := derived.exists_of_mem_right inTerms
    refine allCombined_of_segment split mem ofTerm brings ?_
    rintro rfl
    rw [derived.length_eq]
    match terms, inTerms, others with
    | [term], inTerms, others =>
      cases List.mem_singleton.1 inTerms
      exact absurd rfl others
    | _ :: _ :: _, _, _ => exact Nat.le_add_left 2 _
  · obtain ⟨segment, mem, ofTerm⟩ := derived.exists_of_mem_right inTerms
    cases ofTerm with
    | item itemSplit ofItem =>
      have hasItem := HasItem.intro split mem itemSplit (List.mem_singleton_self _)
      exact typeForbidden_of_item hasItem ofItem illegal

end

/-! ## Why the reader fails -/

section

variable {readBody : LevelReader} {text level item segment : List Char} {depth : Nat}
variable (h : ∀ scope inner rejection, reader.config.LevelOf text (depth + 1) scope inner →
  (readBody scope inner).result = .error rejection → reader.Reason mode text rejection)

include h

/-- An item that is rejected gives the reason, in whatever level it stands. -/
lemma reason_of_readItem (ofText : reader.config.LevelOf text depth scope level)
    (hasItem : HasItem level item)
    (failed : (reader.readItem readBody scope item).result = .error rejection) :
    reader.Reason mode text rejection := by
  rcases itemFault_of_readItem hasItem.balanced failed with fault |
    ⟨negated, qualifier, inner, permitted, rfl, balanced, some_text, failed⟩
  · exact .item ofText hasItem fault
  · exact h _ _ _ (.body ofText hasItem permitted balanced some_text) failed

/-- A segment is rejected for its separators, for one of its items, or for a rule. -/
lemma reason_of_readSegment {segments : List (List Char)}
    (ofText : reader.config.LevelOf text depth scope level) (split : Splits .or level segments)
    (mem : segment ∈ segments)
    (failed : (reader.readSegment mode readBody scope segment).result = .error rejection) :
    reader.Reason mode text rejection := by
  unfold readSegment at failed
  rcases Inquiry.result_bind_eq_error_iff.1 failed with unsplit | ⟨items, found, atItems⟩
  · rcases reason_of_splitAt unsplit with ⟨none, -⟩ | ⟨fault, position, emptyPiece, rfl⟩ |
      ⟨position, unpaired, -⟩
    · exact absurd none (split.some_text segment mem)
    · exact .segmentSeparator ofText split mem emptyPiece
    · exact absurd (split.encloses segment mem).closes unpaired.not_balanced
  have itemSplit := splitAt_eq_ok_iff.1 found
  rcases Inquiry.result_bind_eq_error_iff.1 atItems with unread | ⟨choices, read, atEnd⟩
  · obtain ⟨item, inItems, failed⟩ := Inquiry.exists_of_result_forEach_eq_error unread
    exact reason_of_readItem h ofText (.intro split mem itemSplit inItems) failed
  have derived : List.Forall₂ (Grammar.Item reader _ scope) items choices :=
    (result_forEach_readItem_eq_ok_iff fun _ _ _ => Iff.rfl).1 read
  match choices with
  | [] => exact absurd (List.forall₂_nil_right_iff.1 derived) itemSplit.some_piece
  | [_] => cases atEnd
  | first :: second :: others =>
    obtain ⟨strict, violation⟩ := Permissions.buildGroup_eq_error (Except.map_eq_error_iff.1 atEnd)
    have several : 2 ≤ items.length := by simp [derived.length_eq]
    exact .rule ofText strict (ruleFault_of_items split mem itemSplit derived several violation)

/-- A level is rejected for its separators, for one of its segments, or for a rule. -/
lemma reason_of_readLevel (ofText : reader.config.LevelOf text depth scope level)
    (failed : (reader.readLevel mode readBody scope level).result = .error rejection) :
    reader.Reason mode text rejection := by
  unfold readLevel at failed
  rcases Inquiry.result_bind_eq_error_iff.1 failed with unsplit | ⟨segments, found, atSegments⟩
  · rcases reason_of_splitAt unsplit with ⟨none, rfl⟩ | ⟨fault, position, emptyPiece, rfl⟩ |
      ⟨position, unpaired, rfl⟩
    · rcases ofText.whole_or_balanced with rfl | ⟨-, some_text⟩
      · exact .emptyExpression none
      · exact absurd none some_text
    · exact .levelSeparator ofText emptyPiece
    · rcases ofText.whole_or_balanced with rfl | ⟨balanced, -⟩
      · exact .unbalancedBrackets unpaired
      · exact absurd balanced unpaired.not_balanced
  have split := splitAt_eq_ok_iff.1 found
  rcases Inquiry.result_bind_eq_error_iff.1 atSegments with unread | ⟨terms, read, atEnd⟩
  · obtain ⟨segment, mem, failed⟩ := Inquiry.exists_of_result_forEach_eq_error unread
    exact reason_of_readSegment h ofText split mem failed
  · obtain ⟨strict, violation⟩ := Permissions.buildGroup_eq_error atEnd
    have derived : List.Forall₂ (Grammar.Segment reader _ scope) segments terms :=
      (Inquiry.result_forEach_eq_ok_iff.1 read).imp fun _ _ =>
        segment_of_readSegment fun _ _ _ => Iff.rfl
    exact .rule ofText strict (ruleFault_of_segments split derived violation)

end

/-- By induction on the room that is left, down to the level that is too deep. -/
lemma reason_of_readWithin {text level : List Char} {room depth : Nat}
    (fits : depth + room = nestingLimit) (ofText : reader.config.LevelOf text depth scope level)
    (failed : (reader.readWithin mode room scope level).result = .error rejection) :
    reader.Reason mode text rejection := by
  -- each body takes one of the room and lies one level deeper, so that `fits` is kept
  induction room generalizing scope level depth rejection with
  | zero =>
    refine reason_of_readLevel ?_ ofText failed
    rintro scope inner rejection ofInner ⟨⟩
    obtain rfl : depth = nestingLimit := fits
    exact .nestingTooDeep ofInner (Nat.le_trans (Nat.le_add_right _ _) ofInner.nesting_le)
  | succ room ih =>
    refine reason_of_readLevel ?_ ofText failed
    intro scope inner rejection ofInner failed
    exact ih (by omega) ofInner failed

end Reader

/-- Every rejection of a text has its reason in the text. -/
theorem rejection_has_reason {reader : Reader} {mode : Mode} {text : List Char}
    {rejection : Rejection}
    (h : (reader.readExpression mode text).result = .error rejection) :
    reader.Reason mode text rejection :=
  Reader.reason_of_readWithin (Nat.zero_add nestingLimit) .whole h

/-- Prayers of the deities of a type cannot be asked for, since deities have no types to tell. -/
theorem rejection_has_reason_of_prayers :
    (Reader.readExpression ⟨prayers, none⟩ .strict "Bless|DEITY[!TYPE=Good.Sun]".toList).result =
      .error (.typeForbidden "!TYPE=Good.Sun") ∧
    Reader.Reason ⟨prayers, none⟩ .strict "Bless|DEITY[!TYPE=Good.Sun]".toList
      (.typeForbidden "!TYPE=Good.Sun") := by
  have rejected : (Reader.readExpression ⟨prayers, none⟩ .strict
      "Bless|DEITY[!TYPE=Good.Sun]".toList).result = .error (.typeForbidden "!TYPE=Good.Sun") := by
    decide +kernel
  exact ⟨rejected, rejection_has_reason rejected⟩

end ChoiceLang
