import ChoiceLang.Proofs.Grammar

/-!
# Round trip

Which groups can be read, and that what is written for them is read back. `Reader.WellFormed` says
it of a group by itself, with no mention of a text: the operators alternate, names hold nothing that
would be read in another way, qualifiers are permitted where they stand, and flags are those that
follow from terms and scope.

Two passes through the grammar meet at the main statement. Down from a text,
`wellFormed_of_derives` shows that what is derived is well formed; up from a group,
`derives_text_of_wellFormed` shows that its text is split at the separators that were written and
that every item falls to the rule for the choice it was written for.
-/

namespace ChoiceLang

open Expression

/-! ## Well-formed groups -/

/-- A reference can be called by a name: it is not empty, holds no bracket or separator, and does
not look like another choice. -/
structure IsReferenceName (name : List Char) : Prop where
  some_text : name ≠ []
  no_mark : ∀ c ∈ marks, c ∉ name
  unmarked : name.head? ≠ some '!'
  no_filter : ∀ start ∈ filterStarts, ¬ start <+: name
  not_all : name ≠ wildcard

/-- A type filter can name a type: the name is not empty and holds no dot, bracket or separator. -/
structure IsFilterName (name : List Char) : Prop where
  some_text : name ≠ []
  no_dot : '.' ∉ name
  no_mark : ∀ c ∈ marks, c ∉ name

namespace WellFormed

/-- Which groups are well formed as bodies of qualifiers in their scopes. -/
abbrev Bodies := Scope → Group → Prop

/-- A well-formed choice that is no group. -/
inductive Item (reader : Reader) (bodies : Bodies) (scope : Scope) : Choice → Prop where
  | all :
    Item reader bodies scope .all
  | types {filter : TypeFilter} :
    filter.types.names ≠ [] →
    (∀ name ∈ filter.types.names, IsFilterName name.toList) →
    Item reader bodies scope (.types filter)
  /-- The body stands in the class of the qualifier, or else in the one around it, and with the
  permissions of the qualifier alone. -/
  | qualifier {negated qualifier body} :
    reader.config.Permits qualifier negated →
    bodies
      { className := qualifier.targetClass.getD scope.className
        permitted := ⟨qualifier.allLegal, qualifier.typeLegal⟩ } body →
    Item reader bodies scope (.qualifier qualifier.name negated body)
  | bareQualifier {negated qualifier} :
    reader.config.Permits qualifier negated →
    qualifier.body = .optional →
    Item reader bodies scope (.bareQualifier qualifier.name negated)
  | reference {name : String} :
    IsReferenceName name.toList →
    (∀ qualifier, ¬ reader.config.StandsBare qualifier name.toList) →
    reader.Accepts ⟨scope.className, name⟩ →
    Item reader bodies scope (.reference ⟨scope.className, name⟩)

/-- A well-formed term of a level: a choice that is no group, or two of them or more that all have
to hold. -/
inductive Term (reader : Reader) (bodies : Bodies) (scope : Scope) : Choice → Prop where
  | item {choice} :
    Item reader bodies scope choice →
    Term reader bodies scope choice
  | group {group : Group} :
    group.operator = .and →
    2 ≤ group.terms.length →
    (∀ item ∈ group.terms, Item reader bodies scope item) →
    group.flags = scope.permitted.flags group.terms →
    Term reader bodies scope (.group group)

/-- A well-formed level: one term or more, any of which may hold. -/
structure Level (reader : Reader) (bodies : Bodies) (scope : Scope) (group : Group) : Prop where
  operator : group.operator = .or
  some_term : group.terms ≠ []
  terms : ∀ term ∈ group.terms, Term reader bodies scope term
  flags : group.flags = scope.permitted.flags group.terms

end WellFormed

/-- A well-formed level in which at most `room` bodies lie in each other. -/
def Reader.WellFormed (reader : Reader) : Nat → WellFormed.Bodies
  | 0 => WellFormed.Level reader fun _ _ => False
  | room + 1 => WellFormed.Level reader (reader.WellFormed room)

/-! ## Pieces of a level -/

/-- An item of a level: some text with separators only in its brackets. -/
structure IsItem (text : List Char) : Prop where
  some_text : text ≠ []
  encloses : Encloses [.or, .and] 0 text

/-- What a level is split into, at both separators, are items. -/
lemma IsItem.of_splits {segment item : List Char} {items : List (List Char)}
    (outer : Encloses [.or] 0 segment) (inner : Splits .and segment items) (mem : item ∈ items) :
    IsItem item where
  some_text := inner.some_text item mem
  encloses := by
    rw [← inner.joined, encloses_joinWith (by simp) fun p mem => (inner.encloses p mem).closes]
      at outer
    exact encloses_cons_iff.2 ⟨outer item mem, inner.encloses item mem⟩

/-- Without brackets an item holds no separators either. -/
lemma IsItem.not_mem {text : List Char} (h : IsItem text) (noBracket : '[' ∉ text) :
    ∀ c ∈ marks, c ∉ text := by
  obtain ⟨noClose, noSeparator⟩ := (encloses_iff_not_mem noBracket).1 h.encloses
  have noOr : '|' ∉ text := noSeparator .or (by simp)
  have noAnd : ',' ∉ text := noSeparator .and (by simp)
  exact forall_marks.2 ⟨noBracket, noClose, noOr, noAnd⟩

/-- A text without brackets and separators is an item. -/
lemma IsItem.of_not_mem {text : List Char} (some_text : text ≠ []) (h : ∀ c ∈ marks, c ∉ text) :
    IsItem text where
  some_text := some_text
  encloses := by
    obtain ⟨noOpen, noClose, noOr, noAnd⟩ := forall_marks.1 h
    rw [encloses_iff_not_mem noOpen]
    refine ⟨noClose, fun operator _ => ?_⟩
    cases operator with
    | and => exact noAnd
    | or => exact noOr

/-- A negation is no mark. -/
lemma not_mem_negation (negated : Bool) : ∀ c ∈ marks, c ∉ negation negated := by
  rw [forall_marks]
  cases negated <;> decide

/-- No mark stands in a type filter but in its names. -/
lemma not_mem_filter {negated : Bool} {start : List Char} {names : List (List Char)}
    (isStart : start ∈ filterStarts) {c : Char} (isMark : c ∈ marks)
    (notIn : ∀ name ∈ names, c ∉ name) :
    c ∉ negation negated ++ start ++ Text.joinWith '.' names := by
  have notStart : ∀ c ∈ marks, c ∉ start := by
    rw [forall_marks]
    obtain ⟨mark, rfl | rfl, rfl⟩ := mem_filterStarts.1 isStart <;> decide
  rw [List.mem_append, List.mem_append]
  rintro ((inNegation | inStart) | inNames)
  · exact not_mem_negation negated c isMark inNegation
  · exact notStart c isMark inStart
  · obtain rfl | ⟨name, mem, inName⟩ := Text.eq_or_mem_of_mem_joinWith inNames
    · exact absurd isMark (by decide)
    · exact notIn name mem inName

/-- No mark stands in the name of a qualifier, negated or not. -/
lemma QualifierTable.mark_not_mem_name {table : QualifierTable} {qualifier : Qualifier}
    (h : qualifier ∈ table.qualifiers) (negated : Bool) :
    ∀ c ∈ marks, c ∉ negation negated ++ qualifier.name.toList := by
  have special : ∀ c ∈ marks, (c.isAlphanum || c = '_') = false := forall_marks.2 (by decide)
  intro c isMark mem
  rcases List.mem_append.1 mem with inNegation | inName
  · exact not_mem_negation negated c isMark inNegation
  · exact not_mem_name h (special c isMark) inName

/-- The name of a qualifier is an item, negated or not. -/
lemma QualifierTable.isItem_name {table : QualifierTable} {qualifier : Qualifier}
    (h : qualifier ∈ table.qualifiers) (negated : Bool) :
    IsItem (negation negated ++ qualifier.name.toList) := by
  apply IsItem.of_not_mem
  · simpa using fun _ => name_ne_nil h
  · exact mark_not_mem_name h negated

/-! ## From texts to groups -/

/-- The names of a type list are those it was made of. -/
lemma TypeList.mem_names_ofList {names : List (List Char)} {name : String} :
    name ∈ (TypeList.ofList (names.map String.ofList)).names ↔ name.toList ∈ names := by
  rw [TypeList.ofList, mem_keepFirst, List.mem_map]
  constructor
  · rintro ⟨chars, mem, rfl⟩
    rwa [String.toList_ofList]
  · intro mem
    exact ⟨name.toList, mem, String.ofList_toList⟩

section

variable {reader : Reader} {scope : Scope} {derives : Grammar.Bodies} {sound : WellFormed.Bodies}
variable (h : ∀ scope text body, derives scope text body → sound scope body)

include h

/-- The choice that an item stands for is well formed. -/
lemma wellFormed_of_item {item : List Char} {choice : Choice} (isItem : IsItem item)
    (derived : Grammar.Item reader derives scope item choice) :
    WellFormed.Item reader sound scope choice := by
  cases derived with
  | all => exact .all
  | @types negated start names mem some_name areNames =>
    have noBracket : '[' ∉ negation negated ++ start ++ Text.joinWith '.' names :=
      not_mem_filter mem (by decide) fun name inNames => (areNames name inNames).2.2.1
    apply WellFormed.Item.types
    · obtain ⟨first, others, rfl⟩ := List.exists_cons_of_ne_nil some_name
      exact List.cons_ne_nil _ _
    · intro name inNames
      have inNames := TypeList.mem_names_ofList.1 inNames
      refine ⟨(areNames _ inNames).1, (areNames _ inNames).2.1, fun c isMark inName => ?_⟩
      apply isItem.not_mem noBracket c isMark
      exact List.mem_append_right _ (Text.subset_joinWith inNames inName)
  | qualifier permitted _ _ derived => exact .qualifier permitted (h _ _ _ derived)
  | bareQualifier permitted optional => exact .bareQualifier permitted optional
  | reference notAll notFilter noBracket unmarked notBare accepted =>
    apply WellFormed.Item.reference
    · rw [String.toList_ofList]
      refine ⟨isItem.some_text, isItem.not_mem noBracket, unmarked, ?_, notAll⟩
      rintro start mem ⟨list, eq⟩
      exact notFilter ⟨false, start, mem, list, eq.symm⟩
    · rwa [String.toList_ofList]
    · exact accepted

/-- The term that a segment stands for is well formed. -/
lemma wellFormed_of_segment {segment : List Char} {term : Choice} (outer : Encloses [.or] 0 segment)
    (derived : Grammar.Segment reader derives scope segment term) :
    WellFormed.Term reader sound scope term := by
  cases derived with
  | item split derived =>
    exact .item (wellFormed_of_item h (.of_splits outer split (by simp)) derived)
  | @group items choices split several derived =>
    refine .group rfl (derived.length_eq ▸ several) ?_ rfl
    exact derived.forall_mem_right fun item mem choice itemDerived =>
      wellFormed_of_item h (.of_splits outer split mem) itemDerived

/-- The group that a level stands for is well formed. -/
lemma wellFormed_of_level {text : List Char} {group : Group}
    (derived : Grammar.Level reader derives scope text group) :
    WellFormed.Level reader sound scope group := by
  cases derived with
  | @segments segments terms split derived =>
    refine ⟨rfl, ?_, ?_, rfl⟩
    · rintro (rfl : terms = [])
      exact split.some_piece (List.forall₂_nil_right_iff.1 derived)
    · exact derived.forall_mem_right fun segment mem term segmentDerived =>
        wellFormed_of_segment h (split.encloses segment mem) segmentDerived

end

/-- What is derived for a text is well formed. -/
lemma wellFormed_of_derives {reader : Reader} {room : Nat} {scope : Scope} {text : List Char}
    {group : Group} (h : reader.Derives room scope text group) :
    reader.WellFormed room scope group := by
  induction room generalizing scope text group with
  | zero => exact wellFormed_of_level (fun _ _ _ => False.elim) h
  | succ room ih =>
    have level : Grammar.Level reader (reader.Derives room) scope text group := h
    refine wellFormed_of_level ?_ level
    intro scope text body
    exact ih

/-! ## From groups to texts -/

/-- A list of types is made of its own names. -/
lemma TypeList.ofList_names (types : TypeList) :
    TypeList.ofList ((types.names.map String.toList).map String.ofList) = types := by
  obtain ⟨names, nodup⟩ := types
  have same : (names.map String.toList).map String.ofList = names := by
    rw [List.map_map]
    exact List.map_id'' (fun _ => String.ofList_toList) names
  simp only [same, TypeList.ofList, keepFirst_eq_self nodup]

/-- An item can be followed by a balanced text in brackets. -/
lemma IsItem.append_bracketed {text inner : List Char} (h : IsItem text)
    (balanced : Balanced inner) :
    IsItem (text ++ '[' :: inner ++ [']']) where
  some_text := by simp
  encloses := by
    rw [List.append_assoc, encloses_append h.encloses.closes, encloses_bracketed balanced]
    exact ⟨h.encloses, encloses_nil.2 rfl⟩

section

variable {reader : Reader} {scope : Scope} {derives : Grammar.Bodies} {sound : WellFormed.Bodies}
variable (h : ∀ scope body, sound scope body →
  derives scope body.text body ∧ Balanced body.text ∧ body.text ≠ [])

include h

/-- The text of a well-formed choice is an item that stands for it. -/
lemma item_of_wellFormed {choice : Choice}
    (wellFormed : WellFormed.Item reader sound scope choice) :
    Grammar.Item reader derives scope choice.text choice ∧ IsItem choice.text := by
  cases wellFormed with
  | all => exact ⟨.all, .of_not_mem (by decide) (forall_marks.2 (by decide))⟩
  | @types filter some_name areNames =>
    have isStart : filterStart ∈ filterStarts := by simp [filterStarts]
    have areNames : ∀ name ∈ filter.types.names.map String.toList, IsFilterName name :=
      List.forall_mem_map.2 areNames
    constructor
    · have derived : Grammar.Item reader derives scope filter.text (.types ⟨filter.negated,
          .ofList ((filter.types.names.map String.toList).map String.ofList)⟩) := by
        apply Grammar.Item.types isStart (by simpa using some_name)
        intro name mem
        obtain ⟨someText, noDot, noMark⟩ := areNames name mem
        exact ⟨someText, noDot, noMark '[' (by decide), noMark ']' (by decide)⟩
      rwa [TypeList.ofList_names] at derived
    · apply IsItem.of_not_mem
      · simp [Choice.text, TypeFilter.text, filterStart]
      · intro c isMark
        exact not_mem_filter isStart isMark fun name mem => (areNames name mem).no_mark c isMark
  | @qualifier negated qualifier body permitted sound =>
    obtain ⟨derived, balanced, someText⟩ := h _ _ sound
    rw [Choice.text_qualifier]
    refine ⟨.qualifier permitted someText balanced derived, ?_⟩
    exact (QualifierTable.isItem_name permitted.registered negated).append_bracketed balanced
  | @bareQualifier negated qualifier permitted optional =>
    have isName := QualifierTable.isItem_name permitted.registered negated
    exact ⟨.bareQualifier permitted optional, isName⟩
  | @reference name isName notBare accepted =>
    refine ⟨?_, .of_not_mem isName.some_text isName.no_mark⟩
    have derived : Grammar.Item reader derives scope name.toList
        (.reference ⟨scope.className, String.ofList name.toList⟩) := by
      -- the name of a reference fits no other rule, whichever way its negation is taken
      apply Grammar.Item.reference isName.not_all _ (isName.no_mark '[' (by decide))
        isName.unmarked notBare
      · rwa [String.ofList_toList]
      · rintro ⟨negated, start, mem, list, eq⟩
        cases negated with
        | true => exact isName.unmarked (by rw [eq]; rfl)
        | false => exact isName.no_filter start mem ⟨list, eq.symm⟩
    rwa [String.ofList_toList] at derived

/-- The text of a well-formed term is a segment that stands for it. -/
lemma segment_of_wellFormed {term : Choice} (wellFormed : WellFormed.Term reader sound scope term) :
    Grammar.Segment reader derives scope term.text term ∧ term.text ≠ [] ∧
      Encloses [.or] 0 term.text := by
  cases wellFormed with
  | item wellFormed =>
    obtain ⟨derived, isItem⟩ := item_of_wellFormed h wellFormed
    obtain ⟨enclosesOr, enclosesAnd⟩ := encloses_cons_iff.1 isItem.encloses
    have split : Splits .and (Text.joinWith ',' [term.text]) [term.text] :=
      splits_joinWith (by simp) (by simp [isItem.some_text]) (by simpa using enclosesAnd)
    exact ⟨.item split derived, isItem.some_text, enclosesOr⟩
  | @group group isAnd several items flags =>
    obtain ⟨operator, choices, _⟩ := group
    obtain rfl : operator = .and := isAnd
    obtain rfl : _ = scope.permitted.flags choices := flags
    have readable (choice : Choice) (mem : choice ∈ choices) :=
      item_of_wellFormed h (items choice mem)
    have areItems : ∀ text ∈ choices.map Choice.text, IsItem text :=
      List.forall_mem_map.2 fun choice mem => (readable choice mem).2
    have some_item : choices.map Choice.text ≠ [] := by
      rw [Ne, List.map_eq_nil_iff]
      rintro rfl
      cases several
    have split : Splits .and (Text.joinWith ',' (choices.map Choice.text)) _ :=
      splits_joinWith some_item (fun text mem => (areItems text mem).some_text)
        fun text mem => (encloses_cons_iff.1 (areItems text mem).encloses).2
    rw [Choice.text_group]
    refine ⟨.group split (by simpa using several) ?_, split.text_ne_nil, ?_⟩
    · rw [List.forall₂_map_left_iff, List.forall₂_same]
      exact fun choice mem => (readable choice mem).1
    · have other : Operator.and ∉ [.or] := by simp
      apply (encloses_joinWith other fun text mem => (areItems text mem).encloses.closes).2
      exact fun text mem => (encloses_cons_iff.1 (areItems text mem).encloses).1

/-- The text of a well-formed level stands for it. -/
lemma level_of_wellFormed {group : Group} (wellFormed : WellFormed.Level reader sound scope group) :
    Grammar.Level reader derives scope group.text group := by
  obtain ⟨operator, terms, _⟩ := group
  obtain ⟨isOr, some_term, wellFormed, flags⟩ := wellFormed
  obtain rfl : operator = .or := isOr
  obtain rfl : _ = scope.permitted.flags terms := flags
  have readable (term : Choice) (mem : term ∈ terms) :=
    segment_of_wellFormed h (wellFormed term mem)
  apply Grammar.Level.segments
  · apply splits_joinWith (by simpa using some_term)
    · exact List.forall_mem_map.2 fun term mem => (readable term mem).2.1
    · exact List.forall_mem_map.2 fun term mem => (readable term mem).2.2
  · rw [List.forall₂_map_left_iff, List.forall₂_same]
    exact fun term mem => (readable term mem).1

end

/-- A text for which something is derived is split into segments. -/
lemma Reader.Derives.splits {reader : Reader} {room : Nat} {scope : Scope} {text : List Char}
    {group : Group} (h : reader.Derives room scope text group) :
    ∃ segments, Splits .or text segments := by
  obtain ⟨bodies, derives_iff⟩ := reader.exists_level room
  have level := (derives_iff _ _ _).1 h
  cases level with
  | segments split _ => exact ⟨_, split⟩

/-- A well-formed group is derived for its own text. -/
lemma derives_text_of_wellFormed {reader : Reader} {room : Nat} {scope : Scope} {group : Group}
    (h : reader.WellFormed room scope group) : reader.Derives room scope group.text group := by
  induction room generalizing scope group with
  | zero => exact level_of_wellFormed (fun _ _ => False.elim) h
  | succ room ih =>
    have level : WellFormed.Level reader (reader.WellFormed room) scope group := h
    refine level_of_wellFormed ?_ level
    intro scope body wellFormed
    obtain ⟨segments, split⟩ := (ih wellFormed).splits
    exact ⟨ih wellFormed, split.balanced, split.text_ne_nil⟩

/-- What a lenient reader has read is read again from its own text. -/
lemma Reader.readExpression_text {reader : Reader} {text : List Char} {group : Group}
    (h : (reader.readExpression .lenient text).result = .ok group) :
    (reader.readExpression .lenient group.text).result = .ok group := by
  have wellFormed := wellFormed_of_derives ((Reader.result_readWithin_eq_ok_iff ..).1 h)
  exact (Reader.result_readWithin_eq_ok_iff ..).2 (derives_text_of_wellFormed wellFormed)

/-- The groups that a lenient reader accepts some text for are the well-formed ones, and each of
them is read back from its own text. -/
theorem exists_readExpression_iff_wellFormed (reader : Reader) (group : Group) :
    ((∃ text, (reader.readExpression .lenient text).result = .ok group) ↔
        reader.WellFormed nestingLimit reader.config.scope group) ∧
      (reader.WellFormed nestingLimit reader.config.scope group →
        (reader.readExpression .lenient group.text).result = .ok group) := by
  have read_of_wellFormed (wellFormed : reader.WellFormed nestingLimit reader.config.scope group) :
      (reader.readExpression .lenient group.text).result = .ok group :=
    (Reader.result_readWithin_eq_ok_iff ..).2 (derives_text_of_wellFormed wellFormed)
  refine ⟨⟨?_, fun wellFormed => ⟨group.text, read_of_wellFormed wellFormed⟩⟩, read_of_wellFormed⟩
  rintro ⟨text, read⟩
  exact wellFormed_of_derives ((Reader.result_readWithin_eq_ok_iff ..).1 read)

end ChoiceLang
