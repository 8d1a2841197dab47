import ChoiceLang.Proofs.Strictness

/-!
# Levels

A level is an expression, or the body of a qualifier in it; its items are the choices between its
separators, and what is permitted to them is said where the level stands. The flags of a group are
folded from its terms and from the flags inside them. This file says what they mean for the whole
tree under the group: `Permissions.Judges` ties them to the items of the group and to the validity
of the bodies among these, and `Config.FlagsTell` to all levels that are nested in each other.

The terms of a level are items and groups of items. `Permissions.JudgesTerm` is what one term brings
to the flags of its group; it is shown for items first, hence for groups of items, and hence for the
terms of a level.
-/

namespace ChoiceLang

open Expression

/-! ## Items and levels -/

/-- The items that a term consists of. -/
def Choice.items : Choice → List Choice
  | group inner => inner.terms
  | choice => [choice]

/-- The items of a group, those of the groups among its terms included. -/
def Grouping.items (group : Group) : List Choice := group.terms.flatMap Choice.items

/-- The items of a level may stand there: `ALL` alone if at all, and type filters if any. -/
structure Permissions.Allow (permitted : Permissions) (items : List Choice) : Prop where
  wildcard : .all ∉ items ∨ items = [.all] ∧ permitted.allLegal = true
  filters : permitted.typeLegal = true ∨ ∀ filter, .types filter ∉ items

/-- A group is nested in another one that stands where something is permitted, and stands itself
where the qualifier around it says what is permitted. Every group is nested in itself. -/
inductive Config.Nested (config : Config) : Permissions → Group → Permissions → Group → Prop where
  | self {permitted group} :
    Nested config permitted group permitted group
  | body {permitted group negated body inner level} {qualifier : Qualifier} :
    qualifier ∈ config.qualifiers.qualifiers →
    .qualifier qualifier.name negated body ∈ group.items →
    Nested config ⟨qualifier.allLegal, qualifier.typeLegal⟩ body inner level →
    Nested config permitted group inner level

/-- What the flags of a group tell of its own items. -/
structure Permissions.Describes (permitted : Permissions) (group : Group) : Prop where
  allowsList : group.flags.allowsList = true ↔ .all ∉ group.items
  allowsAll : group.flags.allowsAll = true ↔ group.items = [.all] ∧ permitted.allLegal = true
  allowsType : group.flags.allowsType = true ↔
    permitted.typeLegal = true ∨ ∀ filter, .types filter ∉ group.items

/-- What the flags of a group tell of its items and of all levels nested in it. -/
structure Config.FlagsTell (config : Config) (permitted : Permissions) (group : Group) : Prop
    extends permitted.Describes group where
  isValid : group.flags.isValid = true ↔
    ∀ inner level, config.Nested permitted group inner level → inner.Allow level.items

/-! ## Flags and items -/

/-- The bodies of the qualifiers among some items are valid. -/
def BodiesValid (items : List Choice) : Prop :=
  ∀ name negated body, .qualifier name negated body ∈ items → body.flags.isValid = true

namespace Permissions

/-- What the flags of a group tell of its items and of the bodies among these. -/
structure Judges (permitted : Permissions) (group : Group) : Prop
    extends permitted.Describes group where
  isValid : group.flags.isValid = true ↔ permitted.Allow group.items ∧ BodiesValid group.items

/-- What a term brings to the flags of its group. -/
structure JudgesTerm (permitted : Permissions) (term : Choice) : Prop where
  some_item : term.items ≠ []
  sole : term.items = [.all] → term = .all
  bringsAll : term.bringsAll = true ↔ .all ∈ term.items
  types : (permitted.typeLegal = true ∨ term.filter? = none) ∧ term.innerTypesLegal = true ↔
    permitted.typeLegal = true ∨ ∀ filter, .types filter ∉ term.items
  bodiesValid : term.innerValid = true → BodiesValid term.items
  innerValid : permitted.Allow term.items → BodiesValid term.items → term.innerValid = true

section

variable {permitted : Permissions} {terms : List Choice}
variable (h : ∀ term ∈ terms, permitted.JudgesTerm term)

include h

/-- The only item of a group is `ALL` if its only term is. -/
lemma items_eq_all_iff : terms.flatMap Choice.items = [.all] ↔ terms = [.all] := by
  constructor
  · intro sole
    cases terms with
    | nil => cases sole
    | cons term others =>
      obtain ⟨here, there⟩ := List.forall_mem_cons.1 h
      rw [List.flatMap_cons, List.append_eq_singleton_iff] at sole
      obtain ⟨empty, -⟩ | ⟨only, rest⟩ := sole
      · exact absurd empty here.some_item
      · have none : others = [] := by
          rw [List.flatMap_eq_nil_iff] at rest
          exact List.eq_nil_iff_forall_not_mem.2 fun other mem =>
            (there other mem).some_item (rest other mem)
        rw [here.sole only, none]
  · rintro rfl
    rfl

/-- A group holds no `ALL` if no term brings one. -/
lemma allowsList_flags_iff :
    (permitted.flags terms).allowsList = true ↔ .all ∉ terms.flatMap Choice.items := by
  have brings : terms.any Choice.bringsAll = true ↔ .all ∈ terms.flatMap Choice.items := by
    rw [List.any_eq_true, List.mem_flatMap]
    exact exists_congr fun term => and_congr_right fun mem => (h term mem).bringsAll
  change (!terms.any Choice.bringsAll) = true ↔ _
  rw [← brings, Bool.not_eq_true, Bool.not_eq_true']

/-- A group is nothing but a permitted `ALL` if its terms are. -/
lemma allowsAll_flags_iff :
    (permitted.flags terms).allowsAll = true ↔
      terms.flatMap Choice.items = [.all] ∧ permitted.allLegal = true := by
  change (decide (terms = [.all]) && permitted.allLegal) = true ↔ _
  rw [Bool.and_eq_true, decide_eq_true_iff, items_eq_all_iff h]

/-- The type filters in a group are permitted if those of each term are. -/
lemma allowsType_flags_iff :
    (permitted.flags terms).allowsType = true ↔
      permitted.typeLegal = true ∨ ∀ filter, .types filter ∉ terms.flatMap Choice.items := by
  have each : (permitted.flags terms).allowsType = true ↔
      ∀ term ∈ terms, (permitted.typeLegal = true ∨ term.filter? = none) ∧
        term.innerTypesLegal = true := by
    change ((permitted.forbiddenFilter? terms).isNone &&
      terms.all Choice.innerTypesLegal) = true ↔ _
    rw [Bool.and_eq_true, Option.isNone_iff_eq_none, List.all_eq_true, forbiddenFilter?]
    cases permitted.typeLegal <;> simp [List.findSome?_eq_none_iff, forall_and]
  have shared :
      (∀ term ∈ terms, permitted.typeLegal = true ∨ ∀ filter, .types filter ∉ term.items) ↔
      permitted.typeLegal = true ∨ ∀ filter, .types filter ∉ terms.flatMap Choice.items := by
    cases permitted.typeLegal <;> simp only [List.mem_flatMap] <;> grind
  rw [each, ← shared]
  exact forall₂_congr fun term mem => (h term mem).types

/-- The flags of a group tell of its items what they should if its terms bring what they should. -/
lemma judges_group (operator : Operator) : permitted.Judges (permitted.group operator terms) where
  allowsList := allowsList_flags_iff h
  allowsAll := allowsAll_flags_iff h
  allowsType := allowsType_flags_iff h
  isValid := by
    change (terms.all Choice.innerValid && (permitted.flags terms).allowsType &&
      ((permitted.flags terms).allowsList || (permitted.flags terms).allowsAll)) = true ↔ _
    rw [Bool.and_eq_true, Bool.and_eq_true, Bool.or_eq_true, List.all_eq_true,
      allowsList_flags_iff h, allowsAll_flags_iff h, allowsType_flags_iff h]
    constructor
    · rintro ⟨⟨valid, filters⟩, wildcard⟩
      refine ⟨⟨wildcard, filters⟩, fun name negated body mem => ?_⟩
      obtain ⟨term, isTerm, mem⟩ := List.mem_flatMap.1 mem
      exact (h term isTerm).bodiesValid (valid term isTerm) name negated body mem
    · rintro ⟨allow, bodies⟩
      refine ⟨⟨fun term isTerm => ?_, allow.filters⟩, allow.wildcard⟩
      have sub : term.items ⊆ terms.flatMap Choice.items :=
        fun item mem => List.mem_flatMap.2 ⟨term, isTerm, mem⟩
      apply (h term isTerm).innerValid
      · refine ⟨?_, allow.filters.imp_right fun free filter mem => free filter (sub mem)⟩
        rcases allow.wildcard with absent | ⟨sole, legal⟩
        · exact .inl fun mem => absent (sub mem)
        · obtain rfl := (items_eq_all_iff h).1 sole
          cases List.mem_singleton.1 isTerm
          exact .inr ⟨rfl, legal⟩
      · exact fun name negated body mem => bodies name negated body (sub mem)

end

end Permissions

/-! ## Well-formed groups -/

section

variable {reader : Reader} {scope : Scope} {sound : WellFormed.Bodies}

/-- An item is the only one of its own. -/
lemma WellFormed.Item.items_eq {item : Choice} (h : WellFormed.Item reader sound scope item) :
    item.items = [item] := by
  cases h <;> rfl

/-- Items that are joined in a group are the items of that group. -/
lemma items_of_wellFormed {group : Group}
    (h : ∀ item ∈ group.terms, WellFormed.Item reader sound scope item) :
    group.items = group.terms := by
  have single : ∀ item ∈ group.terms, item.items = [item] := fun item mem => (h item mem).items_eq
  rw [Grouping.items, List.flatMap_congr single, List.flatMap_singleton']

/-- An item is judged as a term of any group. -/
lemma judgesTerm_of_item {item : Choice} (h : WellFormed.Item reader sound scope item)
    (permitted : Permissions) : permitted.JudgesTerm item where
  some_item := by
    rw [h.items_eq]
    exact List.cons_ne_nil item []
  sole := by
    rw [h.items_eq]
    exact fun sole => (List.cons.inj sole).1
  bringsAll := by
    cases h <;> simp [Choice.bringsAll, Choice.items]
  types := by
    cases h <;> simp [Choice.filter?, Choice.innerTypesLegal, Choice.items]
  bodiesValid := by
    rw [h.items_eq]
    intro valid name negated body mem
    cases List.mem_singleton.1 mem
    exact valid
  innerValid := by
    rw [h.items_eq]
    intro _ bodies
    cases h with
    | @qualifier negated qualifier body =>
      exact bodies qualifier.name negated body (List.mem_singleton_self _)
    | _ => rfl

/-- The flags of a group of items tell what they should. -/
lemma judges_of_items {group : Group}
    (items : ∀ item ∈ group.terms, WellFormed.Item reader sound scope item)
    (flags : group.flags = scope.permitted.flags group.terms) : scope.permitted.Judges group := by
  obtain ⟨operator, choices, _⟩ := group
  obtain rfl : _ = scope.permitted.flags choices := flags
  exact Permissions.judges_group (fun item mem => judgesTerm_of_item (items item mem) _) operator

/-- What a group brings to the flags of the level around it. -/
lemma Permissions.Judges.judgesTerm {permitted : Permissions} {group : Group}
    (h : permitted.Judges group) (items_eq : group.items = group.terms)
    (several : 2 ≤ group.terms.length) : permitted.JudgesTerm (.group group) := by
  have here : (Choice.group group).items = group.items := items_eq.symm
  refine ⟨?_, ?_, ?_, ?_, ?_, ?_⟩
  · rw [here, items_eq]
    rintro empty
    rw [empty] at several
    cases several
  · -- `ALL` cannot be the only item, as there are several
    rw [here, items_eq]
    intro sole
    rw [sole] at several
    cases several with
    | step several => cases several
  · rw [here, ← not_iff_not, ← h.allowsList]
    simp [Choice.bringsAll]
  · rw [here, ← h.allowsType]
    simp [Choice.filter?, Choice.innerTypesLegal]
  · rw [here]
    exact fun valid => (h.isValid.1 valid).2
  · rw [here]
    exact fun allow bodies => h.isValid.2 ⟨allow, bodies⟩

/-- A term is judged by the permissions of its scope. -/
lemma judgesTerm_of_term {term : Choice} (h : WellFormed.Term reader sound scope term) :
    scope.permitted.JudgesTerm term := by
  cases h with
  | item h => exact judgesTerm_of_item h scope.permitted
  | @group group isAnd several items flags =>
    exact (judges_of_items items flags).judgesTerm (items_of_wellFormed items) several

/-- A level is judged by the permissions of its scope. -/
lemma judges_of_level {group : Group} (h : WellFormed.Level reader sound scope group) :
    scope.permitted.Judges group := by
  obtain ⟨operator, terms, _⟩ := group
  obtain ⟨isOr, _, terms_wellFormed, flags⟩ := h
  obtain rfl : operator = .or := isOr
  obtain rfl : _ = scope.permitted.flags terms := flags
  exact Permissions.judges_group (fun term mem => judgesTerm_of_term (terms_wellFormed term mem)) _

/-- The items of a level are well formed. -/
lemma WellFormed.Level.items {group : Group} (h : WellFormed.Level reader sound scope group) :
    ∀ item ∈ group.items, WellFormed.Item reader sound scope item := by
  intro item mem
  obtain ⟨term, isTerm, mem⟩ := List.mem_flatMap.1 mem
  cases h.terms term isTerm with
  | item wellFormed =>
    rw [wellFormed.items_eq] at mem
    cases List.mem_singleton.1 mem
    exact wellFormed
  | group _ _ items _ => exact items item mem

/-- The body of a well-formed item is well formed in the scope of its qualifier. -/
lemma WellFormed.Item.sound_body {name : String} {negated : Bool} {body : Group}
    (h : WellFormed.Item reader sound scope (.qualifier name negated body)) :
    ∃ qualifier ∈ reader.config.qualifiers.qualifiers, qualifier.name = name ∧
      sound (scope.within qualifier) body := by
  cases h with
  | qualifier permits sound => exact ⟨_, permits.registered, rfl, sound⟩

end

/-! ## Levels nested in each other -/

/-- Qualifiers of a table that bear the same name are the same. -/
lemma QualifierTable.eq_of_name_eq {table : QualifierTable} {a b : Qualifier}
    (memA : a ∈ table.qualifiers) (memB : b ∈ table.qualifiers) (eq : a.name = b.name) : a = b := by
  have foundA : table.find? b.name = some a := find?_eq_some_iff.2 ⟨memA, eq⟩
  have foundB : table.find? b.name = some b := find?_eq_some_iff.2 ⟨memB, rfl⟩
  exact Option.some.inj (foundA.symm.trans foundB)

/-- Flags that tell of the items and their bodies tell of all levels nested in the group, if those
of the bodies do. -/
lemma Permissions.Judges.flagsTell {config : Config} {permitted : Permissions} {group : Group}
    (h : permitted.Judges group)
    (bodies : ∀ name negated body, .qualifier name negated body ∈ group.items →
      ∃ qualifier ∈ config.qualifiers.qualifiers, qualifier.name = name ∧
        config.FlagsTell ⟨qualifier.allLegal, qualifier.typeLegal⟩ body) :
    config.FlagsTell permitted group where
  toDescribes := h.toDescribes
  isValid := by
    rw [h.isValid]
    constructor
    · rintro ⟨allow, valid⟩ inner level nested
      cases nested with
      | self => exact allow
      | @body _ _ negated body _ _ qualifier registered mem deeper =>
        obtain ⟨same, isSame, name_eq, tell⟩ := bodies _ _ _ mem
        obtain rfl := QualifierTable.eq_of_name_eq isSame registered name_eq
        exact tell.isValid.1 (valid _ _ _ mem) inner level deeper
    · intro all
      refine ⟨all permitted group .self, fun name negated body mem => ?_⟩
      obtain ⟨qualifier, registered, rfl, tell⟩ := bodies name negated body mem
      exact tell.isValid.2 fun inner level deeper => all inner level (.body registered mem deeper)

section

variable {reader : Reader} {scope : Scope} {sound : WellFormed.Bodies}
variable (h : ∀ scope body, sound scope body → reader.config.FlagsTell scope.permitted body)

include h

/-- The flags of a group of items tell of all levels in it. -/
lemma flagsTell_of_items {group : Group}
    (items : ∀ item ∈ group.terms, WellFormed.Item reader sound scope item)
    (flags : group.flags = scope.permitted.flags group.terms) :
    reader.config.FlagsTell scope.permitted group := by
  apply (judges_of_items items flags).flagsTell
  intro name negated body mem
  rw [items_of_wellFormed items] at mem
  obtain ⟨qualifier, registered, name_eq, isSound⟩ := (items _ mem).sound_body
  exact ⟨qualifier, registered, name_eq, h _ _ isSound⟩

/-- The flags of a level tell of it and of all levels below. -/
lemma flagsTell_of_level {group : Group} (level : WellFormed.Level reader sound scope group) :
    reader.config.FlagsTell scope.permitted group := by
  apply (judges_of_level level).flagsTell
  intro name negated body mem
  obtain ⟨qualifier, registered, name_eq, isSound⟩ := (level.items _ mem).sound_body
  exact ⟨qualifier, registered, name_eq, h _ _ isSound⟩

end

/-- The flags of a well-formed group tell of all levels in it. -/
lemma Reader.WellFormed.flagsTell {reader : Reader} {room : Nat} {scope : Scope} {group : Group}
    (h : reader.WellFormed room scope group) :
    reader.config.FlagsTell scope.permitted group := by
  induction room generalizing scope group with
  | zero => exact flagsTell_of_level (fun _ _ => False.elim) h
  | succ room ih =>
    have level : WellFormed.Level reader (reader.WellFormed room) scope group := h
    refine flagsTell_of_level ?_ level
    intro scope body
    exact ih

/-- A well-formed group is a level whose bodies are well-formed groups. -/
lemma Reader.WellFormed.level {reader : Reader} {room : Nat} {scope : Scope} {group : Group}
    (h : reader.WellFormed room scope group) :
    ∃ sound, WellFormed.Level reader sound scope group ∧
      ∀ scope body, sound scope body → ∃ room, reader.WellFormed room scope body := by
  cases room with
  | zero => exact ⟨_, h, fun _ _ => False.elim⟩
  | succ room => exact ⟨_, h, fun _ _ wellFormed => ⟨room, wellFormed⟩⟩

/-- What is nested in a well-formed group is well formed where it stands. -/
lemma Reader.WellFormed.nested {reader : Reader} {permitted inner : Permissions}
    {group level : Group} (nested : reader.config.Nested permitted group inner level)
    {room : Nat} {scope : Scope} (here : scope.permitted = permitted)
    (h : reader.WellFormed room scope group) :
    ∃ room scope, scope.permitted = inner ∧ reader.WellFormed room scope level := by
  induction nested generalizing room scope with
  | self => exact ⟨room, scope, here, h⟩
  | @body permitted group negated body inner level qualifier registered mem _ ih =>
    obtain ⟨sound, isLevel, deeper⟩ := h.level
    -- the body was read in the scope of the qualifier by which it is nested here
    obtain ⟨same, isSame, name_eq, isSound⟩ := (isLevel.items _ mem).sound_body
    obtain rfl := QualifierTable.eq_of_name_eq isSame registered name_eq
    obtain ⟨room, wellFormed⟩ := deeper _ _ isSound
    exact ih rfl wellFormed

/-- The groups among the terms of a well-formed group have flags that tell of all levels in them. No
such group is nothing but `ALL`. -/
lemma Reader.WellFormed.flagsTell_term {reader : Reader} {room : Nat} {scope : Scope}
    {group inner : Group} (h : reader.WellFormed room scope group)
    (mem : .group inner ∈ group.terms) :
    reader.config.FlagsTell scope.permitted inner ∧ inner.flags.allowsAll = false := by
  obtain ⟨sound, isLevel, deeper⟩ := h.level
  cases isLevel.terms _ mem with
  | item wellFormed => cases wellFormed
  | group isAnd several items flags =>
    have tell : reader.config.FlagsTell scope.permitted inner := by
      refine flagsTell_of_items ?_ items flags
      intro scope body isSound
      obtain ⟨room, wellFormed⟩ := deeper scope body isSound
      exact wellFormed.flagsTell
    refine ⟨tell, Bool.eq_false_iff.2 fun allowed => ?_⟩
    have sole := (tell.allowsAll.1 allowed).1
    rw [items_of_wellFormed items] at sole
    rw [sole] at several
    cases several with
    | step several => cases several

/-- The bodies of a well-formed group belong to qualifiers that are registered. -/
lemma Reader.WellFormed.registered {reader : Reader} {room : Nat} {scope : Scope} {group : Group}
    (h : reader.WellFormed room scope group) {name : String} {negated : Bool} {body : Group}
    (mem : .qualifier name negated body ∈ group.items) :
    ∃ qualifier ∈ reader.config.qualifiers.qualifiers, qualifier.name = name := by
  obtain ⟨sound, isLevel, _⟩ := h.level
  obtain ⟨qualifier, registered, name_eq, _⟩ := (isLevel.items _ mem).sound_body
  exact ⟨qualifier, registered, name_eq⟩

/-- The flags of every level of an expression that is read leniently, and of every group in a level,
tell of the items and of all levels nested there. No body is left out, since each belongs to a
registered qualifier. If `ALL` shares a level with another item, the expression is not valid, and it
is rejected for a rule by a strict reader. -/
theorem flags_tell_of_readExpression (reader : Reader) (text : List Char) (group : Group)
    (read : (reader.readExpression .lenient text).result = .ok group) :
    (∀ permitted level, reader.config.Nested reader.config.scope.permitted group permitted level →
      reader.config.FlagsTell permitted level ∧
        (∀ inner, .group inner ∈ level.terms →
          reader.config.FlagsTell permitted inner ∧ inner.flags.allowsAll = false) ∧
        ∀ name negated body, .qualifier name negated body ∈ level.items →
          ∃ qualifier ∈ reader.config.qualifiers.qualifiers, qualifier.name = name) ∧
    ∀ permitted level, reader.config.Nested reader.config.scope.permitted group permitted level →
      .all ∈ level.items → level.items ≠ [.all] →
        group.flags.isValid = false ∧
        ∃ rejection : Rejection, rejection.IsIllegality ∧
          (reader.readExpression .strict text).result = .error rejection := by
  have wellFormed : reader.WellFormed nestingLimit reader.config.scope group :=
    wellFormed_of_derives ((Reader.result_readWithin_eq_ok_iff ..).1 read)
  constructor
  · intro permitted level nested
    obtain ⟨room, scope, rfl, levelWellFormed⟩ := Reader.WellFormed.nested nested rfl wellFormed
    refine ⟨levelWellFormed.flagsTell, ?_, ?_⟩
    · exact fun inner mem => levelWellFormed.flagsTell_term mem
    · exact fun name negated body mem => levelWellFormed.registered mem
  · intro permitted level nested mem others
    have isInvalid : ¬ group.flags.isValid = true := by
      intro isValid
      have allow := wellFormed.flagsTell.isValid.1 isValid permitted level nested
      rcases allow.wildcard with absent | ⟨sole, -⟩
      · exact absent mem
      · exact others sole
    have restricts := reader.restricts_readExpression text
    exact ⟨Bool.eq_false_iff.2 isInvalid, restricts.of_invalid read isInvalid⟩

/-- Skills, by name or by their ranks. Types are filtered outside of the brackets only. -/
def skills : Config where
  subToken := "SKILL"
  targetClass := "Skill"
  qualifiers :=
    ⟨[{ name := "RANKS", allowNegation := true, typeLegal := false }], by decide, by decide⟩

/-- Climbing with strength, or other skills by their ranks. -/
def climbingText : List Char := "Climb,TYPE=Str|!RANKS[ALL|Swim]".toList

/-- The body of `RANKS[ALL|Swim]`. -/
def ranks : Group :=
  ⟨.or, [.all, .reference ⟨"Skill", "Swim"⟩], ⟨false, true, false, false⟩⟩

/-- What a lenient reader makes of `climbingText`. -/
def climbing : Group :=
  ⟨.or,
    [.group
      ⟨.and, [.reference ⟨"Skill", "Climb"⟩, .types ⟨false, ⟨["Str"], by decide⟩⟩],
        ⟨false, true, true, true⟩⟩,
     .qualifier "RANKS" true ranks],
    ⟨false, true, true, false⟩⟩

/-- `ALL` that shares a body with a reference spoils the expression around the body. -/
theorem flags_tell_of_ranks :
    (Reader.readExpression ⟨skills, none⟩ .lenient climbingText).result = .ok climbing ∧
    skills.Nested skills.scope.permitted climbing ⟨true, false⟩ ranks ∧
    skills.FlagsTell ⟨true, false⟩ ranks ∧ climbing.flags.isValid = false ∧
    ∃ rejection : Rejection, rejection.IsIllegality ∧
      (Reader.readExpression ⟨skills, none⟩ .strict climbingText).result = .error rejection := by
  have read : (Reader.readExpression ⟨skills, none⟩ .lenient climbingText).result =
      .ok climbing := by
    decide +kernel
  have mem : .qualifier "RANKS" true ranks ∈ climbing.items := by decide
  have nested : skills.Nested skills.scope.permitted climbing ⟨true, false⟩ ranks :=
    .body (List.mem_singleton_self _) mem .self
  obtain ⟨tell, spoiled⟩ := flags_tell_of_readExpression ⟨skills, none⟩ _ climbing read
  exact ⟨read, nested, (tell _ _ nested).1, spoiled _ _ nested (by decide) (by decide)⟩

end ChoiceLang
