import ChoiceLang.Proofs.Levels
import ChoiceLang.Proofs.Spelling

/-!
# Relaxation

A configuration is relaxed by permitting more in it, by asking less of references, and by adding
qualifiers. A value that was accepted before is accepted then with the same tree, flags included.
Two things have to stay as they are for that: which names stand for a qualifier without a body,
since such a name was a reference before, and what is stored in references, which is their class.

`RelaxesTo` relates what one reader finds permitted to what another one does, from permissions over
scopes and qualifiers up to configurations; going into a body keeps the relation. A derivation of a
valid group is carried over rule by rule. Validity is needed throughout: the flags of a group that
breaks a rule change when the rule is lifted, those of a valid group do not.
-/

namespace ChoiceLang

open Expression

/-! ## Permitting more -/

/-- What is permitted to a group is permitted to another one. -/
structure Permissions.RelaxesTo (permitted more : Permissions) : Prop where
  allLegal : permitted.allLegal = true → more.allLegal = true
  typeLegal : permitted.typeLegal = true → more.typeLegal = true

/-- More is permitted in a scope, of the same class. -/
structure Scope.RelaxesTo (scope more : Scope) : Prop where
  className : more.className = scope.className
  permitted : scope.permitted.RelaxesTo more.permitted

/-- More is permitted to a qualifier and in its body. -/
structure Qualifier.RelaxesTo (qualifier more : Qualifier) : Prop where
  name : more.name = qualifier.name
  body : more.body = qualifier.body
  targetClass : more.targetClass = qualifier.targetClass
  allowNegation : qualifier.allowNegation = true → more.allowNegation = true
  allLegal : qualifier.allLegal = true → more.allLegal = true
  typeLegal : qualifier.typeLegal = true → more.typeLegal = true

/-- More is permitted by a configuration, and the same names stand alone for qualifiers. -/
structure Config.RelaxesTo (config more : Config) : Prop where
  subToken : more.subToken = config.subToken
  title : more.title = config.title
  targetClass : more.targetClass = config.targetClass
  typeLegal : config.policy.typeLegal = true → more.policy.typeLegal = true
  allLegal : config.policy.allLegal = true → more.policy.allLegal = true
  allowsQualifier : config.policy.allowsQualifier = true → more.policy.allowsQualifier = true
  requiresLiteral : more.policy.requiresLiteral = true → config.policy.requiresLiteral = true
  qualifiers : ∀ qualifier ∈ config.qualifiers.qualifiers,
    ∃ relaxed ∈ more.qualifiers.qualifiers, qualifier.RelaxesTo relaxed
  bareNames : ∀ relaxed ∈ more.qualifiers.qualifiers, more.policy.allowsQualifier = true →
    relaxed.body = .optional →
    config.policy.allowsQualifier = true ∧ relaxed.name ∈ config.qualifiers.names

/-- Going into the bodies of two qualifiers keeps the relation. -/
lemma Scope.RelaxesTo.within {scope more : Scope} {qualifier relaxed : Qualifier}
    (h : scope.RelaxesTo more) (hq : qualifier.RelaxesTo relaxed) :
    (scope.within qualifier).RelaxesTo (more.within relaxed) where
  className := by
    show relaxed.targetClass.getD more.className = qualifier.targetClass.getD scope.className
    rw [hq.targetClass, h.className]
  permitted := ⟨hq.allLegal, hq.typeLegal⟩

/-- The whole text stands where more is permitted. -/
lemma Config.RelaxesTo.scope {config more : Config} (h : config.RelaxesTo more) :
    config.scope.RelaxesTo more.scope where
  className := h.targetClass
  permitted := ⟨h.allLegal, h.typeLegal⟩

/-! ## Flags of valid groups -/

namespace Permissions

variable {permitted more : Permissions} {terms : List Choice}

/-- In a valid group all groups are valid that stand in its terms. -/
lemma innerValid_of_isValid (valid : (permitted.flags terms).isValid = true) :
    ∀ term ∈ terms, term.innerValid = true := by
  have inner : terms.all Choice.innerValid = true :=
    (Bool.and_eq_true_iff.1 (Bool.and_eq_true_iff.1 valid).1).1
  exact List.all_eq_true.1 inner

/-- The flags of a valid group do not change when more is permitted. -/
lemma RelaxesTo.flags_eq (h : permitted.RelaxesTo more)
    (valid : (permitted.flags terms).isValid = true) :
    more.flags terms = permitted.flags terms := by
  have both := Bool.and_eq_true_iff.1 valid
  have typesLegal : (permitted.flags terms).allowsType = true := (Bool.and_eq_true_iff.1 both.1).2
  have listOrAll : (permitted.flags terms).allowsList = true ∨
      (permitted.flags terms).allowsAll = true := (Bool.or_eq_true_iff).1 both.2
  have sameAll : (more.flags terms).allowsAll = (permitted.flags terms).allowsAll := by
    show (decide (terms = [.all]) && more.allLegal) =
      (decide (terms = [.all]) && permitted.allLegal)
    by_cases sole : terms = [.all]
    · -- `ALL` alone is in a valid group only if it was permitted before
      subst sole
      have legal : permitted.allLegal = true := by
        rcases listOrAll with noAll | legal
        · cases noAll
        · exact legal
      rw [legal, h.allLegal legal]
    · simp [sole]
  have sameType : (more.flags terms).allowsType = (permitted.flags terms).allowsType := by
    obtain ⟨noFilter, inner⟩ := Bool.and_eq_true_iff.1 typesLegal
    have noFilter' : (more.forbiddenFilter? terms).isNone = true := by
      rw [forbiddenFilter?]
      split
      · rfl
      · next illegal =>
        have illegal : ¬ permitted.typeLegal = true := fun legal => illegal (h.typeLegal legal)
        rwa [forbiddenFilter?, if_neg illegal] at noFilter
    rw [typesLegal]
    exact Bool.and_eq_true_iff.2 ⟨noFilter', inner⟩
  have sameValid : (more.flags terms).isValid = (permitted.flags terms).isValid := by
    show (terms.all Choice.innerValid && (more.flags terms).allowsType &&
      ((more.flags terms).allowsList || (more.flags terms).allowsAll)) = _
    rw [sameType, sameAll]
    rfl
  show Flags.mk (more.flags terms).allowsAll (more.flags terms).allowsType
    (more.flags terms).allowsList (more.flags terms).isValid = _
  rw [sameAll, sameType, sameValid]
  rfl

end Permissions

/-! ## Derivations -/

namespace Config.RelaxesTo

variable {config more : Config} {oracle : Option Oracle}

section

variable (h : config.RelaxesTo more)

include h

/-- What is permitted of a qualifier is permitted of the one it is relaxed to. -/
lemma permits {qualifier : Qualifier} {negated : Bool}
    (permits : config.Permits qualifier negated) :
    ∃ relaxed, qualifier.RelaxesTo relaxed ∧ more.Permits relaxed negated := by
  obtain ⟨relaxed, registered, hq⟩ := h.qualifiers qualifier permits.registered
  exact ⟨relaxed, hq, h.allowsQualifier permits.allowed, registered,
    fun negated => hq.allowNegation (permits.negation negated)⟩

/-- No name stands for a qualifier that was a reference before. -/
lemma not_standsBare {name : List Char}
    (notBare : ∀ qualifier, ¬ config.StandsBare qualifier name) :
    ∀ relaxed, ¬ more.StandsBare relaxed name := by
  rintro relaxed ⟨allowed, registered, optional, rfl⟩
  obtain ⟨allowedBefore, known⟩ := h.bareNames relaxed registered allowed optional
  obtain ⟨qualifier, registeredBefore, sameName⟩ := List.mem_map.1 known
  -- the qualifier of that name has been carried over to the one that stands bare
  obtain ⟨same, registeredSame, hq⟩ := h.qualifiers qualifier registeredBefore
  have isSame : same = relaxed :=
    QualifierTable.eq_of_name_eq registeredSame registered (hq.name.trans sameName)
  have optionalBefore : qualifier.body = .optional := by
    rw [← hq.body, isSame, optional]
  exact notBare qualifier ⟨allowedBefore, registeredBefore, optionalBefore, by rw [sameName]⟩

/-- References that were accepted are accepted still. -/
lemma accepts {reference : Reference}
    (accepted : Reader.Accepts ⟨config, oracle⟩ reference) :
    Reader.Accepts ⟨more, oracle⟩ reference :=
  fun required => accepted (h.requiresLiteral required)

variable {bodies moreBodies : Grammar.Bodies}
variable (carry : ∀ scope wider text body, Scope.RelaxesTo scope wider → bodies scope text body →
  body.flags.isValid = true → moreBodies wider text body)

include carry

/-- An item is carried over with the same choice. -/
lemma item {scope wider : Scope} {item : List Char} {choice : Choice} (hs : scope.RelaxesTo wider)
    (derived : Grammar.Item ⟨config, oracle⟩ bodies scope item choice)
    (valid : choice.innerValid = true) :
    Grammar.Item ⟨more, oracle⟩ moreBodies wider item choice := by
  cases derived with
  | all => exact .all
  | types isStart someName areNames => exact .types isStart someName areNames
  | qualifier permits someText balanced derived =>
    obtain ⟨relaxed, hq, permitsMore⟩ := h.permits permits
    rw [← hq.name]
    exact .qualifier permitsMore someText balanced (carry _ _ _ _ (hs.within hq) derived valid)
  | bareQualifier permits optional =>
    obtain ⟨relaxed, hq, permitsMore⟩ := h.permits permits
    rw [← hq.name]
    exact .bareQualifier permitsMore (hq.body.trans optional)
  | reference notAll notFilter noBracket unmarked notBare accepted =>
    rw [← hs.className] at accepted ⊢
    exact .reference notAll notFilter noBracket unmarked (h.not_standsBare notBare)
      (h.accepts accepted)

/-- A segment is carried over with the same term, whose flags do not change. -/
lemma segment {scope wider : Scope} {segment : List Char} {term : Choice}
    (hs : scope.RelaxesTo wider)
    (derived : Grammar.Segment ⟨config, oracle⟩ bodies scope segment term)
    (valid : term.innerValid = true) :
    Grammar.Segment ⟨more, oracle⟩ moreBodies wider segment term := by
  cases derived with
  | item split derived => exact .item split (h.item carry hs derived valid)
  | @group items choices split several derived =>
    have isValid : (scope.permitted.flags choices).isValid = true := valid
    have choicesValid := Permissions.innerValid_of_isValid isValid
    have carried : List.Forall₂ (Grammar.Item ⟨more, oracle⟩ moreBodies wider) items choices :=
      derived.imp_of_mem_right fun item choice mem derived =>
        h.item carry hs derived (choicesValid choice mem)
    rw [Permissions.group, ← hs.permitted.flags_eq isValid]
    exact .group split several carried

/-- A level is carried over with the same group, whose flags do not change. -/
lemma level {scope wider : Scope} {text : List Char} {group : Group} (hs : scope.RelaxesTo wider)
    (derived : Grammar.Level ⟨config, oracle⟩ bodies scope text group)
    (valid : group.flags.isValid = true) :
    Grammar.Level ⟨more, oracle⟩ moreBodies wider text group := by
  cases derived with
  | @segments segments terms split derived =>
    have isValid : (scope.permitted.flags terms).isValid = true := valid
    have termsValid := Permissions.innerValid_of_isValid isValid
    have carried : List.Forall₂ (Grammar.Segment ⟨more, oracle⟩ moreBodies wider) segments terms :=
      derived.imp_of_mem_right fun segment term mem derived =>
        h.segment carry hs derived (termsValid term mem)
    rw [Permissions.group, ← hs.permitted.flags_eq isValid]
    exact .segments split carried

end

/-- What is derived as a valid group is derived as the same group where more is permitted, with any
room for bodies. -/
lemma derives (h : config.RelaxesTo more) {room : Nat} {scope wider : Scope} {text : List Char}
    {group : Group} (hs : scope.RelaxesTo wider)
    (derived : Reader.Derives ⟨config, oracle⟩ room scope text group)
    (valid : group.flags.isValid = true) :
    Reader.Derives ⟨more, oracle⟩ room wider text group := by
  induction room generalizing scope wider text group with
  | zero =>
    exact h.level (fun _ _ _ _ _ impossible _ => impossible) hs derived valid
  | succ room ih =>
    have level : Grammar.Level ⟨config, oracle⟩ (Reader.Derives ⟨config, oracle⟩ room) scope text
        group := derived
    refine h.level ?_ hs level valid
    intro scope wider text body
    exact ih

/-- What a strict reader accepts is accepted as the same group where more is permitted. -/
lemma readExpression (h : config.RelaxesTo more) {text : List Char} {group : Group}
    (read : (Reader.readExpression ⟨config, oracle⟩ .strict text).result = .ok group) :
    (Reader.readExpression ⟨more, oracle⟩ .strict text).result = .ok group := by
  obtain ⟨lenient, valid⟩ := Reader.readExpression_strict_eq_ok_iff.1 read
  have derived := (Reader.result_readWithin_eq_ok_iff ..).1 lenient
  have carried := h.derives h.scope derived valid
  have lenientMore := (Reader.result_readWithin_eq_ok_iff ..).2 carried
  exact Reader.readExpression_strict_eq_ok_iff.2 ⟨lenientMore, valid⟩

/-- The expression is found in the same place of a value. -/
lemma expressionOf (h : config.RelaxesTo more) (value : String) :
    more.expressionOf value = config.expressionOf value := by
  unfold Config.expressionOf
  rw [h.subToken]

end Config.RelaxesTo

/-- A value that is accepted under a configuration is accepted under every one that permits more, as
the same selection. -/
theorem readValue_of_relaxesTo {config more : Config} (h : config.RelaxesTo more)
    (oracle : Option Oracle) (value : String) (selection : Selection)
    (read : (Reader.readValue ⟨config, oracle⟩ value).result = .ok selection) :
    (Reader.readValue ⟨more, oracle⟩ value).result = .ok selection := by
  obtain ⟨text, root, found, accepted, rfl⟩ := Reader.result_readValue_eq_ok_iff.1 read
  refine Reader.result_readValue_eq_ok_iff.2 ⟨text, root, ?_, h.readExpression accepted, ?_⟩
  · exact (h.expressionOf value).trans found
  · show Selection.mk config.subToken config.title root = ⟨more.subToken, more.title, root⟩
    rw [h.subToken, h.title]

/-- Spells, which have to exist, or those of a school. -/
def spells : Config where
  subToken := "SPELL"
  targetClass := "Spell"
  policy := { typeLegal := false, requiresLiteral := true }
  qualifiers :=
    ⟨[{ name := "ANY", body := .optional },
      { name := "SCHOOL", typeLegal := false, targetClass := some "School" }],
     by decide, by decide⟩

/-- Spells that need not exist, by type and rank too, or all but those of a school. -/
def moreSpells : Config where
  subToken := "SPELL"
  targetClass := "Spell"
  qualifiers :=
    ⟨[{ name := "RANK" },
      { name := "SCHOOL", allowNegation := true, targetClass := some "School" },
      { name := "ANY", body := .optional }],
     by decide, by decide⟩

/-- The selection of `SPELL|ANY,Light|SCHOOL[Fire]`. -/
def lightOrFire : Selection :=
  ⟨"SPELL", "SPELL",
    ⟨.or,
      [.group
        ⟨.and, [.bareQualifier "ANY" false, .reference ⟨"Spell", "Light"⟩],
          ⟨false, true, true, true⟩⟩,
       .qualifier "SCHOOL" false
        ⟨.or, [.reference ⟨"School", "Fire"⟩], ⟨false, true, true, true⟩⟩],
      ⟨false, true, true, true⟩⟩⟩

/-- Light and fire are still read when more spells are permitted. -/
theorem readValue_moreSpells :
    spells.RelaxesTo moreSpells ∧
    (Reader.readValue ⟨spells, some fun _ => true⟩ "SPELL|ANY,Light|SCHOOL[Fire]").result =
      .ok lightOrFire ∧
    (Reader.readValue ⟨moreSpells, some fun _ => true⟩ "SPELL|ANY,Light|SCHOOL[Fire]").result =
      .ok lightOrFire := by
  have relaxes : spells.RelaxesTo moreSpells :=
    { subToken := rfl
      title := rfl
      targetClass := rfl
      typeLegal := by decide
      allLegal := by decide
      allowsQualifier := by decide
      requiresLiteral := by decide
      qualifiers := by
        refine List.forall_mem_cons.2 ⟨?_, List.forall_mem_singleton.2 ?_⟩
        · exact ⟨{ name := "ANY", body := .optional }, by decide, rfl, rfl, rfl, id, id, id⟩
        · exact ⟨{ name := "SCHOOL", allowNegation := true, targetClass := some "School" },
            by decide, rfl, rfl, rfl, by decide, by decide, by decide⟩
      bareNames := by decide }
  have read : (Reader.readValue ⟨spells, some fun _ => true⟩
      "SPELL|ANY,Light|SCHOOL[Fire]").result = .ok lightOrFire := by
    decide +kernel
  exact ⟨relaxes, read, readValue_of_relaxesTo relaxes _ _ _ read⟩

end ChoiceLang
