import ChoiceLang.Proofs.Listings
import ChoiceLang.Proofs.Reprinting

/-!
# Declaring what is reported

A check reports references that no list declares. The name of a reference is some text of the value
it was read from, without brackets and separators, and stands on a line as it is, except for white
space at its end: lines are trimmed, so that no list declares a name that ends in white space. All
other references that are reported can be declared on lines of their own, and are not reported
again.
-/

namespace ChoiceLang

open Expression

/-! ## References of values -/

/-- The classes that references are looked up in. -/
def Config.targetClasses (config : Config) : List String :=
  config.targetClass :: config.qualifiers.qualifiers.filterMap Qualifier.targetClass

/-- What a reference in a scope can be: its class is that of the scope or of a qualifier. -/
def Config.CanRefer (config : Config) (scope : Scope) (reference : Reference) : Prop :=
  reference.className = scope.className ∨
    ∃ qualifier ∈ config.qualifiers.qualifiers, qualifier.targetClass = some reference.className

section

variable {reader : Reader} {sound : WellFormed.Bodies} {scope : Scope}

section

variable (bodiesRefer : ∀ scope body, sound scope body → ∀ reference ∈ body.references,
  reader.config.CanRefer scope reference)

include bodiesRefer

/-- The references of an item can stand in its scope. -/
lemma canRefer_of_item {choice : Choice} (wellFormed : WellFormed.Item reader sound scope choice) :
    ∀ reference ∈ choice.references, reader.config.CanRefer scope reference := by
  intro reference mem
  cases wellFormed with
  | all => cases mem
  | types => cases mem
  | bareQualifier => cases mem
  | reference =>
    rw [List.mem_singleton.1 mem]
    exact .inl rfl
  | @qualifier negated qualifier body permits isSound =>
    have inBody : reference ∈ body.references := by
      rw [Grouping.references, ← Choice.referencesOf_eq_flatMap]
      exact mem
    -- a body keeps the class around it unless its qualifier names another
    rcases bodiesRefer _ _ isSound reference inBody with here | named
    · cases target : qualifier.targetClass with
      | none =>
        rw [target] at here
        exact .inl here
      | some className =>
        rw [target] at here
        exact .inr ⟨qualifier, permits.registered, target.trans (congrArg some here.symm)⟩
    · exact .inr named

/-- The references of a level can stand in its scope. -/
lemma canRefer_of_level {group : Group} (level : WellFormed.Level reader sound scope group) :
    ∀ reference ∈ group.references, reader.config.CanRefer scope reference := by
  intro reference mem
  obtain ⟨term, inGroup, mem⟩ := List.mem_flatMap.1 mem
  cases level.terms term inGroup with
  | item wellFormed => exact canRefer_of_item bodiesRefer wellFormed reference mem
  | group _ _ items _ =>
    rw [Choice.references, Choice.referencesOf_eq_flatMap] at mem
    obtain ⟨item, inTerm, mem⟩ := List.mem_flatMap.1 mem
    exact canRefer_of_item bodiesRefer (items item inTerm) reference mem

end

/-- By induction on the room, the references of a tree can stand in its scope. -/
lemma Reader.WellFormed.canRefer {room : Nat} {group : Group}
    (wellFormed : reader.WellFormed room scope group) :
    ∀ reference ∈ group.references, reader.config.CanRefer scope reference := by
  induction room generalizing scope group with
  | zero => exact canRefer_of_level (fun _ _ => False.elim) wellFormed
  | succ room ih => exact canRefer_of_level (fun _ _ deeper => ih deeper) wellFormed

end

/-- The text of a choice holds the names of its references. -/
lemma Choice.name_subset_text {choice : Choice} {reference : Reference}
    (mem : reference ∈ choice.references) : reference.name.toList ⊆ choice.text := by
  have inTerms {terms : List Choice} {c : Char} (operator : Operator)
      (ih : ∀ term ∈ terms, reference ∈ term.references → reference.name.toList ⊆ term.text)
      (mem : reference ∈ referencesOf terms) (inName : c ∈ reference.name.toList) :
      c ∈ Text.joinWith operator.separator (texts terms) := by
    rw [referencesOf_eq_flatMap] at mem
    obtain ⟨term, inTerms, mem⟩ := List.mem_flatMap.1 mem
    rw [texts_eq_map]
    exact Text.subset_joinWith (List.mem_map_of_mem inTerms) (ih term inTerms mem inName)
  induction choice using induct with
  | all => cases mem
  | types => cases mem
  | bareQualifier => cases mem
  | reference other =>
    rw [List.mem_singleton.1 mem]
    exact List.Subset.refl _
  | qualifier name negated body ih =>
    intro c inName
    have inBody := inTerms body.operator ih mem inName
    rw [text]
    simp [inBody]
  | group inner ih => exact fun c inName => inTerms inner.operator ih mem inName

/-- The references of a value that is read have classes that are looked up, and names of characters
of the value, where a type filter may be spelled with another mark. -/
lemma Reader.references_of_readValue {reader : Reader} {value : String} {selection : Selection}
    (read : (reader.readValue value).result = .ok selection) :
    ∀ reference ∈ selection.references, reference.className ∈ reader.config.targetClasses ∧
      ∀ c ∈ reference.name.toList, c ∈ value.toList ∨ c = '=' := by
  obtain ⟨text, root, found, accepted, rfl⟩ := result_readValue_eq_ok_iff.1 read
  obtain ⟨lenient, -⟩ := readExpression_strict_eq_ok_iff.1 accepted
  have wellFormed := wellFormed_of_derives ((result_readWithin_eq_ok_iff ..).1 lenient)
  have root_eq := text_of_readExpression lenient
  intro reference mem
  refine ⟨?_, fun c inName => ?_⟩
  · rcases wellFormed.canRefer reference mem with here | ⟨qualifier, registered, target⟩
    · rw [here]
      exact List.mem_cons_self
    · exact List.mem_cons_of_mem _ (List.mem_filterMap.2 ⟨qualifier, registered, target⟩)
  · have inRoot : reference ∈ (Choice.group root).references := by
      rw [Choice.references, Choice.referencesOf_eq_flatMap]
      exact mem
    have inText := Choice.name_subset_text inRoot inName
    rw [Choice.text_group, root_eq] at inText
    refine (mem_of_mem_respelled inText).imp_left fun inText => ?_
    rw [Config.eq_of_expressionOf found]
    simp [inText]

/-- References need not be looked up while a value is read. -/
lemma Reader.readValue_of_not_literal {config : Config}
    (notLiteral : config.policy.requiresLiteral = false) (oracle : Option Oracle) (value : String) :
    readValue ⟨config, oracle⟩ value = config.deferring.readValue value := by
  have same : (⟨config, oracle⟩ : Reader) =
      ⟨config.withLiterals config.policy.requiresLiteral, oracle⟩ := rfl
  rw [same, notLiteral, readValue_withLiterals_false]

namespace Check

/-! ## Declared references -/

/-- A class whose objects can be declared on lines of their own. -/
structure IsClassName (className : String) : Prop where
  some_text : className ≠ ""
  no_mark : ∀ c ∈ className.toList, Text.isBlank c = false ∧ c ≠ '|' ∧ c ≠ '#'

/-- The references that a check reports, line by line. -/
def Inputs.reported (inputs : Inputs) : List Reference :=
  inputs.accepted.flatMap fun pair => inputs.unlisted pair.2

/-- The line that declares a reference. -/
def declaration (reference : Reference) : String := reference.className ++ "|" ++ reference.name

/-- A text with one more line for each of some references. -/
def declaring (text : String) (references : List Reference) : String :=
  text ++ String.join (references.map fun reference => "\n" ++ declaration reference)

/-- The name of a reference ends in white space. -/
def EndsBlank (reference : Reference) : Prop :=
  Text.trimEnd reference.name.toList ≠ reference.name.toList

instance (reference : Reference) : Decidable (EndsBlank reference) :=
  inferInstanceAs (Decidable (_ ≠ _))

section

variable {defaultClass text : String} {reference declared : Reference} {references : List Reference}

/-- What is read from the line that declares a reference. -/
def asDeclared (reference : Reference) : Reference :=
  ⟨reference.className, String.ofList (Text.trimEnd reference.name.toList)⟩

/-- A reference is declared by its class, a bar and its name. -/
lemma toList_declaration (reference : Reference) :
    (declaration reference).toList =
      reference.className.toList ++ '|' :: reference.name.toList := by
  simp [declaration]

/-- Each reference is declared behind a line feed. -/
lemma toList_declaring (text : String) (references : List Reference) :
    (declaring text references).toList = text.toList ++
      (references.map fun reference => (declaration reference).toList).flatMap ('\n' :: ·) := by
  rw [declaring, String.toList_append, String.toList_join, List.flatMap_map, List.flatMap_map]
  simp

/-- Declaring no reference leaves a text as it is. -/
lemma declaring_nil (text : String) : declaring text [] = text := by
  simp [declaring]

/-- A text declares what is read from one of its lines with content. -/
lemma exists_declaresAt_iff {text : List Char} :
    (∃ number, DeclaresAt defaultClass text number reference) ↔
      ∃ line ∈ Text.pieces '\n' text, Text.hasContent (Text.trim line) = true ∧
        reference = lineReference defaultClass (Text.trim line) := by
  have lines_eq := Text.map_text_linesWithContent text
  constructor
  · rintro ⟨number, declares⟩
    obtain ⟨line, mem, -, rfl⟩ := declaresAt_iff.1 declares
    obtain ⟨content, piece, inText, text_eq⟩ := Text.mem_linesWithContent mem
    rw [text_eq] at content ⊢
    exact ⟨piece, inText, content, rfl⟩
  · rintro ⟨piece, inText, content, rfl⟩
    have mem : Text.trim piece ∈ (Text.linesWithContent text).map Text.Line.text := by
      rw [lines_eq]
      exact List.mem_filter.2 ⟨List.mem_map_of_mem inText, content⟩
    obtain ⟨line, mem, text_eq⟩ := List.mem_map.1 mem
    exact ⟨line.number, declaresAt_iff.2 ⟨line, mem, rfl, by rw [text_eq]⟩⟩

/-- A reference that can be declared: it has a class whose objects can be, and its name is on one
line. -/
structure IsDeclarable (reference : Reference) : Prop where
  isClass : IsClassName reference.className
  oneLine : '\n' ∉ reference.name.toList

/-- The line that declares a reference has content. -/
lemma IsDeclarable.isContent (declarable : IsDeclarable reference) :
    Text.IsContent (declaration reference).toList := by
  obtain ⟨⟨some_text, no_mark⟩, oneLine⟩ := declarable
  obtain ⟨c, rest, chars⟩ : ∃ c rest, reference.className.toList = c :: rest :=
    List.exists_cons_of_ne_nil fun empty => some_text (String.toList_eq_nil_iff.1 empty)
  rw [toList_declaration]
  constructor
  · obtain ⟨notBlank, -, notComment⟩ := no_mark c (chars ▸ List.mem_cons_self)
    rw [chars]
    exact ⟨c, _, rfl, notBlank, notComment⟩
  · have notInClass : '\n' ∉ reference.className.toList := fun mem =>
      absurd (no_mark '\n' mem).1 (by decide)
    simp [notInClass, oneLine]

/-- Only white space at the end of a name is lost on a line. -/
lemma IsDeclarable.lineReference_eq (declarable : IsDeclarable reference) (defaultClass : String) :
    lineReference defaultClass (Text.trim (declaration reference).toList) =
      asDeclared reference := by
  have solid : ∀ c ∈ reference.className.toList ++ ['|'], Text.isBlank c = false := by
    intro c mem
    rcases List.mem_append.1 mem with inClass | isMark
    · exact (declarable.isClass.no_mark c inClass).1
    · rw [List.mem_singleton.1 isMark]
      decide
  have notMem : '|' ∉ reference.className.toList := fun mem =>
    (declarable.isClass.no_mark '|' mem).2.1 rfl
  rw [declarable.isContent.trim_eq, toList_declaration, List.append_cons,
    Text.trimEnd_append_of_solid solid, ← List.append_cons]
  unfold lineReference
  rw [Text.cutAt_eq_some_iff.2 ⟨rfl, notMem⟩]
  dsimp only
  rw [String.ofList_toList]
  rfl

/-- The references that are declared with further lines are those from before and those on these
lines. -/
lemma exists_declaresAt_declaring_iff (declarable : ∀ other ∈ references, IsDeclarable other) :
    (∃ number, DeclaresAt defaultClass (declaring text references).toList number reference) ↔
      (∃ number, DeclaresAt defaultClass text.toList number reference) ∨
        ∃ other ∈ references, reference = asDeclared other := by
  have oneLine : ∀ line ∈ references.map fun reference => (declaration reference).toList,
      '\n' ∉ line :=
    List.forall_mem_map.2 fun other mem => (declarable other mem).isContent.oneLine
  rw [exists_declaresAt_iff, exists_declaresAt_iff, toList_declaring,
    Text.pieces_append_lines oneLine]
  constructor
  · rintro ⟨line, mem, content, rfl⟩
    rcases List.mem_append.1 mem with before | added
    · exact .inl ⟨line, before, content, rfl⟩
    · obtain ⟨other, reported, rfl⟩ := List.mem_map.1 added
      exact .inr ⟨other, reported, (declarable other reported).lineReference_eq defaultClass⟩
  · rintro (⟨line, mem, content, rfl⟩ | ⟨other, mem, rfl⟩)
    · exact ⟨line, List.mem_append_left _ mem, content, rfl⟩
    · have isContent := (declarable other mem).isContent
      refine ⟨(declaration other).toList,
        List.mem_append_right _ (List.mem_map.2 ⟨other, mem, rfl⟩), ?_,
        ((declarable other mem).lineReference_eq defaultClass).symm⟩
      rw [isContent.trim_eq]
      exact isContent.trimEnd.hasContent

/-- A reference is read as it was unless its name ends in white space. -/
lemma asDeclared_eq_iff : asDeclared reference = reference ↔ ¬ EndsBlank reference := by
  obtain ⟨className, name⟩ := reference
  rw [EndsBlank, not_not, asDeclared, Reference.mk.injEq, and_iff_right rfl, ← String.toList_inj,
    String.toList_ofList]

/-- The name of what is read from a line does not end in white space. -/
lemma not_endsBlank_asDeclared (reference : Reference) : ¬ EndsBlank (asDeclared reference) := by
  rw [EndsBlank, not_not, asDeclared, String.toList_ofList]
  exact List.rdropWhile_idempotent ..

/-- A reference on a line of its own has a name unless that is white space. -/
lemma IsDeclarable.isComplete_iff (declarable : IsDeclarable reference) :
    (asDeclared reference).IsComplete ↔ Text.trimEnd reference.name.toList ≠ [] := by
  constructor
  · rintro ⟨-, some_name⟩ blank
    exact some_name (String.ofList_eq_empty_iff.2 blank)
  · exact fun named => ⟨declarable.isClass.some_text, fun empty =>
      named (String.ofList_eq_empty_iff.1 empty)⟩

/-- If the name of a declared reference is white space, its line is incomplete. -/
lemma exists_firstIncomplete_declaring (declarable : ∀ other ∈ references, IsDeclarable other)
    (mem : reference ∈ references) (blank : Text.trimEnd reference.name.toList = []) :
    ∃ number, FirstIncomplete defaultClass (declaring text references).toList number := by
  cases loaded : readReferences defaultClass (declaring text references) with
  | error number => exact ⟨number, readReferences_eq_error_iff.1 loaded⟩
  | ok catalogue =>
    obtain ⟨number, declares⟩ : ∃ number,
        DeclaresAt defaultClass (declaring text references).toList number (asDeclared reference) :=
      (exists_declaresAt_declaring_iff declarable).2 (.inr ⟨reference, mem, rfl⟩)
    have complete := exists_readReferences_iff.1 ⟨catalogue, loaded⟩ number _ declares
    exact absurd blank ((declarable reference mem).isComplete_iff.1 complete)

/-- A list with further references is loaded if none of their names is white space, and knows what
the list knows and what is read from the further lines. -/
lemma readReferences_declaring {catalogue : Catalogue}
    (declarable : ∀ other ∈ references, IsDeclarable other)
    (named : ∀ other ∈ references, Text.trimEnd other.name.toList ≠ [])
    (loaded : readReferences defaultClass text = .ok catalogue) :
    ∃ extended, readReferences defaultClass (declaring text references) = .ok extended ∧
      ∀ reference, extended.knows reference = true ↔
        catalogue.knows reference = true ∨ ∃ other ∈ references, reference = asDeclared other := by
  have complete := exists_readReferences_iff.1 ⟨catalogue, loaded⟩
  obtain ⟨extended, reloaded⟩ :
      ∃ extended, readReferences defaultClass (declaring text references) = .ok extended := by
    refine exists_readReferences_iff.2 fun number reference declares => ?_
    rcases (exists_declaresAt_declaring_iff declarable).1 ⟨number, declares⟩ with
      ⟨number, declares⟩ | ⟨other, mem, rfl⟩
    · exact complete number reference declares
    · exact (declarable other mem).isComplete_iff.2 (named other mem)
  refine ⟨extended, reloaded, fun reference => ?_⟩
  rw [knows_of_readReferences loaded, knows_of_readReferences reloaded]
  exact exists_declaresAt_declaring_iff declarable

end

/-! ## A check with declared references -/

namespace Inputs

variable {inputs : Inputs}

/-- A reference is reported if it is not listed and stands in an accepted line. -/
lemma mem_reported_iff {reference : Reference} :
    reference ∈ inputs.reported ↔
      ∃ pair ∈ inputs.accepted, reference ∈ inputs.unlisted pair.2 :=
  List.mem_flatMap

/-- What is not listed of a selection stands in it. -/
lemma mem_references_of_mem_unlisted {selection : Selection} {reference : Reference}
    (mem : reference ∈ inputs.unlisted selection) : reference ∈ selection.references := by
  unfold unlisted at mem
  split at mem
  · cases mem
  · exact (List.mem_filter.1 mem).1

/-- Every reference that is reported can be declared on a line. -/
lemma isDeclarable_of_mem_reported
    (classes : ∀ className ∈ inputs.config.targetClasses, IsClassName className)
    (oneLine : ∀ line ∈ inputs.lines, '\n' ∉ line.text.toList) :
    ∀ reference ∈ inputs.reported, IsDeclarable reference := by
  intro reference mem
  obtain ⟨pair, accepted, mem⟩ := mem_reported_iff.1 mem
  obtain ⟨inLines, outcome⟩ := inputs.mem_accepted_iff.1 accepted
  obtain ⟨ofClass, inValue⟩ :=
    Reader.references_of_readValue outcome reference (mem_references_of_mem_unlisted mem)
  refine ⟨classes _ ofClass, fun mem => ?_⟩
  rcases inValue _ mem with inLine | isMark
  · exact oneLine pair.1 inLines inLine
  · exact absurd isMark (by decide)

/-- Where only known references are accepted, none is reported. -/
lemma reported_eq_nil_of_literal (literal : inputs.config.policy.requiresLiteral = true) :
    inputs.reported = [] := by
  refine List.flatMap_eq_nil_iff.2 fun pair accepted => ?_
  have outcome := (inputs.mem_accepted_iff.1 accepted).2
  unfold unlisted
  split
  · rfl
  · next catalogue listed =>
    unfold Inputs.outcome reader at outcome
    rw [listed] at outcome
    obtain ⟨-, known⟩ := Reader.result_readValue_eq_ok_iff_known.1 outcome
    refine List.filter_eq_nil_iff.2 fun reference mem => ?_
    rw [known reference mem literal]
    exact Bool.false_ne_true

/-- The same inputs with another list of references. -/
def withCatalogue (inputs : Inputs) (catalogue : Catalogue) : Inputs :=
  { inputs with references := some catalogue }

/-- The list of references that is there changes nothing. -/
lemma withCatalogue_self {catalogue : Catalogue} (listed : inputs.references = some catalogue) :
    inputs.withCatalogue catalogue = inputs := by
  unfold withCatalogue
  rw [← listed]

/-- Where references need not be known, other lists of them change no outcome. -/
lemma outcome_withCatalogue (notLiteral : inputs.config.policy.requiresLiteral = false)
    (catalogue : Catalogue) (line : Entry) :
    (inputs.withCatalogue catalogue).outcome line = inputs.outcome line := by
  show (Reader.readValue ⟨inputs.config, _⟩ _).result =
    (Reader.readValue ⟨inputs.config, _⟩ _).result
  rw [Reader.readValue_of_not_literal notLiteral, Reader.readValue_of_not_literal notLiteral]

/-- A check of the same lines after what was reported is declared, and its report. -/
structure Redeclared (inputs second : Inputs) (report : Report) : Prop where
  lines : second.lines = inputs.lines
  outcome : ∀ line ∈ inputs.lines, second.outcome line = inputs.outcome line
  /-- The references with a name that ends in white space are reported again, and no others. -/
  unlisted : ∀ pair ∈ inputs.accepted,
    second.unlisted pair.2 = (inputs.unlisted pair.2).filter EndsBlank
  /-- Each line that fails has one report, in order and before the summary. -/
  reports : ∃ reports,
    List.Forall₂ second.Reports (second.lines.filter second.fails) reports ∧
      report.output = String.join reports ++ toString report.summary.checked ++ " checked, " ++
        toString report.summary.failed ++ " failed\n"
  /-- Without such names only the lines fail that are rejected. -/
  clean : (∀ reference ∈ inputs.reported, ¬ EndsBlank reference) →
    second.reported = [] ∧ report.summary.failed = inputs.rejected.length

section

variable {second : Inputs}

/-- The accepted and the rejected lines depend only on the outcomes of the lines. -/
lemma accepted_congr (lines : second.lines = inputs.lines)
    (same : ∀ line ∈ inputs.lines, second.outcome line = inputs.outcome line) :
    second.accepted = inputs.accepted := by
  unfold accepted
  rw [lines]
  exact List.filterMap_congr fun line mem => by rw [same line mem]

/-- The rejected lines depend only on the outcomes of the lines. -/
lemma rejected_congr (lines : second.lines = inputs.lines)
    (same : ∀ line ∈ inputs.lines, second.outcome line = inputs.outcome line) :
    second.rejected = inputs.rejected := by
  unfold rejected
  rw [lines]
  exact List.filterMap_congr fun line mem => by rw [same line mem]

end

/-- The outcomes of the lines stay the same: where only known references are accepted, nothing is
added to the list. -/
lemma outcome_of_declared {catalogue extended : Catalogue} {added : List Reference} {text : String}
    (loaded : readReferences inputs.config.targetClass text = .ok catalogue)
    (reloaded : readReferences inputs.config.targetClass (declaring text added) = .ok extended)
    (listed : inputs.references = some catalogue)
    (reported : ∀ reference, reference ∈ added ↔ reference ∈ inputs.reported) (line : Entry) :
    (inputs.withCatalogue extended).outcome line = inputs.outcome line := by
  cases literal : inputs.config.policy.requiresLiteral with
  | false => exact outcome_withCatalogue literal extended line
  | true =>
    -- with `requiresLiteral` every accepted reference is listed already
    have noneAdded : added = [] := List.eq_nil_iff_forall_not_mem.2 fun reference mem => by
      rw [reported, reported_eq_nil_of_literal literal] at mem
      cases mem
    rw [noneAdded, declaring_nil, loaded] at reloaded
    cases reloaded
    rw [withCatalogue_self listed]

section

variable {catalogue extended : Catalogue} {added : List Reference}
  (listed : inputs.references = some catalogue)
  (knows_iff : ∀ reference, extended.knows reference = true ↔
    catalogue.knows reference = true ∨ ∃ other ∈ added, reference = asDeclared other)
  (reported : ∀ reference, reference ∈ added ↔ reference ∈ inputs.reported)

include listed knows_iff reported

/-- A reference that was reported is known unless its name ends in white space. -/
lemma unlisted_withCatalogue {pair : Entry × Selection} (accepted : pair ∈ inputs.accepted) :
    (inputs.withCatalogue extended).unlisted pair.2 =
      (inputs.unlisted pair.2).filter EndsBlank := by
  have unlisted_eq : inputs.unlisted pair.2 =
      pair.2.references.filter fun reference => !catalogue.knows reference := by
    rw [unlisted, listed]
  rw [unlisted_eq, List.filter_filter]
  refine List.filter_congr fun reference mem => ?_
  cases known : catalogue.knows reference with
  | true =>
    rw [(knows_iff reference).2 (.inl known)]
    exact (Bool.and_false _).symm
  | false =>
    have inReported : reference ∈ inputs.reported := by
      refine mem_reported_iff.2 ⟨pair, accepted, ?_⟩
      rw [unlisted_eq]
      exact List.mem_filter.2 ⟨mem, by rw [known, Bool.not_false]⟩
    have knows_iff : extended.knows reference = true ↔ ¬ EndsBlank reference := by
      rw [knows_iff reference, known]
      constructor
      · rintro (absent | ⟨other, -, rfl⟩)
        · cases absent
        · exact not_endsBlank_asDeclared other
      · exact fun solid =>
          .inr ⟨reference, (reported reference).2 inReported, (asDeclared_eq_iff.2 solid).symm⟩
    by_cases blank : EndsBlank reference
    · simp [blank, Bool.eq_false_iff.2 fun known => knows_iff.1 known blank]
    · simp [blank, knows_iff.2 blank]

/-- A check with the extended list reports again what ends in white space, and nothing else. -/
lemma redeclared_withCatalogue
    (same : ∀ line ∈ inputs.lines,
      (inputs.withCatalogue extended).outcome line = inputs.outcome line) :
    let second := inputs.withCatalogue extended
    inputs.Redeclared second (second.recorded second.check) := by
  intro second
  have accepted_eq : second.accepted = inputs.accepted := accepted_congr rfl same
  have unlisted_eq : ∀ pair ∈ inputs.accepted,
      second.unlisted pair.2 = (inputs.unlisted pair.2).filter EndsBlank := fun pair =>
    unlisted_withCatalogue listed knows_iff reported
  refine ⟨rfl, same, unlisted_eq, ⟨_, second.reports_failures, rfl⟩, fun solid => ?_⟩
  have noneUnlisted : ∀ pair ∈ second.accepted, second.unlisted pair.2 = [] := by
    rw [accepted_eq]
    intro pair mem
    rw [unlisted_eq pair mem]
    refine List.filter_eq_nil_iff.2 fun reference unlisted => ?_
    rw [decide_eq_true_iff]
    exact solid reference (mem_reported_iff.2 ⟨pair, mem, unlisted⟩)
  refine ⟨List.flatMap_eq_nil_iff.2 noneUnlisted, ?_⟩
  have onlyRejected : second.accepted.filter (fun pair => second.unlisted pair.2 ≠ []) = [] :=
    List.filter_eq_nil_iff.2 fun pair mem => by simp [noneUnlisted pair mem]
  have rejected_eq : second.rejected = inputs.rejected := rejected_congr rfl same
  show (second.readings.filterMap (Reading.failure? second.references)).length = _
  rw [← second.reports_failures.length_eq, second.length_filter_fails, onlyRejected, rejected_eq]
  rfl

end

section

variable {files : Files} {paths : Paths} {path text : String}
  (policy : files.config paths.policy = .ok inputs.config) (read : files path = .ok text)

include policy read

/-- Inputs are loaded with another list of references if that can be read. -/
lemma load_withCatalogue {catalogue : Catalogue} (held : files.Hold paths.files inputs.lines)
    (loaded : readReferences inputs.config.targetClass text = .ok catalogue) :
    Inputs.load files { paths with references := some path } =
      .ok (inputs.withCatalogue catalogue) := by
  refine load_eq_ok_iff.2 ⟨policy, Except.map_eq_ok_iff.2 ⟨catalogue, ?_, rfl⟩, held⟩
  rw [Files.catalogue_of_read read]
  exact Except.mapError_eq_ok_iff.2 loaded

/-- Every command is refused at the first line that leaves a class or a name empty. -/
lemma run_of_firstIncomplete {number : Nat} (command : Command)
    (first : FirstIncomplete inputs.config.targetClass text.toList number) :
    command.run files { paths with references := some path } =
      .error (.load (.emptyReference path number)) := by
  have notListed : (files.catalogue path inputs.config.targetClass).map some =
      .error (.emptyReference path number) := by
    rw [Files.catalogue_of_read read, readReferences_eq_error_iff.2 first]
    rfl
  have notLoaded : Inputs.load files { paths with references := some path } =
      .error (.emptyReference path number) :=
    Except.bind_eq_error_iff.2 (.inr ⟨_, policy, Except.bind_eq_error_iff.2 (.inl notListed)⟩)
  exact Except.bind_eq_error_iff.2 (.inl (Except.mapError_eq_error_iff.2 ⟨_, notLoaded, rfl⟩))

end

end Inputs

/-- **Declared references.** A list of references is extended by a line for each reference that a
check reports, and the same lines are checked again. If a name that was reported is white space, the
extended list has a line without a name and is not loaded. Otherwise all lines have the outcomes
they had, and of the references that were reported those are reported again whose name ends in white
space. If there are none of these, no reference is reported. -/
theorem declared_references_are_known (files : Files) (paths : Paths) (inputs : Inputs)
    (path text : String) (loaded : Inputs.load files paths = .ok inputs)
    (listed : paths.references = some path) (read : files path = .ok text)
    (classes : ∀ className ∈ inputs.config.targetClasses, IsClassName className)
    (added : List Reference)
    (reported : ∀ reference, reference ∈ added ↔ reference ∈ inputs.reported)
    (again : Files) (extended : String) (samePolicy : again paths.policy = files paths.policy)
    (sameLines : ∀ file ∈ paths.files, again file = files file)
    (declares : again extended = .ok (declaring text added)) :
    let rerun := Command.check.run again { paths with references := some extended }
    ((∃ reference ∈ inputs.reported, Text.trimEnd reference.name.toList = []) →
      ∃ number, FirstIncomplete inputs.config.targetClass (declaring text added).toList number ∧
        rerun = .error (.load (.emptyReference extended number))) ∧
    ((∀ reference ∈ inputs.reported, Text.trimEnd reference.name.toList ≠ []) →
      ∃ second report,
        Inputs.load again { paths with references := some extended } = .ok second ∧
        rerun = .ok report ∧ inputs.Redeclared second report) := by
  intro rerun
  obtain ⟨policy, catalogued, held⟩ := Inputs.load_eq_ok_iff.1 loaded
  rw [listed] at catalogued
  obtain ⟨catalogue, catalogued, given⟩ := Except.map_eq_ok_iff.1 catalogued
  rw [Files.catalogue_of_read read] at catalogued
  have loadedList := Except.mapError_eq_ok_iff.1 catalogued
  have policyAgain := (Files.config_congr samePolicy).trans policy
  have heldAgain : again.Hold paths.files inputs.lines := by
    rw [← Files.entries_eq_ok_iff, Files.entries_of_rewrittenAs fun file mem =>
      .inl (sameLines file mem)]
    exact Files.entries_eq_ok_iff.2 held
  have declarable : ∀ reference ∈ added, IsDeclarable reference := fun reference mem =>
    Inputs.isDeclarable_of_mem_reported classes (fun line mem => (held.text_of_mem line mem).2.2)
      reference ((reported reference).1 mem)
  constructor
  · rintro ⟨reference, mem, blank⟩
    obtain ⟨number, first⟩ := exists_firstIncomplete_declaring declarable
      ((reported reference).2 mem) blank
    exact ⟨number, first, Inputs.run_of_firstIncomplete policyAgain declares .check first⟩
  · intro named
    obtain ⟨list, reloadedList, knows_iff⟩ := readReferences_declaring declarable
      (fun reference mem => named reference ((reported reference).1 mem)) loadedList
    have reloaded := Inputs.load_withCatalogue policyAgain declares heldAgain reloadedList
    have same := Inputs.outcome_of_declared loadedList reloadedList given.symm reported
    exact ⟨_, _, reloaded, Inputs.run_of_load reloaded .check rfl,
      Inputs.redeclared_withCatalogue given.symm knows_iff reported fun line _ => same line⟩

/-- A policy, known spells, and lines. -/
def scrollFiles (lines known : String) : Files
  | "policy.json" =>
    .ok "\x7b\"sub_token\":\"SPELL\",\"title\":\"Spells\",\"target_class\":\"Spell\"\x7d"
  | "known.refs" => .ok known
  | "first.choices" => .ok lines
  | _ => .error .missing

/-- The paths of these files. -/
def scrollPaths : Paths := ⟨"policy.json", some "known.refs", ["first.choices"]⟩

/-- The class of the spells can be written in front of a bar. -/
lemma isClassName_spell : IsClassName "Spell" where
  some_text := by decide
  no_mark c mem := by
    have letter : c ∈ ['S', 'p', 'e', 'l', 'l'] := mem
    simp only [List.mem_cons, List.not_mem_nil, or_false] at letter
    rcases letter with rfl | rfl | rfl | rfl | rfl <;> decide

/-- A name that ends in white space is reported again, and others are not. -/
theorem declared_scrolls :
    let lines := "SPELL|Light,Fire Bolt\nSPELL|#1,Fog ,Light\nSPELL|,\n"
    let known := "Light\nSpell|Fire Bolt\nSpell|#1\nSpell|Fog "
    ∃ inputs second report,
      Inputs.load (scrollFiles lines "Light") scrollPaths = .ok inputs ∧
      inputs.reported = [⟨"Spell", "Fire Bolt"⟩, ⟨"Spell", "#1"⟩, ⟨"Spell", "Fog "⟩] ∧
      (∀ className ∈ inputs.config.targetClasses, IsClassName className) ∧
      scrollFiles lines known "known.refs" = .ok (declaring "Light" inputs.reported) ∧
      (∀ reference ∈ inputs.reported, Text.trimEnd reference.name.toList ≠ []) ∧
      Inputs.load (scrollFiles lines known) scrollPaths = .ok second ∧
      Command.check.run (scrollFiles lines known) scrollPaths = .ok report ∧
      inputs.Redeclared second report := by
  intro lines known
  have facts : ((Inputs.load (scrollFiles lines "Light") scrollPaths).map fun inputs =>
      (inputs.config.targetClasses, inputs.reported)).toOption =
        some (["Spell"], [⟨"Spell", "Fire Bolt"⟩, ⟨"Spell", "#1"⟩, ⟨"Spell", "Fog "⟩]) := by
    decide +kernel
  obtain ⟨inputs, loaded, facts⟩ := Except.map_eq_ok_iff.1 (Except.toOption_eq_some_iff.1 facts)
  obtain ⟨classes_eq, reported_eq⟩ := Prod.mk.inj facts
  have classes : ∀ className ∈ inputs.config.targetClasses, IsClassName className := by
    rw [classes_eq]
    exact List.forall_mem_singleton.2 isClassName_spell
  have declares : scrollFiles lines known "known.refs" =
      .ok (declaring "Light" inputs.reported) := by
    rw [reported_eq]
    have text : known = declaring "Light"
        [⟨"Spell", "Fire Bolt"⟩, ⟨"Spell", "#1"⟩, ⟨"Spell", "Fog "⟩] := by
      decide +kernel
    exact congrArg Except.ok text
  have named : ∀ reference ∈ inputs.reported, Text.trimEnd reference.name.toList ≠ [] := by
    rw [reported_eq]
    decide
  obtain ⟨-, again⟩ := declared_references_are_known (scrollFiles lines "Light") scrollPaths inputs
    "known.refs" "Light" loaded rfl rfl classes inputs.reported (fun _ => Iff.rfl)
    (scrollFiles lines known) "known.refs" rfl (by simp [scrollPaths, scrollFiles]) declares
  obtain ⟨second, report, reloaded, ran, redeclared⟩ := again named
  exact ⟨inputs, second, report, loaded, reported_eq, classes, declares, named, reloaded, ran,
    redeclared⟩

/-- A reference whose name ends in white space is reported although it is declared. -/
theorem declared_fog_is_unknown :
    ¬ ∀ (files again : Files) (paths : Paths) (inputs second : Inputs) (path text : String),
      Inputs.load files paths = .ok inputs → paths.references = some path → files path = .ok text →
      (∀ className ∈ inputs.config.targetClasses, IsClassName className) →
      again paths.policy = files paths.policy →
      (∀ file ∈ paths.files, again file = files file) →
      again path = .ok (declaring text inputs.reported) →
      Inputs.load again paths = .ok second →
      second.reported = [] := by
  intro known
  let files := scrollFiles "SPELL|Fog ,Light" "Light"
  let again := scrollFiles "SPELL|Fog ,Light" "Light\nSpell|Fog "
  have facts : ((Inputs.load files scrollPaths).map fun inputs =>
      (inputs.config.targetClasses, inputs.reported)).toOption =
        some (["Spell"], [⟨"Spell", "Fog "⟩]) := by
    decide +kernel
  have factsAgain : ((Inputs.load again scrollPaths).map Inputs.reported).toOption =
      some [⟨"Spell", "Fog "⟩] := by
    decide +kernel
  obtain ⟨inputs, loaded, facts⟩ := Except.map_eq_ok_iff.1 (Except.toOption_eq_some_iff.1 facts)
  obtain ⟨second, reloaded, reportedAgain⟩ :=
    Except.map_eq_ok_iff.1 (Except.toOption_eq_some_iff.1 factsAgain)
  obtain ⟨classes_eq, reported_eq⟩ := Prod.mk.inj facts
  have classes : ∀ className ∈ inputs.config.targetClasses, IsClassName className := by
    rw [classes_eq]
    exact List.forall_mem_singleton.2 isClassName_spell
  have declares : again "known.refs" = .ok (declaring "Light" inputs.reported) := by
    rw [reported_eq]
    have text : "Light\nSpell|Fog " = declaring "Light" [⟨"Spell", "Fog "⟩] := by
      decide +kernel
    exact congrArg Except.ok text
  have none_reported := known files again scrollPaths inputs second "known.refs" "Light" loaded rfl
    rfl classes rfl (by simp [files, again, scrollPaths, scrollFiles]) declares reloaded
  rw [reportedAgain] at none_reported
  cases none_reported

end Check

end ChoiceLang
