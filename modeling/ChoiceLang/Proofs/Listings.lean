import ChoiceLang.Proofs.Entries
import ChoiceLang.Proofs.Validation

/-!
# Lists of objects

A file that lists objects declares one on each line with content. It is loaded if no line leaves the
class or the name empty, and fails for the first line that does. The catalogue knows what is
declared and nothing else, so that two files whose lines with content are the same give equal
catalogues, in whatever order and however often these lines stand in them.
-/

namespace ChoiceLang

/-- Neither the class nor the name of a reference is empty. -/
structure Reference.IsComplete (reference : Reference) : Prop where
  some_class : reference.className ≠ ""
  some_name : reference.name ≠ ""

/-- Two catalogues are equal if and only if they know the same references. -/
lemma Catalogue.beq_iff {first second : Catalogue} :
    (first == second) = true ↔ ∀ reference, first.knows reference = second.knows reference := by
  have knows_iff (catalogue : Catalogue) (reference : Reference) :
      catalogue.knows reference = true ↔ reference ∈ catalogue.known := decide_eq_true_iff
  show (first.known.all second.knows && second.known.all first.knows) = true ↔ _
  rw [Bool.and_eq_true, List.all_eq_true, List.all_eq_true]
  constructor
  · intro ⟨forth, back⟩ reference
    rw [Bool.eq_iff_iff]
    constructor
    · exact fun known => forth reference ((knows_iff first reference).1 known)
    · exact fun known => back reference ((knows_iff second reference).1 known)
  · intro same
    constructor
    · intro reference mem
      rw [← same]
      exact (knows_iff first reference).2 mem
    · intro reference mem
      rw [same]
      exact (knows_iff second reference).2 mem

namespace Check

/-- What a line of a list declares: an object of the class before the first `|`, or of the default
class where there is none. -/
inductive Declares (defaultClass : String) : List Char → Reference → Prop where
  | ofClass {className name} :
    '|' ∉ className →
    Declares defaultClass (className ++ '|' :: name)
      ⟨String.ofList className, String.ofList name⟩
  | ofDefault {name} :
    '|' ∉ name →
    Declares defaultClass name ⟨defaultClass, String.ofList name⟩

/-- What a text declares, with the number of the line. -/
inductive DeclaresAt (defaultClass : String) (text : List Char) : Nat → Reference → Prop where
  | intro {number line reference} :
    Text.ContentAt text ⟨number, line⟩ →
    Declares defaultClass line reference →
    DeclaresAt defaultClass text number reference

/-- The first line of a text that leaves a class or a name empty. -/
structure FirstIncomplete (defaultClass : String) (text : List Char) (number : Nat) : Prop where
  incomplete : ∃ reference, DeclaresAt defaultClass text number reference ∧ ¬ reference.IsComplete
  complete : ∀ earlier reference, earlier < number →
    DeclaresAt defaultClass text earlier reference → reference.IsComplete

/-- Two texts have the same lines with content, in any order and each any number of times. -/
def SameContent (text again : List Char) : Prop :=
  ∀ line, (∃ number, Text.ContentAt text ⟨number, line⟩) ↔
    ∃ number, Text.ContentAt again ⟨number, line⟩

/-! ## What lines declare -/

section

variable {defaultClass : String} {text again : List Char} {reference : Reference} {number : Nat}

/-- A line declares the reference that is read from it. -/
lemma declares_iff {line : List Char} :
    Declares defaultClass line reference ↔ reference = lineReference defaultClass line := by
  unfold lineReference
  constructor
  · intro declares
    cases declares with
    | ofClass notMem => rw [Text.cutAt_eq_some_iff.2 ⟨rfl, notMem⟩]
    | ofDefault notMem => rw [Text.cutAt_eq_none_iff.2 notMem]
  · rintro rfl
    split
    · next className name cut =>
      obtain ⟨rfl, notMem⟩ := Text.cutAt_eq_some_iff.1 cut
      exact .ofClass notMem
    · next cut => exact .ofDefault (Text.cutAt_eq_none_iff.1 cut)

/-- A text declares what is read from its lines with content, each under its number. -/
lemma declaresAt_iff :
    DeclaresAt defaultClass text number reference ↔
      ∃ line ∈ Text.linesWithContent text, line.number = number ∧
        reference = lineReference defaultClass line.text := by
  constructor
  · intro declares
    cases declares with
    | intro content declares =>
      exact ⟨_, Text.mem_linesWithContent_iff.2 content, rfl, declares_iff.1 declares⟩
  · rintro ⟨line, mem, rfl, reference_eq⟩
    exact .intro (Text.mem_linesWithContent_iff.1 mem) (declares_iff.2 reference_eq)

/-- The lines with content are those that are read, under whatever numbers. -/
lemma exists_contentAt_iff {line : List Char} :
    (∃ number, Text.ContentAt text ⟨number, line⟩) ↔
      line ∈ (Text.linesWithContent text).map Text.Line.text := by
  rw [List.mem_map]
  constructor
  · rintro ⟨number, content⟩
    exact ⟨_, Text.mem_linesWithContent_iff.2 content, rfl⟩
  · rintro ⟨line, mem, rfl⟩
    exact ⟨line.number, Text.mem_linesWithContent_iff.1 mem⟩

/-- Of two texts with the same lines either may come first. -/
lemma SameContent.symm (same : SameContent text again) : SameContent again text :=
  fun line => (same line).symm

/-- The same objects are declared in another order. -/
lemma SameContent.declares (same : SameContent text again)
    (declares : DeclaresAt defaultClass text number reference) :
    ∃ number, DeclaresAt defaultClass again number reference := by
  cases declares with
  | intro content declares =>
    obtain ⟨other, content⟩ := (same _).1 ⟨number, content⟩
    exact ⟨other, .intro content declares⟩

end

/-! ## Adding lines to a catalogue -/

section

variable {defaultClass : String} {catalogue added : Catalogue} {lines : List Text.Line}
  {number : Nat}

/-- A reference is refused if it is not complete. -/
lemma isIncomplete_iff {reference : Reference} :
    isIncomplete reference = true ↔ ¬ reference.IsComplete := by
  unfold isIncomplete
  rw [Bool.or_eq_true, decide_eq_true_iff, decide_eq_true_iff]
  constructor
  · rintro (empty | empty) ⟨some_class, some_name⟩
    · exact some_class empty
    · exact some_name empty
  · intro incomplete
    by_contra nonempty
    obtain ⟨some_class, some_name⟩ := not_or.1 nonempty
    exact incomplete ⟨some_class, some_name⟩

/-- Lines are added if all of them are complete, one by one. -/
lemma addLines_eq_ok_iff :
    addLines defaultClass catalogue lines = .ok added ↔
      (∀ line ∈ lines, (lineReference defaultClass line.text).IsComplete) ∧
        added = (lines.map fun line => lineReference defaultClass line.text).foldl
          Catalogue.insert catalogue := by
  induction lines generalizing catalogue with
  | nil =>
    constructor
    · intro loaded
      cases loaded
      exact ⟨fun _ mem => absurd mem List.not_mem_nil, rfl⟩
    · rintro ⟨_, rfl⟩
      rfl
  | cons line others ih =>
    unfold addLines
    dsimp only
    rw [List.forall_mem_cons, List.map_cons, List.foldl_cons]
    split
    · next incomplete =>
      constructor
      · intro loaded
        cases loaded
      · rintro ⟨⟨complete, -⟩, -⟩
        exact absurd complete (isIncomplete_iff.1 incomplete)
    · next complete =>
      rw [isIncomplete_iff, not_not] at complete
      rw [ih, and_iff_right complete]

/-- Lines are added up to the first whose reference is not complete. -/
lemma addLines_eq_error_iff :
    addLines defaultClass catalogue lines = .error number ↔
      ∃ before line after, lines = before ++ line :: after ∧ line.number = number ∧
        (∀ earlier ∈ before, (lineReference defaultClass earlier.text).IsComplete) ∧
        ¬ (lineReference defaultClass line.text).IsComplete := by
  induction lines generalizing catalogue with
  | nil =>
    constructor
    · intro failed
      cases failed
    · rintro ⟨before, _, _, eq, -⟩
      cases before <;> cases eq
  | cons line others ih =>
    unfold addLines
    dsimp only
    split
    · next incomplete =>
      rw [isIncomplete_iff] at incomplete
      constructor
      · intro failed
        cases failed
        exact ⟨[], line, others, rfl, rfl, fun _ mem => absurd mem List.not_mem_nil, incomplete⟩
      · rintro ⟨before, last, after, eq, rfl, complete, -⟩
        cases before with
        | nil =>
          cases eq
          rfl
        | cons first before =>
          cases eq
          exact absurd (complete line List.mem_cons_self) incomplete
    · next complete =>
      rw [isIncomplete_iff, not_not] at complete
      rw [ih]
      constructor
      · rintro ⟨before, last, after, rfl, rfl, allComplete, incomplete⟩
        exact ⟨line :: before, last, after, rfl, rfl,
          List.forall_mem_cons.2 ⟨complete, allComplete⟩, incomplete⟩
      · rintro ⟨before, last, after, eq, rfl, allComplete, incomplete⟩
        cases before with
        | nil =>
          cases eq
          exact absurd complete incomplete
        | cons first before =>
          cases eq
          exact ⟨before, last, after, rfl, rfl, (List.forall_mem_cons.1 allComplete).2, incomplete⟩

end

/-! ## Loading a list -/

section

variable {defaultClass text : String} {catalogue : Catalogue} {number : Nat}

/-- References are loaded if every line is complete. -/
lemma exists_readReferences_iff :
    (∃ catalogue, readReferences defaultClass text = .ok catalogue) ↔
      ∀ number reference, DeclaresAt defaultClass text.toList number reference →
        reference.IsComplete := by
  constructor
  · rintro ⟨catalogue, loaded⟩ number reference declares
    obtain ⟨line, mem, -, rfl⟩ := declaresAt_iff.1 declares
    exact (addLines_eq_ok_iff.1 loaded).1 line mem
  · intro complete
    refine ⟨_, addLines_eq_ok_iff.2 ⟨fun line mem => ?_, rfl⟩⟩
    exact complete line.number _ (declaresAt_iff.2 ⟨line, mem, rfl, rfl⟩)

/-- The references that are loaded are those that a line declares. -/
lemma knows_of_readReferences (loaded : readReferences defaultClass text = .ok catalogue)
    (reference : Reference) :
    catalogue.knows reference = true ↔
      ∃ number, DeclaresAt defaultClass text.toList number reference := by
  obtain ⟨-, rfl⟩ := addLines_eq_ok_iff.1 loaded
  rw [Catalogue.knows_foldl_insert, Catalogue.knows_empty, Bool.or_false, decide_eq_true_iff,
    List.mem_map]
  constructor
  · rintro ⟨line, mem, rfl⟩
    exact ⟨line.number, declaresAt_iff.2 ⟨line, mem, rfl, rfl⟩⟩
  · rintro ⟨number, declares⟩
    obtain ⟨line, mem, -, rfl⟩ := declaresAt_iff.1 declares
    exact ⟨line, mem, rfl⟩

/-- Numbers grow from line to line, so that the lines before one are those with smaller numbers. -/
lemma readReferences_eq_error_iff :
    readReferences defaultClass text = .error number ↔
      FirstIncomplete defaultClass text.toList number := by
  have increasing := Text.pairwise_linesWithContent text.toList
  refine addLines_eq_error_iff.trans ⟨?_, ?_⟩
  · rintro ⟨before, line, after, lines_eq, rfl, complete, incomplete⟩
    rw [lines_eq, List.pairwise_append, List.pairwise_cons] at increasing
    obtain ⟨-, ⟨larger, -⟩, -⟩ := increasing
    have here : line ∈ Text.linesWithContent text.toList := by
      rw [lines_eq]
      exact List.mem_append_right before List.mem_cons_self
    refine ⟨⟨_, declaresAt_iff.2 ⟨line, here, rfl, rfl⟩, incomplete⟩, ?_⟩
    intro earlier reference less declares
    obtain ⟨other, mem, rfl, rfl⟩ := declaresAt_iff.1 declares
    rw [lines_eq, List.mem_append, List.mem_cons] at mem
    rcases mem with mem | rfl | mem
    · exact complete other mem
    · exact absurd less (Nat.lt_irrefl _)
    · exact absurd less (Nat.lt_asymm (larger other mem))
  · rintro ⟨⟨reference, declares, incomplete⟩, complete⟩
    obtain ⟨line, mem, rfl, rfl⟩ := declaresAt_iff.1 declares
    obtain ⟨before, after, lines_eq⟩ := List.append_of_mem mem
    rw [lines_eq, List.pairwise_append] at increasing
    refine ⟨before, line, after, lines_eq, rfl, fun earlier inBefore => ?_, incomplete⟩
    have less := increasing.2.2 earlier inBefore line List.mem_cons_self
    have inText : earlier ∈ Text.linesWithContent text.toList := by
      rw [lines_eq]
      exact List.mem_append_left _ inBefore
    exact complete earlier.number _ less (declaresAt_iff.2 ⟨earlier, inText, rfl, rfl⟩)

end

section

variable {files : Files} {path defaultClass text : String}

/-- What is read from a file is what its text lists. -/
lemma Files.catalogue_of_read (read : files path = .ok text) :
    files.catalogue path defaultClass =
      (readReferences defaultClass text).mapError (.emptyReference path) := by
  unfold catalogue Files.text
  rw [read]
  rfl

end

/-- **Lists of objects.** A file is loaded if and only if each of its lines with content declares an
object with a class and a name. Then the catalogue knows the objects that are declared and no
others, and is equal to that of any file with the same lines with content. Otherwise loading fails
with the number of the first line that leaves one of the two empty. -/
theorem Files.catalogue_is_declared (files : Files) (path defaultClass text : String)
    (read : files path = .ok text) :
    ((∃ catalogue, files.catalogue path defaultClass = .ok catalogue) ↔
      ∀ number reference, DeclaresAt defaultClass text.toList number reference →
        reference.IsComplete) ∧
    (∀ catalogue, files.catalogue path defaultClass = .ok catalogue →
      (∀ reference, catalogue.knows reference = true ↔
        ∃ number, DeclaresAt defaultClass text.toList number reference) ∧
      ∀ (others : Files) (otherPath again : String), others otherPath = .ok again →
        SameContent text.toList again.toList →
        ∃ other, others.catalogue otherPath defaultClass = .ok other ∧
          (other == catalogue) = true) ∧
    ∀ error, files.catalogue path defaultClass = .error error ↔
      ∃ number, error = .emptyReference path number ∧
        FirstIncomplete defaultClass text.toList number := by
  have loads_iff {files : Files} {path text : String} (read : files path = .ok text)
      (catalogue : Catalogue) : files.catalogue path defaultClass = .ok catalogue ↔
        readReferences defaultClass text = .ok catalogue := by
    rw [Files.catalogue_of_read read]
    exact Except.mapError_eq_ok_iff
  refine ⟨?_, fun catalogue loaded => ⟨?_, ?_⟩, fun error => ?_⟩
  · exact (exists_congr (loads_iff read)).trans exists_readReferences_iff
  · exact knows_of_readReferences ((loads_iff read catalogue).1 loaded)
  · intro others otherPath again reread same
    have loaded := (loads_iff read catalogue).1 loaded
    have complete := exists_readReferences_iff.1 ⟨catalogue, loaded⟩
    obtain ⟨other, reloaded⟩ : ∃ other, readReferences defaultClass again = .ok other := by
      refine exists_readReferences_iff.2 fun number reference declares => ?_
      obtain ⟨number, declares⟩ := same.symm.declares declares
      exact complete number reference declares
    refine ⟨other, (loads_iff reread other).2 reloaded, Catalogue.beq_iff.2 fun reference => ?_⟩
    rw [Bool.eq_iff_iff, knows_of_readReferences loaded, knows_of_readReferences reloaded]
    exact ⟨fun ⟨_, declares⟩ => same.symm.declares declares,
      fun ⟨_, declares⟩ => same.declares declares⟩
  · rw [Files.catalogue_of_read read]
    refine Except.mapError_eq_error_iff.trans (exists_congr fun number => ?_)
    rw [readReferences_eq_error_iff]
    exact ⟨fun ⟨first, eq⟩ => ⟨eq.symm, first⟩, fun ⟨eq, first⟩ => ⟨first, eq.symm⟩⟩

/-- Three lists of feats and skills. In the second the lines of the first come in another order, and
the third has a line without a name. -/
def featFiles : Files
  | "feats.refs" => .ok "# feats\nDodge\nSkill|Climb|Rope\n"
  | "sorted.refs" => .ok "\tSkill|Climb|Rope\r\n\r\nDodge \r\n# again\r\nDodge"
  | "broken.refs" => .ok "Dodge\n\nSkill|\n|Climb"
  | _ => .error .missing

/-- Only the first `|` of a line counts. -/
theorem catalogue_of_feats :
    let text := "# feats\nDodge\nSkill|Climb|Rope\n"
    let again := "\tSkill|Climb|Rope\r\n\r\nDodge \r\n# again\r\nDodge"
    featFiles "feats.refs" = .ok text ∧ featFiles "sorted.refs" = .ok again ∧
      SameContent text.toList again.toList ∧
      (∀ number reference, DeclaresAt "Feat" text.toList number reference →
        reference.IsComplete) ∧
      ∃ catalogue other, featFiles.catalogue "feats.refs" "Feat" = .ok catalogue ∧
        catalogue.knows ⟨"Skill", "Climb|Rope"⟩ = true ∧
        (∃ number, DeclaresAt "Feat" text.toList number ⟨"Skill", "Climb|Rope"⟩) ∧
        featFiles.catalogue "sorted.refs" "Feat" = .ok other ∧ (other == catalogue) = true ∧
        featFiles.catalogue "broken.refs" "Feat" = .error (.emptyReference "broken.refs" 3) ∧
        FirstIncomplete "Feat" "Dodge\n\nSkill|\n|Climb".toList 3 := by
  intro text again
  have loaded : ((featFiles.catalogue "feats.refs" "Feat").map fun catalogue =>
      catalogue.knows ⟨"Skill", "Climb|Rope"⟩).toOption = some true := by
    decide +kernel
  have failed : readReferences "Feat" "Dodge\n\nSkill|\n|Climb" = .error 3 := by
    rfl
  have same : SameContent text.toList again.toList := by
    have contents : ((Text.linesWithContent text.toList).map Text.Line.text) =
        ["Dodge".toList, "Skill|Climb|Rope".toList] := by
      decide +kernel
    have contentsAgain : ((Text.linesWithContent again.toList).map Text.Line.text) =
        ["Skill|Climb|Rope".toList, "Dodge".toList, "Dodge".toList] := by
      decide +kernel
    intro line
    rw [exists_contentAt_iff, exists_contentAt_iff, contents, contentsAgain]
    simp only [List.mem_cons, List.not_mem_nil, or_false]
    tauto
  obtain ⟨catalogue, loaded, known⟩ := Except.map_eq_ok_iff.1 (Except.toOption_eq_some_iff.1 loaded)
  obtain ⟨loads_iff, exact, -⟩ := Files.catalogue_is_declared featFiles "feats.refs" "Feat" text rfl
  obtain ⟨knows_iff, again_eq⟩ := exact catalogue loaded
  obtain ⟨other, reloaded, equal⟩ := again_eq featFiles "sorted.refs" again rfl same
  obtain ⟨-, -, fails_iff⟩ :=
    Files.catalogue_is_declared featFiles "broken.refs" "Feat" "Dodge\n\nSkill|\n|Climb" rfl
  have first := readReferences_eq_error_iff.1 failed
  exact ⟨rfl, rfl, same, loads_iff.1 ⟨catalogue, loaded⟩, catalogue, other, loaded, known,
    (knows_iff _).1 known, reloaded, equal, (fails_iff _).2 ⟨3, rfl, first⟩, first⟩

end Check

end ChoiceLang
