import ChoiceLang.Proofs.Commands
import ChoiceLang.Proofs.Lines

/-!
# Printing again

What is printed for the accepted lines is itself a file with lines, each of which is read as the
selection it was printed for, unless white space at its end is lost on the way. A line does not end
in white space, and printing moves the end of a line only where it leaves out the last name of a
type filter.
-/

namespace ChoiceLang

open Expression

/-! ## Ends of respelled texts -/

/-- A type filter whose last name is also named before. -/
def RepeatsLast (run : List Char) : Prop :=
  ∃ negated, ∃ start ∈ filterStarts, ∃ list names name,
    run = negation negated ++ start ++ list ∧ Text.pieces '.' list = names ++ [name] ∧
      name ∈ names

/-- A text that ends in such a filter. -/
def EndsInRepeat (text : List Char) : Prop :=
  ∃ before, ∃ mark ∈ marks, ∃ run, text = before ++ mark :: run ∧ RepeatsLast run

section

variable {run text before : List Char} {mark : Char}

/-- No mark is white space. -/
lemma isBlank_mark (isMark : mark ∈ marks) : Text.isBlank mark = false := by
  revert mark
  rw [forall_marks]
  decide

/-- A respelled run keeps its end unless its last name is left out. -/
lemma trimEnd_respell (h : Text.trimEnd run = run) (kept : ¬ RepeatsLast run) :
    Text.trimEnd (respell run) = respell run := by
  by_cases filter : IsFilter run
  · obtain ⟨negated, start, isStart, list, rfl⟩ := filter
    obtain ⟨names, name, pieces_eq⟩ : ∃ names name, Text.pieces '.' list = names ++ [name] :=
      ⟨_, _, (List.dropLast_concat_getLast (Text.pieces_ne_nil '.' list)).symm⟩
    have new : name ∉ names := fun mem =>
      kept ⟨negated, start, isStart, list, names, name, rfl, pieces_eq, mem⟩
    have list_eq : list = (names.flatMap fun text => text ++ ['.']) ++ name := by
      rw [← Text.joinWith_concat, ← pieces_eq, Text.joinWith_pieces]
    -- what is before the last name ends in a mark, and the last name as the text does
    have first : Text.trimEnd (negation negated ++ filterStart) =
        negation negated ++ filterStart := by
      cases negated <;> decide
    have others := Text.trimEnd_flatMap_concat (c := '.') (by decide) (keepFirst names)
    have last : Text.trimEnd name = name := by
      rw [list_eq, ← List.append_assoc] at h
      exact Text.trimEnd_right h
    rw [respell_filter isStart, pieces_eq, keepFirst_concat new, Text.joinWith_concat,
      ← List.append_assoc]
    exact Text.trimEnd_append (Text.trimEnd_append first others) last
  · rw [respell_of_not_isFilter filter]
    exact h

/-- A text has no mark, or a last one. -/
lemma exists_last_mark (text : List Char) :
    (∀ c ∈ marks, c ∉ text) ∨
      ∃ before, ∃ mark ∈ marks, ∃ run, (∀ c ∈ marks, c ∉ run) ∧ text = before ++ mark :: run := by
  induction text with
  | nil => exact .inl fun _ _ => List.not_mem_nil
  | cons c rest ih =>
    rcases ih with free | ⟨before, mark, isMark, run, free, rfl⟩
    · by_cases isMark : c ∈ marks
      · exact .inr ⟨[], c, isMark, rest, free, rfl⟩
      · refine .inl fun d isMark' => ?_
        rw [List.mem_cons, not_or]
        exact ⟨fun eq => isMark (eq ▸ isMark'), free d isMark'⟩
    · exact .inr ⟨c :: before, mark, isMark, run, free, rfl⟩

/-- Behind a mark only the end of the last run matters. -/
lemma trimEnd_behind_mark (isMark : mark ∈ marks) (before : List Char)
    (h : Text.trimEnd run = run) :
    Text.trimEnd (before ++ mark :: run) = before ++ mark :: run := by
  rw [List.append_cons]
  exact Text.trimEnd_append (Text.trimEnd_concat (isBlank_mark isMark) before) h

/-- The run behind the last mark ends as the text does. -/
lemma trimEnd_run (h : Text.trimEnd (before ++ mark :: run) = before ++ mark :: run) :
    Text.trimEnd run = run := by
  rw [List.append_cons] at h
  exact Text.trimEnd_right h

/-- A respelled text keeps its end unless it ends in a filter whose last name is left out. -/
lemma trimEnd_respelled (isMark : mark ∈ marks)
    (h : Text.trimEnd (before ++ mark :: text) = before ++ mark :: text)
    (kept : ¬ EndsInRepeat (before ++ mark :: text)) :
    Text.trimEnd (before ++ mark :: respelled text) = before ++ mark :: respelled text := by
  rcases exists_last_mark text with free | ⟨start, last, isLast, run, free, rfl⟩
  · rw [respelled_of_not_mem free]
    have kept : ¬ RepeatsLast text := fun repeats => kept ⟨before, mark, isMark, text, rfl, repeats⟩
    exact trimEnd_behind_mark isMark before (trimEnd_respell (trimEnd_run h) kept)
  · rw [respelled_append isLast, respelled_of_not_mem free]
    rw [← List.cons_append, ← List.append_assoc] at h kept ⊢
    have kept : ¬ RepeatsLast run := fun repeats => kept ⟨_, last, isLast, run, rfl, repeats⟩
    exact trimEnd_behind_mark isLast _ (trimEnd_respell (trimEnd_run h) kept)

end

/-! ## Characters of respelled texts -/

/-- The only character that respelling brings into a text is the end of `TYPE=`. -/
lemma mem_of_mem_respell {run : List Char} {c : Char} (mem : c ∈ respell run) :
    c ∈ run ∨ c = '=' := by
  by_cases filter : IsFilter run
  · obtain ⟨negated, start, isStart, list, rfl⟩ := filter
    have inStart : c ∈ filterStart → c ∈ start ∨ c = '=' := by
      obtain ⟨mark, -, rfl⟩ := mem_filterStarts.1 isStart
      simp only [filterStart, List.mem_cons, List.not_mem_nil, or_false]
      tauto
    have inList : c ∈ Text.joinWith '.' (keepFirst (Text.pieces '.' list)) → c ∈ list := by
      intro mem
      rw [← Text.joinWith_pieces '.' list]
      exact (Text.joinWith_sublist (keepFirst_sublist _)).mem mem
    rw [respell_filter isStart, List.mem_append, List.mem_append] at mem
    rw [List.mem_append, List.mem_append]
    rcases mem with (mem | mem) | mem
    · exact .inl (.inl (.inl mem))
    · exact (inStart mem).imp_left fun mem => .inl (.inr mem)
    · exact .inl (.inr (inList mem))
  · rw [respell_of_not_isFilter filter] at mem
    exact .inl mem

/-- Respelling a text adds no character but the mark of its filters. -/
lemma mem_of_mem_respelled {text : List Char} {c : Char} (mem : c ∈ respelled text) :
    c ∈ text ∨ c = '=' := by
  rw [← Runs.text_ofText text]
  simp only [respelled, Runs.text, Runs.map, List.mem_append, List.mem_flatMap, List.mem_map,
    List.mem_cons] at mem ⊢
  rcases mem with mem | ⟨_, ⟨pair, inLater, rfl⟩, rfl | mem⟩
  · exact (mem_of_mem_respell mem).imp_left .inl
  · exact .inl (.inr ⟨pair, inLater, .inl rfl⟩)
  · exact (mem_of_mem_respell mem).imp_left fun mem => .inr ⟨pair, inLater, .inr mem⟩

/-! ## Texts that are printed -/

namespace Reader

/-- What is printed for a text that is read as a value, if it is accepted. -/
def reprint? (reader : Reader) (text : List Char) : Option (List Char) :=
  match (reader.readValue (String.ofList text)).result with
  | .ok selection => some selection.text.toList
  | .error _ => none

variable {reader : Reader} {text printed : List Char}

/-- A text is printed if it is accepted, and as the selection that it is read as. -/
lemma reprint?_eq_some_iff :
    reader.reprint? text = some printed ↔
      ∃ selection, (reader.readValue (String.ofList text)).result = .ok selection ∧
        selection.text.toList = printed := by
  unfold reprint?
  cases (reader.readValue (String.ofList text)).result <;> simp

/-- What is printed is read as the same selection. -/
lemma reprint?_of_reprint? (h : reader.reprint? text = some printed) :
    reader.reprint? printed = some printed := by
  obtain ⟨selection, read, rfl⟩ := reprint?_eq_some_iff.1 h
  have again := readValue_text read
  rw [← String.ofList_toList (s := selection.text)] at again
  exact reprint?_eq_some_iff.2 ⟨selection, again, rfl⟩

/-- What is printed is the text with its expression respelled. -/
lemma respelled_of_reprint? (h : reader.reprint? text = some printed) :
    ∃ before expression, text = before ++ '|' :: expression ∧
      printed = before ++ '|' :: respelled expression := by
  obtain ⟨selection, read, rfl⟩ := reprint?_eq_some_iff.1 h
  obtain ⟨expression, root, found, accepted, rfl⟩ := result_readValue_eq_ok_iff.1 read
  have value_eq := congrArg String.toList (Config.eq_of_expressionOf found)
  have root_eq := text_of_readExpression (readExpression_strict_eq_ok_iff.1 accepted).1
  refine ⟨reader.config.subToken.toList, expression, ?_, ?_⟩
  · simpa using value_eq
  · simp [Selection.text, root_eq]

/-- What is printed for a text is no longer than the text. -/
lemma byteLength_reprint?_le (h : reader.reprint? text = some printed) :
    Text.byteLength printed ≤ Text.byteLength text := by
  obtain ⟨before, expression, rfl, rfl⟩ := respelled_of_reprint? h
  have shorter := byteLength_respelled_le expression
  simp only [Text.byteLength_append, Text.byteLength]
  omega

/-- What is printed for a text that stands on a line can stand on one. -/
lemma isContent_reprint? (h : reader.reprint? text = some printed) (content : Text.IsContent text) :
    Text.IsContent printed := by
  obtain ⟨before, expression, rfl, rfl⟩ := respelled_of_reprint? h
  obtain ⟨⟨c, rest, text_eq, notBlank, notComment⟩, oneLine⟩ := content
  constructor
  · cases before with
    | nil => exact ⟨'|', _, rfl, by decide, by decide⟩
    | cons first before =>
      obtain ⟨rfl, -⟩ := List.cons.inj text_eq
      exact ⟨first, _, rfl, notBlank, notComment⟩
  · intro mem
    apply oneLine
    rcases List.mem_append.1 mem with inBefore | mem
    · exact List.mem_append_left _ inBefore
    · rcases List.mem_cons.1 mem with isMark | mem
      · cases isMark
      · rcases mem_of_mem_respelled mem with inExpression | isEqual
        · exact List.mem_append_right _ (List.mem_cons_of_mem _ inExpression)
        · cases isEqual

/-- Only what is printed for a text that ends in such a filter can end in white space. -/
lemma endsInRepeat_of_reprint? (h : reader.reprint? text = some printed)
    (solid : Text.trimEnd text = text) (lost : Text.trimEnd printed ≠ printed) :
    EndsInRepeat text := by
  obtain ⟨before, expression, rfl, rfl⟩ := respelled_of_reprint? h
  by_contra kept
  exact lost (trimEnd_respelled (by decide) solid kept)

end Reader

/-! ## Lists of texts -/

/-- Texts of which some are left out and others are shortened. -/
lemma byteLength_flatten_filterMap_le {f : List Char → Option (List Char)}
    (shorter : ∀ a b, f a = some b → Text.byteLength b ≤ Text.byteLength a)
    (texts : List (List Char)) :
    Text.byteLength (texts.filterMap f).flatten ≤ Text.byteLength texts.flatten := by
  induction texts with
  | nil => exact Nat.le_refl 0
  | cons text others ih =>
    rw [List.flatten_cons, Text.byteLength_append]
    cases here : f text with
    | none =>
      rw [List.filterMap_cons_none here]
      exact Nat.le_add_left_of_le ih
    | some kept =>
      rw [List.filterMap_cons_some here, List.flatten_cons, Text.byteLength_append]
      exact Nat.add_le_add (shorter text kept here) ih

/-- Printed texts are printed again as they are if and only if none of them loses its end. -/
lemma Reader.filterMap_reprint?_eq_self_iff {reader : Reader} {texts printed : List (List Char)}
    (printed_eq : printed = texts.filterMap reader.reprint?) :
    (printed.map Text.trimEnd).filterMap reader.reprint? = printed ↔
      ∀ text ∈ printed, Text.trimEnd text = text := by
  constructor
  · intro same
    -- an end that is lost would make the texts shorter, and reading and writing makes none longer
    have noLonger := byteLength_flatten_filterMap_le (f := reader.reprint?)
      (fun _ _ => byteLength_reprint?_le) (printed.map Text.trimEnd)
    rw [same] at noLonger
    exact Text.trimEnd_of_byteLength_le noLonger
  · intro solid
    have again : ∀ text ∈ printed, reader.reprint? (Text.trimEnd text) = some text := by
      intro text mem
      rw [printed_eq] at mem
      obtain ⟨before, -, printed⟩ := List.mem_filterMap.1 mem
      rw [solid text (printed_eq ▸ mem)]
      exact reprint?_of_reprint? printed
    rw [List.filterMap_map]
    exact (List.filterMap_congr again).trans List.filterMap_some

namespace Check

/-! ## Lines that are printed -/

/-- Every line that files hold has content and no white space at its end. -/
lemma Files.Hold.trimmed {files : Files} {paths : List String} {lines : List Entry}
    (held : files.Hold paths lines) :
    ∀ line ∈ lines,
      Text.IsContent line.text.toList ∧ Text.trimEnd line.text.toList = line.text.toList := by
  induction held with
  | nil => exact fun _ mem => absurd mem List.not_mem_nil
  | cons _ _ ih =>
    intro line mem
    rcases List.mem_append.1 mem with here | later
    · obtain ⟨source, inText, rfl⟩ := List.mem_map.1 here
      rw [String.toList_ofList]
      exact ⟨Text.isContent_of_mem_linesWithContent inText,
        Text.trimEnd_of_mem_linesWithContent inText⟩
    · exact ih line later

namespace Inputs

variable {inputs : Inputs}

/-- The texts that are printed for the accepted lines. -/
def printedTexts (inputs : Inputs) : List (List Char) :=
  inputs.accepted.map fun pair => pair.2.text.toList

/-- The inputs with what was printed for them in place of their lines. -/
def reprinted (inputs : Inputs) (path : String) : Inputs :=
  { inputs with lines := entriesOf path inputs.printing.output }

/-- The output of printing has each text on a line of its own. -/
lemma toList_output_printing (inputs : Inputs) :
    inputs.printing.output.toList = Text.onLines inputs.printedTexts := by
  show (String.join (inputs.accepted.map fun pair => pair.2.text ++ "\n")).toList = _
  rw [String.toList_join, List.flatMap_map, Text.onLines, printedTexts, List.flatMap_map]
  exact List.flatMap_congr fun pair _ => String.toList_append ..

/-- What is printed for the lines is what is printed for their texts, one by one. -/
lemma printedTexts_eq (inputs : Inputs) :
    inputs.printedTexts =
      (inputs.lines.map fun line => line.text.toList).filterMap inputs.reader.reprint? := by
  rw [printedTexts, accepted, List.map_filterMap, List.filterMap_map]
  apply List.filterMap_congr
  intro line _
  show _ = inputs.reader.reprint? line.text.toList
  rw [Reader.reprint?, String.ofList_toList]
  unfold outcome
  cases (inputs.reader.readValue line.text).result <;> rfl

/-- For an accepted line the text of its selection is printed. -/
lemma reprint?_of_mem_accepted {pair : Entry × Selection} (mem : pair ∈ inputs.accepted) :
    inputs.reader.reprint? pair.1.text.toList = some pair.2.text.toList := by
  obtain ⟨-, read⟩ := inputs.mem_accepted_iff.1 mem
  refine Reader.reprint?_eq_some_iff.2 ⟨pair.2, ?_, rfl⟩
  rw [String.ofList_toList]
  exact read

/-- Each text that is printed can stand on a line. -/
lemma isContent_printedTexts
    (content : ∀ line ∈ inputs.lines, Text.IsContent line.text.toList) :
    ∀ text ∈ inputs.printedTexts, Text.IsContent text := by
  intro text mem
  rw [printedTexts_eq] at mem
  obtain ⟨before, inTexts, printed⟩ := List.mem_filterMap.1 mem
  obtain ⟨line, inLines, rfl⟩ := List.mem_map.1 inTexts
  exact Reader.isContent_reprint? printed (content line inLines)

/-- What was printed is read up to white space at the ends of the lines. -/
lemma texts_reprinted (content : ∀ line ∈ inputs.lines, Text.IsContent line.text.toList)
    (path : String) :
    ((inputs.reprinted path).lines.map fun line => line.text.toList) =
      inputs.printedTexts.map Text.trimEnd := by
  rw [← Text.map_text_linesWithContent_onLines (isContent_printedTexts content),
    ← toList_output_printing]
  show ((entriesOf path _).map _) = _
  rw [entriesOf, List.map_map]
  exact List.map_congr_left fun line _ => String.toList_ofList

/-- As many lines are read again as were accepted. -/
lemma length_lines_reprinted (content : ∀ line ∈ inputs.lines, Text.IsContent line.text.toList)
    (path : String) : (inputs.reprinted path).lines.length = inputs.accepted.length := by
  have lengths := congrArg List.length (texts_reprinted content path)
  simpa [printedTexts] using lengths

/-- Each line that was printed can be read and printed again, up to its end. -/
lemma printedTexts_reprinted (content : ∀ line ∈ inputs.lines, Text.IsContent line.text.toList)
    (path : String) :
    (inputs.reprinted path).printedTexts =
      (inputs.printedTexts.map Text.trimEnd).filterMap inputs.reader.reprint? := by
  rw [printedTexts_eq, texts_reprinted content]
  rfl

/-- Each line that is read again has content. -/
lemma isContent_reprinted (path : String) :
    ∀ line ∈ (inputs.reprinted path).lines, Text.IsContent line.text.toList := by
  intro line mem
  obtain ⟨source, inText, rfl⟩ := List.mem_map.1 mem
  rw [String.toList_ofList]
  exact Text.isContent_of_mem_linesWithContent inText

/-- The same texts are printed again if and only if none of them ends in white space. -/
lemma reprinted_printing_eq_iff
    (content : ∀ line ∈ inputs.lines, Text.IsContent line.text.toList) (path : String) :
    (inputs.reprinted path).printing.output = inputs.printing.output ∧
        (inputs.reprinted path).rejected.length = 0 ↔
      ∀ line ∈ Text.pieces '\n' inputs.printing.output.toList, Text.trimEnd line = line := by
  have pieces_eq (inputs : Inputs)
      (content : ∀ line ∈ inputs.lines, Text.IsContent line.text.toList) :
      Text.pieces '\n' inputs.printing.output.toList = inputs.printedTexts ++ [[]] := by
    rw [toList_output_printing]
    exact Text.pieces_onLines fun text mem => (isContent_printedTexts content text mem).oneLine
  have output_iff : (inputs.reprinted path).printing.output = inputs.printing.output ↔
      (inputs.reprinted path).printedTexts = inputs.printedTexts := by
    constructor
    · intro same
      have pieces := pieces_eq (inputs.reprinted path) (isContent_reprinted path)
      rw [same, pieces_eq _ content] at pieces
      exact (List.append_cancel_right pieces).symm
    · intro same
      rw [← String.toList_inj, toList_output_printing, toList_output_printing, same]
  have solid_iff : (∀ line ∈ Text.pieces '\n' inputs.printing.output.toList,
      Text.trimEnd line = line) ↔ ∀ text ∈ inputs.printedTexts, Text.trimEnd text = text := by
    rw [pieces_eq _ content, List.forall_mem_append, List.forall_mem_singleton]
    exact and_iff_left rfl
  rw [output_iff, solid_iff, ← Reader.filterMap_reprint?_eq_self_iff inputs.printedTexts_eq,
    ← printedTexts_reprinted content]
  refine and_iff_left_of_imp fun same => ?_
  -- as many lines are accepted as there are
  have lengths := congrArg List.length same
  have all := (inputs.reprinted path).length_accepted_add_rejected
  rw [length_lines_reprinted content] at all
  simp only [printedTexts, List.length_map] at lengths
  omega

end Inputs

/-- A configuration depends on its file only. -/
lemma Files.config_congr {files again : Files} {path : String} (same : again path = files path) :
    again.config path = files.config path := by
  unfold config text
  rw [same]

/-- A catalogue depends on its file only, if there is one. -/
lemma Files.catalogue?_congr {files again : Files} {references : Option String}
    (same : ∀ path ∈ references, again path = files path) (targetClass : String) :
    again.catalogue? references targetClass = files.catalogue? references targetClass := by
  cases references with
  | none => rfl
  | some path =>
    unfold catalogue? catalogue text
    dsimp only
    rw [same path rfl]

/-- **Printing again.** What is printed for the accepted lines is read again with the same
configuration and references as one line for each of them. The same is printed then and no line is
rejected if and only if no line that was printed ends in white space. The line that this happens to
was printed for one that ends in a type filter whose last name is also named before. -/
theorem unparse_again (files : Files) (paths : Paths) (inputs : Inputs)
    (loaded : Inputs.load files paths = .ok inputs) :
    ∃ first, Command.unparse.run files paths = .ok first ∧
      first.output = String.join (inputs.accepted.map fun pair => pair.2.text ++ "\n") ∧
      (∀ pair ∈ inputs.accepted, Text.trimEnd pair.2.text.toList ≠ pair.2.text.toList →
        EndsInRepeat pair.1.text.toList) ∧
      ∀ (again : Files) (path : String),
        again paths.policy = files paths.policy →
        (∀ references ∈ paths.references, again references = files references) →
        again path = .ok first.output →
        ∃ second, Command.unparse.run again { paths with files := [path] } = .ok second ∧
          second.summary.checked + first.summary.failed = first.summary.checked ∧
          (second.output = first.output ∧ second.summary.failed = 0 ↔
            ∀ line ∈ Text.pieces '\n' first.output.toList, Text.trimEnd line = line) := by
  obtain ⟨policy, listed, held⟩ := Inputs.load_eq_ok_iff.1 loaded
  have content : ∀ line ∈ inputs.lines, Text.IsContent line.text.toList := fun line mem =>
    (held.trimmed line mem).1
  refine ⟨_, Inputs.run_unparse loaded, rfl, ?_, ?_⟩
  · intro pair mem lost
    have solid := (held.trimmed pair.1 (inputs.mem_accepted_iff.1 mem).1).2
    exact Reader.endsInRepeat_of_reprint? (Inputs.reprint?_of_mem_accepted mem) solid lost
  · intro again path samePolicy sameReferences printed
    have heldAgain : again.Hold [path] (inputs.reprinted path).lines := by
      rw [← List.append_nil (inputs.reprinted path).lines]
      exact .cons printed .nil
    have reloaded : Inputs.load again { paths with files := [path] } =
        .ok (inputs.reprinted path) :=
      Inputs.load_eq_ok_iff.2 ⟨(Files.config_congr samePolicy).trans policy,
        (Files.catalogue?_congr sameReferences _).trans listed, heldAgain⟩
    refine ⟨_, Inputs.run_unparse reloaded, ?_, ?_⟩
    · rw [Inputs.summary_recorded, Inputs.summary_recorded, Inputs.summary_printing,
        Inputs.summary_printing, Inputs.length_lines_reprinted content]
      exact inputs.length_accepted_add_rejected
    · rw [Inputs.output_recorded, Inputs.output_recorded, Inputs.summary_recorded,
        Inputs.summary_printing]
      exact Inputs.reprinted_printing_eq_iff content path

/-- A policy, known weapons, lines, and what was printed for them. -/
def weaponFiles (lines printed : String) : Files
  | "policy.json" =>
    .ok ("\x7b\"sub_token\":\"SUB\",\"title\":\"Weapon choice\"," ++
      "\"target_class\":\"WeaponProf\"\x7d")
  | "known.refs" => .ok "D\n"
  | "first.choices" => .ok lines
  | "printed.choices" => .ok printed
  | _ => .error .missing

/-- The first line that is printed loses its end, and the second stays as it is. -/
theorem unparse_again_of_weapons :
    let files := weaponFiles "SUB|TYPE=A. .A\nSUB|\nSUB|!TYPE.B.C.B,D\n"
      "SUB|TYPE=A. \nSUB|!TYPE=B.C,D\n"
    let paths : Paths := ⟨"policy.json", some "known.refs", ["first.choices"]⟩
    ∃ inputs first second,
      Inputs.load files paths = .ok inputs ∧
      Command.unparse.run files paths = .ok first ∧
      first.output = String.join (inputs.accepted.map fun pair => pair.2.text ++ "\n") ∧
      (∃ pair ∈ inputs.accepted, Text.trimEnd pair.2.text.toList ≠ pair.2.text.toList ∧
        EndsInRepeat pair.1.text.toList) ∧
      files "printed.choices" = .ok first.output ∧
      Command.unparse.run files { paths with files := ["printed.choices"] } = .ok second ∧
      second.summary.checked + first.summary.failed = first.summary.checked ∧
      (second.output = first.output ∧ second.summary.failed = 0 ↔
        ∀ line ∈ Text.pieces '\n' first.output.toList, Text.trimEnd line = line) := by
  intro files paths
  have texts : ((Inputs.load files paths).map fun inputs =>
      inputs.accepted.map fun pair => pair.2.text).toOption =
        some ["SUB|TYPE=A. ", "SUB|!TYPE=B.C,D"] := by
    decide +kernel
  have output : ((Command.unparse.run files paths).map Report.output).toOption =
      some "SUB|TYPE=A. \nSUB|!TYPE=B.C,D\n" := by
    decide +kernel
  obtain ⟨inputs, loaded, texts⟩ := Except.map_eq_ok_iff.1 (Except.toOption_eq_some_iff.1 texts)
  obtain ⟨first, ran, output_eq, repeats, again⟩ := unparse_again files paths inputs loaded
  rw [ran] at output
  have printed : files "printed.choices" = .ok first.output :=
    congrArg Except.ok (Option.some.inj output).symm
  obtain ⟨second, ranAgain, checked, same_iff⟩ :=
    again files "printed.choices" rfl (fun _ _ => rfl) printed
  obtain ⟨pair, mem, text⟩ : ∃ pair ∈ inputs.accepted, pair.2.text = "SUB|TYPE=A. " :=
    List.mem_map.1 (texts ▸ List.mem_cons_self)
  have lost : Text.trimEnd pair.2.text.toList ≠ pair.2.text.toList := by
    rw [text]
    decide
  exact ⟨inputs, first, second, loaded, ran, output_eq, ⟨pair, mem, lost, repeats pair mem lost⟩,
    printed, ranAgain, checked, same_iff⟩

/-- A line that loses its end is rejected when it is printed again. -/
theorem unparse_again_rejects :
    ¬ ∀ (files again : Files) (paths : Paths) (inputs : Inputs) (path : String),
      Inputs.load files paths = .ok inputs →
      again paths.policy = files paths.policy →
      (∀ references ∈ paths.references, again references = files references) →
      ∃ first, Command.unparse.run files paths = .ok first ∧
        (again path = .ok first.output →
          ∃ second, Command.unparse.run again { paths with files := [path] } = .ok second ∧
            second.output = first.output ∧ second.summary.failed = 0) := by
  intro same
  let files := weaponFiles "SUB|TYPE=A. .A\n" "SUB|TYPE=A. \n"
  let paths : Paths := ⟨"policy.json", none, ["first.choices"]⟩
  have lines : ((Inputs.load files paths).map Inputs.lines).toOption =
      some [⟨"first.choices", 1, "SUB|TYPE=A. .A"⟩] := by
    decide +kernel
  have output : ((Command.unparse.run files paths).map Report.output).toOption =
      some "SUB|TYPE=A. \n" := by
    decide +kernel
  have failed : ((Command.unparse.run files { paths with files := ["printed.choices"] }).map
      fun report => report.summary.failed).toOption = some 1 := by
    decide +kernel
  obtain ⟨inputs, loaded, -⟩ := Except.map_eq_ok_iff.1 (Except.toOption_eq_some_iff.1 lines)
  obtain ⟨first, ran, again⟩ :=
    same files files paths inputs "printed.choices" loaded rfl fun _ _ => rfl
  rw [ran] at output
  have printed : files "printed.choices" = .ok first.output :=
    congrArg Except.ok (Option.some.inj output).symm
  obtain ⟨second, ranAgain, -, clean⟩ := again printed
  rw [ranAgain] at failed
  exact absurd (clean.symm.trans (Option.some.inj failed)) (by decide)

end Check

end ChoiceLang
