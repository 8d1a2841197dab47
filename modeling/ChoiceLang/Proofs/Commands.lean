import ChoiceLang.Check.Report
import ChoiceLang.Proofs.Recall

/-!
# Commands

The three commands read the same lines with the same outcomes and differ in what they print. This
file states the outcome of every line once, in `Inputs.accepted`, `Inputs.rejected` and
`Inputs.Reports`, and shows that each command counts, logs and prints accordingly. A command that
has its inputs gives a report: a selection that was read strictly is valid, hence has a text.
-/

namespace ChoiceLang.Check

/-! ## Outcomes of lines -/

namespace Inputs

/-- What a line is read as. -/
def outcome (inputs : Inputs) (line : Entry) : Except Rejection Selection :=
  (inputs.reader.readValue line.text).result

/-- The lines that are accepted, in order, with what they are read as. -/
def accepted (inputs : Inputs) : List (Entry × Selection) :=
  inputs.lines.filterMap fun line =>
    match inputs.outcome line with
    | .ok selection => some (line, selection)
    | .error _ => none

/-- The lines that are rejected, in order, with the reasons. -/
def rejected (inputs : Inputs) : List (Entry × Rejection) :=
  inputs.lines.filterMap fun line =>
    match inputs.outcome line with
    | .ok _ => none
    | .error rejection => some (line, rejection)

/-- The references of a selection that are not listed, if a list is given. -/
def unlisted (inputs : Inputs) (selection : Selection) : List Reference :=
  match inputs.references with
  | none => []
  | some catalogue => selection.references.filter fun reference => !catalogue.knows reference

/-- Whether a line is rejected or has references that are not listed. -/
def fails (inputs : Inputs) (line : Entry) : Bool :=
  match inputs.outcome line with
  | .ok selection => inputs.unlisted selection ≠ []
  | .error _ => true

/-- The report on a line that fails. -/
inductive Reports (inputs : Inputs) : Entry → String → Prop where
  | rejected {line rejection} :
    inputs.outcome line = .error rejection →
    Reports inputs line
      (line.path ++ ":" ++ toString line.number ++ ": rejected: " ++ rejection.message ++ "\n")
  | unresolved {line selection} :
    inputs.outcome line = .ok selection →
    inputs.unlisted selection ≠ [] →
    Reports inputs line
      (line.path ++ ":" ++ toString line.number ++ ": unresolved: " ++
        reportText (inputs.unlisted selection) ++ "\n")

end Inputs

/-- What was logged about the reading of values. -/
def Report.examined (report : Report) : List LogRecord :=
  report.log.filter fun record => record.target = "choice_grammar::parse"

/-- What was logged as a warning. -/
def Report.warnings (report : Report) : List LogRecord :=
  report.log.filter fun record => record.level = .warn

/-- The warning about a rejected line. -/
def skipping (line : Entry) (rejection : Rejection) : LogRecord where
  level := .warn
  target := "choice_check::cli"
  message := "skipping rejected expression"
  fields :=
    [("file", line.path), ("line", toString line.number), ("error", rejection.message)]

/-- An accepted line as it is listed. -/
def listing (line : Entry) (selection : Selection) : Json :=
  .object
    [("file", .string line.path), ("line", .number line.number), ("choice", selection.toJson)]

/-- The reports of the three commands on the same inputs. -/
structure Inputs.CommandsAgree (inputs : Inputs) (check unparse tree : Report) : Prop where
  /-- All three read every line, in order. -/
  examined : ∀ report ∈ [check, unparse, tree],
    report.summary.checked = inputs.lines.length ∧
      report.examined = inputs.lines.map fun line =>
        readingRecord line.text (inputs.outcome line)
  /-- Two of them fail for the rejected lines, and warn about each. -/
  skipped : ∀ report ∈ [unparse, tree],
    report.summary.failed = inputs.rejected.length ∧
      report.warnings = inputs.rejected.map fun pair => skipping pair.1 pair.2
  /-- The canonical texts of the accepted lines are printed. -/
  printed : unparse.output = String.join (inputs.accepted.map fun pair => pair.2.text ++ "\n")
  /-- Each accepted line has a canonical text. -/
  written : ∀ pair ∈ inputs.accepted, pair.2.canonicalText = .ok pair.2.text
  /-- The trees of the accepted lines are listed. -/
  listed : tree.output =
    Json.pretty (.array (inputs.accepted.map fun pair => listing pair.1 pair.2)) ++ "\n"
  /-- Each line that fails has one report, in order and before the summary. -/
  reported : ∃ reports,
    List.Forall₂ inputs.Reports (inputs.lines.filter inputs.fails) reports ∧
      check.output = String.join reports ++ toString check.summary.checked ++ " checked, " ++
        toString check.summary.failed ++ " failed\n"
  /-- Lines fail that are rejected, or accepted with references that are not listed. -/
  failed : check.summary.failed = inputs.rejected.length +
    (inputs.accepted.filter fun pair => inputs.unlisted pair.2 ≠ []).length

/-! ## What the commands do with their lines -/

namespace Inputs

variable (inputs : Inputs)

/-- Every line is read, in order. -/
lemma readings_eq_map :
    inputs.readings = inputs.lines.map fun line => ⟨line, inputs.outcome line⟩ := rfl

/-- What is made of the readings that have a selection is made of the accepted lines. -/
lemma filterMap_of_accepted {α : Type} {f : Reading → Option α} {g : Entry → Selection → α}
    (ok : ∀ line selection, f ⟨line, .ok selection⟩ = some (g line selection))
    (error : ∀ line rejection, f ⟨line, .error rejection⟩ = none) :
    inputs.readings.filterMap f = inputs.accepted.map fun pair => g pair.1 pair.2 := by
  rw [readings_eq_map, accepted, List.filterMap_map, List.map_filterMap]
  apply List.filterMap_congr
  intro line _
  show f ⟨line, inputs.outcome line⟩ = _
  cases inputs.outcome line with
  | ok selection => exact ok line selection
  | error rejection => exact error line rejection

/-- What is made of the readings that have a rejection is made of the rejected lines. -/
lemma filterMap_of_rejected {α : Type} {f : Reading → Option α} {g : Entry → Rejection → α}
    (ok : ∀ line selection, f ⟨line, .ok selection⟩ = none)
    (error : ∀ line rejection, f ⟨line, .error rejection⟩ = some (g line rejection)) :
    inputs.readings.filterMap f = inputs.rejected.map fun pair => g pair.1 pair.2 := by
  rw [readings_eq_map, rejected, List.filterMap_map, List.map_filterMap]
  apply List.filterMap_congr
  intro line _
  show f ⟨line, inputs.outcome line⟩ = _
  cases inputs.outcome line with
  | ok selection => exact ok line selection
  | error rejection => exact error line rejection

/-- The readings have the selections of the accepted lines. -/
lemma filterMap_selection? :
    inputs.readings.filterMap Reading.selection? = inputs.accepted.map fun pair => pair.2 :=
  inputs.filterMap_of_accepted (g := fun _ selection => selection) (fun _ _ => rfl) fun _ _ => rfl

/-- The readings are listed as the accepted lines. -/
lemma filterMap_toJson? :
    inputs.readings.filterMap Reading.toJson? =
      inputs.accepted.map fun pair => listing pair.1 pair.2 :=
  inputs.filterMap_of_accepted (fun _ _ => rfl) fun _ _ => rfl

/-- The readings have the reasons of the rejected lines. -/
lemma filterMap_rejection? :
    inputs.readings.filterMap Reading.rejection? = inputs.rejected.map fun pair => pair.2 :=
  inputs.filterMap_of_rejected (g := fun _ rejection => rejection) (fun _ _ => rfl) fun _ _ => rfl

/-- The readings warn about the rejected lines. -/
lemma filterMap_warning? :
    inputs.readings.filterMap Reading.warning? =
      inputs.rejected.map fun pair => skipping pair.1 pair.2 :=
  inputs.filterMap_of_rejected (fun _ _ => rfl) fun _ _ => rfl

/-- The commands that leave out the rejected lines count them. -/
lemma summary_acceptance (output : String) :
    (inputs.acceptance output).summary = ⟨inputs.lines.length, inputs.rejected.length⟩ := by
  unfold acceptance
  rw [filterMap_rejection?, List.length_map, readings_eq_map, List.length_map]

/-- A line has a report if it fails, and none otherwise. -/
lemma failure?_eq (line : Entry) :
    (inputs.fails line = true ∧ ∃ text, inputs.Reports line text ∧
        Reading.failure? inputs.references ⟨line, inputs.outcome line⟩ = some text) ∨
      inputs.fails line = false ∧
        Reading.failure? inputs.references ⟨line, inputs.outcome line⟩ = none := by
  unfold fails Reading.failure?
  cases outcome : inputs.outcome line with
  | error rejection => exact .inl ⟨rfl, _, .rejected outcome, rfl⟩
  | ok selection =>
    -- what the reading reports as unknown is what the list does not have
    have unlisted_eq : inputs.unlisted selection = match inputs.references with
        | none => []
        | some catalogue => (selection.unresolved catalogue.knows).answer := by
      unfold unlisted Selection.unresolved
      cases inputs.references with
      | none => rfl
      | some catalogue => exact (Oracle.answer_unknown ..).symm
    cases given : inputs.references with
    | none =>
      rw [given] at unlisted_eq
      exact .inr ⟨by simp [unlisted_eq], rfl⟩
    | some catalogue =>
      rw [given] at unlisted_eq
      cases found : (selection.unresolved catalogue.knows).answer with
      | nil => exact .inr ⟨by simp [unlisted_eq, found], by simp [found]⟩
      | cons first others =>
        have someUnlisted : inputs.unlisted selection ≠ [] := by simp [unlisted_eq, found]
        refine .inl ⟨by simp [someUnlisted], _, .unresolved outcome someUnlisted, ?_⟩
        simp [found, unlisted_eq, Reading.location]

/-- The lines that fail have one report each. -/
lemma reports_failures :
    List.Forall₂ inputs.Reports (inputs.lines.filter inputs.fails)
      (inputs.readings.filterMap (Reading.failure? inputs.references)) := by
  rw [readings_eq_map]
  induction inputs.lines with
  | nil => exact .nil
  | cons line others ih =>
    rw [List.map_cons]
    rcases inputs.failure?_eq line with ⟨fails, text, reports, failure⟩ | ⟨passes, noFailure⟩
    · rw [List.filter_cons_of_pos fails, List.filterMap_cons_some failure]
      exact .cons reports ih
    · have notFails : ¬ inputs.fails line = true := by simp [passes]
      rw [List.filter_cons_of_neg notFails, List.filterMap_cons_none noFailure]
      exact ih

/-- Every line is either accepted or rejected. -/
lemma length_accepted_add_rejected :
    inputs.accepted.length + inputs.rejected.length = inputs.lines.length := by
  unfold accepted rejected
  induction inputs.lines with
  | nil => rfl
  | cons line others ih =>
    rw [List.filterMap_cons, List.filterMap_cons, List.length_cons, ← ih]
    cases inputs.outcome line with
    | ok selection => exact Nat.add_right_comm ..
    | error rejection => exact (Nat.add_assoc ..).symm

/-- The lines that fail are the rejected ones and those with references that are not listed. -/
lemma length_filter_fails :
    (inputs.lines.filter inputs.fails).length = inputs.rejected.length +
      (inputs.accepted.filter fun pair => inputs.unlisted pair.2 ≠ []).length := by
  unfold rejected accepted
  induction inputs.lines with
  | nil => rfl
  | cons line others ih =>
    rw [List.filter_cons, List.filterMap_cons, List.filterMap_cons]
    cases outcome : inputs.outcome line with
    | error rejection =>
      have fails : inputs.fails line = true := by simp [fails, outcome]
      rw [if_pos fails, List.length_cons, ih]
      exact (Nat.add_right_comm ..).symm
    | ok selection =>
      -- an accepted line can only fail for its references
      have fails_eq : inputs.fails line = decide (inputs.unlisted selection ≠ []) := by
        simp [fails, outcome]
      rw [fails_eq]
      dsimp only
      rw [List.filter_cons]
      split
      · rw [List.length_cons, List.length_cons, ih, Nat.add_assoc]
      · exact ih

/-- A line is accepted with what it is read as. -/
lemma mem_accepted_iff {pair : Entry × Selection} :
    pair ∈ inputs.accepted ↔ pair.1 ∈ inputs.lines ∧ inputs.outcome pair.1 = .ok pair.2 := by
  unfold accepted
  rw [List.mem_filterMap]
  constructor
  · intro ⟨line, inLines, found⟩
    cases outcome : inputs.outcome line with
    | error rejection =>
      rw [outcome] at found
      cases found
    | ok selection =>
      rw [outcome] at found
      cases found
      exact ⟨inLines, outcome⟩
  · intro ⟨inLines, outcome⟩
    exact ⟨pair.1, inLines, by rw [outcome]⟩

/-- What is accepted was read strictly, so that it can be written. -/
lemma canonicalText_of_mem_accepted {pair : Entry × Selection} (mem : pair ∈ inputs.accepted) :
    pair.2.canonicalText = .ok pair.2.text :=
  Reader.canonicalText_of_readValue (inputs.mem_accepted_iff.1 mem).2

end Inputs

/-- Selections that all have a text are written line by line. -/
lemma canonicalLines_eq_ok {selections : List Selection}
    (written : ∀ selection ∈ selections, selection.canonicalText = .ok selection.text) :
    canonicalLines selections =
      .ok (String.join (selections.map fun selection => selection.text ++ "\n")) := by
  induction selections with
  | nil => rfl
  | cons selection others ih =>
    obtain ⟨here, there⟩ := List.forall_mem_cons.1 written
    rw [canonicalLines, here, ih there]
    simp [bind, Except.bind, pure, Except.pure]

/-- The report with the canonical texts of the accepted lines. -/
def Inputs.printing (inputs : Inputs) : Report :=
  inputs.acceptance (String.join (inputs.accepted.map fun pair => pair.2.text ++ "\n"))

/-- Printing counts all lines as checked and the rejected ones as failed. -/
lemma Inputs.summary_printing (inputs : Inputs) :
    inputs.printing.summary = ⟨inputs.lines.length, inputs.rejected.length⟩ :=
  inputs.summary_acceptance _

/-- Printing never fails, since all accepted lines have a canonical text. -/
lemma Inputs.unparse_eq_ok (inputs : Inputs) : inputs.unparse = .ok inputs.printing := by
  have written : ∀ selection ∈ inputs.accepted.map Prod.snd,
      selection.canonicalText = .ok selection.text :=
    List.forall_mem_map.2 fun pair => inputs.canonicalText_of_mem_accepted
  rw [unparse, filterMap_selection?, canonicalLines_eq_ok written, List.map_map]
  rfl

/-! ## What the commands log -/

/-- What is logged about a reading comes from the parser, whatever the result. -/
lemma target_readingRecord (value : String) (result : Except Rejection Selection) :
    (readingRecord value result).target = "choice_grammar::parse" := by
  cases result <;> rfl

/-- What is logged about a reading is no warning. -/
lemma level_readingRecord (value : String) (result : Except Rejection Selection) :
    (readingRecord value result).level ≠ .warn := by
  cases result <;> exact Level.noConfusion

/-- The first record on a line is about its reading. -/
lemma Reading.filter_records_examined (reading : Reading) :
    reading.records.filter (fun record => record.target = "choice_grammar::parse") =
      [reading.record] := by
  have examined : reading.record.target = "choice_grammar::parse" := target_readingRecord ..
  rw [records, List.filter_cons_of_pos (by simp [examined])]
  unfold warning?
  cases reading.rejection? <;> rfl

/-- The others are its warning. -/
lemma Reading.filter_records_warnings (reading : Reading) :
    reading.records.filter (fun record => record.level = .warn) = reading.warning?.toList := by
  have quiet : reading.record.level ≠ .warn := level_readingRecord _ _
  rw [records, List.filter_cons_of_neg (by simp [quiet])]
  unfold warning?
  cases reading.rejection? <;> rfl

namespace Inputs

variable (inputs : Inputs)

/-- One record is logged about the reading of each line. -/
lemma map_record :
    inputs.readings.map Reading.record =
      inputs.lines.map fun line => readingRecord line.text (inputs.outcome line) := by
  rw [readings_eq_map, List.map_map]
  rfl

/-- The check logs the records on the readings and nothing else. -/
lemma examined_check : inputs.check.examined = inputs.readings.map Reading.record := by
  apply List.filter_eq_self.2
  intro record mem
  obtain ⟨reading, _, rfl⟩ := List.mem_map.1 mem
  exact decide_eq_true (target_readingRecord ..)

/-- The commands that leave out the rejected lines log the records on all readings. -/
lemma examined_acceptance (output : String) :
    (inputs.acceptance output).examined = inputs.readings.map Reading.record := by
  unfold Report.examined acceptance
  rw [List.filter_flatMap, List.map_eq_flatMap]
  exact List.flatMap_congr fun reading _ => reading.filter_records_examined

/-- The commands that leave out the rejected lines warn about these and nothing else. -/
lemma warnings_acceptance (output : String) :
    (inputs.acceptance output).warnings = inputs.readings.filterMap Reading.warning? := by
  unfold Report.warnings acceptance
  rw [List.filter_flatMap, List.filterMap_eq_flatMap_toList]
  exact List.flatMap_congr fun reading _ => reading.filter_records_warnings

end Inputs

/-! ## Loaded inputs -/

/-- The values that files hold, in order. -/
inductive Files.Hold (files : Files) : List String → List Entry → Prop where
  | nil :
    Hold files [] []
  | cons {path text others later} :
    files path = .ok text →
    Hold files others later →
    Hold files (path :: others) (entriesOf path text ++ later)

/-- Lines are loaded if all files are there, and as what the files hold. -/
lemma Files.entries_eq_ok_iff {files : Files} {paths : List String} {lines : List Entry} :
    files.entries paths = .ok lines ↔ files.Hold paths lines := by
  induction paths generalizing lines with
  | nil =>
    constructor
    · intro loaded
      cases loaded
      exact .nil
    · intro hold
      cases hold
      rfl
  | cons path others ih =>
    constructor
    · intro loaded
      obtain ⟨text, here, loaded⟩ := Except.bind_eq_ok_iff.1 loaded
      obtain ⟨later, there, loaded⟩ := Except.bind_eq_ok_iff.1 loaded
      cases loaded
      exact .cons (Except.mapError_eq_ok_iff.1 here) (ih.1 there)
    · intro hold
      cases hold with
      | cons here there =>
        refine Except.bind_eq_ok_iff.2 ⟨_, Except.mapError_eq_ok_iff.2 here, ?_⟩
        exact Except.bind_eq_ok_iff.2 ⟨_, ih.2 there, rfl⟩

/-- The catalogue of the file with references, if there is such a file. -/
def Files.catalogue? (files : Files) (references : Option String) (targetClass : String) :
    Except LoadError (Option Catalogue) :=
  match references with
  | none => .ok none
  | some path => (files.catalogue path targetClass).map some

/-- Inputs are loaded from the policy, the references and the files with lines. -/
lemma Inputs.load_eq_ok_iff {files : Files} {paths : Paths} {inputs : Inputs} :
    Inputs.load files paths = .ok inputs ↔
      files.config paths.policy = .ok inputs.config ∧
        files.catalogue? paths.references inputs.config.targetClass = .ok inputs.references ∧
        files.Hold paths.files inputs.lines := by
  -- the list of references is loaded second, since the policy gives its default class
  have load_eq : Inputs.load files paths = (files.config paths.policy).bind fun config =>
      (files.catalogue? paths.references config.targetClass).bind fun references =>
        (files.entries paths.files).bind fun lines => .ok ⟨config, references, lines⟩ := by
    unfold Inputs.load Files.catalogue?
    cases paths.references <;> rfl
  rw [load_eq]
  constructor
  · intro loaded
    obtain ⟨config, policy, loaded⟩ := Except.bind_eq_ok_iff.1 loaded
    obtain ⟨references, listed, loaded⟩ := Except.bind_eq_ok_iff.1 loaded
    obtain ⟨lines, held, loaded⟩ := Except.bind_eq_ok_iff.1 loaded
    cases loaded
    exact ⟨policy, listed, Files.entries_eq_ok_iff.1 held⟩
  · intro ⟨policy, listed, held⟩
    refine Except.bind_eq_ok_iff.2 ⟨_, policy, Except.bind_eq_ok_iff.2 ⟨_, listed, ?_⟩⟩
    exact Except.bind_eq_ok_iff.2 ⟨_, Files.entries_eq_ok_iff.2 held, rfl⟩

namespace Inputs

variable (inputs : Inputs)

/-- The report of a command, after the record about the inputs. -/
def recorded (report : Report) : Report := { report with log := inputs.record :: report.log }

/-- A command run on files gives its report on the inputs that are loaded from them. -/
lemma run_of_load {inputs : Inputs} {files : Files} {paths : Paths} {report : Report}
    (loaded : Inputs.load files paths = .ok inputs) (command : Command)
    (reported : inputs.report command = .ok report) :
    command.run files paths = .ok (inputs.recorded report) := by
  refine Except.bind_eq_ok_iff.2 ⟨inputs, Except.mapError_eq_ok_iff.2 loaded, ?_⟩
  exact Except.bind_eq_ok_iff.2 ⟨report, Except.mapError_eq_ok_iff.2 reported, rfl⟩

/-- Printing succeeds on all inputs that can be loaded. -/
lemma run_unparse {inputs : Inputs} {files : Files} {paths : Paths}
    (loaded : Inputs.load files paths = .ok inputs) :
    Command.unparse.run files paths = .ok (inputs.recorded inputs.printing) :=
  run_of_load loaded .unparse inputs.unparse_eq_ok

/-- The record about the inputs changes nothing in the summary. -/
@[simp] lemma summary_recorded (report : Report) :
    (inputs.recorded report).summary = report.summary := rfl

/-- The record about the inputs changes nothing in the output. -/
@[simp] lemma output_recorded (report : Report) :
    (inputs.recorded report).output = report.output := rfl

/-- The record about the inputs is about no reading. -/
lemma examined_recorded (report : Report) : (inputs.recorded report).examined = report.examined :=
  List.filter_cons_of_neg (by simp [record])

/-- The record about the inputs is no warning. -/
lemma warnings_recorded (report : Report) : (inputs.recorded report).warnings = report.warnings :=
  List.filter_cons_of_neg (by simp [record])

end Inputs

/-! ## Agreement -/

namespace Inputs

variable (inputs : Inputs)

/-- The three reports count and log every line. -/
lemma examined_reports :
    ∀ report ∈ [inputs.recorded inputs.check, inputs.recorded inputs.printing,
        inputs.recorded inputs.tree],
      report.summary.checked = inputs.lines.length ∧
        report.examined = inputs.lines.map fun line =>
          readingRecord line.text (inputs.outcome line) := by
  have checked : inputs.readings.length = inputs.lines.length := List.length_map ..
  rw [← map_record]
  intro report mem
  simp only [List.mem_cons, List.not_mem_nil, or_false] at mem
  rcases mem with rfl | rfl | rfl
  · exact ⟨checked, (inputs.examined_recorded _).trans inputs.examined_check⟩
  · exact ⟨checked, (inputs.examined_recorded _).trans (inputs.examined_acceptance _)⟩
  · exact ⟨checked, (inputs.examined_recorded _).trans (inputs.examined_acceptance _)⟩

/-- The commands that leave out the rejected lines fail for these and warn about each. -/
lemma skipped_acceptance (output : String) :
    (inputs.recorded (inputs.acceptance output)).summary.failed = inputs.rejected.length ∧
      (inputs.recorded (inputs.acceptance output)).warnings =
        inputs.rejected.map fun pair => skipping pair.1 pair.2 := by
  constructor
  · rw [summary_recorded, summary_acceptance]
  · rw [warnings_recorded, warnings_acceptance, filterMap_warning?]

/-- The reports of the three commands on any inputs agree. -/
lemma agree :
    inputs.CommandsAgree (inputs.recorded inputs.check) (inputs.recorded inputs.printing)
      (inputs.recorded inputs.tree) where
  examined := inputs.examined_reports
  skipped report mem := by
    simp only [List.mem_cons, List.not_mem_nil, or_false] at mem
    rcases mem with rfl | rfl
    · exact inputs.skipped_acceptance _
    · exact inputs.skipped_acceptance _
  printed := rfl
  written pair mem := inputs.canonicalText_of_mem_accepted mem
  listed := by
    show Json.pretty (.array (inputs.readings.filterMap Reading.toJson?)) ++ "\n" = _
    rw [filterMap_toJson?]
  reported := ⟨_, inputs.reports_failures, rfl⟩
  failed := by
    show (inputs.readings.filterMap (Reading.failure? inputs.references)).length = _
    rw [← inputs.reports_failures.length_eq, length_filter_fails]

end Inputs

/-- **The commands agree line by line.** On inputs that can be loaded all three commands give a
report, about the values that the files hold. -/
theorem commands_agree (files : Files) (paths : Paths) (inputs : Inputs)
    (loaded : Inputs.load files paths = .ok inputs) :
    files.Hold paths.files inputs.lines ∧
      ∃ check unparse tree,
        Command.check.run files paths = .ok check ∧
        Command.unparse.run files paths = .ok unparse ∧
        Command.tree.run files paths = .ok tree ∧
        inputs.CommandsAgree check unparse tree := by
  obtain ⟨_, _, held⟩ := Inputs.load_eq_ok_iff.1 loaded
  have checked := Inputs.run_of_load loaded .check rfl
  have printed := Inputs.run_unparse loaded
  have listed := Inputs.run_of_load loaded .tree rfl
  exact ⟨held, _, _, _, checked, printed, listed, inputs.agree⟩

/-- A policy, a list of known spells and two files with expressions. -/
def spellFiles : Files
  | "policy.json" =>
    .ok "\x7b\"sub_token\":\"SPELL\",\"title\":\"Spells\",\"target_class\":\"Spell\"\x7d"
  | "known.refs" => .ok "Light\n"
  | "first.choices" => .ok "# by level\n SPELL|Light\n\nSPELL|Fire,Light\n"
  | "second.choices" => .ok "SPELL|Light,\nSPELL|TYPE=Fire"
  | _ => .error .missing

/-- The paths of these files. -/
def spellPaths : Paths := ⟨"policy.json", some "known.refs", ["first.choices", "second.choices"]⟩

/-- One line is accepted, one refers to a spell that is not listed, one is rejected and one has a
type that needs no listing. -/
theorem commands_agree_on_spells : ∃ inputs,
    Inputs.load spellFiles spellPaths = .ok inputs ∧
    inputs.lines =
      [⟨"first.choices", 2, "SPELL|Light"⟩, ⟨"first.choices", 4, "SPELL|Fire,Light"⟩,
       ⟨"second.choices", 1, "SPELL|Light,"⟩, ⟨"second.choices", 2, "SPELL|TYPE=Fire"⟩] ∧
    spellFiles.Hold spellPaths.files inputs.lines ∧
    ∃ check unparse tree,
      Command.check.run spellFiles spellPaths = .ok check ∧
      Command.unparse.run spellFiles spellPaths = .ok unparse ∧
      Command.tree.run spellFiles spellPaths = .ok tree ∧
      inputs.CommandsAgree check unparse tree := by
  have lines : ((Inputs.load spellFiles spellPaths).map Inputs.lines).toOption = some
      [⟨"first.choices", 2, "SPELL|Light"⟩, ⟨"first.choices", 4, "SPELL|Fire,Light"⟩,
       ⟨"second.choices", 1, "SPELL|Light,"⟩, ⟨"second.choices", 2, "SPELL|TYPE=Fire"⟩] := by
    decide +kernel
  obtain ⟨inputs, loaded, lines⟩ := Except.map_eq_ok_iff.1 (Except.toOption_eq_some_iff.1 lines)
  exact ⟨inputs, loaded, lines, commands_agree spellFiles spellPaths inputs loaded⟩

end ChoiceLang.Check
