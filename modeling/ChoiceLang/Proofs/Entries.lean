import ChoiceLang.Proofs.Commands
import ChoiceLang.Proofs.Numbering
import Mathlib.Data.List.Sort

/-!
# Entries of files

What is read from a file are its lines with content, in order and with their numbers; files are read
one after the other, and the first that cannot be read is all that is told. `ListsFile` says what is
read from one file, and determines it. Neither other line ends nor white space around lines change
it.
-/

namespace ChoiceLang.Check

/-- The entries of a file: its lines with content, in order of their numbers. -/
structure ListsFile (path text : String) (entries : List Entry) : Prop where
  increasing : entries.Pairwise fun first second => first.number < second.number
  mem_iff : ∀ entry, entry ∈ entries ↔
    entry.path = path ∧ Text.ContentAt text.toList ⟨entry.number, entry.text.toList⟩

/-- The same files, of which some are rewritten without a change to their lines but for the white
space around them. -/
def Files.RewrittenAs (files again : Files) (paths : List String) : Prop :=
  ∀ path ∈ paths, again path = files path ∨
    ∃ text rewritten, files path = .ok text ∧ again path = .ok rewritten ∧
      Text.Rewritten text.toList rewritten.toList

/-! ## One file -/

section

variable {path text : String} {entries others : List Entry}

/-- The entries of a file list its lines with content. -/
lemma listsFile_entriesOf (path text : String) : ListsFile path text (entriesOf path text) where
  increasing := List.pairwise_map.2 (Text.pairwise_linesWithContent text.toList)
  mem_iff entry := by
    unfold entriesOf
    rw [List.mem_map]
    constructor
    · rintro ⟨line, mem, rfl⟩
      rw [String.toList_ofList]
      exact ⟨rfl, Text.mem_linesWithContent_iff.1 mem⟩
    · rintro ⟨rfl, content⟩
      refine ⟨_, Text.mem_linesWithContent_iff.2 content, ?_⟩
      rw [String.ofList_toList]

/-- The entries of a file are determined by their order and their members. -/
lemma ListsFile.unique (first : ListsFile path text entries) (second : ListsFile path text others) :
    entries = others := by
  have _ : Std.Irrefl fun first second : Entry => first.number < second.number :=
    ⟨fun entry => Nat.lt_irrefl entry.number⟩
  have _ : Std.Antisymm fun first second : Entry => first.number < second.number :=
    ⟨fun _ _ less more => absurd more (Nat.lt_asymm less)⟩
  refine first.increasing.eq_of_mem_iff second.increasing fun entry => ?_
  rw [first.mem_iff, second.mem_iff]

/-- What is read from a line is some text without white space at its ends. -/
lemma text_of_mem_entriesOf {entry : Entry} (mem : entry ∈ entriesOf path text) :
    entry.text ≠ "" ∧ Text.trim entry.text.toList = entry.text.toList ∧
      '\n' ∉ entry.text.toList := by
  obtain ⟨line, inText, rfl⟩ := List.mem_map.1 mem
  have content := Text.isContent_of_mem_linesWithContent inText
  rw [String.toList_ofList, content.trim_eq]
  refine ⟨?_, Text.trimEnd_of_mem_linesWithContent inText, content.oneLine⟩
  obtain ⟨c, rest, text_eq, -⟩ := content.starts
  rw [text_eq]
  exact fun empty => List.cons_ne_nil c rest (String.ofList_eq_empty_iff.1 empty)

end

/-! ## Several files -/

section

variable {files again : Files} {paths : List String} {entries : List Entry} {error : LoadError}

/-- Files hold the entries of each in a row. -/
lemma Files.hold_iff :
    files.Hold paths entries ↔ ∃ parts, entries = parts.flatten ∧
      List.Forall₂ (fun path part => ∃ text, files path = .ok text ∧ ListsFile path text part)
        paths parts := by
  constructor
  · intro hold
    induction hold with
    | nil => exact ⟨[], rfl, .nil⟩
    | @cons path text others later here _ ih =>
      obtain ⟨parts, rfl, listed⟩ := ih
      exact ⟨entriesOf path text :: parts, rfl,
        .cons ⟨text, here, listsFile_entriesOf path text⟩ listed⟩
  · rintro ⟨parts, rfl, listed⟩
    induction listed with
    | nil => exact .nil
    | cons listsPath _ ih =>
      obtain ⟨text, here, lists⟩ := listsPath
      rw [List.flatten_cons, lists.unique (listsFile_entriesOf _ text)]
      exact .cons here ih

/-- The text of an entry is trimmed, not empty and on one line. -/
lemma Files.Hold.text_of_mem (hold : files.Hold paths entries) :
    ∀ entry ∈ entries, entry.text ≠ "" ∧ Text.trim entry.text.toList = entry.text.toList ∧
      '\n' ∉ entry.text.toList := by
  induction hold with
  | nil => exact fun _ mem => absurd mem List.not_mem_nil
  | cons _ _ ih =>
    intro entry mem
    rcases List.mem_append.1 mem with here | later
    · exact text_of_mem_entriesOf here
    · exact ih entry later

/-- A text is not loaded if its file cannot be read, and for the same failure. -/
lemma Files.text_eq_error_iff {path : String} :
    files.text path = .error error ↔
      ∃ failure, files path = .error failure ∧ error = .unreadable path failure := by
  refine Except.mapError_eq_error_iff.trans ?_
  refine exists_congr fun failure => and_congr_right fun _ => ?_
  exact eq_comm

/-- Reading ends at the first file that cannot be read. -/
lemma Files.entries_eq_error_iff :
    files.entries paths = .error error ↔
      ∃ before path after failure, paths = before ++ path :: after ∧
        (∀ earlier ∈ before, ∃ text, files earlier = .ok text) ∧ files path = .error failure ∧
        error = .unreadable path failure := by
  induction paths with
  | nil =>
    constructor
    · intro failed
      cases failed
    · rintro ⟨before, path, after, _, eq, -⟩
      cases before <;> cases eq
  | cons path others ih =>
    refine Except.bind_eq_error_iff.trans ⟨?_, ?_⟩
    · rintro (failed | ⟨text, read, failed⟩)
      · obtain ⟨failure, unreadable, rfl⟩ := Files.text_eq_error_iff.1 failed
        -- the first file is the one that cannot be read
        exact ⟨[], path, others, failure, rfl, fun _ mem => absurd mem List.not_mem_nil, unreadable,
          rfl⟩
      · rcases Except.bind_eq_error_iff.1 failed with failed | ⟨later, _, failed⟩
        · obtain ⟨before, last, after, failure, rfl, readable, unreadable, rfl⟩ := ih.1 failed
          refine ⟨path :: before, last, after, failure, rfl, ?_, unreadable, rfl⟩
          exact List.forall_mem_cons.2 ⟨⟨text, Except.mapError_eq_ok_iff.1 read⟩, readable⟩
        · cases failed
    · rintro ⟨before, last, after, failure, eq, readable, unreadable, rfl⟩
      cases before with
      | nil =>
        cases eq
        exact .inl (Files.text_eq_error_iff.2 ⟨failure, unreadable, rfl⟩)
      | cons first before =>
        cases eq
        obtain ⟨⟨text, read⟩, readable⟩ := List.forall_mem_cons.1 readable
        have failed := ih.2 ⟨before, last, after, failure, rfl, readable, unreadable, rfl⟩
        exact .inr ⟨text, Except.mapError_eq_ok_iff.2 read,
          Except.bind_eq_error_iff.2 (.inl failed)⟩

/-- Files that are rewritten hold the same entries. -/
lemma Files.entries_of_rewrittenAs (rewritten : files.RewrittenAs again paths) :
    again.entries paths = files.entries paths := by
  induction paths with
  | nil => rfl
  | cons path others ih =>
    obtain ⟨here, there⟩ := List.forall_mem_cons.1 rewritten
    unfold entries Files.text
    rw [ih there]
    rcases here with same | ⟨text, other, read, reread, rewritten⟩
    · rw [same]
    · have same : entriesOf path other = entriesOf path text := by
        rw [entriesOf, entriesOf, rewritten.linesWithContent_eq]
      rw [read, reread]
      show (files.entries others).bind (fun later => .ok (entriesOf path other ++ later)) = _
      rw [same]
      rfl

end

/-- **Entries of files.** The entries of files are those of each file in turn, and reading fails
for the first file that cannot be read. The text of an entry is not empty and has no white space at
its ends and no line feed in it. Other line ends, a line feed at the end of a file and white space
around lines change nothing. -/
theorem Files.entries_are_lines (files : Files) (paths : List String) :
    (∀ entries, files.entries paths = .ok entries ↔
      ∃ parts, entries = parts.flatten ∧
        List.Forall₂ (fun path part => ∃ text, files path = .ok text ∧ ListsFile path text part)
          paths parts) ∧
    (∀ error, files.entries paths = .error error ↔
      ∃ before path after failure, paths = before ++ path :: after ∧
        (∀ earlier ∈ before, ∃ text, files earlier = .ok text) ∧ files path = .error failure ∧
        error = .unreadable path failure) ∧
    (∀ entries, files.entries paths = .ok entries → ∀ entry ∈ entries,
      entry.text ≠ "" ∧ Text.trim entry.text.toList = entry.text.toList ∧
        '\n' ∉ entry.text.toList) ∧
    ∀ again : Files, files.RewrittenAs again paths → again.entries paths = files.entries paths :=
  ⟨fun _ => Files.entries_eq_ok_iff.trans Files.hold_iff, fun _ => Files.entries_eq_error_iff,
    fun _ read => (Files.entries_eq_ok_iff.1 read).text_of_mem,
    fun _ rewritten => Files.entries_of_rewrittenAs rewritten⟩

/-- Two files with domains, the first with a given text. -/
def domainFiles (first : String) : Files
  | "first.choices" => .ok first
  | "second.choices" => .ok "\n\t\u3000# granted later\nDOMAIN|Luck\u00A0\n"
  | _ => .error .missing

/-- Lines keep their numbers behind a comment and an empty line, with either kind of line ends. -/
theorem entries_of_domains :
    let files := domainFiles "# domains\n\n DOMAIN|Good,Healing\nDOMAIN|TYPE=Elemental"
    let again := domainFiles "# domains\r\n\r\n DOMAIN|Good,Healing\r\nDOMAIN|TYPE=Elemental\n"
    let paths := ["first.choices", "second.choices"]
    let entries : List Entry :=
      [⟨"first.choices", 3, "DOMAIN|Good,Healing"⟩, ⟨"first.choices", 4, "DOMAIN|TYPE=Elemental"⟩,
       ⟨"second.choices", 3, "DOMAIN|Luck"⟩]
    files.entries paths = .ok entries ∧
      (∃ parts, entries = parts.flatten ∧
        List.Forall₂ (fun path part => ∃ text, files path = .ok text ∧ ListsFile path text part)
          paths parts) ∧
      (∀ entry ∈ entries, entry.text ≠ "" ∧ Text.trim entry.text.toList = entry.text.toList ∧
        '\n' ∉ entry.text.toList) ∧
      files.RewrittenAs again paths ∧ again.entries paths = .ok entries := by
  intro files again paths entries
  have read : files.entries paths = .ok entries := by
    apply Except.toOption_eq_some_iff.1
    decide +kernel
  have returns : "# domains\r\n\r\n DOMAIN|Good,Healing\r\nDOMAIN|TYPE=Elemental\n".toList =
      Text.withReturns "# domains\n\n DOMAIN|Good,Healing\nDOMAIN|TYPE=Elemental".toList ++
        ['\n'] := by
    decide
  have rewritten : files.RewrittenAs again paths := by
    intro path mem
    simp only [paths, List.mem_cons, List.not_mem_nil, or_false] at mem
    rcases mem with rfl | rfl
    · refine .inr ⟨_, _, rfl, rfl, ?_⟩
      rw [returns]
      exact .ended (.returns .same)
    · exact .inl rfl
  obtain ⟨ok_iff, -, texts, same⟩ := Files.entries_are_lines files paths
  exact ⟨read, (ok_iff entries).1 read, texts entries read, rewritten,
    (same again rewritten).trans read⟩

end ChoiceLang.Check
