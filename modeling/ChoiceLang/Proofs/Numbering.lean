import ChoiceLang.Proofs.Lines

/-!
# Numbered lines

The lines of a text are told by the line feeds in it and are counted from one; `LineAt` says so of
the text alone. Lines with content are picked out of all lines, so that they keep their numbers.
White space around lines, to which a carriage return before a line feed belongs, changes neither
these numbers nor what is read from the lines.
-/

namespace ChoiceLang.Text

/-- A line of a text with its number. -/
inductive LineAt : List Char → Nat → List Char → Prop where
  | last {line} :
    '\n' ∉ line →
    LineAt line 1 line
  | first {line rest} :
    '\n' ∉ line →
    LineAt (line ++ '\n' :: rest) 1 line
  | later {skipped rest number line} :
    '\n' ∉ skipped →
    LineAt rest number line →
    LineAt (skipped ++ '\n' :: rest) (number + 1) line

/-- A line with content as it is read: its number, and its text without the white space around it,
of which something is left that starts no comment. -/
inductive ContentAt (text : List Char) : Line → Prop where
  | intro {number line} :
    LineAt text number line →
    trim line ≠ [] →
    (trim line).head? ≠ some '#' →
    ContentAt text ⟨number, trim line⟩

/-- White space that ends no line. -/
def IsPadding (space : List Char) : Prop := ∀ c ∈ space, isBlank c = true ∧ c ≠ '\n'

/-- A text with more white space around its lines. -/
inductive Padded : List Char → List Char → Prop where
  | last {before line after} :
    '\n' ∉ line →
    IsPadding before →
    IsPadding after →
    Padded line (before ++ line ++ after)
  | line {before line after rest again} :
    '\n' ∉ line →
    IsPadding before →
    IsPadding after →
    Padded rest again →
    Padded (line ++ '\n' :: rest) (before ++ line ++ after ++ '\n' :: again)

/-- The text with a carriage return before each line feed. -/
def withReturns (text : List Char) : List Char :=
  text.flatMap fun c => if c = '\n' then ['\r', '\n'] else [c]

/-- A text is rewritten with other line ends, a line feed at its end or white space around its
lines. -/
inductive Rewritten (text : List Char) : List Char → Prop where
  | same :
    Rewritten text text
  | returns {again} :
    Rewritten text again →
    Rewritten text (withReturns again)
  | ended {again} :
    Rewritten text again →
    Rewritten text (again ++ ['\n'])
  | padded {again more} :
    Rewritten text again →
    Padded again more →
    Rewritten text more

/-! ## Texts line by line -/

/-- What holds for every last line, and for what starts with a line if it holds for the rest, holds
for all texts. -/
@[elab_as_elim]
theorem inductLines {motive : List Char → Prop} (last : ∀ line, '\n' ∉ line → motive line)
    (line : ∀ line rest, '\n' ∉ line → motive rest → motive (line ++ '\n' :: rest))
    (text : List Char) : motive text := by
  by_cases mem : '\n' ∈ text
  · obtain ⟨before, after, text_eq, notMem⟩ := List.eq_append_cons_of_mem mem
    have _ : after.length < text.length := by
      rw [text_eq, List.length_append, List.length_cons]
      omega
    rw [text_eq]
    exact line before after notMem (inductLines last line after)
  · exact last text mem
termination_by text.length

/-- Lines that are added to a text come behind its own. -/
lemma pieces_append_lines {lines : List (List Char)} (oneLine : ∀ line ∈ lines, '\n' ∉ line)
    (text : List Char) :
    pieces '\n' (text ++ lines.flatMap ('\n' :: ·)) = pieces '\n' text ++ lines := by
  induction text using inductLines with
  | last line notMem =>
    rw [← joinWith_cons, pieces_joinWith (List.cons_ne_nil line lines)
      (List.forall_mem_cons.2 ⟨notMem, oneLine⟩), pieces_of_not_mem notMem]
    rfl
  | line line rest notMem ih =>
    rw [List.append_assoc, List.cons_append, pieces_append notMem, pieces_append notMem, ih,
      List.cons_append]

section

variable {text line : List Char} {number : Nat}

/-- The lines of a text are its pieces, counted from one. -/
lemma lineAt_iff :
    LineAt text number line ↔
      ∃ index, number = index + 1 ∧ (pieces '\n' text)[index]? = some line := by
  constructor
  · intro isLine
    induction isLine with
    | last oneLine =>
      rw [pieces_of_not_mem oneLine]
      exact ⟨0, rfl, rfl⟩
    | first oneLine =>
      rw [pieces_append oneLine]
      exact ⟨0, rfl, rfl⟩
    | later oneLine _ ih =>
      obtain ⟨index, rfl, found⟩ := ih
      rw [pieces_append oneLine]
      exact ⟨index + 1, rfl, found⟩
  · rintro ⟨index, rfl, found⟩
    induction text using inductLines generalizing index with
    | last only oneLine =>
      rw [pieces_of_not_mem oneLine] at found
      cases index with
      | zero =>
        cases found
        exact .last oneLine
      | succ index => cases found
    | line skipped rest oneLine ih =>
      rw [pieces_append oneLine] at found
      cases index with
      | zero =>
        cases found
        exact .first oneLine
      | succ index => exact .later oneLine (ih index found)

/-- A line has content if it is neither empty nor a comment. -/
lemma hasContent_iff : hasContent line = true ↔ line ≠ [] ∧ line.head? ≠ some '#' := by
  cases line with
  | nil => simp [hasContent]
  | cons c rest => simp [hasContent]

/-- The lines that are read are the lines with content. -/
lemma mem_linesWithContent_iff {line : Line} :
    line ∈ linesWithContent text ↔ ContentAt text line := by
  unfold linesWithContent lines
  rw [List.mem_filter, List.mem_map]
  constructor
  · rintro ⟨⟨⟨piece, number⟩, mem, rfl⟩, content⟩
    obtain ⟨positive, found⟩ := List.mk_mem_zipIdx_iff_le_and_getElem?_sub.1 mem
    obtain ⟨some_text, notComment⟩ := hasContent_iff.1 content
    exact .intro (lineAt_iff.2 ⟨number - 1, by omega, found⟩) some_text notComment
  · intro content
    cases content with
    | @intro number piece isLine some_text notComment =>
      obtain ⟨index, rfl, found⟩ := lineAt_iff.1 isLine
      have mem : (piece, index + 1) ∈ (pieces '\n' text).zipIdx 1 :=
        List.mk_mem_zipIdx_iff_le_and_getElem?_sub.2
          ⟨Nat.le_add_left 1 index, by rwa [Nat.add_sub_cancel]⟩
      exact ⟨⟨(piece, index + 1), mem, rfl⟩, hasContent_iff.2 ⟨some_text, notComment⟩⟩

/-- The lines that are read come in the order of their numbers. -/
lemma pairwise_linesWithContent (text : List Char) :
    (linesWithContent text).Pairwise fun first second => first.number < second.number := by
  have increasing : (((pieces '\n' text).zipIdx 1).map Prod.snd).Pairwise (· < ·) := by
    rw [List.zipIdx_map_snd]
    exact List.pairwise_lt_range'
  have numbered : (lines text).Pairwise fun first second => first.number < second.number :=
    List.pairwise_map.2 (List.pairwise_map.1 increasing)
  exact numbered.filter _

end

/-! ## Rewritten texts -/

section

variable {text again line before after space : List Char}

/-- The same lines are read from two texts whose lines differ in white space around them. -/
lemma linesWithContent_congr
    (same : (pieces '\n' again).map trim = (pieces '\n' text).map trim) :
    linesWithContent again = linesWithContent text := by
  have lines_eq (text : List Char) :
      lines text = (((pieces '\n' text).map trim).zipIdx 1).map fun line => ⟨line.2, line.1⟩ := by
    rw [List.zipIdx_map, List.map_map]
    rfl
  rw [linesWithContent, linesWithContent, lines_eq, lines_eq, same]

/-- White space around a line stays on that line. -/
lemma IsPadding.oneLine (padding : IsPadding space) : '\n' ∉ space :=
  fun mem => (padding '\n' mem).2 rfl

/-- White space behind a text is trimmed. -/
lemma trimEnd_append_padding (padding : IsPadding space) (text : List Char) :
    trimEnd (text ++ space) = trimEnd text := by
  unfold trimEnd
  rw [List.reverse_append, List.dropWhile_append_of_pos]
  exact fun c mem => (padding c (List.mem_reverse.1 mem)).1

/-- White space around a line is trimmed. -/
lemma trim_padded (ahead : IsPadding before) (behind : IsPadding after) (line : List Char) :
    trim (before ++ line ++ after) = trim line := by
  have skipped : trimStart (before ++ line ++ after) = trimStart (line ++ after) := by
    rw [List.append_assoc]
    exact List.dropWhile_append_of_pos fun c mem => (ahead c mem).1
  unfold trim
  rw [skipped, trimStart, List.dropWhile_append]
  split
  · next blank =>
    -- of a line of white space nothing is left, whatever is added to it
    have lost : after.dropWhile isBlank = [] :=
      List.dropWhile_eq_nil_iff.2 fun c mem => (behind c mem).1
    rw [lost, trimStart, List.isEmpty_iff.1 blank]
  · exact trimEnd_append_padding behind _

/-- A line with white space around it is one line. -/
lemma not_mem_padded (oneLine : '\n' ∉ line) (ahead : IsPadding before)
    (behind : IsPadding after) : '\n' ∉ before ++ line ++ after := by
  simp [oneLine, ahead.oneLine, behind.oneLine]

/-- Lines that differ in the white space around them are trimmed to the same. -/
lemma Padded.map_trim_pieces (padded : Padded text again) :
    (pieces '\n' again).map trim = (pieces '\n' text).map trim := by
  induction padded with
  | last oneLine ahead behind =>
    rw [pieces_of_not_mem oneLine, pieces_of_not_mem (not_mem_padded oneLine ahead behind),
      List.map_singleton, List.map_singleton, trim_padded ahead behind]
  | line oneLine ahead behind _ ih =>
    rw [pieces_append oneLine, pieces_append (not_mem_padded oneLine ahead behind), List.map_cons,
      List.map_cons, trim_padded ahead behind, ih]

/-- A text without line feeds needs no carriage returns. -/
lemma withReturns_of_not_mem (oneLine : '\n' ∉ line) : withReturns line = line := by
  have kept : ∀ c ∈ line, (if c = '\n' then ['\r', '\n'] else [c]) = [c] := by
    intro c mem
    rw [if_neg]
    rintro rfl
    exact oneLine mem
  rw [withReturns, List.flatMap_congr kept]
  exact List.flatMap_singleton' line

/-- A carriage return before a line feed is white space behind a line. -/
lemma padded_withReturns (text : List Char) : Padded text (withReturns text) := by
  have nothing : IsPadding [] := fun _ mem => absurd mem List.not_mem_nil
  have behind : IsPadding ['\r'] := by
    intro c mem
    rw [List.mem_singleton.1 mem]
    decide
  induction text using inductLines with
  | last line oneLine =>
    have padded := Padded.last oneLine nothing nothing
    rw [withReturns_of_not_mem oneLine]
    rwa [List.nil_append, List.append_nil] at padded
  | line line rest oneLine ih =>
    have padded := Padded.line oneLine nothing behind ih
    have text_eq : withReturns (line ++ '\n' :: rest) =
        line ++ ['\r'] ++ '\n' :: withReturns rest := by
      rw [withReturns, List.flatMap_append, List.flatMap_cons, if_pos rfl, ← withReturns,
        ← withReturns, withReturns_of_not_mem oneLine, List.append_assoc]
      rfl
    rwa [List.nil_append, ← text_eq] at padded

/-- Behind a line feed at the end there is nothing to read. -/
lemma linesWithContent_concat (text : List Char) :
    linesWithContent (text ++ ['\n']) = linesWithContent text := by
  have oneLine : ∀ line ∈ [([] : List Char)], '\n' ∉ line :=
    List.forall_mem_singleton.2 List.not_mem_nil
  have pieces_eq : pieces '\n' (text ++ ['\n']) = pieces '\n' text ++ [[]] :=
    pieces_append_lines oneLine text
  unfold linesWithContent lines
  rw [pieces_eq, List.zipIdx_append, List.map_append, List.filter_append]
  exact List.append_nil _

/-- A text that is rewritten is read as before. -/
lemma Rewritten.linesWithContent_eq (rewritten : Rewritten text again) :
    linesWithContent again = linesWithContent text := by
  induction rewritten with
  | same => rfl
  | returns _ ih => rw [linesWithContent_congr (padded_withReturns _).map_trim_pieces, ih]
  | ended _ ih => rw [linesWithContent_concat, ih]
  | padded _ padded ih => rw [linesWithContent_congr padded.map_trim_pieces, ih]

end

end ChoiceLang.Text
