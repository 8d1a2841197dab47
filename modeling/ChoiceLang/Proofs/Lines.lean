import ChoiceLang.Proofs.Texts
import ChoiceLang.Text.Line
import Mathlib.Data.List.DropRight

/-!
# Texts on lines

A text that is written on a line of its own is read again without the white space at its ends.
White space stands at the end of a text if it is its last character; at the start of what was read
from a line there is none, so that such a text can only lose its end when it is written and read
again.
-/

namespace ChoiceLang.Text

variable {text : List Char}

/-! ## Ends of texts -/

/-- Trimming the end changes nothing if the last character is no white space. -/
lemma trimEnd_eq_self_iff : trimEnd text = text ↔ ∀ c ∈ text.getLast?, isBlank c = false := by
  show text.rdropWhile isBlank = text ↔ _
  rw [List.rdropWhile_eq_self_iff]
  constructor
  · intro solid c last
    obtain ⟨some_text, rfl⟩ := List.mem_getLast?_eq_getLast last
    exact eq_false_of_ne_true (solid some_text)
  · intro solid some_text isBlank
    rw [solid _ (List.getLast_mem_getLast? some_text)] at isBlank
    cases isBlank

/-- A text whose last character is no white space keeps its end. -/
lemma trimEnd_concat {c : Char} (notBlank : isBlank c = false) (text : List Char) :
    trimEnd (text ++ [c]) = text ++ [c] :=
  List.rdropWhile_concat_neg _ _ c (by simp [notBlank])

/-- Two texts in a row end as the second does, or as the first if the second is empty. -/
lemma trimEnd_append {a b : List Char} (first : trimEnd a = a) (second : trimEnd b = b) :
    trimEnd (a ++ b) = a ++ b := by
  rw [trimEnd_eq_self_iff] at first second ⊢
  intro c last
  rw [List.getLast?_append, Option.mem_def, Option.or_eq_some_iff] at last
  rcases last with last | ⟨_, last⟩
  · exact second c last
  · exact first c last

/-- Texts that are each closed by the same character keep their end together. -/
lemma trimEnd_flatMap_concat {c : Char} (notBlank : isBlank c = false) (texts : List (List Char)) :
    trimEnd (texts.flatMap fun text => text ++ [c]) = texts.flatMap fun text => text ++ [c] := by
  induction texts with
  | nil => rfl
  | cons text others ih =>
    rw [List.flatMap_cons]
    exact trimEnd_append (trimEnd_concat notBlank text) ih

/-- The second of two texts in a row keeps its end if both together do. -/
lemma trimEnd_right {a b : List Char} (h : trimEnd (a ++ b) = a ++ b) : trimEnd b = b := by
  rw [trimEnd_eq_self_iff] at h ⊢
  intro c last
  refine h c ?_
  rw [List.getLast?_append, Option.mem_def.1 last]
  rfl

/-- Trimming the end does not reach over what is not white space. -/
lemma trimEnd_cons {c : Char} (notBlank : isBlank c = false) (rest : List Char) :
    trimEnd (c :: rest) = c :: trimEnd rest := by
  induction rest using List.reverseRecOn with
  | nil => simp [trimEnd, notBlank]
  | append_singleton rest last ih =>
    show (c :: rest ++ [last]).rdropWhile isBlank = c :: (rest ++ [last]).rdropWhile isBlank
    rw [List.rdropWhile_concat, List.rdropWhile_concat]
    split
    · exact ih
    · rfl

/-- Trimming the end does not reach into a text without white space. -/
lemma trimEnd_append_of_solid {a : List Char} (solid : ∀ c ∈ a, isBlank c = false)
    (rest : List Char) : trimEnd (a ++ rest) = a ++ trimEnd rest := by
  induction a with
  | nil => rfl
  | cons c others ih =>
    obtain ⟨here, there⟩ := List.forall_mem_cons.1 solid
    rw [List.cons_append, trimEnd_cons here, ih there, List.cons_append]

/-- What is left of a text when its end is trimmed is part of it. -/
lemma trimEnd_sublist (text : List Char) : (trimEnd text).Sublist text :=
  (List.rdropWhile_prefix isBlank text).sublist

/-- Only a text that ends in white space is shortened. -/
lemma byteLength_trimEnd_lt (h : trimEnd text ≠ text) :
    byteLength (trimEnd text) < byteLength text := by
  obtain ⟨lost, text_eq⟩ : trimEnd text <+: text := List.rdropWhile_prefix isBlank text
  cases lost with
  | nil => exact absurd ((List.append_nil _).symm.trans text_eq) h
  | cons c lost =>
    have some_byte : 0 < c.utf8Size := Char.utf8Size_pos c
    conv => rhs; rw [← text_eq, byteLength_append, byteLength]
    omega

/-- Texts that are as long together as without the white space at their ends do not end in it. -/
lemma trimEnd_of_byteLength_le {texts : List (List Char)}
    (noShorter : byteLength texts.flatten ≤ byteLength (texts.map trimEnd).flatten) :
    ∀ text ∈ texts, trimEnd text = text := by
  have shorter (texts : List (List Char)) :
      byteLength (texts.map trimEnd).flatten ≤ byteLength texts.flatten := by
    apply byteLength_le_of_sublist
    induction texts with
    | nil => exact List.Sublist.refl _
    | cons text others ih => exact (trimEnd_sublist text).append ih
  induction texts with
  | nil => exact fun _ mem => absurd mem List.not_mem_nil
  | cons text others ih =>
    have othersShorter := shorter others
    simp only [List.map_cons, List.flatten_cons, byteLength_append] at noShorter
    have here : trimEnd text = text := by
      by_contra lost
      have lost := byteLength_trimEnd_lt lost
      omega
    rw [here] at noShorter
    exact List.forall_mem_cons.2 ⟨here, ih (Nat.le_of_add_le_add_left noShorter)⟩

/-! ## Texts that are read from lines -/

/-- A text without line feeds that starts with neither white space nor `#`. -/
structure IsContent (text : List Char) : Prop where
  starts : ∃ c rest, text = c :: rest ∧ isBlank c = false ∧ c ≠ '#'
  oneLine : '\n' ∉ text

/-- Such a text loses no more than its end on a line, and something is left of it. -/
lemma IsContent.trim_eq (content : IsContent text) : trim text = trimEnd text := by
  obtain ⟨c, rest, rfl, notBlank, -⟩ := content.starts
  rw [trim, trimStart, List.dropWhile_cons_of_neg (by simp [notBlank])]

/-- Such a text is one still when its end is trimmed. -/
lemma IsContent.trimEnd (content : IsContent text) : IsContent (trimEnd text) := by
  obtain ⟨⟨c, rest, rfl, notBlank, notComment⟩, oneLine⟩ := content
  refine ⟨⟨c, Text.trimEnd rest, trimEnd_cons notBlank rest, notBlank, notComment⟩, ?_⟩
  exact fun mem => oneLine ((trimEnd_sublist _).mem mem)

/-- Such a text is no comment and not empty. -/
lemma IsContent.hasContent (content : IsContent text) : hasContent text = true := by
  obtain ⟨c, rest, rfl, -, notComment⟩ := content.starts
  exact decide_eq_true notComment

/-- A line with content is trimmed from what stands between line feeds. -/
lemma mem_linesWithContent {line : Line} (mem : line ∈ linesWithContent text) :
    hasContent line.text = true ∧ ∃ piece ∈ pieces '\n' text, line.text = trim piece := by
  obtain ⟨inLines, content⟩ := List.mem_filter.1 mem
  obtain ⟨⟨piece, number⟩, inPieces, rfl⟩ := List.mem_map.1 inLines
  exact ⟨content, piece, List.fst_mem_of_mem_zipIdx inPieces, rfl⟩

/-- A line that was read does not end in white space. -/
lemma trimEnd_of_mem_linesWithContent {line : Line} (mem : line ∈ linesWithContent text) :
    trimEnd line.text = line.text := by
  obtain ⟨-, piece, -, text_eq⟩ := mem_linesWithContent mem
  rw [text_eq]
  exact List.rdropWhile_idempotent ..

/-- A line that was read is such a text. -/
lemma isContent_of_mem_linesWithContent {line : Line} (mem : line ∈ linesWithContent text) :
    IsContent line.text := by
  obtain ⟨content, piece, inPieces, text_eq⟩ := mem_linesWithContent mem
  have oneLine : '\n' ∉ trimStart piece := fun mem =>
    not_mem_of_mem_pieces inPieces ((List.dropWhile_sublist _).mem mem)
  have first := List.head?_dropWhile_not isBlank piece
  rw [text_eq] at content ⊢
  unfold trim at content ⊢
  -- what starts without white space keeps its start when its end is trimmed
  cases started : trimStart piece with
  | nil =>
    rw [started] at content
    cases content
  | cons c rest =>
    have notBlank : isBlank c = false := by
      rw [← trimStart, started] at first
      exact first
    rw [started] at content oneLine
    rw [trimEnd_cons notBlank] at content
    exact IsContent.trimEnd ⟨⟨c, rest, rfl, notBlank, of_decide_eq_true content⟩, oneLine⟩

/-! ## Texts that are written on lines -/

/-- Each text on a line of its own. -/
def onLines (texts : List (List Char)) : List Char := texts.flatMap fun text => text ++ ['\n']

/-- The line feeds behind texts of one line separate these again, with nothing after the last. -/
lemma pieces_onLines {texts : List (List Char)} (oneLine : ∀ text ∈ texts, '\n' ∉ text) :
    pieces '\n' (onLines texts) = texts ++ [[]] := by
  induction texts with
  | nil => rfl
  | cons text others ih =>
    obtain ⟨here, there⟩ := List.forall_mem_cons.1 oneLine
    have onLines_eq : onLines (text :: others) = text ++ '\n' :: onLines others := by
      simp [onLines]
    rw [onLines_eq, pieces_append here, ih there]
    rfl

/-- The texts of the lines with content, without their numbers. -/
lemma map_text_linesWithContent (text : List Char) :
    (linesWithContent text).map Line.text = ((pieces '\n' text).map trim).filter hasContent := by
  have lines_eq : (lines text).map Line.text = (pieces '\n' text).map trim := by
    have forget : Line.text ∘ (fun piece : List Char × Nat => (⟨piece.2, trim piece.1⟩ : Line)) =
        trim ∘ Prod.fst := rfl
    rw [lines, List.map_map, forget, ← List.map_map, List.zipIdx_map_fst]
  rw [linesWithContent, ← lines_eq, List.filter_map]
  rfl

/-- Texts that are written on lines of their own are read again up to white space at their
ends. -/
lemma map_text_linesWithContent_onLines {texts : List (List Char)}
    (content : ∀ text ∈ texts, IsContent text) :
    (linesWithContent (onLines texts)).map Line.text = texts.map trimEnd := by
  have trimmed : texts.map trim = texts.map trimEnd :=
    List.map_congr_left fun text mem => (content text mem).trim_eq
  have kept : (texts.map trimEnd).filter hasContent = texts.map trimEnd := by
    apply List.filter_eq_self.2
    intro line mem
    obtain ⟨text, inTexts, rfl⟩ := List.mem_map.1 mem
    exact (content text inTexts).trimEnd.hasContent
  rw [map_text_linesWithContent, pieces_onLines fun text mem => (content text mem).oneLine,
    List.map_append, trimmed, List.filter_append, kept]
  exact List.append_nil _

end ChoiceLang.Text
