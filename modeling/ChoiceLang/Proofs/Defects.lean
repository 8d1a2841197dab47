import ChoiceLang.Proofs.Segments

/-!
# Defects of a text

A text that cannot be split has a defect. `EmptyPiece` and `Unpaired` say what stands there, by what
is in front of it and behind it: a separator outside of brackets next to which a piece is empty, or
a bracket without a partner. The offset is that of the character in the text.

`Opened` takes a text apart at the brackets that are open behind it. The first of these has no
partner if the text ends there.
-/

namespace ChoiceLang.Expression

/-- A piece of a text is empty next to a separator. -/
inductive EmptyPiece (operator : Operator) : List Char → SeparatorFault → Nat → Prop where
  | leading {after} :
    EmptyPiece operator (operator.separator :: after) .leading 0
  | consecutive {before after} :
    Balanced before →
    EmptyPiece operator (before ++ operator.separator :: operator.separator :: after) .consecutive
      (Text.byteLength (before ++ [operator.separator]))
  | trailing {before} :
    Balanced before →
    EmptyPiece operator (before ++ [operator.separator]) .trailing (Text.byteLength before)

/-- A bracket of a text has no partner. -/
inductive Unpaired : List Char → Nat → Prop where
  | closing {before after} :
    Balanced before →
    Unpaired (before ++ ']' :: after) (Text.byteLength before)
  | opening {before after} :
    Balanced before →
    (∀ inner rest, after = inner ++ ']' :: rest → ¬ Balanced inner) →
    Unpaired (before ++ '[' :: after) (Text.byteLength before)

/-- What is wrong with a text that is not empty. -/
inductive HasDefect (operator : Operator) (text : List Char) : Defect → Prop where
  | separator {fault position} :
    EmptyPiece operator text fault position →
    HasDefect operator text (.separator fault position)
  | bracket {position} :
    Unpaired text position →
    HasDefect operator text (.bracket position)

/-! ## Open brackets -/

/-- The brackets that are open behind a text stand at some offsets, the innermost first. -/
inductive Opened : List Char → List Nat → Prop where
  | none {text} :
    Balanced text →
    Opened text []
  | bracket {before inner positions} :
    Opened before positions →
    Balanced inner →
    Opened (before ++ '[' :: inner) (Text.byteLength before :: positions)

variable {text tail : List Char} {positions : List Nat}

/-- The empty text is balanced. -/
lemma balanced_nil : Balanced [] := encloses_nil.2 rfl

/-- For any number of open brackets there is a text that closes them. -/
lemma exists_encloses (depth : Nat) : ∃ text, Encloses [] depth text := by
  induction depth with
  | zero => exact ⟨[], balanced_nil⟩
  | succ depth ih =>
    obtain ⟨text, closes⟩ := ih
    exact ⟨']' :: text, encloses_close.2 closes⟩

/-- A text with no open bracket is balanced. -/
lemma Opened.balanced (h : Opened text []) : Balanced text := by
  cases h with
  | none balanced => exact balanced

/-- A balanced text leaves the same brackets open. -/
lemma Opened.append (h : Opened text positions) (balanced : Balanced tail) :
    Opened (text ++ tail) positions := by
  cases h with
  | none balancedText => exact .none ((encloses_append balancedText).2 ⟨balancedText, balanced⟩)
  | bracket opened balancedInner =>
    rw [List.append_assoc, List.cons_append]
    exact .bracket opened ((encloses_append balancedInner).2 ⟨balancedInner, balanced⟩)

/-- An opening bracket is the innermost behind it. -/
lemma Opened.opening (h : Opened text positions) :
    Opened (text ++ ['[']) (Text.byteLength text :: positions) :=
  .bracket h balanced_nil

/-- A closing bracket closes the innermost. -/
lemma Opened.closing {position : Nat} (h : Opened text (position :: positions)) :
    Opened (text ++ [']']) positions := by
  cases h with
  | bracket opened balanced =>
    rw [List.append_assoc]
    apply opened.append
    exact (encloses_bracketed balanced).2 balanced_nil

/-- Any other character leaves the same brackets open. -/
lemma Opened.other {c : Char} (h : Opened text positions) (notOpen : c ≠ '[') (notClose : c ≠ ']') :
    Opened (text ++ [c]) positions := by
  apply h.append
  exact (encloses_other notOpen notClose).2 ⟨by simp, balanced_nil⟩

/-- What follows a text has to close the brackets that are open behind it. -/
lemma Opened.balanced_append_iff (h : Opened text positions) :
    Balanced (text ++ tail) ↔ Encloses [] positions.length tail := by
  induction h generalizing tail with
  | none balanced =>
    rw [Balanced, encloses_append balanced]
    exact and_iff_right balanced
  | bracket _ balanced ih =>
    rw [List.append_assoc, List.cons_append, ih, encloses_open]
    exact encloses_append_of_inside balanced

/-- No bracket is closed that was opened in front of a text. -/
lemma Opened.not_balanced {inner rest : List Char} (h : Opened text positions)
    (eq : text = inner ++ ']' :: rest) : ¬ Balanced inner := by
  subst eq
  intro balanced
  -- whatever would close the brackets that are open, the bracket after `inner` closes one too many
  obtain ⟨tail, closes⟩ := exists_encloses positions.length
  have whole := h.balanced_append_iff.2 closes
  rw [List.append_assoc, List.cons_append, Balanced, encloses_append balanced] at whole
  exact not_encloses_close whole.2

/-- Without a partner, the first of the brackets that are open is never closed. -/
lemma Opened.exists_first {first : Nat} (h : Opened text positions)
    (isFirst : positions.getLast? = some first) :
    ∃ before after later, text = before ++ '[' :: after ∧ Balanced before ∧
      Text.byteLength before = first ∧ Opened after later := by
  induction h with
  | none => cases isFirst
  | @bracket before inner positions opened balanced ih =>
    cases positions with
    | nil =>
      cases isFirst
      exact ⟨before, inner, [], rfl, opened.balanced, rfl, .none balanced⟩
    | cons position positions =>
      obtain ⟨start, after, later, rfl, balancedStart, length_eq, openedAfter⟩ := ih isFirst
      refine ⟨start, after ++ '[' :: inner, _, ?_, balancedStart, length_eq,
        .bracket openedAfter balanced⟩
      rw [List.append_assoc, List.cons_append]

/-- A text behind which brackets are open is not balanced. -/
lemma Opened.eq_nil_of_balanced (h : Opened text positions) (balanced : Balanced text) :
    positions = [] := by
  have whole : Balanced (text ++ []) := by rwa [List.append_nil]
  exact List.length_eq_zero_iff.1 (encloses_nil.1 (h.balanced_append_iff.1 whole))

/-- A bracket in front of a text has no partner in it. -/
def NeverCloses (after : List Char) : Prop :=
  ∀ inner rest, after = inner ++ ']' :: rest → ¬ Balanced inner

/-- Behind a bracket that is never closed no text is balanced. -/
lemma NeverCloses.not_balanced {before inner rest : List Char} (h : NeverCloses (inner ++ rest))
    (balanced : Balanced before) : ¬ Balanced (before ++ '[' :: inner) := by
  intro whole
  obtain ⟨body, tail, rfl, balancedBody⟩ := exists_interior ((encloses_append balanced).1 whole).2
  refine h body (tail ++ rest) ?_ balancedBody
  rw [List.append_assoc, List.cons_append]

/-- One bracket at most is never closed behind a balanced text. -/
lemma NeverCloses.unique {before after first second : List Char} (h : NeverCloses after)
    (other : NeverCloses second) (balanced : Balanced before) (balancedFirst : Balanced first)
    (same : before ++ '[' :: after = first ++ '[' :: second) : before = first := by
  obtain ⟨between, rfl, eq⟩ | ⟨between, rfl, eq⟩ := List.append_eq_append_iff.1 same
  · cases between with
    | nil => rw [List.append_nil]
    | cons c between =>
      obtain ⟨rfl, rfl⟩ := List.cons.inj eq
      exact absurd balancedFirst (h.not_balanced balanced)
  · cases between with
    | nil => rw [List.append_nil]
    | cons c between =>
      obtain ⟨rfl, rfl⟩ := List.cons.inj eq
      exact absurd balanced (other.not_balanced balancedFirst)

/-- A bracket without a partner is missed in the balance. -/
lemma Unpaired.not_balanced {position : Nat} (h : Unpaired text position) : ¬ Balanced text := by
  intro balanced
  cases h with
  | closing front => exact not_encloses_close ((encloses_append front).1 balanced).2
  | @opening before after front unclosed =>
    rw [← List.append_nil after] at unclosed
    exact NeverCloses.not_balanced unclosed front balanced

end ChoiceLang.Expression
