import ChoiceLang.Expression.Segments
import ChoiceLang.Choice
import Mathlib.Tactic.Lemma

/-!
# Brackets

A text is balanced if none of its beginnings closes more brackets than it opens and if all of them
are closed at its end. `Encloses` says this of a text in front of which `depth` brackets are open,
and says besides that the separators of some operators stand only within brackets: a text without
such a separator on the outside is one piece of a level. With no operators it is balance alone.

Both parts are stated by counting brackets. The lemmas `encloses_nil` to `encloses_other` turn them
into a recursion over the text, and all that follows is proved from these.
-/

namespace ChoiceLang

/-- No separator is a bracket. -/
@[simp] lemma Operator.separator_ne_open (operator : Operator) : operator.separator ≠ '[' := by
  cases operator <;> decide

/-- No separator is a closing bracket. -/
@[simp] lemma Operator.separator_ne_close (operator : Operator) : operator.separator ≠ ']' := by
  cases operator <;> decide

namespace Expression

/-- The characters by which an expression is taken apart. -/
def marks : List Char := ['[', ']', '|', ',']

/-- What holds for the brackets and the separators holds for all marks. -/
lemma forall_marks {P : Char → Prop} : (∀ c ∈ marks, P c) ↔ P '[' ∧ P ']' ∧ P '|' ∧ P ',' := by
  simp [marks]

/-- The brackets of a text close `depth` earlier ones and each other, and the separators of the
operators stand within brackets. -/
structure Encloses (operators : List Operator) (depth : Nat) (text : List Char) : Prop where
  /-- No beginning closes more brackets than are open. -/
  never_below : ∀ before, before <+: text → before.count ']' ≤ depth + before.count '['
  /-- All brackets are closed in the end. -/
  all_closed : text.count ']' = depth + text.count '['
  /-- Wherever a separator stands a bracket is open. -/
  inside : ∀ operator ∈ operators, ∀ before after,
    text = before ++ operator.separator :: after → before.count ']' < depth + before.count '['

/-- The brackets of a text are balanced. -/
abbrev Balanced (text : List Char) : Prop := Encloses [] 0 text

variable {operators : List Operator} {depth : Nat} {text rest : List Char} {c : Char}

/-- Nothing is left to close in front of an empty text. -/
lemma encloses_nil : Encloses operators depth [] ↔ depth = 0 := by
  constructor
  · intro h
    simpa using h.all_closed.symm
  · rintro rfl
    refine ⟨?_, rfl, ?_⟩
    · intro before h
      rw [List.prefix_nil.1 h]
      simp
    · intro _ _ before after h
      exact absurd h (by simp)

/-- The first character of a text moves the depth for the rest of it. -/
lemma encloses_cons (later : Nat) (h : [c].count ']' + later = depth + [c].count '[') :
    Encloses operators depth (c :: rest) ↔
      (depth = 0 → ∀ operator ∈ operators, c ≠ operator.separator) ∧
        Encloses operators later rest := by
  have count_cons (a : Char) (before : List Char) :
      (c :: before).count a = [c].count a + before.count a := by
    rw [show c :: before = [c] ++ before from rfl, List.count_append]
  constructor
  · intro encl
    refine ⟨?_, ?_, ?_, ?_⟩
    · rintro rfl operator mem rfl
      exact absurd (encl.inside operator mem [] rest rfl) (by simp)
    · intro before pre
      have := encl.never_below (c :: before) ((List.prefix_cons_inj c).2 pre)
      rw [count_cons ']', count_cons '['] at this
      omega
    · have := encl.all_closed
      rw [count_cons ']', count_cons '['] at this
      omega
    · rintro operator mem before after rfl
      have := encl.inside operator mem (c :: before) after rfl
      rw [count_cons ']', count_cons '['] at this
      omega
  · rintro ⟨outside, encl⟩
    refine ⟨?_, ?_, ?_⟩
    · intro before pre
      obtain rfl | ⟨before, rfl, tail⟩ := List.prefix_cons_iff.1 pre
      · simp
      · have := encl.never_below before tail
        rw [count_cons ']', count_cons '[']
        omega
    · have := encl.all_closed
      rw [count_cons ']', count_cons '[']
      omega
    · intro operator mem before after eq
      cases before with
      | nil =>
        have open_ : depth ≠ 0 := fun zero => outside zero operator mem (List.cons.inj eq).1
        simp only [List.count_nil]
        omega
      | cons first before =>
        obtain ⟨rfl, rfl⟩ := List.cons.inj eq
        have := encl.inside operator mem before after rfl
        rw [count_cons ']', count_cons '[']
        omega

/-- An opening bracket is one more to close. -/
lemma encloses_open :
    Encloses operators depth ('[' :: rest) ↔ Encloses operators (depth + 1) rest := by
  rw [encloses_cons (depth + 1) (by simp)]
  exact and_iff_right fun _ operator _ => operator.separator_ne_open.symm

/-- A closing bracket closes one of those that are open. -/
lemma encloses_close :
    Encloses operators (depth + 1) (']' :: rest) ↔ Encloses operators depth rest := by
  rw [encloses_cons depth (by simp; omega)]
  exact and_iff_right fun zero => absurd zero (by omega)

/-- A closing bracket needs a partner. -/
lemma not_encloses_close : ¬ Encloses operators 0 (']' :: rest) := by
  intro h
  exact absurd (h.never_below [']'] (by simp)) (by decide)

/-- Any other character has to be within brackets only if it is a separator. -/
lemma encloses_other (notOpen : c ≠ '[') (notClose : c ≠ ']') :
    Encloses operators depth (c :: rest) ↔
      (depth = 0 → ∀ operator ∈ operators, c ≠ operator.separator) ∧
        Encloses operators depth rest :=
  encloses_cons depth (by simp [notOpen, notClose])

/-! ## Fewer and more operators -/

/-- What encloses the separators of some operators encloses those of fewer. -/
lemma Encloses.mono {fewer : List Operator} (h : Encloses operators depth text)
    (sub : ∀ operator ∈ fewer, operator ∈ operators) : Encloses fewer depth text where
  never_below := h.never_below
  all_closed := h.all_closed
  inside operator mem := h.inside operator (sub operator mem)

/-- A text that encloses separators closes its brackets. -/
lemma Encloses.closes (h : Encloses operators depth text) : Encloses [] depth text :=
  h.mono (by simp)

/-- Separators can be looked at one operator after the other. -/
lemma encloses_cons_iff {operator : Operator} :
    Encloses (operator :: operators) depth text ↔
      Encloses [operator] depth text ∧ Encloses operators depth text := by
  constructor
  · intro h
    exact ⟨h.mono (by simp), h.mono fun other mem => List.mem_cons_of_mem operator mem⟩
  · rintro ⟨first, others⟩
    refine ⟨first.never_below, first.all_closed, ?_⟩
    intro other mem
    rcases List.mem_cons.1 mem with rfl | mem
    · exact first.inside other (by simp)
    · exact others.inside other mem

/-! ## Texts one after the other -/

/-- Behind a text that closes what was open the brackets start anew. -/
lemma encloses_append {a b : List Char} (h : Encloses [] depth a) :
    Encloses operators depth (a ++ b) ↔
      Encloses operators depth a ∧ Encloses operators 0 b := by
  induction a generalizing depth with
  | nil =>
    cases encloses_nil.1 h
    simp [encloses_nil]
  | cons c a ih =>
    rw [List.cons_append]
    by_cases isOpen : c = '['
    · subst isOpen
      rw [encloses_open, encloses_open]
      exact ih (encloses_open.1 h)
    by_cases isClose : c = ']'
    · subst isClose
      cases depth with
      | zero => exact absurd h not_encloses_close
      | succ depth =>
        rw [encloses_close, encloses_close]
        exact ih (encloses_close.1 h)
    · rw [encloses_other isOpen isClose, encloses_other isOpen isClose, and_assoc]
      exact and_congr_right fun _ => ih ((encloses_other isOpen isClose).1 h).2

/-- Within more brackets a text that closes the others changes nothing. -/
lemma encloses_append_of_inside {a b : List Char} {later : Nat} (h : Encloses [] depth a) :
    Encloses operators (later + 1 + depth) (a ++ b) ↔ Encloses operators (later + 1) b := by
  induction a generalizing depth with
  | nil =>
    cases encloses_nil.1 h
    rfl
  | cons c a ih =>
    rw [List.cons_append]
    by_cases isOpen : c = '['
    · subst isOpen
      rw [encloses_open]
      exact ih (encloses_open.1 h)
    by_cases isClose : c = ']'
    · subst isClose
      cases depth with
      | zero => exact absurd h not_encloses_close
      | succ depth =>
        rw [← Nat.add_assoc, encloses_close]
        exact ih (encloses_close.1 h)
    · rw [encloses_other isOpen isClose, ih ((encloses_other isOpen isClose).1 h).2]
      exact and_iff_right fun zero => absurd zero (by omega)

/-- A balanced text between brackets hides all its separators. -/
lemma encloses_bracketed {inner : List Char} (h : Balanced inner) :
    Encloses operators 0 ('[' :: inner ++ ']' :: rest) ↔ Encloses operators 0 rest := by
  rw [List.cons_append, encloses_open]
  exact (encloses_append_of_inside h).trans encloses_close

/-- Without opening brackets there is nothing to hide a separator or to close. -/
lemma encloses_iff_not_mem (h : '[' ∉ text) :
    Encloses operators 0 text ↔
      ']' ∉ text ∧ ∀ operator ∈ operators, operator.separator ∉ text := by
  induction text with
  | nil => simp [encloses_nil]
  | cons c rest ih =>
    simp only [List.mem_cons, not_or] at h
    obtain ⟨notOpen, h⟩ := h
    by_cases isClose : c = ']'
    · subst isClose
      exact iff_of_false not_encloses_close (by simp)
    · rw [encloses_other (Ne.symm notOpen) isClose, ih h]
      simp only [List.mem_cons, not_or]
      constructor
      · rintro ⟨first, close, later⟩
        exact ⟨⟨Ne.symm isClose, close⟩,
          fun o mem => ⟨Ne.symm (first trivial o mem), later o mem⟩⟩
      · rintro ⟨⟨_, close⟩, all⟩
        exact ⟨fun _ o mem => Ne.symm (all o mem).1, close, fun o mem => (all o mem).2⟩

/-- Texts joined by the separator of another operator enclose what each of them encloses. -/
lemma encloses_joinWith {operator : Operator} {pieces : List (List Char)}
    (other : operator ∉ operators) (balanced : ∀ piece ∈ pieces, Balanced piece) :
    Encloses operators 0 (Text.joinWith operator.separator pieces) ↔
      ∀ piece ∈ pieces, Encloses operators 0 piece := by
  induction pieces with
  | nil => simp [Text.joinWith, encloses_nil]
  | cons piece pieces ih =>
    obtain ⟨here, later⟩ := List.forall_mem_cons.1 balanced
    cases pieces with
    | nil => simp [Text.joinWith]
    | cons next pieces =>
      have apart : ∀ o ∈ operators, operator.separator ≠ o.separator := by
        intro o mem eq
        exact other (Operator.separator_injective eq ▸ mem)
      rw [Text.joinWith, encloses_append here, encloses_other (by simp) (by simp), ih later,
        List.forall_mem_cons (a := piece)]
      exact and_congr_right fun _ => and_iff_right fun _ => apart

/-! ## The bracket that closes -/

/-- The bracket that closes the one after `depth` others is found, with `later` more to close. -/
lemma exists_close_of_encloses {later : Nat} (h : Encloses [] (depth + 1 + later) text) :
    ∃ inner rest, text = inner ++ ']' :: rest ∧ Encloses [] depth inner ∧
      Encloses [] later rest := by
  induction text generalizing depth with
  | nil => exact absurd (encloses_nil.1 h) (by omega)
  | cons c rest ih =>
    by_cases isOpen : c = '['
    · subst isOpen
      have inside : Encloses [] (depth + 1 + 1 + later) rest := by
        rw [Nat.add_right_comm (depth + 1) 1 later]
        exact encloses_open.1 h
      obtain ⟨inner, tail, rfl, closes, after⟩ := ih inside
      exact ⟨'[' :: inner, tail, rfl, encloses_open.2 closes, after⟩
    by_cases isClose : c = ']'
    · subst isClose
      rw [Nat.add_right_comm] at h
      have behind := encloses_close.1 h
      cases depth with
      | zero =>
        rw [Nat.zero_add] at behind
        exact ⟨[], rest, rfl, encloses_nil.2 rfl, behind⟩
      | succ depth =>
        obtain ⟨inner, tail, rfl, closes, after⟩ := ih behind
        exact ⟨']' :: inner, tail, rfl, encloses_close.2 closes, after⟩
    · obtain ⟨inner, tail, rfl, closes, after⟩ := ih ((encloses_other isOpen isClose).1 h).2
      exact ⟨c :: inner, tail, rfl, (encloses_other isOpen isClose).2 ⟨by simp, closes⟩, after⟩

/-- A bracket is closed where the text goes on with one that needs no partner before it. -/
lemma exists_interior (h : Encloses [] depth ('[' :: text)) :
    ∃ inner rest, text = inner ++ ']' :: rest ∧ Balanced inner := by
  have inside : Encloses [] (0 + 1 + depth) text := by
    rw [Nat.zero_add, Nat.add_comm]
    exact encloses_open.1 h
  obtain ⟨inner, rest, eq, balanced, -⟩ := exists_close_of_encloses inside
  exact ⟨inner, rest, eq, balanced⟩

/-- A text is cut at the bracket before which exactly the brackets after the first are closed. -/
theorem cutClose_eq_some_iff {inner after : List Char} :
    cutClose depth text = some (inner, after) ↔
      text = inner ++ ']' :: after ∧ Encloses [] depth inner := by
  induction text generalizing depth inner with
  | nil => simp [cutClose]
  | cons c rest ih =>
    -- every character but the bracket looked for belongs to the text in front of it
    have push {later : Nat} (ne : ¬ (c = ']' ∧ depth = 0))
        (step : ∀ tail, Encloses [] depth (c :: tail) ↔ Encloses [] later tail) :
        ((cutClose later rest).map fun cut => (c :: cut.1, cut.2)) = some (inner, after) ↔
          c :: rest = inner ++ ']' :: after ∧ Encloses [] depth inner := by
      constructor
      · intro h
        obtain ⟨⟨tail, _⟩, cut, eq⟩ := Option.map_eq_some_iff.1 h
        cases eq
        obtain ⟨rfl, encl⟩ := ih.1 cut
        exact ⟨rfl, (step tail).2 encl⟩
      · rintro ⟨eq, encl⟩
        cases inner with
        | nil => exact absurd ⟨(List.cons.inj eq).1, encloses_nil.1 encl⟩ ne
        | cons first tail =>
          obtain ⟨rfl, rfl⟩ := List.cons.inj eq
          rw [ih.2 ⟨rfl, (step tail).1 encl⟩]
          rfl
    by_cases isOpen : c = '['
    · subst isOpen
      unfold cutClose
      rw [if_pos rfl]
      exact push (by simp) fun _ => encloses_open
    by_cases isClose : c = ']'
    · subst isClose
      unfold cutClose
      rw [if_neg isOpen, if_pos rfl]
      cases depth with
      | succ depth => exact push (by simp) fun _ => encloses_close
      | zero =>
        constructor
        · rintro ⟨⟩
          exact ⟨rfl, encloses_nil.2 rfl⟩
        · rintro ⟨eq, encl⟩
          cases inner with
          | nil => rw [(List.cons.inj eq).2]
          | cons first tail =>
            obtain ⟨rfl, -⟩ := List.cons.inj eq
            exact absurd encl not_encloses_close
    · unfold cutClose
      rw [if_neg isOpen, if_neg isClose]
      refine push (fun h => isClose h.1) fun tail => ?_
      rw [encloses_other isOpen isClose]
      simp

end Expression

end ChoiceLang
