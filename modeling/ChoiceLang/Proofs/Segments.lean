import ChoiceLang.Proofs.Brackets
import ChoiceLang.Proofs.Outcomes
import ChoiceLang.Proofs.Texts

/-!
# Segments

Splitting a text cuts it exactly at the separators outside of its brackets. `Splits` says so without
a scan: the pieces joined by the separator are the text, each of them is balanced, so that every cut
lies outside of brackets, and none has a separator of its own outside of brackets, so that no cut is
missing. `split_eq_ok_iff` is the main statement: a text is split into some pieces if and only if
they are its pieces in this sense, which also makes them unique.

The scan is followed in both directions. `encloses_of_scan` reads the properties of the pieces off a
scan that ends well, and `scan_append` lets a scan run over a piece that has these properties.
-/

namespace ChoiceLang.Expression

/-- A text consists of pieces, between the separators outside of its brackets. -/
structure Splits (operator : Operator) (text : List Char) (pieces : List (List Char)) : Prop where
  /-- The brackets of the text are balanced. -/
  balanced : Balanced text
  /-- Nothing but the separators stands between the pieces. -/
  joined : Text.joinWith operator.separator pieces = text
  /-- There is a piece. -/
  some_piece : pieces ≠ []
  /-- No piece is empty. -/
  some_text : ∀ piece ∈ pieces, piece ≠ []
  /-- Each piece is balanced and has separators only within brackets. -/
  encloses : ∀ piece ∈ pieces, Encloses [operator] 0 piece

variable {operator : Operator} {text : List Char} {pieces : List (List Char)}

/-! ## What a scan finds -/

/-- What a scan finds are pieces, the first of which closes the brackets that are open. -/
lemma encloses_of_scan {position : Nat} {opened : List Nat} {fresh : Bool} {found : Pieces}
    (h : scan operator.separator position opened fresh text = .ok found) :
    (fresh = true → found.current ≠ []) ∧ Encloses [operator] opened.length found.current ∧
      ∀ piece ∈ found.later, piece ≠ [] ∧ Encloses [operator] 0 piece := by
  induction text generalizing position opened fresh found with
  | nil =>
    unfold scan at h
    split at h
    · cases h
    · next none =>
      cases fresh with
      | true => cases h
      | false =>
        cases h
        rw [List.getLast?_eq_none_iff.1 none]
        exact ⟨nofun, encloses_nil.2 rfl, by simp⟩
  | cons c rest ih =>
    unfold scan at h
    split at h
    · next isOpen =>
      obtain ⟨inner, scanned, rfl⟩ := Except.map_eq_ok_iff.1 h
      obtain ⟨-, current, later⟩ := ih scanned
      subst isOpen
      exact ⟨fun _ => List.cons_ne_nil _ _, encloses_open.2 current, later⟩
    · next notOpen =>
      split at h
      · next isClose =>
        split at h
        · cases h
        · obtain ⟨inner, scanned, rfl⟩ := Except.map_eq_ok_iff.1 h
          obtain ⟨-, current, later⟩ := ih scanned
          subst isClose
          exact ⟨fun _ => List.cons_ne_nil _ _, encloses_close.2 current, later⟩
      · next notClose =>
        split at h
        · next here =>
          obtain ⟨rfl, rfl⟩ := here
          split at h
          · cases h
          · next stale =>
            obtain ⟨inner, scanned, rfl⟩ := Except.map_eq_ok_iff.1 h
            obtain ⟨some_text, current, later⟩ := ih scanned
            refine ⟨fun isFresh => absurd isFresh stale, encloses_nil.2 rfl, ?_⟩
            exact List.forall_mem_cons.2 ⟨⟨some_text rfl, current⟩, later⟩
        · next elsewhere =>
          obtain ⟨inner, scanned, rfl⟩ := Except.map_eq_ok_iff.1 h
          obtain ⟨-, current, later⟩ := ih scanned
          refine ⟨fun _ => List.cons_ne_nil _ _, ?_, later⟩
          refine (encloses_other notOpen notClose).2 ⟨?_, current⟩
          intro closed other mem eq
          rw [List.mem_singleton.1 mem] at eq
          exact elsewhere ⟨eq, List.length_eq_zero_iff.1 closed⟩

/-! ## A scan over a piece -/

section Steps

variable {position : Nat} {opened : List Nat} {fresh : Bool} {rest : List Char} {c : Char}

/-- A scan goes on behind an opening bracket with one more to close. -/
lemma scan_open :
    scan operator.separator position opened fresh ('[' :: rest) =
      (scan operator.separator (position + '['.utf8Size) (position :: opened) false rest).map
        (.push '[') := rfl

/-- A scan goes on behind a closing bracket without its partner. -/
lemma scan_close {first : Nat} :
    scan operator.separator position (first :: opened) fresh (']' :: rest) =
      (scan operator.separator (position + ']'.utf8Size) opened false rest).map (.push ']') := rfl

/-- A separator outside of brackets ends a piece. -/
lemma scan_separator :
    scan operator.separator position [] false (operator.separator :: rest) =
      (scan operator.separator (position + operator.separator.utf8Size) [] true rest).map
        .start := by
  conv => lhs; unfold scan
  simp

/-- Every other character belongs to the current piece. -/
lemma scan_other (notOpen : c ≠ '[') (notClose : c ≠ ']')
    (inside : ¬ (c = operator.separator ∧ opened = [])) :
    scan operator.separator position opened fresh (c :: rest) =
      (scan operator.separator (position + c.utf8Size) opened false rest).map (.push c) := by
  conv => lhs; unfold scan
  rw [if_neg notOpen, if_neg notClose, if_neg inside]

end Steps

/-- Puts a text in front of the current piece. -/
def Pieces.prepend (text : List Char) (pieces : Pieces) : Pieces :=
  ⟨text ++ pieces.current, pieces.later⟩

/-- A scan runs over a piece up to its end, where all brackets are closed. -/
lemma scan_append {piece : List Char} (opened : List Nat)
    (h : Encloses [operator] opened.length piece) (position : Nat) (fresh : Bool)
    (tail : List Char) :
    scan operator.separator position opened fresh (piece ++ tail) =
      (scan operator.separator (position + Text.byteLength piece) [] (fresh && piece.isEmpty)
        tail).map (.prepend piece) := by
  induction piece generalizing opened position fresh with
  | nil =>
    rw [List.length_eq_zero_iff.1 (encloses_nil.1 h)]
    cases fresh <;> exact (congrFun Except.map_id _).symm
  | cons c piece ih =>
    -- behind its first character the piece is not empty any more, whatever `fresh` was before
    have push (later : List Nat) (closes : Encloses [operator] later.length piece) :
        (scan operator.separator (position + c.utf8Size) later false (piece ++ tail)).map
            (Pieces.push c) =
          (scan operator.separator (position + Text.byteLength (c :: piece)) []
            (fresh && (c :: piece).isEmpty) tail).map (Pieces.prepend (c :: piece)) := by
      rw [ih later closes, Except.map_map, Text.byteLength, ← Nat.add_assoc]
      cases fresh <;> rfl
    rw [List.cons_append]
    by_cases isOpen : c = '['
    · subst isOpen
      rw [scan_open]
      exact push (position :: opened) (encloses_open.1 h)
    by_cases isClose : c = ']'
    · subst isClose
      cases opened with
      | nil => exact absurd h not_encloses_close
      | cons first opened =>
        rw [scan_close]
        exact push opened (encloses_close.1 h)
    · obtain ⟨outside, closes⟩ := (encloses_other isOpen isClose).1 h
      rw [scan_other isOpen isClose]
      · exact push opened closes
      · rintro ⟨isMark, rfl⟩
        exact outside rfl operator (by simp) isMark

/-- A scan finds the pieces of which a text was put together. -/
lemma scan_joinWith {piece : List Char} (position : Nat)
    (some_text : ∀ p ∈ piece :: pieces, p ≠ [])
    (encloses : ∀ p ∈ piece :: pieces, Encloses [operator] 0 p) :
    scan operator.separator position [] true (Text.joinWith operator.separator (piece :: pieces)) =
      .ok ⟨piece, pieces⟩ := by
  obtain ⟨c, rest, rfl⟩ := List.exists_cons_of_ne_nil (some_text piece (by simp))
  induction pieces generalizing c rest position with
  | nil =>
    have scanned := scan_append [] (encloses (c :: rest) (by simp)) position true []
    rw [List.append_nil] at scanned
    rw [Text.joinWith, scanned]
    simp [scan, Except.map, Pieces.prepend]
  | cons next pieces ih =>
    obtain ⟨d, tail, rfl⟩ := List.exists_cons_of_ne_nil (some_text next (by simp))
    rw [Text.joinWith, scan_append [] (encloses (c :: rest) (by simp)) position true]
    simp only [List.isEmpty_cons, Bool.and_false]
    rw [scan_separator, ih _ d tail (fun p mem => some_text p (List.mem_cons_of_mem _ mem))
      (fun p mem => encloses p (List.mem_cons_of_mem _ mem))]
    simp [Except.map, Pieces.prepend, Pieces.start]

/-! ## Splitting -/

/-- A text that is not empty is split by a scan. -/
lemma split_eq_map_scan {mark : Char} (h : text ≠ []) :
    split mark text = (scan mark 0 [] true text).map Pieces.toList := by
  cases text with
  | nil => exact absurd rfl h
  | cons c rest => rfl

/-- A text that consists of pieces is not empty. -/
lemma Splits.text_ne_nil (h : Splits operator text pieces) : text ≠ [] := by
  obtain ⟨piece, others, rfl⟩ := List.exists_cons_of_ne_nil h.some_piece
  rw [← h.joined]
  exact Text.joinWith_ne_nil (h.some_text piece (by simp))

/-- Pieces make up the text that they are joined to. -/
lemma splits_joinWith (some_piece : pieces ≠ []) (some_text : ∀ piece ∈ pieces, piece ≠ [])
    (encloses : ∀ piece ∈ pieces, Encloses [operator] 0 piece) :
    Splits operator (Text.joinWith operator.separator pieces) pieces where
  balanced :=
    (encloses_joinWith (by simp) fun piece mem => (encloses piece mem).closes).2
      fun piece mem => (encloses piece mem).closes
  joined := rfl
  some_piece := some_piece
  some_text := some_text
  encloses := encloses

/-- A text is split into its pieces and into nothing else. -/
theorem split_eq_ok_iff :
    split operator.separator text = .ok pieces ↔ Splits operator text pieces := by
  constructor
  · intro h
    have joined := joinWith_of_split h
    cases text with
    | nil => cases h
    | cons c rest =>
      rw [split_eq_map_scan (List.cons_ne_nil c rest)] at h
      obtain ⟨found, scanned, rfl⟩ := Except.map_eq_ok_iff.1 h
      obtain ⟨fresh, current, later⟩ := encloses_of_scan scanned
      rw [← joined]
      apply splits_joinWith
      · exact List.cons_ne_nil _ _
      · exact List.forall_mem_cons.2 ⟨fresh rfl, fun piece mem => (later piece mem).1⟩
      · exact List.forall_mem_cons.2 ⟨current, fun piece mem => (later piece mem).2⟩
  · intro h
    obtain ⟨piece, others, rfl⟩ := List.exists_cons_of_ne_nil h.some_piece
    rw [split_eq_map_scan h.text_ne_nil, ← h.joined, scan_joinWith 0 h.some_text h.encloses]
    rfl

end ChoiceLang.Expression
