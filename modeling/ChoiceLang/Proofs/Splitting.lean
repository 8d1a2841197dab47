import ChoiceLang.Proofs.Defects
import ChoiceLang.Proofs.Grammar
import Mathlib.Data.List.Induction

/-!
# Splitting up to the first defect

A text is split if it has no defect, and else rejected for the defect that comes first to a reader
from left to right. `StopsAt` says at which characters such a reader stops, and `FirstDefect` which
defect decides: the one at the first of these characters, or, where there is none, what is missing
at the end of the text.

A scan runs over a text at whose characters a reader does not stop. What it knows of the text then
(`Scanned`) is what decides about the next character, and so is kept from each to the next.
-/

namespace ChoiceLang.Expression

/-! ## Where reading stops -/

/-- Reading from left to right stops at a character: at a separator that ends an empty piece, or at
a closing bracket without a partner. -/
inductive StopsAt (operator : Operator) : List Char → Char → Defect → Prop where
  | leading :
    StopsAt operator [] operator.separator (.separator .leading 0)
  | consecutive {before} :
    Balanced before →
    StopsAt operator (before ++ [operator.separator]) operator.separator
      (.separator .consecutive (Text.byteLength (before ++ [operator.separator])))
  | closing {before} :
    Balanced before →
    StopsAt operator before ']' (.bracket (Text.byteLength before))

/-- Reading from left to right stops nowhere in a text. -/
def Passes (operator : Operator) (text : List Char) : Prop :=
  ∀ before c, before ++ [c] <+: text → ∀ defect, ¬ StopsAt operator before c defect

/-- The defect of a text that decides: the first at which reading stops, and where it does not stop,
what is missing at the end. -/
inductive FirstDefect (operator : Operator) : List Char → Defect → Prop where
  | empty :
    FirstDefect operator [] (.separator .emptyExpression 0)
  | stop {before c after defect} :
    Passes operator before →
    StopsAt operator before c defect →
    FirstDefect operator (before ++ c :: after) defect
  | opening {before after} :
    Passes operator (before ++ '[' :: after) →
    Balanced before →
    NeverCloses after →
    FirstDefect operator (before ++ '[' :: after) (.bracket (Text.byteLength before))
  | trailing {before} :
    Passes operator (before ++ [operator.separator]) →
    Balanced before →
    FirstDefect operator (before ++ [operator.separator])
      (.separator .trailing (Text.byteLength before))

section

variable {operator : Operator} {before : List Char} {c : Char} {defect : Defect}

/-- A text is passed if all of it up to the last character is, and the scan does not stop there. -/
lemma passes_concat :
    Passes operator (before ++ [c]) ↔
      Passes operator before ∧ ∀ defect, ¬ StopsAt operator before c defect := by
  constructor
  · intro h
    refine ⟨fun start d pre => h start d (pre.trans (List.prefix_append ..)), ?_⟩
    exact h before c (List.prefix_refl _)
  · rintro ⟨h, goesOn⟩ start d pre
    rcases List.prefix_concat_iff.1 pre with eq | pre
    · obtain ⟨rfl, same⟩ := List.append_inj' eq rfl
      rwa [(List.cons.inj same).1]
    · exact h start d pre

/-- Reading passes a text, or there is a character at which it first stops. -/
lemma passes_or_stops (operator : Operator) (text : List Char) :
    Passes operator text ∨ ∃ before c after defect, text = before ++ c :: after ∧
      Passes operator before ∧ StopsAt operator before c defect := by
  induction text using List.reverseRecOn with
  | nil => exact .inl fun before c pre => absurd (List.prefix_nil.1 pre) (by simp)
  | append_singleton before c ih =>
    rcases ih with passes | ⟨start, d, after, defect, rfl, passes, stops⟩
    · by_cases stops : ∃ defect, StopsAt operator before c defect
      · obtain ⟨defect, stops⟩ := stops
        exact .inr ⟨before, c, [], defect, rfl, passes, stops⟩
      · exact .inl (passes_concat.2 ⟨passes, not_exists.1 stops⟩)
    · exact .inr ⟨start, d, after ++ [c], defect, by simp, passes, stops⟩

/-! ## Scans -/

/-- A piece of a text starts at its start and behind each separator outside of brackets. -/
def PieceStarts (operator : Operator) (before : List Char) : Prop :=
  before = [] ∨ ∃ start, before = start ++ [operator.separator] ∧ Balanced start

/-- A piece starts behind a separator outside of brackets. -/
lemma pieceStarts_concat :
    PieceStarts operator (before ++ [c]) ↔ c = operator.separator ∧ Balanced before := by
  unfold PieceStarts
  constructor
  · rintro (eq | ⟨start, eq, balanced⟩)
    · exact absurd eq (by simp)
    · obtain ⟨rfl, same⟩ := List.append_inj' eq rfl
      exact ⟨(List.cons.inj same).1, balanced⟩
  · rintro ⟨rfl, balanced⟩
    exact .inr ⟨before, rfl, balanced⟩

/-- A piece starts outside of brackets. -/
lemma PieceStarts.balanced (h : PieceStarts operator before) : Balanced before := by
  obtain rfl | ⟨start, rfl, balanced⟩ := h
  · exact balanced_nil
  · refine (encloses_append balanced).2 ⟨balanced, ?_⟩
    exact (encloses_other (by simp) (by simp)).2 ⟨by simp, balanced_nil⟩

/-- A character adds its own length. -/
lemma byteLength_concat (before : List Char) (c : Char) :
    Text.byteLength (before ++ [c]) = Text.byteLength before + c.utf8Size := by
  simp [Text.byteLength_append, Text.byteLength]

/-- What a scan knows of the text that it has read. -/
structure Scanned (operator : Operator) (before : List Char) (opened : List Nat) (fresh : Bool) :
    Prop where
  opened : Opened before opened
  fresh : fresh = true ↔ PieceStarts operator before

variable {opened : List Nat} {fresh : Bool}

/-- Where reading stops a scan finds the defect. -/
lemma Scanned.scan_of_stopsAt (known : Scanned operator before opened fresh)
    (stops : StopsAt operator before c defect) (rest : List Char) :
    scan operator.separator (Text.byteLength before) opened fresh (c :: rest) = .error defect := by
  cases stops with
  | leading =>
    rw [known.opened.eq_nil_of_balanced balanced_nil, known.fresh.2 (.inl rfl)]
    simp [scan, emptyPiece, Text.byteLength]
  | @consecutive start balanced =>
    have starts : PieceStarts operator (start ++ [operator.separator]) :=
      pieceStarts_concat.2 ⟨rfl, balanced⟩
    have notFirst : Text.byteLength (start ++ [operator.separator]) ≠ 0 := by
      rw [byteLength_concat]
      exact Nat.ne_of_gt (Nat.add_pos_right _ operator.separator.utf8Size_pos)
    rw [known.opened.eq_nil_of_balanced starts.balanced, known.fresh.2 starts]
    simp only [scan, Operator.separator_ne_open, Operator.separator_ne_close, emptyPiece, notFirst,
      and_self, if_true, if_false]
  | closing balanced =>
    rw [known.opened.eq_nil_of_balanced balanced]
    rfl

/-- Where reading goes on so does a scan. -/
lemma Scanned.step (known : Scanned operator before opened fresh)
    (goesOn : ∀ defect, ¬ StopsAt operator before c defect) :
    ∃ openedNext freshNext, Scanned operator (before ++ [c]) openedNext freshNext ∧
      ∀ rest defect,
        scan operator.separator (Text.byteLength before) opened fresh (c :: rest) = .error defect ↔
        scan operator.separator (Text.byteLength (before ++ [c])) openedNext freshNext rest =
          .error defect := by
  rw [byteLength_concat]
  by_cases isOpen : c = '['
  · subst isOpen
    refine ⟨_, false, ⟨known.opened.opening, ?_⟩, fun _ _ => Except.map_eq_error_iff⟩
    rw [pieceStarts_concat]
    exact iff_of_false nofun fun starts => operator.separator_ne_open starts.1.symm
  by_cases isClose : c = ']'
  · subst isClose
    cases opened with
    | nil => exact absurd (.closing known.opened.balanced) (goesOn _)
    | cons first opened =>
      refine ⟨opened, false, ⟨known.opened.closing, ?_⟩, fun _ _ => Except.map_eq_error_iff⟩
      rw [pieceStarts_concat]
      exact iff_of_false nofun fun starts => operator.separator_ne_close starts.1.symm
  by_cases here : c = operator.separator ∧ opened = []
  · obtain ⟨rfl, rfl⟩ := here
    -- the piece that ends here is not empty, or reading would stop
    have stale : fresh = false := by
      rw [Bool.eq_false_iff]
      intro isFresh
      obtain rfl | ⟨start, rfl, balanced⟩ := known.fresh.1 isFresh
      · exact goesOn _ .leading
      · exact goesOn _ (.consecutive balanced)
    subst stale
    refine ⟨[], true, ⟨known.opened.other isOpen isClose, ?_⟩, fun rest defect => ?_⟩
    · rw [pieceStarts_concat]
      exact iff_of_true rfl ⟨rfl, known.opened.balanced⟩
    · rw [scan_separator]
      exact Except.map_eq_error_iff
  · refine ⟨opened, false, ⟨known.opened.other isOpen isClose, ?_⟩, fun rest defect => ?_⟩
    · rw [pieceStarts_concat]
      refine iff_of_false nofun fun starts => here ⟨starts.1, ?_⟩
      exact known.opened.eq_nil_of_balanced starts.2
    · rw [scan_other isOpen isClose here]
      exact Except.map_eq_error_iff

/-- A scan runs over a text that reading passes, and keeps what is wrong with the rest. -/
lemma Passes.exists_scanned (h : Passes operator before) :
    ∃ opened fresh, Scanned operator before opened fresh ∧
      ∀ rest defect,
        scan operator.separator 0 [] true (before ++ rest) = .error defect ↔
        scan operator.separator (Text.byteLength before) opened fresh rest = .error defect := by
  induction before using List.reverseRecOn with
  | nil =>
    refine ⟨[], true, ⟨.none balanced_nil, ?_⟩, fun _ _ => Iff.rfl⟩
    exact iff_of_true rfl (.inl rfl)
  | append_singleton before c ih =>
    obtain ⟨passes, goesOn⟩ := passes_concat.1 h
    obtain ⟨opened, fresh, known, same⟩ := ih passes
    obtain ⟨openedNext, freshNext, knownNext, sameNext⟩ := known.step goesOn
    refine ⟨openedNext, freshNext, knownNext, fun rest defect => ?_⟩
    rw [List.append_assoc, List.singleton_append, same, sameNext]

/-- At its end a scan finds the first bracket that is never closed. -/
lemma Scanned.scan_of_neverCloses {after : List Char}
    (known : Scanned operator (before ++ '[' :: after) opened fresh) (balanced : Balanced before)
    (unclosed : NeverCloses after) (position : Nat) :
    scan operator.separator position opened fresh [] =
      .error (.bracket (Text.byteLength before)) := by
  cases isFirst : opened.getLast? with
  | none =>
    have whole := known.opened
    rw [List.getLast?_eq_none_iff.1 isFirst] at whole
    rw [← List.append_nil after] at unclosed
    exact absurd whole.balanced (unclosed.not_balanced balanced)
  | some first =>
    obtain ⟨start, rest, later, eq, balancedStart, rfl, openedRest⟩ :=
      known.opened.exists_first isFirst
    have unclosedRest : NeverCloses rest := fun _ _ => openedRest.not_balanced
    rw [unclosed.unique unclosedRest balanced balancedStart eq]
    simp [scan, isFirst]

/-- At its end a scan finds the separator that nothing follows. -/
lemma Scanned.scan_of_trailing
    (known : Scanned operator (before ++ [operator.separator]) opened fresh)
    (balanced : Balanced before) :
    scan operator.separator (Text.byteLength (before ++ [operator.separator])) opened fresh [] =
      .error (.separator .trailing (Text.byteLength before)) := by
  have starts : PieceStarts operator (before ++ [operator.separator]) :=
    pieceStarts_concat.2 ⟨rfl, balanced⟩
  rw [known.opened.eq_nil_of_balanced starts.balanced, known.fresh.2 starts, byteLength_concat]
  simp [scan]

/-! ## The defect that decides -/

variable {text : List Char}

/-- What is wrong with a text that reading passes, a scan finds at its end. -/
lemma Passes.exists_scanned_end (h : Passes operator text) (some_text : text ≠ []) :
    ∃ opened fresh, Scanned operator text opened fresh ∧
      ∀ defect, split operator.separator text = .error defect ↔
        scan operator.separator (Text.byteLength text) opened fresh [] = .error defect := by
  obtain ⟨opened, fresh, known, same⟩ := h.exists_scanned
  refine ⟨opened, fresh, known, fun defect => ?_⟩
  rw [split_eq_map_scan some_text, Except.map_eq_error_iff, ← same, List.append_nil]

/-- Splitting finds the first defect. -/
lemma FirstDefect.split_eq_error (h : FirstDefect operator text defect) :
    split operator.separator text = .error defect := by
  cases h with
  | empty => rfl
  | @stop before c after defect passes stops =>
    obtain ⟨opened, fresh, known, same⟩ := passes.exists_scanned
    rw [split_eq_map_scan (by simp), Except.map_eq_error_iff, same]
    exact known.scan_of_stopsAt stops after
  | opening passes balanced unclosed =>
    obtain ⟨opened, fresh, known, same⟩ := passes.exists_scanned_end (by simp)
    exact (same _).2 (known.scan_of_neverCloses balanced unclosed _)
  | trailing passes balanced =>
    obtain ⟨opened, fresh, known, same⟩ := passes.exists_scanned_end (by simp)
    exact (same _).2 (known.scan_of_trailing balanced)

/-- A text that is not split has a first defect. -/
lemma exists_firstDefect (failed : ∀ pieces, split operator.separator text ≠ .ok pieces) :
    ∃ defect, FirstDefect operator text defect := by
  rcases passes_or_stops operator text with passes | ⟨before, c, after, defect, rfl, passes, stops⟩
  · by_cases some_text : text = []
    · subst some_text
      exact ⟨_, .empty⟩
    obtain ⟨opened, fresh, known, same⟩ := passes.exists_scanned_end some_text
    cases isFirst : opened.getLast? with
    | some first =>
      obtain ⟨start, after, later, rfl, balanced, rfl, openedAfter⟩ :=
        known.opened.exists_first isFirst
      exact ⟨_, .opening passes balanced fun _ _ => openedAfter.not_balanced⟩
    | none =>
      cases fresh with
      | true =>
        obtain rfl | ⟨start, rfl, balanced⟩ := known.fresh.1 rfl
        · exact absurd rfl some_text
        · exact ⟨_, .trailing passes balanced⟩
      | false =>
        obtain ⟨defect, found⟩ := Except.exists_error_of_ne_ok failed
        rw [same] at found
        simp [scan, isFirst] at found
  · exact ⟨defect, .stop passes stops⟩

/-- A text is rejected for its first defect and for no other. -/
lemma split_eq_error_iff :
    split operator.separator text = .error defect ↔ FirstDefect operator text defect := by
  constructor
  · intro found
    obtain ⟨first, isFirst⟩ := exists_firstDefect fun pieces ok => nomatch found.symm.trans ok
    rwa [Except.error.inj (found.symm.trans isFirst.split_eq_error)]
  · exact FirstDefect.split_eq_error

/-- The first defect of a text that is not empty is a defect of it. -/
lemma FirstDefect.hasDefect (some_text : text ≠ []) (h : FirstDefect operator text defect) :
    HasDefect operator text defect := by
  cases h with
  | empty => exact absurd rfl some_text
  | stop _ stops =>
    cases stops with
    | leading => exact .separator .leading
    | consecutive balanced =>
      rw [List.append_assoc]
      exact .separator (.consecutive balanced)
    | closing balanced => exact .bracket (.closing balanced)
  | opening _ balanced unclosed => exact .bracket (.opening balanced unclosed)
  | trailing _ balanced => exact .separator (.trailing balanced)

/-- A text that is not empty is split, or has a defect. -/
lemma hasDefect_of_split (some_text : text ≠ [])
    (h : split operator.separator text = .error defect) : HasDefect operator text defect :=
  (split_eq_error_iff.1 h).hasDefect some_text

/-- Next to an empty piece reading stops, or the text ends. -/
lemma EmptyPiece.exists_firstDefect {fault : SeparatorFault} {position : Nat}
    (h : EmptyPiece operator text fault position) : ∃ defect, FirstDefect operator text defect := by
  rcases passes_or_stops operator text with passes | ⟨before, c, after, defect, rfl, passes, stops⟩
  · cases h with
    | leading => exact absurd .leading (passes [] _ (List.prefix_append [_] _) _)
    | @consecutive before after balanced =>
      refine absurd (.consecutive balanced) (passes (before ++ [_]) _ ⟨after, ?_⟩ _)
      simp
    | trailing balanced => exact ⟨_, .trailing passes balanced⟩
  · exact ⟨defect, .stop passes stops⟩

/-- A text is split if and only if its brackets are balanced and none of its pieces is empty. -/
lemma exists_split_iff :
    (∃ pieces, split operator.separator text = .ok pieces) ↔
      text ≠ [] ∧ Balanced text ∧ ∀ fault position, ¬ EmptyPiece operator text fault position := by
  constructor
  · rintro ⟨pieces, found⟩
    have splits := split_eq_ok_iff.1 found
    refine ⟨splits.text_ne_nil, splits.balanced, fun fault position emptyPiece => ?_⟩
    obtain ⟨defect, first⟩ := emptyPiece.exists_firstDefect
    exact nomatch found.symm.trans first.split_eq_error
  · rintro ⟨some_text, balanced, noEmpty⟩
    by_contra failed
    obtain ⟨defect, first⟩ := exists_firstDefect (not_exists.1 failed)
    cases first.hasDefect some_text with
    | separator emptyPiece => exact noEmpty _ _ emptyPiece
    | bracket unpaired => exact unpaired.not_balanced balanced

end

/-- A character of a text stands at an offset in bytes. -/
def HoldsAt (text : List Char) (c : Char) (position : Nat) : Prop :=
  ∃ before after, text = before ++ c :: after ∧ (String.ofList before).utf8ByteSize = position

/-- The offset of a defect is that of the separator or bracket at fault. -/
def Defect.PointsInto (operator : Operator) (text : List Char) : Defect → Prop
  | separator _ position => HoldsAt text operator.separator position
  | bracket position => HoldsAt text '[' position ∨ HoldsAt text ']' position

/-- Only of an empty text the first defect points to no character. -/
lemma FirstDefect.pointsInto {operator : Operator} {text : List Char} {defect : Defect}
    (h : FirstDefect operator text defect) :
    (text = [] ∧ defect = .separator .emptyExpression 0) ∨ defect.PointsInto operator text := by
  have here (before after : List Char) (c : Char) :
      HoldsAt (before ++ c :: after) c (Text.byteLength before) :=
    ⟨before, after, rfl, Text.utf8ByteSize_ofList before⟩
  cases h with
  | empty => exact .inl ⟨rfl, rfl⟩
  | @stop before c after _ _ stops =>
    cases stops with
    | leading => exact .inr (here [] after _)
    | consecutive => exact .inr (here _ after _)
    | closing => exact .inr (.inr (here before after _))
  | @opening before after => exact .inr (.inl (here before after _))
  | @trailing before => exact .inr (here before [] _)

end ChoiceLang.Expression

namespace ChoiceLang

open Expression

/-- A text is split at a separator if and only if it is not empty, its brackets are balanced and no
piece of it is empty, and then into its pieces. Else it is rejected for its first defect from left
to right, at the offset of the separator or bracket that is at fault. -/
theorem Reader.splitAt_pieces_or_first_defect (operator : Operator) (text : List Char) :
    ((∃ pieces, splitAt operator text = .ok pieces) ↔
      text ≠ [] ∧ Balanced text ∧ ∀ fault position, ¬ EmptyPiece operator text fault position) ∧
    (∀ pieces, splitAt operator text = .ok pieces ↔ Splits operator text pieces) ∧
    (∀ rejection, splitAt operator text = .error rejection ↔
      ∃ defect, FirstDefect operator text defect ∧
        defect.rejection operator.separator text = rejection) ∧
    ∀ defect, FirstDefect operator text defect →
      (text = [] ∧ defect = .separator .emptyExpression 0) ∨ defect.PointsInto operator text := by
  refine ⟨?_, fun pieces => splitAt_eq_ok_iff, fun rejection => ?_, fun defect => ?_⟩
  · simp only [splitAt_eq_ok_iff, ← exists_split_iff, split_eq_ok_iff]
  · rw [splitAt, Except.mapError_eq_error_iff]
    simp only [split_eq_error_iff]
  · exact FirstDefect.pointsInto

-- offsets count bytes, and the bracket that is never closed comes second
example : Reader.splitAt .and "Épée,,Arc[".toList = .error (.separator .consecutive ',' 7) := by
  decide

end ChoiceLang
