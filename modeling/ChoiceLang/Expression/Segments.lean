import ChoiceLang.Rejection
import ChoiceLang.Text.Chars

/-!
# Segments of an expression

An expression is split at a separator wherever that stands outside of brackets. The brackets have
to be balanced and no piece may be empty; the first defect from left to right decides.
-/

namespace ChoiceLang.Expression

/-- Why a text cannot be split. -/
inductive Defect where
  | separator (fault : SeparatorFault) (position : Nat)
  | bracket (position : Nat)
deriving DecidableEq

/-- The rest of the piece that is being read, and the pieces after it. -/
structure Pieces where
  current : List Char
  later : List (List Char)
deriving DecidableEq

namespace Pieces

/-- Puts a character in front of the current piece. -/
def push (c : Char) (pieces : Pieces) : Pieces := ⟨c :: pieces.current, pieces.later⟩

/-- Starts a piece in front of all others. -/
def start (pieces : Pieces) : Pieces := ⟨[], pieces.current :: pieces.later⟩

/-- The pieces in order. -/
def toList (pieces : Pieces) : List (List Char) := pieces.current :: pieces.later

end Pieces

/-- The defect of a separator that ends an empty piece. -/
def emptyPiece (position : Nat) : Defect :=
  .separator (if position = 0 then .leading else .consecutive) position

/-- Splits the rest of a text. `position` is the offset of the rest, `opened` are the offsets of
the brackets that are open, the innermost first, and `fresh` tells whether the current piece is
still empty. -/
def scan (mark : Char) (position : Nat) (opened : List Nat) (fresh : Bool) :
    List Char → Except Defect Pieces
  | [] =>
    match opened.getLast? with
    | some first => .error (.bracket first)
    | none =>
      if fresh then .error (.separator .trailing (position - mark.utf8Size)) else .ok ⟨[], []⟩
  | c :: rest =>
    if c = '[' then
      (scan mark (position + c.utf8Size) (position :: opened) false rest).map (.push c)
    else if c = ']' then
      match opened with
      | [] => .error (.bracket position)
      | _ :: opened => (scan mark (position + c.utf8Size) opened false rest).map (.push c)
    else if c = mark ∧ opened = [] then
      if fresh then .error (emptyPiece position)
      else (scan mark (position + c.utf8Size) [] true rest).map .start
    else (scan mark (position + c.utf8Size) opened false rest).map (.push c)

/-- The pieces of a text between the marks outside of brackets. -/
def split (mark : Char) : List Char → Except Defect (List (List Char))
  | [] => .error (.separator .emptyExpression 0)
  | text => (scan mark 0 [] true text).map Pieces.toList

/-- A defect of a text as a rejection. -/
def Defect.rejection (mark : Char) (text : List Char) : Defect → Rejection
  | separator fault position => .separator fault mark position
  | bracket position => .unbalancedBrackets (String.ofList text) position

/-- The text before the bracket that closes the brackets open at its start, `depth` of them and
one more, and the text after that bracket. -/
def cutClose (depth : Nat) : List Char → Option (List Char × List Char)
  | [] => none
  | c :: rest =>
    if c = '[' then (cutClose (depth + 1) rest).map fun (inner, after) => (c :: inner, after)
    else if c = ']' then
      match depth with
      | 0 => some ([], rest)
      | depth + 1 => (cutClose depth rest).map fun (inner, after) => (c :: inner, after)
    else (cutClose depth rest).map fun (inner, after) => (c :: inner, after)

/-- What is pushed onto pieces comes first in the text they make up. -/
theorem joinWith_of_push {mark c : Char} {rest : List Char} {result : Except Defect Pieces}
    {pieces : Pieces}
    (ih : ∀ inner, result = .ok inner → Text.joinWith mark inner.toList = rest)
    (h : result.map (.push c) = .ok pieces) : Text.joinWith mark pieces.toList = c :: rest := by
  cases result with
  | error defect => cases h
  | ok inner =>
    cases h
    rw [← ih inner rfl]
    obtain ⟨current, later⟩ := inner
    cases later <;> rfl

/-- Splitting loses nothing but the marks. -/
theorem joinWith_of_scan {mark : Char} {position : Nat} {opened : List Nat} {fresh : Bool}
    {text : List Char} {pieces : Pieces}
    (h : scan mark position opened fresh text = .ok pieces) :
    Text.joinWith mark pieces.toList = text := by
  induction text generalizing position opened fresh pieces with
  | nil =>
    unfold scan at h
    split at h
    · cases h
    · split at h <;> cases h
      rfl
  | cons c rest ih =>
    unfold scan at h
    split at h
    · exact joinWith_of_push (fun _ => ih) h
    · split at h
      · split at h
        · cases h
        · exact joinWith_of_push (fun _ => ih) h
      · split at h
        · next here =>
          split at h
          · cases h
          · cases inner : scan mark (position + c.utf8Size) [] true rest with
            | error defect => rw [inner] at h; cases h
            | ok others =>
              rw [inner] at h
              cases h
              rw [here.1, ← ih inner]
              rfl
        · exact joinWith_of_push (fun _ => ih) h

/-- The pieces of a text joined with the mark are the text. -/
theorem joinWith_of_split {mark : Char} {text : List Char} {pieces : List (List Char)}
    (h : split mark text = .ok pieces) : Text.joinWith mark pieces = text := by
  unfold split at h
  split at h
  · cases h
  · cases scanned : scan mark 0 [] true text with
    | error defect => rw [scanned] at h; cases h
    | ok found =>
      rw [scanned] at h
      cases h
      exact joinWith_of_scan scanned

end ChoiceLang.Expression
