import ChoiceLang.Json.Number
import ChoiceLang.Text.Chars

/-!
# Words, numbers and strings of a JSON text

Each scanner reads one lexeme from the front of a text and gives it with the rest, or says that the
text is torn there. A reader that wants the value and one that skips over it do not find the same
fault in the same place: a skipped string may hold half of a surrogate pair, and a skipped number
that stops short is malformed even where the text ends. So a scan carries what each of them meets.
-/

namespace ChoiceLang.Json

/-- Why a text is no JSON: some character is wrong, or the text ends too early. -/
inductive Fault where
  | malformed
  | ended
deriving DecidableEq

/-- What a scan finds: a lexeme and the rest of the text, or a text that cannot be read on. `read`
is the fault for a reader of the value, `skipped` for one that skips it. -/
inductive Scan (α : Type) where
  | whole (value : α) (rest : List Char)
  | torn (read skipped : Fault)

namespace Scan

/-- Applies a function to the lexeme. -/
def map {α β : Type} (f : α → β) : Scan α → Scan β
  | whole value rest => .whole (f value) rest
  | torn read skipped => .torn read skipped

end Scan

/-- White space between lexemes. -/
def isSpace (c : Char) : Bool := c = ' ' || c = '\n' || c = '\t' || c = '\r'

/-- The text without the white space at its start. -/
def skipSpace (text : List Char) : List Char := text.dropWhile isSpace

/-- Reads the given word. -/
def scanWord {α : Type} (value : α) : List Char → List Char → Scan α
  | [], rest => .whole value rest
  | _ :: _, [] => .torn .ended .ended
  | expected :: word, c :: rest =>
    if c = expected then scanWord value word rest else .torn .malformed .malformed

/-! ## Numbers -/

/-- The value of a decimal digit. -/
def digitValue (c : Char) : Nat := c.toNat - '0'.toNat

/-- The digits at the start of a text. -/
def leadingDigits (text : List Char) : List Nat := (text.takeWhile Char.isDigit).map digitValue

/-- The text after the digits at its start. -/
def afterDigits (text : List Char) : List Char := text.dropWhile Char.isDigit

/-- Where a digit has to follow: the digits and the rest of the text. -/
def scanDigits (text : List Char) : Scan (List Nat) :=
  match text with
  | [] => .torn .ended .malformed
  | c :: _ =>
    if c.isDigit then .whole (leadingDigits text) (afterDigits text)
    else .torn .malformed .malformed

/-- Reads the whole part of a number. A zero at its start stands alone. -/
def scanWhole (text : List Char) : Scan (List Nat) :=
  match text with
  | '0' :: rest =>
    match rest with
    | c :: _ => if c.isDigit then .torn .malformed .malformed else .whole [0] rest
    | [] => .whole [0] rest
  | _ => scanDigits text

/-- Reads the exponent, if there is one. -/
def scanExponent (negative : Bool) (whole : List Nat) (fraction : Option (List Nat))
    (text : List Char) : Scan NumberText :=
  let after (sign : Bool) (rest : List Char) :=
    (scanDigits rest).map fun digits => ⟨negative, whole, fraction, some (sign, digits)⟩
  match text with
  | c :: rest =>
    if c = 'e' ∨ c = 'E' then
      match rest with
      | '+' :: digits => after false digits
      | '-' :: digits => after true digits
      | digits => after false digits
    else .whole ⟨negative, whole, fraction, none⟩ text
  | [] => .whole ⟨negative, whole, fraction, none⟩ text

/-- Reads the fraction, if there is one, and what follows it. -/
def scanFraction (negative : Bool) (whole : List Nat) (text : List Char) : Scan NumberText :=
  match text with
  | '.' :: rest =>
    match scanDigits rest with
    | .whole fraction rest => scanExponent negative whole (some fraction) rest
    | .torn read skipped => .torn read skipped
  | _ => scanExponent negative whole none text

/-- Reads a number. -/
def scanNumber (text : List Char) : Scan NumberText :=
  let unsigned (negative : Bool) (text : List Char) :=
    match scanWhole text with
    | .whole whole rest => scanFraction negative whole rest
    | .torn read skipped => .torn read skipped
  match text with
  | '-' :: rest => unsigned true rest
  | _ => unsigned false text

/-! ## Strings -/

/-- A string as scanned: its characters, or the fault for a reader of the value. -/
abbrev StringScan := Scan (Except Fault (List Char))

namespace StringScan

/-- Puts a character in front. -/
def push (c : Char) : StringScan → StringScan
  | .whole (.ok chars) rest => .whole (.ok (c :: chars)) rest
  | scan => scan

/-- Marks the string as one whose value cannot be read. -/
def spoil : StringScan → StringScan
  | .whole _ rest => .whole (.error .malformed) rest
  | .torn _ skipped => .torn .malformed skipped

end StringScan

/-- The value of a digit in base 16. -/
def hexValue? (c : Char) : Option Nat :=
  if c.isDigit then some (c.toNat - '0'.toNat)
  else if 'a' ≤ c ∧ c ≤ 'f' then some (c.toNat - 'a'.toNat + 10)
  else if 'A' ≤ c ∧ c ≤ 'F' then some (c.toNat - 'A'.toNat + 10)
  else none

/-- The number that four digits in base 16 stand for. -/
def hexUnit? (a b c d : Char) : Option Nat := do
  let a ← hexValue? a
  let b ← hexValue? b
  let c ← hexValue? c
  let d ← hexValue? d
  return ((a * 16 + b) * 16 + c) * 16 + d

/-- The character that a backslash and a letter stand for. -/
def escaped? (c : Char) : Option Char :=
  match c with
  | '"' => some '"'
  | '\\' => some '\\'
  | '/' => some '/'
  | 'b' => some (Char.ofNat 0x08)
  | 'f' => some (Char.ofNat 0x0C)
  | 'n' => some '\n'
  | 'r' => some '\r'
  | 't' => some '\t'
  | _ => none

/-- Whether a unit is the first half of a surrogate pair. -/
def isHighHalf (unit : Nat) : Bool := 0xD800 ≤ unit && unit ≤ 0xDBFF

/-- Whether a unit is the second half of a surrogate pair. -/
def isLowHalf (unit : Nat) : Bool := 0xDC00 ≤ unit && unit ≤ 0xDFFF

/-- The character of a surrogate pair. -/
def pairChar (high low : Nat) : Char :=
  Char.ofNat ((high - 0xD800) * 0x400 + (low - 0xDC00) + 0x10000)

/-- Reads the rest of a string after its opening quote. `high` is the first half of a surrogate
pair that was just read and waits for its second half. -/
def scanString (high : Option Nat) : List Char → StringScan
  | [] => .torn .ended .ended
  | '"' :: rest => .whole (if high.isSome then .error .malformed else .ok []) rest
  | '\\' :: 'u' :: a :: b :: c :: d :: rest =>
    match hexUnit? a b c d with
    | none => .torn .malformed .malformed
    | some unit =>
      match high with
      | some high =>
        if isLowHalf unit then (scanString none rest).push (pairChar high unit)
        else (scanString none rest).spoil
      | none =>
        if isHighHalf unit then scanString (some unit) rest
        else if isLowHalf unit then (scanString none rest).spoil
        else (scanString none rest).push (Char.ofNat unit)
  | '\\' :: 'u' :: short =>
    if Text.byteLength short < 4 then .torn .ended .ended else .torn .malformed .malformed
  | ['\\'] => .torn .ended .ended
  | '\\' :: c :: rest =>
    match escaped? c with
    | none => .torn .malformed .malformed
    | some escaped =>
      if high.isSome then (scanString none rest).spoil else (scanString none rest).push escaped
  | c :: rest =>
    if c.toNat < 0x20 then .torn .malformed .malformed
    else if high.isSome then (scanString none rest).spoil
    else (scanString none rest).push c

end ChoiceLang.Json
