import ChoiceLang.Json.Lexeme

/-!
# JSON documents, read as far as they go

A text is read into a tree that also says where reading stopped: a value that is torn or missing,
or a list of items or members that is not closed. Nothing is rejected here. Who looks at the tree
from left to right meets a wrong value before a fault that comes after it in the text.
-/

namespace ChoiceLang.Json

/-- What was read where a value has to stand. -/
inductive Document where
  /-- The text ends before the value. -/
  | missing
  /-- No value can be read: a word or number stops short, or a character starts no value. -/
  | torn (read skipped : Fault)
  /-- A string without its closing quote or with a wrong escape. -/
  | tornString (read skipped : Fault)
  | null
  | bool (value : Bool)
  | number (text : NumberText)
  /-- A closed string; it has no value if it holds half of a surrogate pair. -/
  | string (value : Except Fault String)
  /-- An array; `ending` is the fault met in place of the closing bracket. -/
  | array (items : List Document) (ending : Option Fault)
  /-- An object; a member is what stands in the places of its key and of its value. `ending` is
  the fault met in place of the closing brace. -/
  | object (members : List (Document × Document)) (ending : Option Fault)

namespace Document

/-- A value and the text after it; no text where reading cannot go on. -/
abbrev Reading := Document × Option (List Char)

/-- The reading that a scan gives. -/
def ofScan {α : Type} (value : α → Document) (torn : Fault → Fault → Document) :
    Scan α → Reading
  | .whole lexeme rest => (value lexeme, some rest)
  | .torn read skipped => (torn read skipped, none)

/-- Reads a lexeme that is no bracket and no brace. -/
def readScalar (text : List Char) : Reading :=
  match text with
  | [] => (missing, none)
  | c :: rest =>
    if c = '"' then
      ofScan (fun value => .string (value.map String.ofList)) tornString (scanString none rest)
    else if c = '-' ∨ c.isDigit then ofScan number torn (scanNumber text)
    else if c = 'n' then ofScan id torn (scanWord null ['n', 'u', 'l', 'l'] text)
    else if c = 't' then ofScan id torn (scanWord (bool true) ['t', 'r', 'u', 'e'] text)
    else if c = 'f' then ofScan id torn (scanWord (bool false) ['f', 'a', 'l', 's', 'e'] text)
    else (torn .malformed .malformed, none)

mutual

/-- Reads a value after white space. -/
def read : Nat → List Char → Reading
  | 0, _ => (torn .malformed .malformed, none)
  | fuel + 1, text =>
    match skipSpace text with
    | '[' :: rest =>
      match skipSpace rest with
      | ']' :: rest => (array [] none, some rest)
      | rest =>
        let (items, ending, rest) := readItems fuel rest
        (array items ending, rest)
    | '\x7b' :: rest =>
      match skipSpace rest with
      | '\x7d' :: rest => (object [] none, some rest)
      | rest =>
        let (members, ending, rest) := readMembers fuel rest
        (object members ending, rest)
    | text => readScalar text

/-- Reads the items of an array, up to its closing bracket. -/
def readItems : Nat → List Char → List Document × Option Fault × Option (List Char)
  | 0, _ => ([], some .malformed, none)
  | fuel + 1, text =>
    match read fuel text with
    | (item, none) => ([item], some .malformed, none)
    | (item, some rest) =>
      match skipSpace rest with
      | [] => ([item], some .ended, none)
      | c :: rest =>
        if c = ',' then
          let (items, ending, rest) := readItems fuel rest
          (item :: items, ending, rest)
        else if c = ']' then ([item], none, some rest)
        else ([item], some .malformed, none)

/-- Reads the members of an object, up to its closing brace. -/
def readMembers : Nat → List Char → List (Document × Document) × Option Fault × Option (List Char)
  | 0, _ => ([], some .malformed, none)
  | fuel + 1, text =>
    match read fuel text with
    | (key, none) => ([(key, torn .malformed .malformed)], some .malformed, none)
    | (key, some rest) =>
      match skipSpace rest with
      | [] => ([(key, missing)], some .malformed, none)
      | c :: rest =>
        if c ≠ ':' then ([(key, torn .malformed .malformed)], some .malformed, none)
        else
          match read fuel rest with
          | (value, none) => ([(key, value)], some .malformed, none)
          | (value, some rest) =>
            match skipSpace rest with
            | [] => ([(key, value)], some .ended, none)
            | c :: rest =>
              if c = ',' then
                let (members, ending, rest) := readMembers fuel rest
                ((key, value) :: members, ending, rest)
              else if c = '\x7d' then ([(key, value)], none, some rest)
              else ([(key, value)], some .malformed, none)

end

/-- Reads the value at the start of a text. Each value and each item takes one character at least,
so that twice the length of the text is fuel enough. -/
def ofText (text : List Char) : Reading := read (2 * text.length + 2) text

/-- Skips over a key, which has to be a string. -/
def skipKey : Document → Except Fault Unit
  | string _ => .ok ()
  | tornString _ skipped => .error skipped
  | missing => .error .ended
  | _ => .error .malformed

/-- The end of an array or object. -/
def close : Option Fault → Except Fault Unit
  | none => .ok ()
  | some fault => .error fault

mutual

/-- Skips over a value: it may be anything, but has to be there and be whole. -/
def skip : Document → Except Fault Unit
  | missing => .error .ended
  | torn _ skipped => .error skipped
  | tornString _ skipped => .error skipped
  | null | bool _ | number _ | string _ => .ok ()
  | array items ending => do
    skipItems items
    close ending
  | object members ending => do
    skipMembers members
    close ending

/-- Skips over the items of an array. -/
def skipItems : List Document → Except Fault Unit
  | [] => .ok ()
  | item :: items => do
    item.skip
    skipItems items

/-- Skips over the members of an object. -/
def skipMembers : List (Document × Document) → Except Fault Unit
  | [] => .ok ()
  | (key, value) :: members => do
    skipKey key
    value.skip
    skipMembers members

end

end Document

end ChoiceLang.Json
