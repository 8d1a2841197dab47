import ChoiceLang.Text.Blank
import ChoiceLang.Text.Chars

/-!
# Lines with content

A file is read line by line. Lines end at line feeds and are counted from one; white space around
a line does not matter, and a line that is then empty or starts with `#` says nothing.
-/

namespace ChoiceLang.Text

/-- A line of a file: its number, counted from one, and its text without the white space around
it. -/
structure Line where
  number : Nat
  text : List Char
deriving DecidableEq

/-- Whether a trimmed line says something: it is neither empty nor a comment. -/
def hasContent : List Char → Bool
  | [] => false
  | c :: _ => c ≠ '#'

/-- All lines of a file, trimmed and numbered. -/
def lines (text : List Char) : List Line :=
  ((pieces '\n' text).zipIdx 1).map fun (line, number) => ⟨number, trim line⟩

/-- The lines of a file that say something, with the numbers they have in the file. -/
def linesWithContent (text : List Char) : List Line :=
  (lines text).filter fun line => hasContent line.text

end ChoiceLang.Text
