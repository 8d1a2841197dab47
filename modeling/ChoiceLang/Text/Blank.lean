/-!
# White space

The characters with the Unicode property White_Space, and the text without those at its ends.
-/

namespace ChoiceLang.Text

/-- The ranges of code points with the property White_Space, ends included, in order. -/
def blankRanges : List (Nat × Nat) :=
  [(0x09, 0x0D), (0x20, 0x20), (0x85, 0x85), (0xA0, 0xA0), (0x1680, 0x1680), (0x2000, 0x200A),
   (0x2028, 0x2029), (0x202F, 0x202F), (0x205F, 0x205F), (0x3000, 0x3000)]

/-- Whether a character is white space. -/
def isBlank (c : Char) : Bool :=
  blankRanges.any fun (first, last) => first ≤ c.toNat && c.toNat ≤ last

/-- The text without the white space at its start. -/
def trimStart (text : List Char) : List Char := text.dropWhile isBlank

/-- The text without the white space at its end. -/
def trimEnd (text : List Char) : List Char := (text.reverse.dropWhile isBlank).reverse

/-- The text without the white space at its ends. -/
def trim (text : List Char) : List Char := trimEnd (trimStart text)

/-- The property has 25 characters. -/
example : (blankRanges.map fun (first, last) => last + 1 - first).sum = 25 := rfl

end ChoiceLang.Text
