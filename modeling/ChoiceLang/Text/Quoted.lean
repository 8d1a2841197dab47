import ChoiceLang.Text.Unprintable

/-!
# Quoted texts

The form in which a text is shown inside a description of a value: between double quotes, with a
backslash form for the quote, the backslash, the common controls and every character that has no
shape of its own.
-/

namespace ChoiceLang.Text

/-- The digits of a number in base 16, lower case, without leading zeros. -/
def hexDigits (n : Nat) : List Char := Nat.toDigits 16 n

/-- The quoted form of one character. -/
def quotedChar (c : Char) : List Char :=
  if c = '"' then ['\\', '"']
  else if c = '\\' then ['\\', '\\']
  else if c = '\t' then ['\\', 't']
  else if c = '\n' then ['\\', 'n']
  else if c = '\r' then ['\\', 'r']
  else if c.toNat = 0 then ['\\', '0']
  else if needsNumber c then ['\\', 'u', '\x7b'] ++ hexDigits c.toNat ++ ['\x7d']
  else [c]

/-- The quoted form of a text. -/
def quoted (text : List Char) : List Char :=
  '"' :: text.flatMap quotedChar ++ ['"']

end ChoiceLang.Text
