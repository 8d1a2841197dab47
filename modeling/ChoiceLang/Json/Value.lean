import ChoiceLang.Text.Quoted

/-!
# JSON values and their text

A JSON value with its object members in order, and its two written forms: on one line without
spaces, and spread over lines with an indentation of two spaces. Strings keep every character as
it is except the quote, the backslash and the controls below U+0020.
-/

namespace ChoiceLang

/-- A JSON value. Members of objects are in written order; numbers are integers. -/
inductive Json where
  | null
  | bool (value : Bool)
  | number (value : Int)
  | string (value : String)
  | array (items : List Json)
  | object (members : List (String × Json))

namespace Json

/-- What holds for a value if it holds for the items of the array or the values of the object that
it is holds for all. -/
@[elab_as_elim]
theorem induct {motive : Json → Prop} (null : motive null) (bool : ∀ b, motive (bool b))
    (number : ∀ n, motive (number n)) (string : ∀ s, motive (string s))
    (array : ∀ items, (∀ item ∈ items, motive item) → motive (array items))
    (object : ∀ members, (∀ member ∈ members, motive member.2) → motive (object members)) :
    ∀ value, motive value
  | .null => null
  | .bool b => bool b
  | .number n => number n
  | .string s => string s
  | .array items =>
    array items fun item mem =>
      have _ := List.sizeOf_lt_of_mem mem
      induct null bool number string array object item
  | .object members =>
    object members fun (key, value) mem =>
      have smaller := List.sizeOf_lt_of_mem mem
      have _ : sizeOf value < sizeOf (key, value) := by rw [Prod.mk.sizeOf_spec]; omega
      induct null bool number string array object value
termination_by value => sizeOf value

/-- The escaped form of one character of a string. -/
def escapedChar (c : Char) : List Char :=
  if c = '"' then ['\\', '"']
  else if c = '\\' then ['\\', '\\']
  else if c.toNat = 0x08 then ['\\', 'b']
  else if c.toNat = 0x09 then ['\\', 't']
  else if c.toNat = 0x0A then ['\\', 'n']
  else if c.toNat = 0x0C then ['\\', 'f']
  else if c.toNat = 0x0D then ['\\', 'r']
  else if c.toNat < 0x10 then ['\\', 'u', '0', '0', '0'] ++ Text.hexDigits c.toNat
  else if c.toNat < 0x20 then ['\\', 'u', '0', '0'] ++ Text.hexDigits c.toNat
  else [c]

/-- The written form of a string, between quotes. -/
def stringText (value : String) : List Char :=
  '"' :: value.toList.flatMap escapedChar ++ ['"']

/-- The written form of an integer. -/
def numberText : Int → List Char
  | .ofNat n => Nat.toDigits 10 n
  | .negSucc n => '-' :: Nat.toDigits 10 (n + 1)

/-- The written form of a truth value. -/
def boolText : Bool → List Char
  | true => ['t', 'r', 'u', 'e']
  | false => ['f', 'a', 'l', 's', 'e']

/-- The written form of null. -/
def nullText : List Char := ['n', 'u', 'l', 'l']

mutual

/-- The text of a value on one line. -/
def compactText : Json → List Char
  | null => nullText
  | bool b => boolText b
  | number n => numberText n
  | string s => stringText s
  | array items => '[' :: compactItems items ++ [']']
  | object members => '\x7b' :: compactMembers members ++ ['\x7d']

/-- The texts of the items of an array, with commas between them. -/
def compactItems : List Json → List Char
  | [] => []
  | [last] => last.compactText
  | item :: second :: others => item.compactText ++ ',' :: compactItems (second :: others)

/-- The texts of the members of an object, with commas between them. -/
def compactMembers : List (String × Json) → List Char
  | [] => []
  | [(key, value)] => stringText key ++ ':' :: value.compactText
  | (key, value) :: second :: others =>
    stringText key ++ ':' :: value.compactText ++ ',' :: compactMembers (second :: others)

end

/-- A line break and the indentation of a line at a depth of nesting. -/
def newLine (depth : Nat) : List Char := '\n' :: List.replicate (2 * depth) ' '

mutual

/-- The text of a value spread over lines; `depth` is the nesting of the line it starts on. -/
def prettyText (depth : Nat) : Json → List Char
  | null => nullText
  | bool b => boolText b
  | number n => numberText n
  | string s => stringText s
  | array [] => ['[', ']']
  | array (item :: others) =>
    '[' :: newLine (depth + 1) ++ item.prettyText (depth + 1) ++ prettyItems (depth + 1) others
      ++ newLine depth ++ [']']
  | object [] => ['\x7b', '\x7d']
  | object ((key, value) :: others) =>
    '\x7b' :: newLine (depth + 1) ++ stringText key ++ ':' :: ' ' :: value.prettyText (depth + 1)
      ++ prettyMembers (depth + 1) others ++ newLine depth ++ ['\x7d']

/-- The texts of the later items of an array, each after a comma and on its own line. -/
def prettyItems (depth : Nat) : List Json → List Char
  | [] => []
  | item :: others => ',' :: newLine depth ++ item.prettyText depth ++ prettyItems depth others

/-- The texts of the later members of an object, each after a comma and on its own line. -/
def prettyMembers (depth : Nat) : List (String × Json) → List Char
  | [] => []
  | (key, value) :: others =>
    ',' :: newLine depth ++ stringText key ++ ':' :: ' ' :: value.prettyText depth
      ++ prettyMembers depth others

end

/-- The text of a value on one line. -/
def compact (value : Json) : String := String.ofList value.compactText

/-- The text of a value spread over lines. -/
def pretty (value : Json) : String := String.ofList (value.prettyText 0)

end Json

end ChoiceLang
