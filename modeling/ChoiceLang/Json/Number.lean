import ChoiceLang.Decimal.Shortest

/-!
# Numbers of a JSON text

A number is kept as it was written: sign, digits, fraction and exponent. Its value is an integer
of 64 bits where it is written as one and fits, and otherwise a double; a number beyond the
doubles has no value.
-/

namespace ChoiceLang.Json

/-- A number as written. `fraction` is the list of digits after the point, if there is one, and
`exponent` the sign (`true` if negative) and the digits of the exponent. -/
structure NumberText where
  negative : Bool
  whole : List Nat
  fraction : Option (List Nat)
  exponent : Option (Bool × List Nat)
deriving DecidableEq

/-- The value of a number. -/
inductive Number where
  | integer (value : Int)
  | double (value : Float)

namespace Number

/-- The largest number that a significand holds. -/
def significandLimit : Nat := Decimal.twoTo 64 - 1

/-- The significand and the decimal exponent after the whole digits. From the first digit that no
longer fits, each digit only raises the exponent. -/
def readWhole (significand : Nat) : List Nat → Nat × Int
  | [] => (significand, 0)
  | digit :: rest =>
    if significand * 10 + digit ≤ significandLimit then readWhole (significand * 10 + digit) rest
    else (significand, rest.length + 1)

/-- The significand and the decimal exponent after the digits of a fraction. The digits from the
first one that no longer fits are dropped. -/
def readFraction (significand : Nat) (exponent : Int) : List Nat → Nat × Int
  | [] => (significand, exponent)
  | digit :: rest =>
    if significand * 10 + digit ≤ significandLimit then
      readFraction (significand * 10 + digit) (exponent - 1) rest
    else (significand, exponent)

/-- The number that digits stand for. -/
def ofDigits (digits : List Nat) : Nat := digits.foldl (fun n digit => n * 10 + digit) 0

/-- A power of ten as a double. -/
def powerOfTen (n : Nat) : Float := Float.ofScientific 1 false n

/-- A double times a power of ten: one multiplication or division where the power is itself a
double, and otherwise steps of `10 ^ 308` downwards; `none` beyond the doubles. -/
def shift : Nat → Float → Int → Option Float
  | 0, value, _ => some value
  | fuel + 1, value, exponent =>
    if exponent.natAbs ≤ 308 then
      if 0 ≤ exponent then
        let product := value * powerOfTen exponent.natAbs
        if product.isInf then none else some product
      else some (value / powerOfTen exponent.natAbs)
    else if value == 0 then some value
    else if 0 ≤ exponent then none
    else shift fuel (value / powerOfTen 308) (exponent + 308)

/-- The double for a significand and a decimal exponent; `none` beyond the doubles. -/
def double? (negative : Bool) (significand : Nat) (exponent : Int) : Option Float :=
  (shift (exponent.natAbs / 308 + 2) (Float.ofNat significand) exponent).map fun value =>
    if negative then -value else value

/-- The largest exponent that is read digit by digit. -/
def exponentLimit : Nat := Decimal.twoTo 31 - 1

end Number

open Number in
/-- The value of a number as written; `none` beyond the doubles. -/
def NumberText.value (text : NumberText) : Option Number :=
  let (significand, exponent) := readWhole 0 text.whole
  match text.fraction, text.exponent with
  | none, none =>
    if exponent ≠ 0 then (double? text.negative significand exponent).map .double
    else if ¬ text.negative then some (.integer significand)
    else if significand = 0 ∨ Decimal.twoTo 63 < significand then
      (double? true significand 0).map .double
    else some (.integer (-significand))
  | fraction, written =>
    let (significand, exponent) := readFraction significand exponent (fraction.getD [])
    match written with
    | none => (double? text.negative significand exponent).map .double
    | some (below, digits) =>
      let shift := ofDigits digits
      if exponentLimit < shift then
        if significand ≠ 0 ∧ ¬ below then none
        else (double? text.negative 0 0).map .double
      else
        (double? text.negative significand
          (if below then exponent - shift else exponent + shift)).map .double

/-- Zeros. -/
def zeroDigits (n : Nat) : List Char := List.replicate n '0'

/-- The text of an exponent: its sign, `+` too, and its digits without leading zeros. -/
def exponentText (exponent : Int) : List Char :=
  'e' :: (if exponent < 0 then '-' else '+') :: Nat.toDigits 10 exponent.natAbs

/-- The text of a positive decimal: positional where the point stands among the first sixteen
digits or at most four places before them, and otherwise with an exponent. -/
def scientificText (number : Decimal.Scientific) : List Char :=
  let digits := Nat.toDigits 10 number.digits
  let point := digits.length + number.exponent
  if 0 ≤ number.exponent ∧ point ≤ 16 then
    digits ++ zeroDigits number.exponent.toNat ++ ['.', '0']
  else if 0 < point ∧ point ≤ 16 then
    digits.take point.toNat ++ '.' :: digits.drop point.toNat
  else if -5 < point ∧ point ≤ 0 then
    '0' :: '.' :: zeroDigits (-point).toNat ++ digits
  else
    match digits with
    | [] => []
    | [single] => single :: exponentText (point - 1)
    | first :: others => first :: '.' :: others ++ exponentText (point - 1)

/-- The text of a double: the shortest decimal that reads back. -/
def doubleText (value : Float) : List Char :=
  let bits := value.toBits.toNat
  let sign := if Decimal.twoTo 63 ≤ bits then ['-'] else []
  let magnitude := bits % Decimal.twoTo 63
  if magnitude = 0 then sign ++ ['0', '.', '0']
  else sign ++ scientificText (Decimal.shortest magnitude)

end ChoiceLang.Json
