/-!
# The shortest decimal that reads back

A double stands for the interval of reals that round to it. Its shortest decimal is the point of
the coarsest decimal grid that lies in this interval, and of two such points the nearer one. All
arithmetic is exact, on natural numbers.
-/

namespace ChoiceLang.Decimal

/-- A power of two. -/
def twoTo (n : Nat) : Nat := 1 <<< n

/-- A power of ten. -/
def tenTo (n : Nat) : Nat := Nat.pow 10 n

/-- A positive number `digits * 10 ^ exponent`. -/
structure Scientific where
  digits : Nat
  exponent : Int
deriving DecidableEq

/-- A fraction with the interval around it, all over one denominator. The ends belong to the
interval if `closed`. -/
structure Interval where
  low : Nat
  value : Nat
  high : Nat
  denominator : Nat
  closed : Bool

/-- The interval of reals that round to `mantissa * 2 ^ exponent`, for a double with this mantissa.
Below a power of two the grid of doubles is twice as fine, so that the lower end is nearer. -/
def Interval.ofDouble (mantissa : Nat) (exponent : Int) (isPower : Bool) : Interval :=
  let scale := twoTo (exponent - 2).toNat
  { low := (4 * mantissa - if isPower then 1 else 2) * scale
    value := 4 * mantissa * scale
    high := (4 * mantissa + 2) * scale
    denominator := twoTo (2 - exponent).toNat
    closed := mantissa % 2 = 0 }

/-- The interval divided by a power of ten. -/
def Interval.scale (i : Interval) (exponent : Int) : Interval :=
  let up := tenTo (-exponent).toNat
  { low := i.low * up
    value := i.value * up
    high := i.high * up
    denominator := i.denominator * tenTo exponent.toNat
    closed := i.closed }

/-- Whether a natural number lies in the interval. -/
def Interval.holds (i : Interval) (n : Nat) : Bool :=
  let point := n * i.denominator
  if i.closed then i.low ≤ point && point ≤ i.high else i.low < point && point < i.high

/-- The natural number in the interval that is nearest to its value, if there is one; of two that
are equally near, the even one. -/
def Interval.nearest (i : Interval) : Option Nat :=
  let below := i.value / i.denominator
  match i.holds below, i.holds (below + 1) with
  | true, true =>
    let middle := (2 * below + 1) * i.denominator
    if 2 * i.value < middle ∨ 2 * i.value = middle ∧ below % 2 = 0 then some below
    else some (below + 1)
  | true, false => some below
  | false, true => some (below + 1)
  | false, false => none

/-- The number of digits before the decimal point of the value, searched upwards from `start`. -/
def Interval.magnitude (i : Interval) : Nat → Int → Int
  | 0, start => start
  | fuel + 1, start =>
    let scaled := i.scale start
    if scaled.value < scaled.denominator then start else i.magnitude fuel (start + 1)

/-- The first grid with a point in the interval, among those with `count` digits and more. A point
that has one digit more than its grid is a power of ten. -/
def Interval.search (i : Interval) (magnitude : Int) : Nat → Nat → Scientific
  | 0, count => ⟨(i.scale (magnitude - count)).value / (i.scale (magnitude - count)).denominator,
      magnitude - count⟩
  | fuel + 1, count =>
    match (i.scale (magnitude - count)).nearest with
    | some digits =>
      if digits = tenTo count then ⟨1, magnitude⟩ else ⟨digits, magnitude - count⟩
    | none => i.search magnitude fuel (count + 1)

/-- The shortest decimal that reads back as a positive finite double, given by its bits. -/
def shortest (bits : Nat) : Scientific :=
  let fraction : Nat := bits % twoTo 52
  let field : Nat := bits / twoTo 52 % twoTo 11
  let interval :=
    if field = 0 then Interval.ofDouble fraction (-1074) false
    else Interval.ofDouble (twoTo 52 + fraction) ((field : Int) - 1075) (fraction = 0 && 1 < field)
  interval.search (interval.magnitude 700 (-330)) 17 1

end ChoiceLang.Decimal
