import SqlTree.Number.Binary64

/-! # Decimal texts of numbers

Integers are written with their digits alone. A double is written with the fewest digits that read
back, always positionally: there is no exponent, and no point in a whole number.

Main definitions:

* `Decimal.natural?`, `Decimal.integer?`: the value of a text of digits.
* `Decimal.shortest`: the fewest digits that denote a double, with the place of the last one.
* `Decimal.double`: the text of a double.
* `Decimal.double?`: the double denoted by a text.
-/

namespace SqlTree.Decimal

/-- The digits of a natural number. -/
def digits (n : Nat) : List Char := Nat.toDigits 10 n

/-- The text of an integer. -/
def integer (n : Int) : String :=
  String.ofList (if n < 0 then '-' :: digits n.natAbs else digits n.natAbs)

/-- The value of a non-empty sequence of ASCII digits. -/
def natural? (cs : List Char) : Option Nat :=
  if !cs.isEmpty && cs.all Char.isDigit then some (Nat.ofDigitChars 10 cs 0) else none

/-- The value of digits with an optional sign. -/
def integer? : List Char → Option Int
  | '-' :: cs => (natural? cs).map fun n => -(n : Int)
  | '+' :: cs => (natural? cs).map Int.ofNat
  | cs => (natural? cs).map Int.ofNat

/-- The value of digits with an optional plus sign. -/
def unsigned? : List Char → Option Nat
  | '+' :: cs => natural? cs
  | cs => natural? cs

/-! Shortest digits. -/

/-- A positive rational `num / den` with the interval of rationals that round to it. -/
structure Rounding where
  num : Nat
  low : Nat
  high : Nat
  den : Nat
  closed : Bool

/-- The interval of a finite non-zero double. The gap below a power of two is half as wide as the
one above, and the ends belong to the interval iff the mantissa is even. -/
def Rounding.ofDouble (x : Float) : Rounding :=
  let m := Binary64.mantissa x
  let e := Binary64.exponent x - 2
  let up := 1 <<< e.toNat
  let below := if m = 1 <<< 52 then 1 else 2
  { num := 4 * m * up, low := (4 * m - below) * up, high := (4 * m + 2) * up,
    den := 1 <<< (-e).toNat, closed := m % 2 == 0 }

/-- The place of the leading decimal digit of the upper end: no coarser place has a multiple in the
interval. -/
def Rounding.leadingPlace (r : Rounding) : Int :=
  if r.den ≤ r.high then (digits (r.high / r.den)).length - 1
  else -((digits ((r.den - 1) / r.high)).length : Int)

/-- Whether `c * 10 ^ place` rounds to the value. -/
def Rounding.holds (r : Rounding) (place : Int) (c : Nat) : Bool :=
  let v := c * r.den * Nat.pow 10 place.toNat
  let low := r.low * Nat.pow 10 (-place).toNat
  let high := r.high * Nat.pow 10 (-place).toNat
  if r.closed then decide (low ≤ v ∧ v ≤ high) else decide (low < v ∧ v < high)

/-- The multiple of `10 ^ place` next to the value that rounds to it; of two the nearer, and the
greater one of two equally near. -/
def Rounding.candidate? (r : Rounding) (place : Int) : Option Nat :=
  let a := r.num * Nat.pow 10 (-place).toNat
  let b := r.den * Nat.pow 10 place.toNat
  let below := a / b
  match r.holds place below, r.holds place (below + 1) with
  | true, true => some (if 2 * (a % b) < b then below else below + 1)
  | true, false => some below
  | false, true => some (below + 1)
  | false, false => none

/-- The first candidate when places are tried from `place` downward. -/
def Rounding.search (r : Rounding) (place : Int) : Nat → Nat × Int
  | 0 => (r.num * Nat.pow 10 (-place).toNat / (r.den * Nat.pow 10 place.toNat), place)
  | steps + 1 =>
    match r.candidate? place with
    | some c => (c, place)
    | none => r.search (place - 1) steps

/-- The coefficient and place of the shortest decimal that rounds to a finite non-zero double.
Seventeen digits are always enough, and the first place may be one too coarse. -/
def shortest (x : Float) : Nat × Int :=
  let r := Rounding.ofDouble x
  r.search r.leadingPlace 18

/-- Write `c * 10 ^ place` without an exponent. -/
def positional (c : Nat) (place : Int) : List Char :=
  let ds := digits c
  if 0 ≤ place then ds ++ List.replicate place.toNat '0'
  else
    let fraction := (-place).toNat
    if fraction < ds.length then
      ds.take (ds.length - fraction) ++ '.' :: ds.drop (ds.length - fraction)
    else '0' :: '.' :: (List.replicate (fraction - ds.length) '0' ++ ds)

/-- The text of the magnitude of a double that is a number. -/
def magnitude (x : Float) : List Char :=
  if !x.isFinite then ['i', 'n', 'f']
  else if Binary64.mantissa x = 0 then ['0']
  else
    let (c, place) := shortest x
    positional c place

/-- The text of a double. -/
def double (x : Float) : String :=
  if x.isNaN then "NaN"
  else String.ofList (if Binary64.isNegative x then '-' :: magnitude x else magnitude x)

/-! Reading doubles. -/

/-- An optional sign and the rest. -/
def splitSign : List Char → Bool × List Char
  | '-' :: cs => (true, cs)
  | '+' :: cs => (false, cs)
  | cs => (false, cs)

/-- The exponent that follows the digits: nothing, or `e` with an integer. -/
def exponent? : List Char → Option Int
  | [] => some 0
  | 'e' :: cs => integer? cs
  | 'E' :: cs => integer? cs
  | _ => none

/-- The double nearest to `m * 10 ^ e`. -/
def ofScientific (m : Nat) (e : Int) : Float := Float.ofScientific m (decide (e < 0)) e.natAbs

/-- The value of an unsigned decimal: digits around an optional point, at least one of them, and an
optional exponent. -/
def decimal? (cs : List Char) : Option Float := do
  let whole := cs.takeWhile Char.isDigit
  let (fraction, rest) :=
    match cs.dropWhile Char.isDigit with
    | '.' :: rest => (rest.takeWhile Char.isDigit, rest.dropWhile Char.isDigit)
    | rest => ([], rest)
  let m ← natural? (whole ++ fraction)
  let e ← exponent? rest
  return ofScientific m (e - fraction.length)

/-- The double denoted by a text: a decimal or a word for infinity or for what is not a number, in
any case, after an optional sign. -/
def double? (cs : List Char) : Option Float :=
  let (negative, cs) := splitSign cs
  (Binary64.withSign negative ·) <$>
    match String.ofList (cs.map Char.toLower) with
    | "nan" => some (0.0 / 0.0)
    | "inf" => some (1.0 / 0.0)
    | "infinity" => some (1.0 / 0.0)
    | _ => decimal? cs

end SqlTree.Decimal
