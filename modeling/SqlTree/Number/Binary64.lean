/-! # Parts of a double

A finite double is `± mantissa * 2 ^ exponent`. The operations here work on these parts in exact
integer arithmetic, so their results follow from the bits alone.

Main definitions:

* `Binary64.mantissa`, `Binary64.exponent`, `Binary64.isNegative`: the parts.
* `Binary64.ofParts`: the double with given parts.
* `Binary64.floor`, `Binary64.ceiling`, `Binary64.truncate`: neighbouring integers.
* `Binary64.remainder`: the remainder of a division that goes toward zero.
* `Binary64.compare?`: the order of doubles, which leaves out what is not a number.
-/

namespace SqlTree.Binary64

def isNegative (x : Float) : Bool := decide (1 <<< 63 ≤ x.toBits.toNat)

/-- The exponent field. -/
def exponentField (x : Float) : Nat := (x.toBits.toNat >>> 52) % (1 <<< 11)

/-- The fraction field. -/
def fractionField (x : Float) : Nat := x.toBits.toNat % (1 <<< 52)

/-- The integer `m` of `± m * 2 ^ e`. Below the normal range it has no leading bit of its own. -/
def mantissa (x : Float) : Nat :=
  if exponentField x = 0 then fractionField x else 1 <<< 52 + fractionField x

/-- The exponent `e` of `± m * 2 ^ e`. -/
def exponent (x : Float) : Int := max (exponentField x) 1 - 1075

def withSign (negative : Bool) (x : Float) : Float := if negative then -x else x

/-- The double `± m * 2 ^ e`. Bits of `m` below the last place of the result are dropped, so the
result is exact whenever the value is a double. -/
def ofParts (negative : Bool) (m : Nat) (e : Int) : Float :=
  let magnitude :=
    if m = 0 then 0
    else
      let place := max (m.log2 + e - 52) (-1074)
      let scaled := if e ≤ place then m >>> (place - e).toNat else m <<< (e - place).toNat
      if scaled < 1 <<< 52 then scaled else (place + 1074).toNat <<< 52 + scaled
  Float.ofBits (UInt64.ofNat (magnitude + if negative then 1 <<< 63 else 0))

/-- The integer magnitude at or below `m * 2 ^ e`, and whether it is exact. -/
def wholePart (m : Nat) (e : Int) : Nat × Bool :=
  if 0 ≤ e then (m <<< e.toNat, true)
  else (m >>> (-e).toNat, decide (m % (1 <<< (-e).toNat) = 0))

/-- Round to an integer: the magnitude of a fractional value goes up iff `away` holds of the
sign. -/
def roundWhole (away : Bool → Bool) (x : Float) : Float :=
  if !x.isFinite || decide (0 ≤ exponent x) then x
  else
    let (whole, exact) := wholePart (mantissa x) (exponent x)
    let magnitude := if !exact && away (isNegative x) then whole + 1 else whole
    withSign (isNegative x) (Float.ofNat magnitude)

/-- The largest integer at or below the value. -/
def floor (x : Float) : Float := roundWhole id x

/-- The least integer at or above the value. -/
def ceiling (x : Float) : Float := roundWhole (!·) x

/-- The integer part of a finite value. -/
def truncate (x : Float) : Int :=
  let whole := (wholePart (mantissa x) (exponent x)).1
  if isNegative x then -(whole : Int) else whole

/-- The remainder of `x` by a non-zero `y`: exact, with the sign of `x`. -/
def remainder (x y : Float) : Float :=
  if !x.isFinite || y.isNaN then 0.0 / 0.0
  else if !y.isFinite then x
  else
    let e := min (exponent x) (exponent y)
    let a := mantissa x <<< (exponent x - e).toNat
    let b := mantissa y <<< (exponent y - e).toNat
    ofParts (isNegative x) (a % b) e

def compare? (x y : Float) : Option Ordering :=
  if x < y then some .lt
  else if y < x then some .gt
  else if x == y then some .eq
  else none

/-- The double nearest to an integer, with ties to even. -/
def ofInt (n : Int) : Float := Float.ofInt n

end SqlTree.Binary64
