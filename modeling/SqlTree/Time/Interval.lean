/-! # Intervals

A signed length of time in seconds and nanoseconds, and the single unit in which a whole number of
milliseconds is best counted.

An interval is kept as the seconds at or below it and the nanoseconds above these. Sums, differences
and readings are limited to `maxMillis` milliseconds on either side of zero. A product is limited by
the 64-bit seconds alone, so that its milliseconds need not fit 64 bits.

Main definitions:

* `Interval`: the type, with `Interval.total` its length in nanoseconds.
* `Interval.ofTotal?`, `Interval.ofMillis?`: intervals within the limit.
* `Interval.add?`, `Interval.sub?`, `Interval.mul?`, `Interval.div?`, `Interval.abs`: arithmetic.
* `Interval.sumOverflows`, `Interval.differenceOverflows`: seconds that do not fit 64 bits.
* `IntervalUnit`, `Interval.increment?`: the coarsest unit that counts an interval.
-/

namespace SqlTree

/-- `seconds` lies at or below the length and `nanos` is the rest. -/
structure Interval where
  seconds : Int64
  nanos : Nat
  nanos_lt : nanos < 1000000000
deriving DecidableEq, Repr

namespace Interval

/-- The limit of an interval in milliseconds, on either side of zero. -/
def maxMillis : Int := Int64.maxValue.toInt

/-- The length in nanoseconds. -/
def total (d : Interval) : Int := d.seconds.toInt * 1000000000 + d.nanos

/-- The interval of `n` nanoseconds. -/
def ofTotal (n : Int) : Interval where
  seconds := Int64.ofInt (n / 1000000000)
  nanos := (n % 1000000000).toNat
  nanos_lt := by omega

instance : Inhabited Interval := ⟨ofTotal 0⟩

/-- The interval of `n` nanoseconds, if it is within the limit. -/
def ofTotal? (n : Int) : Option Interval :=
  if n.natAbs ≤ maxMillis * 1000000 then some (ofTotal n) else none

/-- The interval with the given parts, if it is within the limit. -/
def new? (seconds : Int64) (nanos : Nat) : Option Interval :=
  if nanos < 1000000000 then ofTotal? (seconds.toInt * 1000000000 + nanos) else none

/-- The interval of `n` milliseconds, if it is within the limit. -/
def ofMillis? (n : Int64) : Option Interval := ofTotal? (n.toInt * 1000000)

/-- Whole seconds, truncated toward zero. -/
def wholeSeconds (d : Interval) : Int := d.total.tdiv 1000000000

/-- The nanoseconds beyond the whole seconds, with the sign of the interval. -/
def subsecNanos (d : Interval) : Int := d.total.tmod 1000000000

/-- Whole milliseconds, truncated toward zero. Beyond the limit they need not fit 64 bits. -/
def wholeMillis (d : Interval) : Int := d.total.tdiv 1000000

def add? (a b : Interval) : Option Interval := ofTotal? (a.total + b.total)

def sub? (a b : Interval) : Option Interval := ofTotal? (a.total - b.total)

/-- The sum has no result: its seconds, with the one that the nanoseconds carry, leave 64 bits. -/
def sumOverflows (a b : Interval) : Bool :=
  let seconds := a.seconds.toInt + b.seconds.toInt
  let carry := (a.nanos + b.nanos) / 1000000000
  decide (seconds < Int64.minValue.toInt ∨ Int64.maxValue.toInt < seconds + carry)

/-- The difference has no result: its seconds, less the one that the nanoseconds borrow, leave 64
bits. -/
def differenceOverflows (a b : Interval) : Bool :=
  let seconds := a.seconds.toInt - b.seconds.toInt
  let borrow := if a.nanos < b.nanos then 1 else 0
  decide (Int64.maxValue.toInt < seconds ∨ seconds - borrow < Int64.minValue.toInt)

/-- The product with an integer, as long as its seconds fit strictly inside 64 bits. -/
def mul? (d : Interval) (k : Int) : Option Interval :=
  let seconds := d.total * k / 1000000000
  if Int64.minValue.toInt < seconds ∧ seconds < Int64.maxValue.toInt then
    some (ofTotal (d.total * k))
  else none

/-- The quotient by an integer. Seconds and nanoseconds are divided toward zero each, the seconds
left over count as nanoseconds, and the two parts are brought into range once. -/
def div? (d : Interval) (k : Int) : Option Interval :=
  if k = 0 then none
  else
    let seconds := d.seconds.toInt.tdiv k
    let extra := (d.seconds.toInt.tmod k * 1000000000).tdiv k
    some (ofTotal (seconds * 1000000000 + (Int.tdiv d.nanos k + extra)))

def abs (d : Interval) : Interval := ofTotal d.total.natAbs

/-- Order by length. -/
def compare (a b : Interval) : Ordering := Ord.compare a.total b.total

end Interval

/-- Units in which engines add to dates. -/
inductive IntervalUnit where
  | millisecond
  | second
  | minute
  | hour
  | day
deriving DecidableEq, Repr

namespace IntervalUnit

def all : List IntervalUnit := [.millisecond, .second, .minute, .hour, .day]

def name : IntervalUnit → String
  | .millisecond => "millisecond"
  | .second => "second"
  | .minute => "minute"
  | .hour => "hour"
  | .day => "day"

/-- The length of the unit in milliseconds. -/
def millis : IntervalUnit → Int
  | .millisecond => 1
  | .second => 1000
  | .minute => 60000
  | .hour => 3600000
  | .day => 86400000

/-- How many whole units an interval has, truncated toward zero. -/
def count (u : IntervalUnit) (d : Interval) : Int := d.total.tdiv (u.millis * 1000000)

/-- The finest unit with a part of its own in `n` milliseconds, and days where there is none. -/
def finestPart (n : Nat) : IntervalUnit :=
  if n % 1000 ≠ 0 then .millisecond
  else if n / 1000 % 60 ≠ 0 then .second
  else if n / 60000 % 60 ≠ 0 then .minute
  else if n / 3600000 % 24 ≠ 0 then .hour
  else .day

end IntervalUnit

/-- The unit and the signed count by which a date is shifted. There is none if the milliseconds of
the magnitude do not fit 64 bits. -/
def Interval.increment? (d : Interval) : Option (IntervalUnit × Int64) :=
  let millis := d.total.natAbs / 1000000
  if maxMillis < millis then none
  else
    let unit := IntervalUnit.finestPart millis
    some (unit, Int64.ofInt (unit.count d))

end SqlTree
