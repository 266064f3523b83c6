/-! # The civil calendar

The proleptic Gregorian calendar with a year zero, counted in days from the first of January 1970.

Years are counted from March here, so that the day added in a leap year is the last one of its year,
and grouped into eras of 400 years, which all have the same number of days.

Main definitions:

* `Civil`: a year, a month and a day.
* `Civil.Valid`: the dates that exist.
* `Civil.toDay`, `Civil.ofDay`: conversion to and from the day count.
-/

namespace SqlTree

structure Civil where
  year : Int
  month : Nat
  day : Nat
deriving DecidableEq, Repr

namespace Civil

def isLeapYear (year : Int) : Bool :=
  decide (year % 4 = 0 ∧ (year % 100 ≠ 0 ∨ year % 400 = 0))

def daysInMonth (year : Int) (month : Nat) : Nat :=
  match month with
  | 2 => if isLeapYear year then 29 else 28
  | 4 | 6 | 9 | 11 => 30
  | _ => 31

/-- The date is in the calendar. -/
def Valid (c : Civil) : Prop :=
  1 ≤ c.month ∧ c.month ≤ 12 ∧ 1 ≤ c.day ∧ c.day ≤ daysInMonth c.year c.month

instance (c : Civil) : Decidable c.Valid := by unfold Valid; infer_instance

/-- Days of an era before the year `y` of that era, years starting in March. -/
def daysBeforeYear (y : Int) : Int := y * 365 + y / 4 - y / 100

/-- Days of a year before the month `m`, March being month zero. -/
def daysBeforeMonth (m : Int) : Int := (153 * m + 2) / 5

def toDay (c : Civil) : Int :=
  let year := if c.month ≤ 2 then c.year - 1 else c.year
  let month := ((c.month + 9) % 12 : Nat)
  year / 400 * 146097 + daysBeforeYear (year % 400) + daysBeforeMonth month + c.day - 1 - 719468

def ofDay (n : Int) : Civil :=
  let n := n + 719468
  let ofEra := n % 146097
  let year := (ofEra - ofEra / 1460 + ofEra / 36524 - ofEra / 146096) / 365
  let ofYear := ofEra - daysBeforeYear year
  let month := (5 * ofYear + 2) / 153
  let day := ofYear - daysBeforeMonth month + 1
  { year := n / 146097 * 400 + year + (if month < 10 then 0 else 1)
    month := (if month < 10 then month + 3 else month - 9).toNat
    day := day.toNat }

end Civil

end SqlTree
