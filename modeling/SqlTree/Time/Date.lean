import SqlTree.Number.Decimal
import SqlTree.Time.Civil
import SqlTree.Time.Interval

/-! # Dates and points in time

Dates, local times of day on a date, and instants with an offset from universal time. Each is kept
as a count from the start of 1970, so that shifting and comparing are integer arithmetic, and is
limited to the years from -262143 to 262142. The count knows no leap seconds; a point in one is
counted like the point a second before it and marked.

Main definitions:

* `Date`, `DateTime`, `OffsetDateTime`: the types.
* `DateTime.shift?`, `DateTime.since`: a point in time moved by an interval, and the interval
  between two points.
* `DateTime.compare`: the order of points in time.
* `Date.text`, `DateTime.text`, `OffsetDateTime.text`: ISO 8601 texts.
* `Date.ofText?`, `DateTime.ofText?`, `OffsetDateTime.ofText?`: readings of these texts.
-/

namespace SqlTree

/-- The day of the first of January -262143. -/
def minDay : Int := -96465292

/-- The day of the last of December 262142. -/
def maxDay : Int := 95026236

/-- Nanoseconds of a day. -/
def nanosPerDay : Int := 86400000000000

/-- A date as the number of its day. -/
structure Date where
  day : Int
  inRange : minDay ≤ day ∧ day ≤ maxDay
deriving DecidableEq, Repr

/-- A date with a time of day, as nanoseconds from the start of 1970. A leap second follows the last
second of a minute, by which it is counted. -/
structure DateTime where
  nanos : Int
  leap : Bool
  inRange : minDay * nanosPerDay ≤ nanos ∧ nanos < (maxDay + 1) * nanosPerDay
  second_eq : leap = true → nanos / 1000000000 % 60 = 59
deriving DecidableEq, Repr

/-- An instant, given in universal time, and the offset in minutes at which it is shown. -/
structure OffsetDateTime where
  utc : DateTime
  offset : Int
  offset_lt : offset.natAbs < 1440
deriving DecidableEq, Repr

namespace Date

def ofDay? (n : Int) : Option Date :=
  if h : minDay ≤ n ∧ n ≤ maxDay then some ⟨n, h⟩ else none

/-- The date with the given civil parts, if it exists and is in range. -/
def ofCivil? (c : Civil) : Option Date :=
  if c.Valid then ofDay? c.toDay else none

/-- Midnight at the start of the date. -/
def midnight (d : Date) : DateTime where
  nanos := d.day * nanosPerDay
  leap := false
  inRange := by
    have := d.inRange
    simp only [minDay, maxDay, nanosPerDay] at *
    omega
  second_eq := fun h => Bool.noConfusion h

end Date

namespace DateTime

/-- The point that is counted as `n`, in the leap second after it or not. -/
def of? (n : Int) (leap : Bool) : Option DateTime :=
  if h : (minDay * nanosPerDay ≤ n ∧ n < (maxDay + 1) * nanosPerDay) ∧
      (leap = true → n / 1000000000 % 60 = 59) then
    some ⟨n, leap, h.1, h.2⟩
  else none

def ofNanos? (n : Int) : Option DateTime := of? n false

/-- The nanoseconds within the second by which the point is counted. They go on through a leap
second. -/
def fraction (t : DateTime) : Int := t.nanos % 1000000000 + if t.leap then 1000000000 else 0

/-- What is added to the count when the point is moved: a leap second that is left backward has been
passed. -/
def lead (t : DateTime) (n : Int) : Int := if t.leap && decide (n < 0) then 1000000000 else 0

/-- The point `n` nanoseconds later. One in a leap second stays there or leaves it to either
side. -/
def shift? (t : DateTime) (n : Int) : Option DateTime :=
  if t.leap && decide (0 ≤ t.nanos % 1000000000 + n ∧ t.nanos % 1000000000 + n < 1000000000) then
    of? (t.nanos + n) true
  else ofNanos? (t.nanos + t.lead n + n)

/-- The shift has no result: the seconds from the start of the day, or those of the days that they
make up, leave 64 bits. -/
def shiftOverflows (t : DateTime) (n : Int) : Bool :=
  let seconds := (t.nanos % nanosPerDay + t.lead n + n) / 1000000000
  decide (Int64.maxValue.toInt < seconds ∨ seconds / 86400 * 86400 < Int64.minValue.toInt)

/-- The second of the day by which the point is counted. -/
def secondOfDay (t : DateTime) : Int := t.nanos / 1000000000 % 86400

/-- The time from `b` to `a`. A leap second in one of the points counts if the other one has a later
time of day. -/
def since (a b : DateTime) : Interval :=
  let leaps :=
    if b.leap && decide (b.secondOfDay < a.secondOfDay) then 1
    else if a.leap && decide (a.secondOfDay < b.secondOfDay) then -1
    else 0
  Interval.ofTotal ((a.nanos / 1000000000 - b.nanos / 1000000000 + leaps) * 1000000000 +
    (a.fraction - b.fraction))

/-- Order by the seconds and by what lies within them. -/
def compare (a b : DateTime) : Ordering :=
  (Ord.compare (a.nanos / 1000000000) (b.nanos / 1000000000)).then
    (Ord.compare a.fraction b.fraction)

end DateTime

/-- The instant `n` nanoseconds later, at the same offset. -/
def OffsetDateTime.shift? (t : OffsetDateTime) (n : Int) : Option OffsetDateTime :=
  (t.utc.shift? n).map fun utc => { t with utc }

/-! Texts. -/

/-- The digits of `n`, filled with zeros on the left up to `width`. -/
def padded (width n : Nat) : List Char :=
  let ds := Decimal.digits n
  List.replicate (width - ds.length) '0' ++ ds

/-- A year of at least four digits, with a sign if it is outside 0 to 9999. -/
def yearText (year : Int) : List Char :=
  if year < 0 then '-' :: padded 4 year.natAbs
  else if year ≤ 9999 then padded 4 year.natAbs
  else '+' :: padded 4 year.natAbs

def civilText (c : Civil) : List Char :=
  yearText c.year ++ '-' :: (padded 2 c.month ++ '-' :: padded 2 c.day)

/-- The fraction of a second in the fewest of 0, 3, 6 or 9 digits that lose nothing. -/
def fractionText (nanos : Nat) : List Char :=
  if nanos = 0 then []
  else if nanos % 1000000 = 0 then '.' :: padded 3 (nanos / 1000000)
  else if nanos % 1000 = 0 then '.' :: padded 6 (nanos / 1000)
  else '.' :: padded 9 nanos

/-- The time of day at `n` nanoseconds after midnight, or in the leap second after it. -/
def timeText (n : Nat) (leap : Bool) : List Char :=
  let seconds := n / 1000000000
  padded 2 (seconds / 3600) ++ ':' :: (padded 2 (seconds / 60 % 60) ++
    ':' :: (padded 2 (seconds % 60 + leap.toNat) ++ fractionText (n % 1000000000)))

/-- Date and time at `n` nanoseconds from the start of 1970, or in the leap second after it, with
`separator` between them. -/
def pointText (separator : Char) (n : Int) (leap : Bool) : List Char :=
  civilText (Civil.ofDay (n / nanosPerDay)) ++ separator :: timeText (n % nanosPerDay).toNat leap

/-- An offset of whole minutes as hours and minutes. -/
def offsetText (offset : Int) : List Char :=
  (if offset < 0 then '-' else '+') ::
    (padded 2 (offset.natAbs / 60) ++ ':' :: padded 2 (offset.natAbs % 60))

def Date.text (d : Date) : String := String.ofList (civilText (Civil.ofDay d.day))

/-- The text of a point in time, with `separator` between date and time. -/
def DateTime.text (separator : Char) (t : DateTime) : String :=
  String.ofList (pointText separator t.nanos t.leap)

/-- Nanoseconds from the start of 1970 on the clock at the instant's offset. -/
def OffsetDateTime.localNanos (t : OffsetDateTime) : Int := t.utc.nanos + t.offset * 60000000000

/-- The text of an instant at its offset; `zulu` writes a zero offset as `Z`. -/
def OffsetDateTime.text (zulu : Bool) (t : OffsetDateTime) : String :=
  String.ofList (pointText 'T' t.localNanos t.utc.leap ++
    if zulu && t.offset == 0 then ['Z'] else offsetText t.offset)

/-! Readings. Each step consumes the front of a text and returns the rest. -/

/-- At least one and at most `width` digits. -/
def readNumber? (width : Nat) (cs : List Char) : Option (Nat × List Char) := do
  let ds := (cs.take width).takeWhile Char.isDigit
  let n ← Decimal.natural? ds
  return (n, cs.drop ds.length)

def readChar? (c : Char) : List Char → Option (List Char)
  | [] => none
  | d :: cs => if c = d then some cs else none

/-- A year: up to four digits, or a sign and any number of digits. -/
def readYear? : List Char → Option (Int × List Char)
  | '-' :: cs => (readNumber? cs.length cs).map fun (n, cs) => (-(n : Int), cs)
  | '+' :: cs => (readNumber? cs.length cs).map fun (n, cs) => ((n : Int), cs)
  | cs => (readNumber? 4 cs).map fun (n, cs) => ((n : Int), cs)

def readDate? (cs : List Char) : Option (Date × List Char) := do
  let (year, cs) ← readYear? cs
  let cs ← readChar? '-' cs
  let (month, cs) ← readNumber? 2 cs
  let cs ← readChar? '-' cs
  let (day, cs) ← readNumber? 2 cs
  let date ← Date.ofCivil? ⟨year, month, day⟩
  return (date, cs)

/-- A fraction of a second in nanoseconds; digits after the ninth are dropped. -/
def readFraction? : List Char → Option (Nat × List Char)
  | '.' :: cs => do
    let ds := cs.takeWhile Char.isDigit
    let n ← Decimal.natural? (ds.take 9)
    return (n * Nat.pow 10 (9 - ds.length), cs.drop ds.length)
  | cs => some (0, cs)

/-- A time of day in nanoseconds after midnight, and whether it is in the leap second after it. -/
def readTime? (cs : List Char) : Option ((Nat × Bool) × List Char) := do
  let (hour, cs) ← readNumber? 2 cs
  let cs ← readChar? ':' cs
  let (minute, cs) ← readNumber? 2 cs
  let cs ← readChar? ':' cs
  let (second, cs) ← readNumber? 2 cs
  let (nanos, cs) ← readFraction? cs
  if hour < 24 ∧ minute < 60 ∧ second ≤ 60 then
    let leap := decide (second = 60)
    return ((((hour * 60 + minute) * 60 + (second - leap.toNat)) * 1000000000 + nanos, leap), cs)
  else none

/-- A date and a time, in nanoseconds from the start of 1970, and whether they are in the leap
second after it. -/
def readPoint? (cs : List Char) : Option ((Int × Bool) × List Char) := do
  let (date, cs) ← readDate? cs
  let cs ← readChar? 'T' cs
  let ((time, leap), cs) ← readTime? cs
  return ((date.day * nanosPerDay + time, leap), cs)

/-- Exactly two digits. -/
def readPair? : List Char → Option (Nat × List Char)
  | a :: b :: cs => (Decimal.natural? [a, b]).map fun n => (n, cs)
  | _ => none

/-- An offset in minutes: `Z`, or a signed number of hours and minutes. -/
def readOffset? : List Char → Option (Int × List Char)
  | 'Z' :: cs => some (0, cs)
  | sign :: cs => do
    let (hours, cs) ← readPair? cs
    let cs ← readChar? ':' cs
    let (minutes, cs) ← readPair? cs
    let n := hours * 60 + minutes
    if 60 ≤ minutes then none
    else if sign = '+' then return ((n : Int), cs)
    else if sign = '-' then return (-(n : Int), cs)
    else none
  | [] => none

/-- The value of a reading that consumed the whole text. -/
def complete? {α : Type} : Option (α × List Char) → Option α
  | some (a, []) => some a
  | _ => none

def Date.ofText? (s : String) : Option Date := complete? (readDate? s.toList)

def DateTime.ofText? (s : String) : Option DateTime :=
  complete? (readPoint? s.toList) >>= fun (nanos, leap) => DateTime.of? nanos leap

def OffsetDateTime.ofText? (s : String) : Option OffsetDateTime := do
  let ((nanos, leap), cs) ← readPoint? s.toList
  let offset ← complete? (readOffset? cs)
  let utc ← DateTime.of? (nanos - offset * 60000000000) leap
  if h : offset.natAbs < 1440 then return ⟨utc, offset, h⟩ else none

end SqlTree
