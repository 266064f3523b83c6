import SqlTree.Fold.Basic
import SqlTree.Proofs.Time.Interval
import SqlTree.Proofs.Time.Text

/-! # Points in time that are shifted and shifted back

The sum of a point in time and an interval is exact to the nanosecond and is missing only where it
would leave the range of dates. So the interval can be taken off again, and the time between the two
points is the interval. All this is outside the leap seconds, which the count of nanoseconds passes
over.

Main definitions:

* `Literal.IsInstant`: the point in time that a literal stands for.

Main statements:

* `DateTime.shift?_eq_some_iff`, `OffsetDateTime.shift?_eq_some_iff`: what a shift yields.
* `Expr.fold?_shift`: sums that fold, and the differences that fold back.
-/

namespace SqlTree

/-! Points in time. -/

namespace DateTime

variable {t u : DateTime} {n : Int}

@[ext] theorem ext (h : t.nanos = u.nanos) (hleap : t.leap = u.leap) : t = u := by
  cases t
  cases u
  cases h
  cases hleap
  rfl

theorem ofNanos?_eq_some_iff : ofNanos? n = some u ↔ u.nanos = n ∧ u.leap = false := by
  unfold ofNanos? of?
  split
  · rw [Option.some_inj, DateTime.ext_iff]
    exact and_congr eq_comm eq_comm
  · rename_i hrange
    refine iff_of_false (by simp) ?_
    rintro ⟨rfl, -⟩
    exact hrange ⟨u.inRange, by simp⟩

/-- Outside the leap seconds a point moves by the nanoseconds. -/
theorem shift?_eq_ofNanos? (ht : t.leap = false) : t.shift? n = ofNanos? (t.nanos + n) := by
  simp [shift?, lead, ht]

theorem shift?_eq_some_iff (ht : t.leap = false) :
    t.shift? n = some u ↔ u.nanos = t.nanos + n ∧ u.leap = false := by
  rw [shift?_eq_ofNanos? ht, ofNanos?_eq_some_iff]

theorem isSome_shift?_iff (ht : t.leap = false) :
    (t.shift? n).isSome ↔ InRange (t.nanos + n) := by
  rw [shift?_eq_ofNanos? ht]
  unfold ofNanos? of? InRange
  split <;> simp_all

theorem shift?_neg (ht : t.leap = false) (h : t.shift? n = some u) : u.shift? (-n) = some t := by
  rw [shift?_eq_some_iff ht] at h
  rw [shift?_eq_some_iff h.2]
  exact ⟨by omega, ht⟩

/-- Outside the leap seconds the time between two points is the difference of their counts. -/
theorem since_eq_ofTotal (ht : t.leap = false) (hu : u.leap = false) :
    u.since t = Interval.ofTotal (u.nanos - t.nanos) := by
  have hsplit : (u.nanos / 1000000000 - t.nanos / 1000000000) * 1000000000 +
      (u.nanos % 1000000000 - t.nanos % 1000000000) = u.nanos - t.nanos := by omega
  simp [since, fraction, ht, hu, hsplit]

theorem since_of_shift? {d : Interval} (ht : t.leap = false) (h : t.shift? d.total = some u) :
    u.since t = d := by
  obtain ⟨hnanos, hu⟩ := (shift?_eq_some_iff ht).1 h
  have htotal : u.nanos - t.nanos = d.total := by omega
  rw [since_eq_ofTotal ht hu, htotal, Interval.ofTotal_total]

end DateTime

namespace OffsetDateTime

variable {t u : OffsetDateTime} {n : Int}

theorem shift?_eq_some_iff :
    t.shift? n = some u ↔ t.utc.shift? n = some u.utc ∧ u.offset = t.offset := by
  unfold shift?
  rw [Option.map_eq_some_iff]
  constructor
  · rintro ⟨utc, hutc, rfl⟩
    exact ⟨hutc, rfl⟩
  · rintro ⟨hutc, hoffset⟩
    refine ⟨u.utc, hutc, ?_⟩
    cases u
    cases hoffset
    rfl

theorem shift?_neg (ht : t.utc.leap = false) (h : t.shift? n = some u) :
    u.shift? (-n) = some t := by
  rw [shift?_eq_some_iff] at *
  exact ⟨DateTime.shift?_neg ht h.1, h.2.symm⟩

end OffsetDateTime

/-! Sums and differences. -/

namespace Literal

/-- The literal `a` stands for the point in time `b`, which lies `n` nanoseconds from the start of
1970 in universal time and in no leap second. A date stands for the first moment of its day, and a
day has 24 hours. -/
inductive IsInstant : Literal → Literal → Int → Prop
  | date (d : Date) (t : DateTime) (hday : t.nanos = d.day * (24 * 60 * 60 * 1000000000))
      (hleap : t.leap = false) : IsInstant (.date d) (.dateTime t) t.nanos
  | dateTime (t : DateTime) (hleap : t.leap = false) :
      IsInstant (.dateTime t) (.dateTime t) t.nanos
  | dateTimeOffset (t : OffsetDateTime) (hleap : t.utc.leap = false) :
      IsInstant (.dateTimeOffset t) (.dateTimeOffset t) t.utc.nanos

/-- The literal that is shifted in place of the given one, if it can be shifted. -/
def shifted? : Literal → Option Literal
  | .date d => some (.dateTime d.midnight)
  | .dateTime t => some (.dateTime t)
  | .dateTimeOffset t => some (.dateTimeOffset t)
  | _ => none

/-- The point in time `n` nanoseconds later, at the same offset if there is one. -/
def move? : Literal → Int → Option Literal
  | .dateTime t, n => (t.shift? n).map .dateTime
  | .dateTimeOffset t, n => (t.shift? n).map .dateTimeOffset
  | _, _ => none

variable {a b c : Literal} {n k : Int}

/-- Sums and differences with an interval move the point in time. -/
theorem arithmetic?_interval (h : a.shifted? = some b) (op : Word.Operation) (d : Interval) :
    arithmetic? op a (.interval d) = (shiftOf? op d).bind b.move? := by
  unfold shifted? at h
  cases hk : shiftOf? op d with
  | none => split at h <;> cases h <;> simp [arithmetic?, hk]
  | some k =>
    split at h <;> cases h <;> rw [Option.bind_some, move?, Option.map_eq_bind, arithmetic?, hk] <;>
      rfl

namespace IsInstant

/-- A day is shifted from its midnight, which is its first moment. -/
theorem shifted?_eq (h : a.IsInstant b n) : a.shifted? = some b := by
  cases h with
  | date d t hday hleap =>
    have hmidnight : d.midnight = t := DateTime.ext hday.symm hleap.symm
    rw [shifted?, hmidnight]
  | dateTime t | dateTimeOffset t => rfl

theorem isSome_move?_iff (h : a.IsInstant b n) : (b.move? k).isSome ↔ InRange (n + k) := by
  cases h with
  | date d t _ hleap | dateTime t hleap => simp [move?, DateTime.isSome_shift?_iff hleap]
  | dateTimeOffset t hleap =>
    simp [move?, OffsetDateTime.shift?, DateTime.isSome_shift?_iff hleap]

/-- What is moved stands for the later point in time, and can be moved back. -/
theorem of_move? (h : a.IsInstant b n) (hc : b.move? k = some c) :
    c.IsInstant c (n + k) ∧ c.move? (-k) = some b := by
  cases h with
  | date d t _ hleap | dateTime t hleap =>
    obtain ⟨u, hu, rfl⟩ := Option.map_eq_some_iff.1 hc
    obtain ⟨hnanos, huleap⟩ := (DateTime.shift?_eq_some_iff hleap).1 hu
    refine ⟨?_, Option.map_eq_some_iff.2 ⟨_, DateTime.shift?_neg hleap hu, rfl⟩⟩
    rw [← hnanos]
    exact .dateTime u huleap
  | dateTimeOffset t hleap =>
    obtain ⟨u, hu, rfl⟩ := Option.map_eq_some_iff.1 hc
    obtain ⟨hutc, -⟩ := OffsetDateTime.shift?_eq_some_iff.1 hu
    obtain ⟨hnanos, huleap⟩ := (DateTime.shift?_eq_some_iff hleap).1 hutc
    refine ⟨?_, Option.map_eq_some_iff.2 ⟨_, OffsetDateTime.shift?_neg hleap hu, rfl⟩⟩
    rw [← hnanos]
    exact .dateTimeOffset u huleap

end IsInstant

/-- The time between a point and the one that it is moved to. -/
theorem subtract_dateTime {t : DateTime} {d : Interval} (hleap : t.leap = false)
    (hc : (Literal.dateTime t).move? d.total = some c) :
    arithmetic? .subtract c (.dateTime t) = some (.interval d) := by
  obtain ⟨u, hu, rfl⟩ := Option.map_eq_some_iff.1 hc
  rw [← DateTime.since_of_shift? hleap hu]
  rfl

end Literal

namespace Expr

variable {ctx : Context} {l r : Expr} {a b c : Literal} {d : Interval} {n : Int}

section

variable (hl : l.fold? ctx = some a) (ha : a.shifted? = some b)
  (hr : r.fold? ctx = some (.interval d)) (p : Int) (t : DataType) (nullable : Bool)

include hl ha hr

theorem fold?_add_interval : fold? ctx (.binary .add l r p t nullable) = b.move? d.total := by
  have hmove := Literal.arithmetic?_interval ha .add d
  rw [fold?, hl, hr]
  unfold Literal.shifted? at ha
  split at ha <;> first | exact hmove | cases ha

theorem fold?_subtract_interval :
    fold? ctx (.binary .subtract l r p t nullable) = b.move? (-d.total) := by
  have hmove := Literal.arithmetic?_interval ha .subtract d
  rw [fold?, hl, hr]
  unfold Literal.shifted? at ha
  split at ha <;> first | exact hmove | cases ha

end

/-- The sum of a date or a point in time and an interval folds if it stays in the range of dates. It
is exact to the nanosecond: the interval taken off it again is the first point, where a date counts
as its midnight, and the time from a first point without an offset is the interval. -/
theorem fold?_shift (hl : l.fold? ctx = some a) (ha : a.IsInstant b n)
    (hr : r.fold? ctx = some (.interval d)) (p : Int) (t : DataType) (nullable : Bool) :
    ((fold? ctx (.binary .add l r p t nullable)).isSome ↔ InRange (n + d.total)) ∧
    ∀ s c, fold? ctx (.binary .add l r p t nullable) = some c → s.fold? ctx = some c →
      c.IsInstant c (n + d.total) ∧ ∀ p t nullable,
        fold? ctx (.binary .subtract s r p t nullable) = some b ∧
        ∀ u, a = .dateTime u →
          fold? ctx (.binary .subtract s l p t nullable) = some (.interval d) := by
  rw [fold?_add_interval hl ha.shifted?_eq hr]
  refine ⟨ha.isSome_move?_iff, fun s c hc hs => ?_⟩
  obtain ⟨hinstant, hback⟩ := ha.of_move? hc
  refine ⟨hinstant, fun p t nullable => ⟨?_, ?_⟩⟩
  · rw [fold?_subtract_interval hs hinstant.shifted?_eq hr, hback]
  · rintro u rfl
    cases ha with | dateTime _ hleap => ?_
    have hbetween := Literal.subtract_dateTime hleap hc
    obtain ⟨u', -, rfl⟩ := Option.map_eq_some_iff.1 hc
    rw [fold?, hs, hl]
    exact hbetween

end Expr

namespace Sample

/-- Midnight at the start of 1970. -/
def firstMidnight : DateTime := ⟨0, false, by decide, by decide⟩

/-- A nanosecond before. -/
def nanosecondBefore : Interval := ⟨-1, 999999999, by decide⟩

/-- The last moment of 1969. -/
def lastMoment : Expr :=
  .operation .add (.literal (.dateTime firstMidnight)) (.literal (.interval nanosecondBefore))
    .dateTime

/-- The 29th of February 1972. -/
def leapDay : Date := ⟨789, by decide⟩

/-- Its first moment. -/
def leapMidnight : DateTime := ⟨68169600000000000, false, by decide, by decide⟩

/-- The last moment of the 28th of February 1972. -/
def dayBefore : Expr :=
  .operation .add (.literal (.date leapDay)) (.literal (.interval nanosecondBefore)) .dateTime

/-- The last moment of a year, a nanosecond later and as far from midnight; and a day without its
first nanosecond, which it has again a nanosecond later. -/
theorem fold?_lastMoment :
    (InRange (firstMidnight.nanos + nanosecondBefore.total) ∧
      (Expr.operation .subtract lastMoment (.literal (.interval nanosecondBefore))
        .dateTime).fold? {} = some (.dateTime firstMidnight) ∧
      (Expr.operation .subtract lastMoment (.literal (.dateTime firstMidnight))
        .interval).fold? {} = some (.interval nanosecondBefore)) ∧
    InRange (leapMidnight.nanos + nanosecondBefore.total) ∧
      (Expr.operation .subtract dayBefore (.literal (.interval nanosecondBefore))
        .dateTime).fold? {} = some (.dateTime leapMidnight) := by
  have hr : (Expr.literal (.interval nanosecondBefore)).fold? {} =
      some (.interval nanosecondBefore) := rfl
  constructor
  · have hl : (Expr.literal (.dateTime firstMidnight)).fold? {} =
        some (.dateTime firstMidnight) := rfl
    have hrange : InRange (firstMidnight.nanos + nanosecondBefore.total) := by decide
    have h := Expr.fold?_shift hl (.dateTime firstMidnight rfl) hr Operator.add.precedence
      .dateTime false
    obtain ⟨c, hc⟩ := Option.isSome_iff_exists.1 (h.1.2 hrange)
    have hback := (h.2 lastMoment c hc hc).2
    exact ⟨hrange, (hback _ _ _).1, (hback _ _ _).2 firstMidnight rfl⟩
  · have hl : (Expr.literal (.date leapDay)).fold? {} = some (.date leapDay) := rfl
    have hrange : InRange (leapMidnight.nanos + nanosecondBefore.total) := by decide
    have h := Expr.fold?_shift hl (.date leapDay leapMidnight (by decide) rfl) hr
      Operator.add.precedence .dateTime false
    obtain ⟨c, hc⟩ := Option.isSome_iff_exists.1 (h.1.2 hrange)
    exact ⟨hrange, ((h.2 dayBefore c hc hc).2 _ _ _).1⟩

end Sample

end SqlTree
