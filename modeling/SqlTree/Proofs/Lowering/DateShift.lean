import SqlTree.Proofs.Fold.Overflow
import SqlTree.Proofs.Lowering.Conversion
import SqlTree.Proofs.Time.Increment

/-! # Dates that are shifted by an interval

A sum or a difference of a date and an interval of known value becomes a call that shifts the date
by the whole milliseconds of the interval. A product with an interval can be so long that these do
not fit 64 bits, and then the conversion does not go on.

Main definitions:

* `SqlCe.MovesBy`: a conversion to a call that shifts a date by a number of milliseconds.

Main statements:

* `SqlCe.movesBy_convert_iff`: when the call shifts the date by the interval.
-/

namespace SqlTree

/-- A count on either side of zero has a negative. -/
theorem Word.signed?_neg {n : Int64} (h : n.toInt.natAbs ≤ Interval.maxMillis) :
    ∃ m, signed? (-n.toInt) = some m ∧ m.toInt = -n.toInt := by
  have hmin : Int64.minValue.toInt = -9223372036854775808 := rfl
  have hmax : Int64.maxValue.toInt = 9223372036854775807 := rfl
  have hlimit : Interval.maxMillis = 9223372036854775807 := rfl
  exact ⟨_, if_pos (by omega), Int64.toInt_ofInt_of_le (by omega) (by omega)⟩

namespace SqlCe

/-- The conversion succeeds with a call that shifts the date by `n` milliseconds, and the call can
be NULL if the date or the interval can. -/
def MovesBy (date interval : Expr) (n : Int) (r : Except Error Expr) : Prop :=
  ∃ unit count, r = .ok (shift unit count date (date.canBeNull || interval.canBeNull)) ∧
    count.toInt * unit.millis = n

variable {ctx : Context} {date interval : Expr} {d : Interval}

theorem isTemporal_of_isDuration {t : DataType} (h : t.isDuration = true) :
    t.isTemporal = false := by
  cases t <;> first | rfl | cases h

theorem dateAdd?_eq_none (h : date.dataType.isTemporal = false) (negate : Bool) :
    dateAdd? ctx date interval negate = none := by
  simp [dateAdd?, h]

theorem shiftOverflows_eq_false (h : date.dataType.isTemporal = false) :
    shiftOverflows ctx date interval = false := by
  simp [shiftOverflows, h]

section

variable (hdate : date.dataType.isTemporal = true) (hinterval : interval.dataType.isDuration = true)
  (hvalue : interval.fold? ctx = some (.interval d))

include hdate hinterval hvalue

theorem dateAdd?_eq {unit : IntervalUnit} {count : Int64} (h : d.increment? = some (unit, count))
    (negate : Bool) :
    dateAdd? ctx date interval negate =
      (if negate then Word.signed? (-count.toInt) else some count).map fun count =>
        shift unit count date (date.canBeNull || interval.canBeNull) := by
  cases negate with
  | false =>
    simp [dateAdd?, hdate, hinterval, hvalue, h]
    rfl
  | true =>
    cases hcount : Word.signed? (-count.toInt) with
    | none => simp [dateAdd?, hdate, hinterval, hvalue, h, hcount]
    | some count =>
      simp [dateAdd?, hdate, hinterval, hvalue, h, hcount]
      rfl

/-- An interval that has a value can be evaluated, so that only its count matters. -/
theorem shiftOverflows_eq : shiftOverflows ctx date interval = d.increment?.isNone := by
  have hevaluates : interval.overflows ctx = false := by
    cases hoverflows : interval.overflows ctx with
    | false => rfl
    | true =>
      rw [Expr.fold?_of_overflows hoverflows] at hvalue
      cases hvalue
  simp [shiftOverflows, hdate, hinterval, hvalue, hevaluates]

/-- The calls that shift a date by an interval and back. -/
theorem exists_dateAdd? (h : d.Countable) :
    (∃ unit count,
        dateAdd? ctx date interval false =
          some (shift unit count date (date.canBeNull || interval.canBeNull)) ∧
        count.toInt * unit.millis = d.wholeMillis) ∧
      ∃ unit count,
        dateAdd? ctx date interval true =
          some (shift unit count date (date.canBeNull || interval.canBeNull)) ∧
        count.toInt * unit.millis = -d.wholeMillis := by
  obtain ⟨unit, count, hincrement, hlength, -⟩ := h.exists_increment?
  have hcall := dateAdd?_eq hdate hinterval hvalue hincrement
  have hle : count.toInt.natAbs ≤ d.wholeMillis.natAbs := by
    rw [← hlength, Int.natAbs_mul]
    exact Nat.le_mul_of_pos_right _ (Int.natAbs_pos.2 (Int.ne_of_gt unit.millis_pos))
  obtain ⟨opposite, hopposite, hneg⟩ := Word.signed?_neg (Int.le_trans (Int.ofNat_le.2 hle) h)
  refine ⟨⟨unit, count, hcall false, hlength⟩, unit, opposite, ?_, ?_⟩
  · rw [hcall true, if_pos rfl, hopposite, Option.map_some]
  · rw [hneg, Int.neg_mul, hlength]

theorem convert_of_countable (h : d.Countable) (p : Int) (t : DataType) (nullable : Bool) :
    MovesBy date interval d.wholeMillis (convert ctx (.binary .add date interval p t nullable)) ∧
      MovesBy date interval d.wholeMillis
        (convert ctx (.binary .add interval date p t nullable)) ∧
      MovesBy date interval (-d.wholeMillis)
        (convert ctx (.binary .subtract date interval p t nullable)) := by
  have hother := isTemporal_of_isDuration hinterval
  have hcounted : shiftOverflows ctx date interval = false := by
    rw [shiftOverflows_eq hdate hinterval hvalue]
    exact Option.isNone_eq_false_iff.2 (Option.ne_none_iff_isSome.1
      (mt Interval.increment?_eq_none_iff.1 (not_not_intro h)))
  obtain ⟨⟨unit, count, hforth, hlength⟩, unit', count', hback, hlength'⟩ :=
    exists_dateAdd? hdate hinterval hvalue h
  refine ⟨⟨unit, count, ?_, hlength⟩, ⟨unit, count, ?_, hlength⟩, unit', count', ?_, hlength'⟩
  · simp [convert, overflows, hcounted, shiftOverflows_eq_false hother, form, convertBinary, hforth]
  · simp [convert, overflows, hcounted, shiftOverflows_eq_false hother, form, convertBinary, hforth,
      dateAdd?_eq_none hother]
  · simp [convert, overflows, hcounted, form, convertBinary, hback]

theorem convert_of_not_countable (h : ¬ d.Countable) (p : Int) (t : DataType) (nullable : Bool) :
    convert ctx (.binary .add date interval p t nullable) = .error .overflow ∧
      convert ctx (.binary .add interval date p t nullable) = .error .overflow ∧
      convert ctx (.binary .subtract date interval p t nullable) = .error .overflow := by
  have hoverflows : shiftOverflows ctx date interval = true := by
    rw [shiftOverflows_eq hdate hinterval hvalue, Interval.increment?_eq_none_iff.2 h]
    rfl
  simp [convert, overflows, hoverflows]

end

/-- The sum of a date and an interval of known value, either way round, becomes a call that shifts
the date by the whole milliseconds of the interval exactly if these fit 64 bits on either side of
zero, and so does the difference with the opposite shift. Otherwise none of the three goes on. -/
theorem movesBy_convert_iff (hdate : date.dataType.isTemporal = true)
    (hinterval : interval.dataType.isDuration = true)
    (hvalue : interval.fold? ctx = some (.interval d)) (p : Int) (t : DataType) (nullable : Bool) :
    (MovesBy date interval d.wholeMillis
        (convert ctx (.binary .add date interval p t nullable)) ↔ d.Countable) ∧
      (MovesBy date interval d.wholeMillis
        (convert ctx (.binary .add interval date p t nullable)) ↔ d.Countable) ∧
      (MovesBy date interval (-d.wholeMillis)
        (convert ctx (.binary .subtract date interval p t nullable)) ↔ d.Countable) ∧
      (¬ d.Countable →
        convert ctx (.binary .add date interval p t nullable) = .error .overflow ∧
        convert ctx (.binary .add interval date p t nullable) = .error .overflow ∧
        convert ctx (.binary .subtract date interval p t nullable) = .error .overflow) := by
  have hmoves := fun h => convert_of_countable hdate hinterval hvalue h p t nullable
  have hfails := fun h => convert_of_not_countable hdate hinterval hvalue h p t nullable
  refine ⟨⟨?_, fun h => (hmoves h).1⟩, ⟨?_, fun h => (hmoves h).2.1⟩, ⟨?_, fun h => (hmoves h).2.2⟩,
    hfails⟩
  all_goals
    rintro ⟨unit, count, hok, -⟩
    refine Decidable.byContradiction fun h => ?_
    simp [hfails h] at hok

end SqlCe

namespace Sample

def placedAt : Expr :=
  .field { source := ⟨1⟩, name := "at", dataType := .dateTime, nullable := false }

/-- A number of seconds, some times over. -/
def repeated (seconds : Int64) (times : Int64) : Expr :=
  .operation .multiply (.literal (.interval ⟨seconds, 0, by decide⟩)) (.int times) .interval

/-- Ninety minutes before. -/
theorem movesBy_twoLessons :
    (repeated 2700 2).fold? {} = some (.interval ⟨5400, 0, by decide⟩) ∧
      SqlCe.MovesBy placedAt (repeated 2700 2) (-5400000)
        (SqlCe.convert {} (.operation .subtract placedAt (repeated 2700 2) .dateTime)) := by
  have hvalue : (repeated 2700 2).fold? {} = some (.interval ⟨5400, 0, by decide⟩) := by rfl
  have hdate : placedAt.dataType.isTemporal = true := rfl
  have hmoves := SqlCe.movesBy_convert_iff hdate rfl hvalue Precedence.subtraction .dateTime false
  exact ⟨hvalue, hmoves.2.2.1.2 (by decide)⟩

/-- Ten times a thousand million million seconds fit an interval, but not their milliseconds 64
bits: a shift by them is given up. -/
theorem convert_aeons :
    (repeated 1000000000000000 10).fold? {} =
        some (.interval ⟨10000000000000000, 0, by decide⟩) ∧
      SqlCe.convert {} (.operation .add placedAt (repeated 1000000000000000 10) .dateTime) =
        .error .overflow ∧
      ¬ SqlCe.MovesBy placedAt (repeated 1000000000000000 10) 10000000000000000000
        (SqlCe.convert {}
          (.operation .add placedAt (repeated 1000000000000000 10) .dateTime)) := by
  have hconvert : SqlCe.convert {}
      (.operation .add placedAt (repeated 1000000000000000 10) .dateTime) =
        .error .overflow := by rfl
  refine ⟨by rfl, hconvert, ?_⟩
  rw [hconvert]
  rintro ⟨unit, count, hok, -⟩
  cases hok

end Sample

end SqlTree
