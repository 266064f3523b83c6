import SqlTree.Proofs.Time.Interval

/-! # Increments of dates

The unit and the count by which a date is shifted make up the milliseconds of the interval, and no
coarser unit divides these. There is no increment exactly if the milliseconds do not fit 64 bits.

Main statements:

* `IntervalUnit.millis_dvd_iff`: the units that divide a number of milliseconds.
* `Interval.Countable.exists_increment?`: the increment of an interval.
* `Interval.increment?_eq_none_iff`: when there is none.
-/

namespace SqlTree

namespace IntervalUnit

theorem millis_inj {u v : IntervalUnit} (h : u.millis = v.millis) : u = v := by
  cases u <;> cases v <;> first | rfl | exact absurd h (by decide)

theorem millis_pos (u : IntervalUnit) : 0 < u.millis := by
  cases u <;> decide

/-- The finest part is the coarsest unit that divides the milliseconds: the units that divide them
are those up to it. -/
theorem millis_dvd_iff (v : IntervalUnit) (n : Nat) :
    v.millis ∣ n ↔ v.millis ≤ (finestPart n).millis := by
  unfold finestPart
  repeat' split
  all_goals cases v <;> simp only [millis] <;> omega

/-- Counting by a unit is counting whole milliseconds by it. -/
theorem count_eq (u : IntervalUnit) (d : Interval) :
    u.count d = d.wholeMillis.tdiv u.millis := by
  have hmillis : d.wholeMillis = _ := Interval.tdiv_eq_ediv_of_pos d.total (by decide)
  rw [count, Interval.tdiv_eq_ediv_of_pos _ (Int.mul_pos u.millis_pos (by decide)),
    Interval.tdiv_eq_ediv_of_pos _ u.millis_pos, hmillis]
  cases u <;> simp only [millis] <;> omega

end IntervalUnit

namespace Interval

variable {d : Interval}

theorem dvd_wholeMillis_iff (u : IntervalUnit) :
    u.millis ∣ d.wholeMillis ↔
      u.millis ≤ (IntervalUnit.finestPart (d.total.natAbs / 1000000)).millis := by
  rw [← IntervalUnit.millis_dvd_iff, ← natAbs_wholeMillis, Int.dvd_natAbs]

theorem increment?_eq_none_iff : d.increment? = none ↔ ¬ d.Countable := by
  rw [Countable, natAbs_wholeMillis, Int.not_le]
  unfold increment?
  dsimp only
  split <;> simp only [*, reduceCtorEq]

/-- The count of units makes up the whole milliseconds, and the units up to the one that is counted
are those that divide them. -/
theorem Countable.exists_increment? (h : d.Countable) :
    ∃ unit count, d.increment? = some (unit, count) ∧
      count.toInt * unit.millis = d.wholeMillis ∧
      ∀ v : IntervalUnit, v.millis ∣ d.wholeMillis ↔ v.millis ≤ unit.millis := by
  have hmax : maxMillis = 9223372036854775807 := rfl
  have hlimit : d.wholeMillis.natAbs ≤ maxMillis := h
  have hincrement : ¬ maxMillis < (d.total.natAbs / 1000000 : Nat) := by
    rw [← natAbs_wholeMillis]
    omega
  refine ⟨_, _, if_neg hincrement, ?_, dvd_wholeMillis_iff⟩
  have hdvd := (dvd_wholeMillis_iff _).2 (Int.le_refl
    (IntervalUnit.finestPart (d.total.natAbs / 1000000)).millis)
  generalize IntervalUnit.finestPart (d.total.natAbs / 1000000) = unit at hdvd ⊢
  -- The count is no longer than the milliseconds, so that it fits the word.
  have hcount : unit.count d * unit.millis = d.wholeMillis := by
    rw [IntervalUnit.count_eq, Int.tdiv_mul_cancel hdvd]
  have hle : (unit.count d).natAbs ≤ d.wholeMillis.natAbs := by
    rw [IntervalUnit.count_eq]
    exact Int.natAbs_tdiv_le_natAbs _ _
  rw [Int64.toInt_ofInt_of_le (by omega) (by omega)]
  exact hcount

end Interval

end SqlTree
