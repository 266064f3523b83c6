import SqlTree.Proofs.Time.Increment

/-! # The unit of an increment

Within the limit, the increment of an interval counts it in whole milliseconds, in the coarsest unit
that divides them, and the opposite interval has the same unit and the opposite count.

Main statements:

* `Interval.increment_coarsest`: the increment of an interval within the limit.
-/

namespace SqlTree

namespace Interval

instance : Neg Interval := ⟨fun d => ofTotal (-d.total)⟩

variable {d : Interval}

namespace Limited

theorem total_neg (h : d.Limited) : (-d).total = -d.total := by
  refine total_ofTotal_of_le ?_
  rw [Int.natAbs_neg]
  exact h

theorem neg (h : d.Limited) : (-d).Limited := by
  unfold Limited
  rw [h.total_neg, Int.natAbs_neg]
  exact h

theorem wholeMillis_neg (h : d.Limited) : (-d).wholeMillis = -d.wholeMillis := by
  rw [wholeMillis, h.total_neg, Int.neg_tdiv, wholeMillis]

end Limited

/-- Within the limit, the count of an increment makes up the whole milliseconds of the interval, and
no coarser unit divides them. No milliseconds are no days, and the opposite interval has the same
unit and the opposite count. -/
theorem increment_coarsest (h : d.Limited) :
    ∃ unit count, d.increment? = some (unit, count) ∧
      count.toInt * unit.millis = d.wholeMillis ∧
      (∀ u : IntervalUnit, unit.millis < u.millis → ¬ u.millis ∣ d.wholeMillis) ∧
      (d.wholeMillis = 0 → unit = .day ∧ count = 0) ∧
      (-d).total = -d.total ∧
      ∃ opposite, (-d).increment? = some (unit, opposite) ∧ opposite.toInt = -count.toInt := by
  obtain ⟨unit, count, hincrement, hlength, hunits⟩ := h.countable.exists_increment?
  obtain ⟨unit', opposite, hopposite, hlength', hunits'⟩ := h.neg.countable.exists_increment?
  have hpos := unit.millis_pos
  rw [h.wholeMillis_neg] at hlength'
  -- The same units divide the opposite interval, so that the coarsest of them is the same.
  have hunit : unit' = unit := by
    have hle (v : IntervalUnit) : v.millis ≤ unit'.millis ↔ v.millis ≤ unit.millis := by
      rw [← hunits, ← hunits', h.wholeMillis_neg, Int.dvd_neg]
    exact IntervalUnit.millis_inj (Int.le_antisymm ((hle _).1 (Int.le_refl _))
      ((hle _).2 (Int.le_refl _)))
  subst hunit
  refine ⟨unit', count, hincrement, hlength, fun u hcoarser hdvd => ?_, fun hzero => ⟨?_, ?_⟩,
    h.total_neg, opposite, hopposite, ?_⟩
  · exact Int.not_le.2 hcoarser ((hunits u).1 hdvd)
  · have hday : IntervalUnit.day.millis ≤ unit'.millis :=
      (hunits .day).1 (hzero ▸ Int.dvd_zero _)
    cases unit' <;> first | rfl | exact absurd hday (by decide)
  · rw [hzero, Int.mul_eq_zero, or_iff_left (Int.ne_of_gt hpos)] at hlength
    exact Int64.toInt_inj.1 hlength
  · refine Int.eq_of_mul_eq_mul_right (Int.ne_of_gt hpos) ?_
    rw [hlength', Int.neg_mul, hlength]

end Interval

namespace Sample

/-- Half a millisecond beyond ninety minutes before. -/
def lessonsBefore : Interval := ⟨-5401, 999500000, by decide⟩

theorem increment_lessonsBefore :
    lessonsBefore.Limited ∧ lessonsBefore.wholeMillis = -5400000 ∧
      lessonsBefore.increment? = some (.minute, -90) ∧
      ∃ count, (-lessonsBefore).increment? = some (.minute, count) ∧ count.toInt = 90 := by
  have hlimited : lessonsBefore.Limited := by decide
  have hincrement : lessonsBefore.increment? = some (.minute, -90) := by decide
  obtain ⟨unit, count, heq, -, -, -, -, hopposite⟩ := Interval.increment_coarsest hlimited
  cases hincrement.symm.trans heq
  exact ⟨hlimited, by decide, hincrement, hopposite⟩

end Sample

end SqlTree
