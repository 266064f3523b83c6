import SqlTree.Time.Interval

/-! # Milliseconds of intervals

An interval within the limit is given by its milliseconds if it is a whole number of them.

Main definitions:

* `Interval.Limited`: an interval within the limit.
* `Interval.Countable`: an interval whose whole milliseconds fit 64 bits.
* `Interval.Whole`: a whole number of milliseconds within the limit.

Main statements:

* `Interval.whole_of_ofMillis?`, `Interval.ofMillis?_wholeMillis`: intervals made from a count.
-/

namespace SqlTree

namespace Interval

/-- The interval is within the limit. -/
def Limited (d : Interval) : Prop := d.total.natAbs ≤ maxMillis * 1000000

instance : DecidablePred Limited := fun d =>
  inferInstanceAs (Decidable ((d.total.natAbs : Int) ≤ maxMillis * 1000000))

/-- An interval has the length that it is made of if its seconds fit 64 bits. -/
theorem total_ofTotal {n : Int} (hlow : Int64.minValue.toInt ≤ n / 1000000000)
    (hhigh : n / 1000000000 ≤ Int64.maxValue.toInt) : (ofTotal n).total = n := by
  have hmin : Int64.minValue.toInt = -9223372036854775808 := rfl
  have hmax : Int64.maxValue.toInt = 9223372036854775807 := rfl
  have hseconds : (ofTotal n).seconds.toInt = n / 1000000000 :=
    Int64.toInt_ofInt_of_le (by omega) (by omega)
  have hnanos : (ofTotal n).nanos = (n % 1000000000).toNat := rfl
  rw [total, hseconds, hnanos]
  omega

theorem total_ofTotal_of_le {n : Int} (h : n.natAbs ≤ maxMillis * 1000000) :
    (ofTotal n).total = n := by
  have hmin : Int64.minValue.toInt = -9223372036854775808 := rfl
  have hmax : Int64.maxValue.toInt = 9223372036854775807 := rfl
  have hlimit : maxMillis = 9223372036854775807 := rfl
  exact total_ofTotal (by omega) (by omega)

/-- An interval is the one of its length. -/
theorem ofTotal_total (d : Interval) : ofTotal d.total = d := by
  obtain ⟨seconds, nanos, hnanos⟩ := d
  have hseconds : (seconds.toInt * 1000000000 + nanos) / 1000000000 = seconds.toInt := by omega
  have hrest : ((seconds.toInt * 1000000000 + nanos) % 1000000000).toNat = nanos := by omega
  simp only [ofTotal, total, hseconds, hrest, Int64.ofInt_toInt]

/-- The quotient toward zero, in terms of the one that `omega` knows. -/
theorem tdiv_eq_ediv_of_pos (n : Int) {k : Int} (hk : 0 < k) :
    n.tdiv k = n / k + if 0 ≤ n ∨ k ∣ n then 0 else 1 := by
  rw [Int.tdiv_eq_ediv, Int.sign_eq_one_of_pos hk]

/-- The whole milliseconds of the interval fit 64 bits on either side of zero. -/
def Countable (d : Interval) : Prop := d.wholeMillis.natAbs ≤ maxMillis

instance : DecidablePred Countable := fun d =>
  inferInstanceAs (Decidable ((d.wholeMillis.natAbs : Int) ≤ maxMillis))

theorem natAbs_wholeMillis (d : Interval) : d.wholeMillis.natAbs = d.total.natAbs / 1000000 :=
  Int.natAbs_tdiv d.total 1000000

variable {d : Interval}

theorem Limited.countable (h : d.Limited) : d.Countable := by
  unfold Limited at h
  rw [Countable, natAbs_wholeMillis]
  omega

/-- The interval is a whole number of milliseconds within the limit. -/
structure Whole (d : Interval) : Prop where
  limited : d.Limited
  dvd : 1000000 ∣ d.total

instance : DecidablePred Whole := fun d =>
  decidable_of_iff (d.Limited ∧ 1000000 ∣ d.total) ⟨fun h => ⟨h.1, h.2⟩, fun h => ⟨h.1, h.2⟩⟩

theorem Whole.total_eq (h : d.Whole) : d.total = d.wholeMillis * 1000000 :=
  (Int.tdiv_mul_cancel h.dvd).symm

theorem ofTotal?_eq_some_iff {n : Int} :
    ofTotal? n = some d ↔ d.Limited ∧ d.total = n := by
  unfold ofTotal?
  constructor
  · intro h
    split at h
    · rename_i hlimit
      cases h
      have htotal := total_ofTotal_of_le hlimit
      refine ⟨?_, htotal⟩
      rw [Limited, htotal]
      exact hlimit
    · cases h
  · rintro ⟨hlimit, rfl⟩
    unfold Limited at hlimit
    rw [if_pos hlimit, ofTotal_total]

theorem whole_of_ofMillis? {n : Int64} (h : ofMillis? n = some d) : d.Whole := by
  obtain ⟨hlimited, htotal⟩ := ofTotal?_eq_some_iff.1 h
  exact ⟨hlimited, n.toInt, by omega⟩

theorem Whole.minValue_le_wholeMillis (h : d.Whole) : Int64.minValue.toInt ≤ d.wholeMillis := by
  have hmin : Int64.minValue.toInt = -9223372036854775808 := rfl
  have hmax : maxMillis = 9223372036854775807 := rfl
  have hcount : d.wholeMillis.natAbs ≤ maxMillis := h.limited.countable
  omega

theorem Whole.wholeMillis_le (h : d.Whole) : d.wholeMillis ≤ Int64.maxValue.toInt := by
  have hmax : maxMillis = Int64.maxValue.toInt := rfl
  have hcount : d.wholeMillis.natAbs ≤ maxMillis := h.limited.countable
  omega

/-- Whole milliseconds within the limit fit 64 bits, and the interval is made of them. -/
theorem ofMillis?_wholeMillis (h : d.Whole) :
    ofMillis? (Int64.ofInt d.wholeMillis) = some d := by
  have hword : (Int64.ofInt d.wholeMillis).toInt = d.wholeMillis :=
    Int64.toInt_ofInt_of_le h.minValue_le_wholeMillis (Int.lt_add_one_of_le h.wholeMillis_le)
  rw [ofMillis?, hword, ofTotal?_eq_some_iff]
  exact ⟨h.limited, h.total_eq⟩

end Interval

end SqlTree
