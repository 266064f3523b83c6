import SqlTree.Proofs.Time.Interval

/-! # Quotients of intervals

The quotient of an interval by an integer is put together from the quotients of its seconds and of
its nanoseconds, each toward zero. If the integer divides the interval, the quotient is exact unless
the interval is positive and the integer does not divide its nanoseconds. Then it is a nanosecond
short.

Main definitions:

* `Interval.loss`: what the quotient falls short by.

Main statements:

* `Interval.div?_eq`: the quotient of an interval by one of its divisors.
* `Interval.Whole.exists_div?`: the same in milliseconds.
* `Interval.exists_mul?_div?`: the quotient of a product.
-/

namespace SqlTree

namespace Interval

/-- What the quotient of `t` nanoseconds by one of their divisors falls short by. The nanoseconds of
a negative interval lie above its seconds, so that what the two quotients cut off cancels. -/
def loss (t k : Int) : Int := if t < 0 ∨ k ∣ t % 1000000000 then 0 else k.sign

/-! Quotients of integers, part by part. -/

/-- A quotient of a multiple, from the quotient and the remainder of the number. -/
theorem tdiv_mul_add_tmod_mul_tdiv (s c : Int) {k : Int} (hc : 0 ≤ c) (hk : k ≠ 0) :
    s.tdiv k * c + (s.tmod k * c).tdiv k = (s * c).tdiv k := by
  have hnonneg (n : Int) (hn : 0 ≤ n) : n.tdiv k * c + (n.tmod k * c).tdiv k = (n * c).tdiv k := by
    have hrest := Int.emod_nonneg n hk
    rw [Int.tdiv_eq_ediv_of_nonneg hn, Int.tmod_eq_emod_of_nonneg hn,
      Int.tdiv_eq_ediv_of_nonneg (Int.mul_nonneg hrest hc),
      Int.tdiv_eq_ediv_of_nonneg (Int.mul_nonneg hn hc)]
    calc n / k * c + n % k * c / k
        = (n % k * c + k * (n / k * c)) / k := by
          rw [Int.add_mul_ediv_left _ _ hk, Int.add_comm]
      _ = n * c / k := by
          rw [← Int.mul_assoc, ← Int.add_mul, Int.emod_add_mul_ediv]
  rcases Int.le_total 0 s with h | h
  · exact hnonneg s h
  · have hneg := hnonneg (-s) (Int.neg_nonneg_of_nonpos h)
    simp only [Int.neg_tdiv, Int.neg_tmod, Int.neg_mul] at hneg
    omega

/-- The quotients toward zero of two numbers with a common sum, the second of them natural. -/
theorem tdiv_add_tdiv {a b k : Int} (hb : 0 ≤ b) (hk : k ≠ 0) (hdvd : k ∣ a + b) :
    a.tdiv k + b.tdiv k = (a + b) / k - if a < 0 ∨ k ∣ b then 0 else k.sign := by
  rw [Int.tdiv_eq_ediv_of_nonneg hb, Int.tdiv_eq_ediv]
  by_cases hparts : k ∣ b
  · have ha : k ∣ a := (Int.dvd_iff_dvd_of_dvd_add hdvd).2 hparts
    rw [if_pos (.inr ha), if_pos (.inr hparts), Int.add_ediv_of_dvd_right hparts]
    omega
  · have ha : ¬ k ∣ a := fun ha => hparts ((Int.dvd_iff_dvd_of_dvd_add hdvd).1 ha)
    -- Both remainders are left, and they make up one divisor.
    have hsum : a / k + b / k + k.sign = (a + b) / k := by
      have hrests : k ∣ a % k + b % k := by
        rwa [Int.dvd_iff_emod_eq_zero, ← Int.add_emod, ← Int.dvd_iff_emod_eq_zero]
      have hrest := (Int.emod_pos_of_not_dvd ha).resolve_left hk
      have hrest' := (Int.emod_pos_of_not_dvd hparts).resolve_left hk
      have hle := Int.le_of_dvd (by omega) (Int.natAbs_dvd.2 hrests)
      rw [Int.add_ediv hk, if_pos hle]
    simp only [ha, hparts, or_false]
    split <;> split <;> omega

/-! Quotients of intervals. -/

variable {d : Interval} {k : Int}

theorem div?_eq (hk : k ≠ 0) (hdvd : k ∣ d.total) :
    d.div? k = some (ofTotal (d.total / k - loss d.total k)) := by
  have hnanos := d.nanos_lt
  have htotal : d.total = d.seconds.toInt * 1000000000 + d.nanos := rfl
  have hrest : d.total % 1000000000 = d.nanos := by omega
  have hneg : d.total < 0 ↔ d.seconds.toInt * 1000000000 < 0 := by omega
  rw [htotal] at hdvd
  have hquotient := tdiv_add_tdiv (Int.natCast_nonneg d.nanos) hk hdvd
  rw [← tdiv_mul_add_tmod_mul_tdiv _ _ (by decide) hk] at hquotient
  unfold div? loss
  simp only [if_neg hk, hrest, hneg]
  rw [htotal, ← hquotient]
  congr 2
  omega

/-- A quotient falls short toward zero, and only if it is not zero itself. -/
theorem loss_cases {t : Int} (hk : k ≠ 0) (hdvd : k ∣ t) :
    loss t k = 0 ∨ loss t k = 1 ∧ 0 < t / k ∨ loss t k = -1 ∧ t / k < 0 := by
  unfold loss
  split
  · exact .inl rfl
  · rename_i h
    have hpos : 0 < t := by
      rcases Int.lt_trichotomy t 0 with hneg | rfl | hpos
      · exact absurd (.inl hneg) h
      · exact absurd (.inr (Int.dvd_zero k)) h
      · exact hpos
    refine .inr ?_
    rcases Int.lt_or_gt_of_ne hk with hneg | hpos'
    · have hquotient := Int.ediv_pos_of_pos_of_dvd hpos (by omega) (Int.neg_dvd.2 hdvd)
      rw [Int.ediv_neg] at hquotient
      exact .inr ⟨Int.sign_eq_neg_one_of_neg hneg, by omega⟩
    · exact .inl ⟨Int.sign_eq_one_of_pos hpos',
        Int.ediv_pos_of_pos_of_dvd hpos (Int.le_of_lt hpos') hdvd⟩

/-- The quotient of an interval within the limit by one of its divisors. -/
theorem exists_div? (h : d.Limited) (hk : k ≠ 0) (hdvd : k ∣ d.total) :
    ∃ q, d.div? k = some q ∧ q.Limited ∧ q.total = d.total / k - loss d.total k := by
  have hle := Int.natAbs_ediv_le_natAbs d.total k
  have hloss := loss_cases hk hdvd
  unfold Limited at h
  have hlimit : (d.total / k - loss d.total k).natAbs ≤ maxMillis * 1000000 := by omega
  refine ⟨_, div?_eq hk hdvd, ?_, total_ofTotal_of_le hlimit⟩
  rw [Limited, total_ofTotal_of_le hlimit]
  exact hlimit

/-- The quotient of whole milliseconds within the limit by one of their divisors, and what is left
of it in whole milliseconds. -/
theorem Whole.exists_div? (h : d.Whole) {k : Int} (hk : k ≠ 0) (hdvd : k ∣ d.wholeMillis) :
    ∃ q, d.div? k = some q ∧ q.Limited ∧
      q.total = d.wholeMillis / k * 1000000 - loss d.total k ∧
      q.wholeMillis = d.wholeMillis / k - loss d.total k := by
  have hdvd' : k ∣ d.total := h.total_eq ▸ Int.dvd_mul_of_dvd_left hdvd
  have hquotient : d.total / k = d.wholeMillis / k * 1000000 := by
    rw [h.total_eq, Int.mul_ediv_assoc' _ hdvd]
  obtain ⟨q, hq, hlimited, htotal⟩ := Interval.exists_div? h.limited hk hdvd'
  have hloss := loss_cases hk hdvd'
  rw [hquotient] at htotal hloss
  refine ⟨q, hq, hlimited, htotal, ?_⟩
  rw [wholeMillis, htotal, tdiv_eq_ediv_of_pos _ (by decide)]
  omega

/-- The product of an interval by an integer within the limit, and its quotient by the integer. -/
theorem exists_mul?_div? (hk : k ≠ 0)
    (hlimit : (d.total * k).natAbs ≤ maxMillis * 1000000) :
    ∃ p q, d.mul? k = some p ∧ p.div? k = some q ∧ q.total = d.total - loss (d.total * k) k := by
  have hproduct : d.mul? k = some (ofTotal (d.total * k)) := by
    have hmin : Int64.minValue.toInt = -9223372036854775808 := rfl
    have hmax : Int64.maxValue.toInt = 9223372036854775807 := rfl
    have hmaxMillis : maxMillis = 9223372036854775807 := rfl
    exact if_pos (by omega)
  have htotal := total_ofTotal_of_le hlimit
  have hlimited : (ofTotal (d.total * k)).Limited := by
    rw [Limited, htotal]
    exact hlimit
  have hdvd : k ∣ (ofTotal (d.total * k)).total := by
    rw [htotal]
    exact Int.dvd_mul_left d.total k
  obtain ⟨q, hq, -, hqtotal⟩ := exists_div? hlimited hk hdvd
  rw [htotal, Int.mul_ediv_cancel _ hk] at hqtotal
  exact ⟨_, q, hproduct, hq, hqtotal⟩

end Interval

end SqlTree
