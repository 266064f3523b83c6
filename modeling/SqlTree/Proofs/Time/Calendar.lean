import SqlTree.Time.Civil

/-! # Dates of day numbers

The day of an era is taken apart into centuries, cycles of four years, years and days. Each part but
the last is counted with a fixed length, and a leap day is the day 365 at the end of the last year
of a cycle.

Main definitions:

* `Civil.IsPlace`: the parts of a day of an era.

Main statements:

* `Civil.toDay_ofDay`: the date of a day has the number of the day.
* `Civil.valid_ofDay`: it is in the calendar.
-/

namespace SqlTree.Civil

/-- The day `d` of an era is the day `day` of the year `year` of the cycle `cycle` of four years of
the century `century`, all counted from zero. -/
structure IsPlace (d century cycle year day : Int) : Prop where
  eq : d = 36524 * century + 1461 * cycle + 365 * year + day
  century_le : 0 ≤ century ∧ century ≤ 3
  cycle_le : 0 ≤ cycle ∧ cycle ≤ 24
  year_le : 0 ≤ year ∧ year ≤ 3
  day_le : 0 ≤ day ∧ day ≤ 365
  /-- A leap day ends a cycle, and it ends a century only at the end of the era. -/
  leap : day = 365 → year = 3 ∧ (cycle = 24 → century = 3)

theorem exists_isPlace {d : Int} (hlow : 0 ≤ d) (hhigh : d < 146097) :
    ∃ century cycle year day, IsPlace d century cycle year day := by
  -- The last part of a century, and of a cycle, is one day longer than the others.
  obtain ⟨century, hcentury⟩ : ∃ n, n = min (d / 36524) 3 := ⟨_, rfl⟩
  obtain ⟨cycle, hcycle⟩ : ∃ n, n = (d - 36524 * century) / 1461 := ⟨_, rfl⟩
  obtain ⟨year, hyear⟩ : ∃ n, n = min ((d - 36524 * century - 1461 * cycle) / 365) 3 := ⟨_, rfl⟩
  refine ⟨century, cycle, year, d - 36524 * century - 1461 * cycle - 365 * year, ?_⟩
  constructor <;> omega

namespace IsPlace

variable {d century cycle year day : Int}

/-- The number of the year in the era, as it is computed from the day. -/
theorem year_eq (h : IsPlace d century cycle year day) :
    (d - d / 1460 + d / 36524 - d / 146096) / 365 = 100 * century + 4 * cycle + year := by
  obtain ⟨hd, hcentury, hcycle, hyear, hday, hleap⟩ := h
  have hcenturies : d / 36524 - d / 146096 = century := by
    by_cases hlast : d = 146096
    · omega
    · have hlt : 1461 * cycle + 365 * year + day < 36524 := by omega
      have hdiv : d / 36524 = century := by omega
      have hera : d / 146096 = 0 := by omega
      omega
  -- Cycles of 1460 days run ahead of the calendar, by one at most and in a last year only.
  have hcycles : d / 1460 = 25 * century + cycle +
      if 1460 ≤ 24 * century + cycle + 365 * year + day then 1 else 0 := by
    split <;> omega
  split at hcycles <;> omega

theorem daysBeforeYear_eq (h : IsPlace d century cycle year day) :
    daysBeforeYear (100 * century + 4 * cycle + year) = d - day := by
  obtain ⟨hd, hcentury, hcycle, hyear, hday, hleap⟩ := h
  unfold daysBeforeYear
  omega

end IsPlace

/-- The month of the day of a year, March being month zero. -/
def monthOfDay (day : Int) : Int := (5 * day + 2) / 153

theorem monthOfDay_bounds {day : Int} (hday : 0 ≤ day ∧ day ≤ 365) :
    0 ≤ monthOfDay day ∧ monthOfDay day ≤ 11 := by
  unfold monthOfDay
  omega

theorem daysBeforeMonth_le (day : Int) : daysBeforeMonth (monthOfDay day) ≤ day := by
  unfold daysBeforeMonth monthOfDay
  omega

/-- The date of a day, in terms of the parts of the day. -/
theorem ofDay_eq {n century cycle year day : Int}
    (h : IsPlace ((n + 719468) % 146097) century cycle year day) :
    ofDay n = {
      year := (n + 719468) / 146097 * 400 + (100 * century + 4 * cycle + year) +
        if monthOfDay day < 10 then 0 else 1
      month := (if monthOfDay day < 10 then monthOfDay day + 3 else monthOfDay day - 9).toNat
      day := (day - daysBeforeMonth (monthOfDay day) + 1).toNat } := by
  simp only [ofDay, h.year_eq, h.daysBeforeYear_eq, Int.sub_sub_self]
  rfl

/-- The number of a date, from the year of the era and the month that start in March. -/
theorem toDay_eq {year month : Int} (hyear : 0 ≤ year ∧ year < 400)
    (hmonth : 0 ≤ month ∧ month ≤ 11) (era : Int) (day : Nat) :
    toDay {
      year := era * 400 + year + if month < 10 then 0 else 1
      month := (if month < 10 then month + 3 else month - 9).toNat
      day } = era * 146097 + daysBeforeYear year + daysBeforeMonth month + day - 1 - 719468 := by
  have hera : (era * 400 + year) / 400 = era := by omega
  have hofEra : (era * 400 + year) % 400 = year := by omega
  by_cases hm : month < 10
  · have hmonths : (((month + 3).toNat + 9) % 12 : Nat) = month := by omega
    have hlate : ¬ (month + 3).toNat ≤ 2 := by omega
    simp only [toDay, hm, if_true, hlate, if_false, Int.add_zero, hera, hofEra, hmonths]
  · have hmonths : (((month - 9).toNat + 9) % 12 : Nat) = month := by omega
    have hearly : (month - 9).toNat ≤ 2 := by omega
    simp only [toDay, hm, if_false, hearly, if_true, Int.add_sub_cancel, hera, hofEra, hmonths]

/-- The date of a day has the number of the day. -/
theorem toDay_ofDay (n : Int) : (ofDay n).toDay = n := by
  obtain ⟨century, cycle, year, day, h⟩ :=
    exists_isPlace (d := (n + 719468) % 146097) (by omega) (by omega)
  have hbefore := daysBeforeMonth_le day
  have hyear : 0 ≤ 100 * century + 4 * cycle + year ∧ 100 * century + 4 * cycle + year < 400 := by
    have := h.century_le
    have := h.cycle_le
    have := h.year_le
    omega
  rw [ofDay_eq h, toDay_eq hyear (monthOfDay_bounds h.day_le), h.daysBeforeYear_eq]
  omega

/-- A month has the days that fall into it, the last one of a leap year included. -/
theorem le_daysInMonth {day : Int} (hday : 0 ≤ day ∧ day ≤ 365) {year : Int}
    (hleap : day = 365 → isLeapYear year = true) :
    day - daysBeforeMonth (monthOfDay day) + 1 ≤ daysInMonth year
      (if monthOfDay day < 10 then monthOfDay day + 3 else monthOfDay day - 9).toNat := by
  have hmonth : monthOfDay day = (5 * day + 2) / 153 := rfl
  have hbounds := monthOfDay_bounds hday
  generalize monthOfDay day = month at *
  by_cases hlast : month = 11
  · subst hlast
    change day - 337 + 1 ≤ ((if isLeapYear year then 29 else 28 : Nat) : Int)
    by_cases hend : day = 365
    · simp [hleap hend, hend]
    · split <;> omega
  · obtain rfl | rfl | rfl | rfl | rfl | rfl | rfl | rfl | rfl | rfl | rfl :
        month = 0 ∨ month = 1 ∨ month = 2 ∨ month = 3 ∨ month = 4 ∨ month = 5 ∨ month = 6 ∨
          month = 7 ∨ month = 8 ∨ month = 9 ∨ month = 10 := by omega
    all_goals simp [daysInMonth, daysBeforeMonth]
    all_goals omega

/-- The date of a day is in the calendar. -/
theorem valid_ofDay (n : Int) : (ofDay n).Valid := by
  obtain ⟨century, cycle, year, day, h⟩ :=
    exists_isPlace (d := (n + 719468) % 146097) (by omega) (by omega)
  have hmonth := monthOfDay_bounds h.day_le
  have hbefore := daysBeforeMonth_le day
  rw [ofDay_eq h]
  obtain ⟨-, hcentury, hcycle, hyear, hday, hleap⟩ := h
  refine ⟨by dsimp only; split <;> omega, by dsimp only; split <;> omega, by dsimp only; omega, ?_⟩
  refine Int.ofNat_le.1 (Int.le_trans (Int.le_of_eq (Int.toNat_of_nonneg (by omega)))
    (le_daysInMonth hday fun hend => ?_))
  obtain ⟨rfl, hlast⟩ := hleap hend
  subst hend
  have hmonth : ¬ monthOfDay 365 < 10 := by decide
  simp only [isLeapYear, hmonth, if_false, decide_eq_true_eq]
  omega

end SqlTree.Civil
