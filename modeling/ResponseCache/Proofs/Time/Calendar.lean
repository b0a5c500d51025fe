import Mathlib.Tactic.IntervalCases
import ResponseCache.Time.Calendar

/-!
# Days and their dates

Every day, before or after 1970, has a date that the calendar has (`exists_ofDays`) and that leads
back to the day (`toDays_ofDays`). The year of a day is found by a division that comes out even in
the last century of an era and the last year of a cycle only by way of a bound; that the year found
is the one that the day lies in is `yearOfDay_spec`. Within a year that begins in March the months
have lengths that do not depend on the year, but for the last one.
-/

namespace ResponseCache.CivilDate

variable {era century cycle year : Int}

/-! ## Years -/

/-- The days up to a year by the era of the year, its century in that, its cycle of four years in
that, and its place in the cycle. -/
theorem daysToYear_parts (hcentury : 0 ≤ century ∧ century ≤ 3) (hcycle : 0 ≤ cycle ∧ cycle ≤ 24)
    (hyear : 0 ≤ year ∧ year ≤ 3) :
    daysToYear (era * 400 + century * 100 + cycle * 4 + year)
      = era * 146097 + century * 36524 + cycle * 1461 + year * 365 := by
  have h4 : (era * 400 + century * 100 + cycle * 4 + year) / 4
      = era * 100 + century * 25 + cycle := by omega
  have h100 : (era * 400 + century * 100 + cycle * 4 + year) / 100 = era * 4 + century := by omega
  have h400 : (era * 400 + century * 100 + cycle * 4 + year) / 400 = era := by omega
  rw [daysToYear, h4, h100, h400]
  omega

/-- The year after the last one of a cycle has a leap day, unless the cycle is the last one of a
century that is not the last one of an era. -/
theorem isLeapYear_parts (hcycle : 0 ≤ cycle ∧ cycle ≤ 24) (h : cycle < 24 ∨ century = 3) :
    isLeapYear (era * 400 + century * 100 + cycle * 4 + 3 + 1) = true := by
  simp only [isLeapYear, Bool.and_eq_true, Bool.or_eq_true, beq_iff_eq, bne_iff_ne, ne_eq]
  omega

/-- A year that begins in March ends with the February of the next calendar year. -/
theorem daysToYear_succ (y : Int) :
    daysToYear (y + 1) = daysToYear y + if isLeapYear (y + 1) then 366 else 365 := by
  unfold daysToYear
  cases h : isLeapYear (y + 1) with
  | true =>
    simp only [isLeapYear, Bool.and_eq_true, Bool.or_eq_true, beq_iff_eq, bne_iff_ne, ne_eq] at h
    rw [if_pos rfl]
    omega
  | false =>
    simp only [isLeapYear, Bool.and_eq_false_iff, Bool.or_eq_false_iff, beq_eq_false_iff_ne,
      bne_eq_false_iff_eq, ne_eq] at h
    rw [if_neg Bool.false_ne_true]
    omega

/-- The year of a day is the one that has begun by then and whose successor has not. -/
theorem yearOfDay_spec (z : Int) :
    daysToYear (yearOfDay z) ≤ z ∧ z < daysToYear (yearOfDay z + 1) := by
  unfold yearOfDay
  dsimp only
  generalize hera : z / 146097 = era
  generalize hcentury : min (z % 146097 / 36524) 3 = century
  generalize hcycle : (z % 146097 - century * 36524) / 1461 = cycle
  generalize hyear : min ((z % 146097 - century * 36524 - cycle * 1461) / 365) 3 = year
  rw [daysToYear_succ, daysToYear_parts (by omega) (by omega) (by omega)]
  refine ⟨by omega, ?_⟩
  -- the bound of 3 holds back a day only where the year has a leap day
  by_cases hlast : year = 3 ∧ (cycle < 24 ∨ century = 3)
  · obtain ⟨rfl, hleap⟩ := hlast
    rw [isLeapYear_parts (by omega) hleap, if_pos rfl]
    omega
  · have hlength : (365 : Int)
        ≤ if isLeapYear (era * 400 + century * 100 + cycle * 4 + year + 1) then 366 else 365 := by
      split <;> decide
    omega

/-! ## Months -/

section Months

variable {y n m : Int}

/-- The month of a day in a year that begins in March is the one that has begun by then and whose
successor has not. -/
theorem monthOfDay_spec (n : Int) :
    daysToMonth (monthOfDay n) ≤ n ∧ n < daysToMonth (monthOfDay n + 1) := by
  unfold daysToMonth monthOfDay
  omega

theorem monthOfDay_range (h : 0 ≤ n ∧ n ≤ 365) : 0 ≤ monthOfDay n ∧ monthOfDay n ≤ 11 := by
  unfold monthOfDay
  omega

/-- Each month is as long as in the calendar, which gives February what is left of the year. -/
theorem daysInMonth_ofMarch (hm : 0 ≤ m ∧ m ≤ 11) (d : Int) :
    (daysInMonth (ofMarch y m d).year (ofMarch y m d).month : Int)
      = if m = 11 then daysToYear (y + 1) - daysToYear y - daysToMonth 11
        else daysToMonth (m + 1) - daysToMonth m := by
  obtain ⟨hge, hle⟩ := hm
  by_cases hlast : m = 11
  · subst hlast
    rw [if_pos rfl, daysToYear_succ]
    cases h : isLeapYear (y + 1) <;> simp [ofMarch, daysInMonth, daysToMonth, h]
  · rw [if_neg hlast]
    interval_cases m <;> first | rfl | exact absurd rfl hlast

/-- The days of a date that is given by a year that begins in March. -/
theorem toDays_ofMarch (hm : 0 ≤ m ∧ m ≤ 11) {d : Int} (hd : 1 ≤ d) :
    (ofMarch y m d).toDays = daysToYear y + daysToMonth m + (d - 1) - 719468 := by
  have hday : ((d.toNat : Nat) : Int) = d := Int.toNat_of_nonneg (by omega)
  unfold ofMarch
  split
  · have hmonth : ¬ (m + 3).toNat ≤ 2 := by omega
    have hback : (((m + 3).toNat : Nat) : Int) - 3 = m := by omega
    simp only [toDays, marchYear, marchMonth, if_neg hmonth, hback, hday]
  · have hmonth : (m - 9).toNat ≤ 2 := by omega
    have hback : (((m - 9).toNat : Nat) : Int) + 9 = m := by omega
    have hyear : y + 1 - 1 = y := by omega
    simp only [toDays, marchYear, marchMonth, if_pos hmonth, hback, hday, hyear]

end Months

/-! ## Days -/

section Days

variable (n : Int)

/-- A day by the year, beginning in March, the month and the day of the month. -/
theorem exists_ofMarch :
    ∃ y m d, ofDays n = ofMarch y m d ∧ (0 ≤ m ∧ m ≤ 11) ∧ 1 ≤ d
      ∧ daysToYear y + daysToMonth m + (d - 1) = n + 719468
      ∧ n + 719468 < daysToYear (y + 1) ∧ d ≤ daysToMonth (m + 1) - daysToMonth m := by
  obtain ⟨hyear, hnext⟩ := yearOfDay_spec (n + 719468)
  have hlength := daysToYear_succ (yearOfDay (n + 719468))
  have hshort : (if isLeapYear (yearOfDay (n + 719468) + 1) then 366 else 365 : Int) ≤ 366 := by
    split <;> decide
  obtain ⟨hmonth, hmonth'⟩ := monthOfDay_spec (n + 719468 - daysToYear (yearOfDay (n + 719468)))
  refine ⟨_, _, _, rfl, monthOfDay_range (by omega), ?_, ?_, hnext, ?_⟩
  all_goals omega

theorem toDays_ofDays : (ofDays n).toDays = n := by
  obtain ⟨y, m, d, h, hm, hd, hn, -⟩ := exists_ofMarch n
  rw [h, toDays_ofMarch hm hd]
  omega

/-- The calendar has the date of every day. -/
theorem exists_ofDays : (ofDays n).Exists := by
  obtain ⟨y, m, d, h, hm, hd, hn, hnext, hlast⟩ := exists_ofMarch n
  have hlength := daysInMonth_ofMarch (y := y) hm d
  have hday : (ofMarch y m d).day = d.toNat := by
    unfold ofMarch
    split <;> rfl
  have hmonth : 1 ≤ (ofMarch y m d).month ∧ (ofMarch y m d).month ≤ 12 := by
    unfold ofMarch
    split
    · exact ⟨by dsimp only; omega, by dsimp only; omega⟩
    · exact ⟨by dsimp only; omega, by dsimp only; omega⟩
  rw [h]
  refine ⟨hmonth.1, hmonth.2, by omega, ?_⟩
  rw [hday]
  split at hlength
  · rename_i hfebruary
    subst hfebruary
    omega
  · omega

/-- The calendar year of a day begins and ends two months before the one that begins in March. -/
theorem year_ofDays_spec :
    daysToYear ((ofDays n).year - 1) ≤ n + 719468
      ∧ n + 719468 < daysToYear ((ofDays n).year + 1) := by
  obtain ⟨y, m, d, h, hm, hd, hn, hnext, -⟩ := exists_ofMarch n
  have hstart : 0 ≤ daysToMonth m := by
    unfold daysToMonth
    omega
  have hyear : (ofMarch y m d).year = y ∨ (ofMarch y m d).year = y + 1 := by
    unfold ofMarch
    split
    · exact .inl rfl
    · exact .inr rfl
  have hsucc := daysToYear_succ y
  have hpred := daysToYear_succ (y - 1)
  have hsucc' := daysToYear_succ (y + 1)
  rw [Int.sub_add_cancel] at hpred
  rw [h]
  rcases hyear with hyear | hyear
  · rw [hyear]
    split at hpred <;> omega
  · rw [hyear, Int.add_sub_cancel]
    split at hsucc' <;> omega

theorem weekday_ofDays : (ofDays n).weekday = Weekday.ofDays n := by
  rw [weekday, toDays_ofDays]

end Days

end ResponseCache.CivilDate
