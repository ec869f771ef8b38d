import Mathlib
import Triage.Time.Calendar

/-!
# Dates and day numbers

Every day number belongs to a valid date, and that date has the number (`isValid_ofDayNumber`,
`dayNumber_ofDayNumber`).  Both go through the date as a year counted from March and a day in it: an
era is four centuries, a century twenty-five cycles of four years, and a leap day is the last one of
its cycle.
-/

namespace Triage.Date

/-! ### Years counted from March -/

/-- The date of day `d`, counted from the first of March of the year `y`. -/
def fromMarch (y d : Int) : Date :=
  let m := (5 * d + 2) / 153
  ⟨if m < 10 then y else y + 1, (if m < 10 then m + 3 else m - 9).toNat,
    (d - (153 * m + 2) / 5 + 1).toNat⟩

theorem dayNumber_fromMarch {y d : Int} (hd : 0 ≤ d) (hd' : d ≤ 365) :
    (fromMarch y d).dayNumber = y / 400 * 146097 +
      ((y - y / 400 * 400) * 365 + (y - y / 400 * 400) / 4 - (y - y / 400 * 400) / 100 + d) -
        719468 := by
  obtain ⟨m, hm⟩ : ∃ m, m = (5 * d + 2) / 153 := ⟨_, rfl⟩
  have hday : 1 ≤ d - (153 * m + 2) / 5 + 1 := by omega
  unfold fromMarch dayNumber
  simp only [← hm]
  by_cases hlate : m < 10
  · have hmonth : ¬ (m + 3).toNat ≤ 2 := by omega
    simp only [if_pos hlate, if_neg hmonth]
    omega
  · have hmonth : (m - 9).toNat ≤ 2 := by omega
    simp only [if_neg hlate, if_pos hmonth]
    omega

theorem isValid_fromMarch {y d : Int} (hd : 0 ≤ d) (hd' : d ≤ 365)
    (hleap : d = 365 → isLeapYear (y + 1) = true) : (fromMarch y d).isValid = true := by
  obtain ⟨m, hm⟩ : ∃ m, m = (5 * d + 2) / 153 := ⟨_, rfl⟩
  obtain ⟨month, hmonth⟩ : ∃ month, month = (if m < 10 then m + 3 else m - 9).toNat := ⟨_, rfl⟩
  unfold fromMarch isValid daysInMonth
  simp only [← hm, ← hmonth, Bool.and_eq_true, Bool.or_eq_true, decide_eq_true_iff]
  by_cases hfebruary : month = 2
  · have hyear : (if m < 10 then y else y + 1) = y + 1 := by omega
    rw [if_pos hfebruary, hyear]
    by_cases hlast : d = 365
    · rw [if_pos (hleap hlast)]
      omega
    · split <;> omega
  · rw [if_neg hfebruary]
    split <;> omega

/-! ### Days of an era -/

/-- The year of an era, counted from March, that a day of the era lies in. -/
def yearOfEra (e : Int) : Int := (e - e / 1460 + e / 36524 - e / 146096) / 365

/-- A day of an era by its century, the cycle in the century, the year in the cycle and the day in the
year.  Only the last year of a cycle has a day 365, and the last cycle of a century has none unless
the century ends the era. -/
structure DayOfEra where
  century : Int
  cycle : Int
  year : Int
  day : Int
  century_range : 0 ≤ century ∧ century ≤ 3
  cycle_range : 0 ≤ cycle ∧ cycle ≤ 24
  year_range : 0 ≤ year ∧ year ≤ 3
  day_range : 0 ≤ day ∧ day ≤ 365
  leap : day = 365 → year = 3 ∧ (cycle = 24 → century = 3)

/-- The days of the era before it. -/
def DayOfEra.number (p : DayOfEra) : Int :=
  36524 * p.century + 1461 * p.cycle + 365 * p.year + p.day

theorem exists_dayOfEra {e : Int} (h0 : 0 ≤ e) (h1 : e < 146097) :
    ∃ p : DayOfEra, p.number = e := by
  obtain ⟨c, hc⟩ : ∃ c, c = min (e / 36524) 3 := ⟨_, rfl⟩
  obtain ⟨k, hk⟩ : ∃ k, k = (e - 36524 * c) / 1461 := ⟨_, rfl⟩
  obtain ⟨j, hj⟩ : ∃ j, j = min ((e - 36524 * c - 1461 * k) / 365) 3 := ⟨_, rfl⟩
  refine ⟨⟨c, k, j, e - 36524 * c - 1461 * k - 365 * j, ?_, ?_, ?_, ?_, ?_⟩, ?_⟩
  · omega
  · omega
  · omega
  · omega
  · omega
  · simp only [DayOfEra.number]
    omega

theorem yearOfEra_number (p : DayOfEra) :
    yearOfEra p.number = 100 * p.century + 4 * p.cycle + p.year := by
  obtain ⟨c, k, j, d, hc, hk, hj, hd, hleap⟩ := p
  obtain ⟨e, he⟩ : ∃ e, e = 36524 * c + 1461 * k + 365 * j + d := ⟨_, rfl⟩
  simp only [DayOfEra.number, ← he]
  -- each division of the formula counts leap days, the first one a day too many at a cycle's end
  have hcycle : e / 1460 = 25 * c + k + if 1460 ≤ 24 * c + k + 365 * j + d then 1 else 0 := by
    split <;> omega
  have hcentury : e / 36524 - e / 146096 = c := by
    by_cases hlast : e = 146096
    · omega
    · have hinside : 1461 * k + 365 * j + d < 36524 := by omega
      have : e / 36524 = c := by omega
      omega
  unfold yearOfEra
  split at hcycle <;> omega

/-- The year and the day in it of a day of an era: what comes before them makes up the day. -/
theorem yearOfEra_spec {e : Int} (h0 : 0 ≤ e) (h1 : e < 146097) :
    ∃ d, (0 ≤ d ∧ d ≤ 365) ∧ (0 ≤ yearOfEra e ∧ yearOfEra e < 400) ∧
      e = 365 * yearOfEra e + yearOfEra e / 4 - yearOfEra e / 100 + d ∧
      (d = 365 → isLeapYear (yearOfEra e + 1) = true) := by
  obtain ⟨p, rfl⟩ := exists_dayOfEra h0 h1
  have hyear := yearOfEra_number p
  obtain ⟨c, k, j, d, hc, hk, hj, hd, hleap⟩ := p
  simp only [DayOfEra.number] at h0 h1 hyear ⊢
  generalize yearOfEra _ = y at *
  have h4 : y / 4 = 25 * c + k := by omega
  have h100 : y / 100 = c := by omega
  refine ⟨d, hd, by omega, by omega, fun hlast => ?_⟩
  obtain ⟨hj, hk⟩ := hleap hlast
  rw [isLeapYear, Bool.and_eq_true, Bool.or_eq_true, decide_eq_true_iff, decide_eq_true_iff,
    decide_eq_true_iff]
  omega

/-! ### Day numbers -/

theorem isLeapYear_add_era (y era : Int) : isLeapYear (y + era * 400) = isLeapYear y := by
  have h4 : (y + era * 400) % 4 = y % 4 := by omega
  have h100 : (y + era * 400) % 100 = y % 100 := by omega
  have h400 : (y + era * 400) % 400 = y % 400 := by omega
  rw [isLeapYear, isLeapYear, h4, h100, h400]

/-- The date with a day number, as a year counted from March and a day in it. -/
theorem exists_fromMarch (n : Int) : ∃ y d : Int, (0 ≤ d ∧ d ≤ 365) ∧
    (d = 365 → isLeapYear (y + 1) = true) ∧ ofDayNumber n = fromMarch y d ∧
      (fromMarch y d).dayNumber = n := by
  obtain ⟨era, hera⟩ : ∃ era, era = (n + 719468) / 146097 := ⟨_, rfl⟩
  obtain ⟨e, he⟩ : ∃ e, e = n + 719468 - era * 146097 := ⟨_, rfl⟩
  obtain ⟨d, hd, hy, hday, hleap⟩ := yearOfEra_spec (e := e) (by omega) (by omega)
  refine ⟨yearOfEra e + era * 400, d, hd, fun hlast => ?_, ?_, ?_⟩
  · rw [add_right_comm, isLeapYear_add_era]
    exact hleap hlast
  · have hd' : e - (365 * yearOfEra e + yearOfEra e / 4 - yearOfEra e / 100) = d := by omega
    unfold yearOfEra at hd'
    unfold ofDayNumber fromMarch
    simp only [← hera, ← he, hd', Date.mk.injEq, and_true]
    rw [← yearOfEra]
    omega
  · have hera' : (yearOfEra e + era * 400) / 400 = era := by omega
    rw [dayNumber_fromMarch hd.1 hd.2, hera', add_sub_cancel_right]
    omega

theorem isValid_ofDayNumber (n : Int) : (ofDayNumber n).isValid = true := by
  obtain ⟨y, d, hd, hleap, hdate, -⟩ := exists_fromMarch n
  rw [hdate]
  exact isValid_fromMarch hd.1 hd.2 hleap

theorem dayNumber_ofDayNumber (n : Int) : (ofDayNumber n).dayNumber = n := by
  obtain ⟨y, d, -, -, hdate, hnumber⟩ := exists_fromMarch n
  rw [hdate, hnumber]

/-! ### Bounds -/

theorem le_of_isValid {date : Date} (h : date.isValid = true) :
    (1 ≤ date.month ∧ date.month ≤ 12) ∧ 1 ≤ date.day ∧ date.day ≤ 31 := by
  simp only [isValid, daysInMonth, Bool.and_eq_true, Bool.or_eq_true, decide_eq_true_iff] at h
  obtain ⟨⟨⟨h1, h12⟩, hfirst⟩, hlast⟩ := h
  refine ⟨⟨h1, h12⟩, hfirst, hlast.trans ?_⟩
  split
  · split <;> omega
  · split <;> omega

/-- The years 0 to 9999 lie well inside the calendar. -/
theorem dayNumber_le_of_year {date : Date} (h : date.isValid = true) (hy : 0 ≤ date.year)
    (hy' : date.year ≤ 9999) : -1000000 ≤ date.dayNumber ∧ date.dayNumber ≤ 3000000 := by
  obtain ⟨⟨h1, h12⟩, hfirst, hlast⟩ := le_of_isValid h
  simp only [dayNumber]
  split <;> omega

end Triage.Date
