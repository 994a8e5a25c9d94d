import Mathlib.Tactic.IntervalCases
import Mathlib.Tactic.Ring

/-!
# The UTC calendar

Instants are milliseconds from the start of 1970 in UTC.  `civilFromDays` splits
a day number into year, month and day of the proleptic Gregorian calendar, and
`daysFromCivil` puts them together again.  Both work in eras of 400 years
counted from the first of March, so that the leap day is the last of its year.
-/

namespace Calendar

/-- One day (24 × 60 × 60 × 1000). -/
def msPerDay : Int := 86400000

structure Civil where
  year : Int
  /-- From 1 to 12. -/
  month : Int
  day : Int
  deriving DecidableEq, Repr

def civilFromDays (z : Int) : Civil :=
  let z := z + 719468
  let era := z / 146097
  let doe := z % 146097
  let yoe := (doe - doe / 1460 + doe / 36524 - doe / 146096) / 365
  let doy := doe - (365 * yoe + yoe / 4 - yoe / 100)
  let mp := (5 * doy + 2) / 153
  let month := if mp < 10 then mp + 3 else mp - 9
  { year := yoe + era * 400 + if month ≤ 2 then 1 else 0
    month := month
    day := doy - (153 * mp + 2) / 5 + 1 }

def daysFromCivil (c : Civil) : Int :=
  let year := if c.month ≤ 2 then c.year - 1 else c.year
  let era := year / 400
  let yoe := year % 400
  let doy := (153 * (if 2 < c.month then c.month - 3 else c.month + 9) + 2) / 5 + c.day - 1
  let doe := yoe * 365 + yoe / 4 - yoe / 100 + doy
  era * 146097 + doe - 719468

/-- The calendar day an instant falls on. -/
def civil (t : Int) : Civil := civilFromDays (t / msPerDay)

def getUTCFullYear (t : Int) : Int := (civil t).year

/-- Months count from zero. -/
def getUTCMonth (t : Int) : Int := (civil t).month - 1

def getUTCDate (t : Int) : Int := (civil t).day

/-- Midnight of a day, the month counting from zero.  A year from 0 to 99 means
a year of the twentieth century. -/
def dateUTC (year month day : Int) : Int :=
  let year := if 0 ≤ year ∧ year ≤ 99 then 1900 + year else year
  daysFromCivil { year := year, month := month + 1, day := day } * msPerDay

/-- The nearest integer to `n / d`, a half rounding up. -/
def mathRound (n d : Int) : Int := (2 * n + d) / (2 * d)

example : civil 1785596400000 = { year := 2026, month := 8, day := 1 } := by decide

example : dateUTC 2026 7 1 = 1785542400000 := by decide

/-! ## The day number comes back -/

/-- The year of an era, from the day of the era. -/
def yearOfEra (doe : Int) : Int := (doe - doe / 1460 + doe / 36524 - doe / 146096) / 365

theorem yearOfEra_bounds {doe : Int} (h0 : 0 ≤ doe) (h1 : doe < 146097) :
    0 ≤ yearOfEra doe ∧ yearOfEra doe < 400 := by
  unfold yearOfEra
  constructor <;> omega

/-- The days before a year leave at most a leap year of days.  The era is cut into
centuries, a century into cycles of four years, and a cycle into years. -/
theorem dayOfYear_bounds {doe : Int} (h0 : 0 ≤ doe) (h1 : doe < 146097) :
    0 ≤ doe - (365 * yearOfEra doe + yearOfEra doe / 4 - yearOfEra doe / 100) ∧
      doe - (365 * yearOfEra doe + yearOfEra doe / 4 - yearOfEra doe / 100) < 366 := by
  by_cases hlast : doe = 146096
  · subst hlast
    decide
  obtain ⟨y, hy⟩ : ∃ y, y = yearOfEra doe := ⟨_, rfl⟩
  rw [← hy]
  unfold yearOfEra at hy
  obtain ⟨k, hk⟩ : ∃ k, k = doe / 36524 := ⟨_, rfl⟩
  obtain ⟨m, hm⟩ : ∃ m, m = (24 * k + doe % 36524) / 1460 := ⟨_, rfl⟩
  obtain ⟨s, hs⟩ : ∃ s, s = (24 * k + doe % 36524) % 1460 := ⟨_, rfl⟩
  obtain ⟨j, hj⟩ : ∃ j, j = (s - 24 * k - m) / 365 := ⟨_, rfl⟩
  have hk0 : 0 ≤ k := by omega
  have hk4 : k < 4 := by omega
  have hm0 : 0 ≤ m := by omega
  have hm26 : m < 26 := by omega
  have hj0 : -1 ≤ j := by omega
  have hj4 : j < 4 := by omega
  have hcycle : doe / 1460 = 25 * k + m := by omega
  have hera : doe / 146096 = 0 := by omega
  have hyear : y = 100 * k + 4 * m + j := by omega
  have hrest : 0 ≤ s - 24 * k - m - 365 * j ∧ s - 24 * k - m - 365 * j < 365 := by omega
  have h4 : y / 4 = 25 * k + m + if j < 0 then -1 else 0 := by split <;> omega
  have h100 : y / 100 = k + if j < 0 ∧ m = 0 then -1 else 0 := by split <;> omega
  rw [h4, h100]
  split <;> split <;> omega

/-- A day number, split into a date and put together again. -/
theorem daysFromCivil_civilFromDays (z : Int) : daysFromCivil (civilFromDays z) = z := by
  obtain ⟨era, hera⟩ : ∃ era, era = (z + 719468) / 146097 := ⟨_, rfl⟩
  obtain ⟨doe, hdoe⟩ : ∃ doe, doe = (z + 719468) % 146097 := ⟨_, rfl⟩
  have h0 : 0 ≤ doe := by omega
  have h1 : doe < 146097 := by omega
  obtain ⟨hy0, hy1⟩ := yearOfEra_bounds h0 h1
  obtain ⟨hd0, hd1⟩ := dayOfYear_bounds h0 h1
  obtain ⟨yoe, hyoe⟩ : ∃ yoe, yoe = yearOfEra doe := ⟨_, rfl⟩
  obtain ⟨doy, hdoy⟩ : ∃ doy, doy = doe - (365 * yoe + yoe / 4 - yoe / 100) := ⟨_, rfl⟩
  obtain ⟨mp, hmp⟩ : ∃ mp, mp = (5 * doy + 2) / 153 := ⟨_, rfl⟩
  rw [← hyoe] at hy0 hy1 hd0 hd1
  rw [← hdoy] at hd0 hd1
  have hmp0 : 0 ≤ mp := by omega
  have hmp12 : mp < 12 := by omega
  have hcivil : civilFromDays z =
      { year := yoe + era * 400 + if (if mp < 10 then mp + 3 else mp - 9) ≤ 2 then 1 else 0
        month := if mp < 10 then mp + 3 else mp - 9
        day := doy - (153 * mp + 2) / 5 + 1 } := by
    simp only [civilFromDays, hmp, hdoy, hyoe, hdoe, hera, yearOfEra]
  rw [hcivil, daysFromCivil]
  have hquot : (yoe + era * 400) / 400 = era := by omega
  have hrem : (yoe + era * 400) % 400 = yoe := by omega
  -- The month comes back, and with it the year of the era.
  by_cases hten : mp < 10
  · have hmarch : ¬ mp + 3 ≤ 2 := by omega
    have hmonth : 2 < mp + 3 := by omega
    simp only [if_pos hten, if_neg hmarch, if_pos hmonth, Int.add_zero, Int.add_sub_cancel, hquot,
      hrem]
    omega
  · have hmarch : mp - 9 ≤ 2 := by omega
    have hmonth : ¬ 2 < mp - 9 := by omega
    simp only [if_neg hten, if_pos hmarch, if_neg hmonth, Int.add_sub_cancel, Int.sub_add_cancel,
      hquot, hrem]
    omega

/-! ## The date comes back -/

def isLeapYear (year : Int) : Bool := year % 4 == 0 && (year % 100 != 0 || year % 400 == 0)

def daysInMonth (year month : Int) : Int :=
  if month = 2 then if isLeapYear year then 29 else 28
  else if month = 4 ∨ month = 6 ∨ month = 9 ∨ month = 11 then 30
  else 31

/-- The date is one of the calendar. -/
structure Civil.Valid (c : Civil) : Prop where
  month_pos : 1 ≤ c.month
  month_le : c.month ≤ 12
  day_pos : 1 ≤ c.day
  day_le : c.day ≤ daysInMonth c.year c.month

/-- The leap day is the last of its year, which is one of four, and no century's last but the
era's. -/
theorem yearOfEra_of_day {k m j r : Int} (hk0 : 0 ≤ k) (hk : k < 4) (hm0 : 0 ≤ m) (hm : m < 25)
    (hj0 : 0 ≤ j) (hj : j < 4) (hr0 : 0 ≤ r)
    (hr : r < 365 ∨ r = 365 ∧ j = 3 ∧ (m = 24 → k = 3)) :
    yearOfEra (36524 * k + 1461 * m + 365 * j + r) = 100 * k + 4 * m + j := by
  obtain ⟨doe, hdoe⟩ : ∃ doe, doe = 36524 * k + 1461 * m + 365 * j + r := ⟨_, rfl⟩
  rw [← hdoe]
  unfold yearOfEra
  by_cases hlast : k = 3 ∧ m = 24 ∧ j = 3 ∧ r = 365
  · obtain ⟨rfl, rfl, rfl, rfl⟩ := hlast
    subst hdoe
    decide
  have hcentury : doe / 36524 = k := by omega
  have hera : doe / 146096 = 0 := by omega
  obtain ⟨e, he⟩ : ∃ e, e = doe / 1460 := ⟨_, rfl⟩
  have hcycle : e = 25 * k + m ∧ 24 * k + m + 365 * j + r < 1460 ∨
      e = 25 * k + m + 1 ∧ 1460 ≤ 24 * k + m + 365 * j + r := by omega
  rw [hcentury, hera, ← he]
  rcases hcycle with ⟨rfl, hlt⟩ | ⟨rfl, hle⟩
  · omega
  · omega

theorem isLeapYear_iff {year : Int} :
    isLeapYear year = true ↔ year % 4 = 0 ∧ (year % 100 ≠ 0 ∨ year % 400 = 0) := by
  simp [isLeapYear]

/-- The months are counted from March, and `153 / 5` days are the mean of the first five. -/
def monthsFromMarch (month : Int) : Int := if 2 < month then month - 3 else month + 9

/-- The day of the year that begins in March. -/
def dayOfYear (c : Civil) : Int := (153 * monthsFromMarch c.month + 2) / 5 + c.day - 1

/-- The year that begins in March. -/
def marchYear (c : Civil) : Int := if c.month ≤ 2 then c.year - 1 else c.year

theorem Civil.Valid.day_le_of_month {c : Civil} (h : c.Valid) :
    c.month = 2 ∧ c.day ≤ 28 ∨ c.month = 2 ∧ c.day = 29 ∧ isLeapYear c.year = true ∨
      c.month ≠ 2 ∧ (c.day ≤ 30 ∨ c.day = 31 ∧ c.month ≠ 4 ∧ c.month ≠ 6 ∧ c.month ≠ 9 ∧
        c.month ≠ 11) := by
  have hday := h.day_le
  unfold daysInMonth at hday
  split_ifs at hday with h₁ h₂ h₃
  · by_cases h29 : c.day = 29
    · exact .inr (.inl ⟨h₁, h29, h₂⟩)
    · exact .inl ⟨h₁, by omega⟩
  · exact .inl ⟨h₁, hday⟩
  · exact .inr (.inr ⟨h₁, .inl hday⟩)
  · exact .inr (.inr ⟨h₁, by omega⟩)

theorem dayOfYear_bounds_of_valid {c : Civil} (h : c.Valid) :
    0 ≤ dayOfYear c ∧ (dayOfYear c < 365 ∨ dayOfYear c = 365 ∧ c.month = 2 ∧
      isLeapYear c.year = true) := by
  have h1 := h.month_pos
  have h12 := h.month_le
  have hd := h.day_pos
  have hle := h.day_le_of_month
  obtain ⟨year, month, day⟩ := c
  simp only [dayOfYear, monthsFromMarch] at *
  rcases hle with ⟨rfl, hday⟩ | ⟨rfl, rfl, hleap⟩ | ⟨hfeb, hday⟩
  · exact ⟨by omega, .inl (by omega)⟩
  · exact ⟨by omega, .inr ⟨by omega, rfl, hleap⟩⟩
  · refine ⟨by split_ifs <;> omega, .inl ?_⟩
    interval_cases month <;> omega

/-- The month and the day come back from the day of the year. -/
theorem month_day_of_dayOfYear {c : Civil} (h : c.Valid) :
    (5 * dayOfYear c + 2) / 153 = monthsFromMarch c.month ∧
      dayOfYear c - (153 * monthsFromMarch c.month + 2) / 5 + 1 = c.day := by
  have h1 := h.month_pos
  have h12 := h.month_le
  have hd := h.day_pos
  have hle := h.day_le_of_month
  obtain ⟨year, month, day⟩ := c
  simp only [dayOfYear, monthsFromMarch] at *
  interval_cases month <;> omega

/-- A date, counted and split again. -/
theorem civilFromDays_daysFromCivil {c : Civil} (h : c.Valid) :
    civilFromDays (daysFromCivil c) = c := by
  obtain ⟨hdoy0, hdoy⟩ := dayOfYear_bounds_of_valid h
  obtain ⟨hmonth, hday⟩ := month_day_of_dayOfYear h
  obtain ⟨era, hera⟩ : ∃ era, era = marchYear c / 400 := ⟨_, rfl⟩
  obtain ⟨yoe, hyoe⟩ : ∃ yoe, yoe = marchYear c % 400 := ⟨_, rfl⟩
  obtain ⟨doy, hdoy'⟩ : ∃ doy, doy = dayOfYear c := ⟨_, rfl⟩
  obtain ⟨k, hk⟩ : ∃ k, k = yoe / 100 := ⟨_, rfl⟩
  obtain ⟨m, hm⟩ : ∃ m, m = yoe % 100 / 4 := ⟨_, rfl⟩
  obtain ⟨j, hj⟩ : ∃ j, j = yoe % 4 := ⟨_, rfl⟩
  rw [← hdoy'] at hdoy0 hdoy hmonth hday
  have hleap : doy < 365 ∨ doy = 365 ∧ j = 3 ∧ (m = 24 → k = 3) := by
    rcases hdoy with hlt | ⟨hlast, hfeb, hleap⟩
    · exact .inl hlt
    · obtain ⟨h4, h100⟩ := isLeapYear_iff.mp hleap
      have hyear : marchYear c = c.year - 1 := if_pos (by omega)
      exact .inr ⟨hlast, by omega, by omega⟩
  have hyear : yoe = 100 * k + 4 * m + j := by omega
  have hdoe : yoe * 365 + yoe / 4 - yoe / 100 + doy = 36524 * k + 1461 * m + 365 * j + doy := by
    omega
  have hbounds : 0 ≤ 36524 * k + 1461 * m + 365 * j + doy ∧
      36524 * k + 1461 * m + 365 * j + doy < 146097 := by omega
  have hback := yearOfEra_of_day (k := k) (m := m) (j := j) (r := doy) (by omega) (by omega)
    (by omega) (by omega) (by omega) (by omega) hdoy0 hleap
  have hcount : daysFromCivil c + 719468 =
      era * 146097 + (36524 * k + 1461 * m + 365 * j + doy) := by
    rw [← hdoe, hyoe, hera, hdoy', daysFromCivil]
    simp only [marchYear, dayOfYear, monthsFromMarch]
    omega
  have hquot : (daysFromCivil c + 719468) / 146097 = era := by omega
  have hrem : (daysFromCivil c + 719468) % 146097 = 36524 * k + 1461 * m + 365 * j + doy := by
    omega
  have hrest : 36524 * k + 1461 * m + 365 * j + doy - (365 * (100 * k + 4 * m + j) +
      (100 * k + 4 * m + j) / 4 - (100 * k + 4 * m + j) / 100) = doy := by omega
  have hmarch : 100 * k + 4 * m + j + era * 400 = marchYear c := by omega
  have hmonth' : (if monthsFromMarch c.month < 10 then monthsFromMarch c.month + 3
      else monthsFromMarch c.month - 9) = c.month := by
    have h1 := h.month_pos
    have h12 := h.month_le
    unfold monthsFromMarch
    split_ifs <;> omega
  have hyear' : (marchYear c + if c.month ≤ 2 then 1 else 0) = c.year := by
    unfold marchYear
    split_ifs <;> omega
  unfold yearOfEra at hback
  simp only [civilFromDays, hquot, hrem, hback, hrest, hmonth, hmonth', hday, hmarch, hyear']

/-- Every day of an era is one of a year, and the 366th only of a leap year. -/
theorem exists_day {doe : Int} (h0 : 0 ≤ doe) (h1 : doe < 146097) :
    ∃ k m j r : Int, doe = 36524 * k + 1461 * m + 365 * j + r ∧ 0 ≤ k ∧ k < 4 ∧ 0 ≤ m ∧ m < 25 ∧
      0 ≤ j ∧ j < 4 ∧ 0 ≤ r ∧ (r < 365 ∨ r = 365 ∧ j = 3 ∧ (m = 24 → k = 3)) := by
  obtain ⟨k, a, hk0, hk, hdoe, ha0, ha⟩ : ∃ k a : Int, 0 ≤ k ∧ k < 4 ∧ doe = 36524 * k + a ∧ 0 ≤ a ∧
      (a < 36524 ∨ a = 36524 ∧ k = 3) := by
    by_cases hlast : doe = 146096
    · exact ⟨3, 36524, by decide, by decide, by omega, by decide, .inr ⟨rfl, rfl⟩⟩
    · exact ⟨doe / 36524, doe % 36524, by omega, by omega, by omega, by omega, .inl (by omega)⟩
  obtain ⟨m, b, hm0, hm, ha', hb0, hb⟩ : ∃ m b : Int, 0 ≤ m ∧ m < 25 ∧ a = 1461 * m + b ∧ 0 ≤ b ∧
      (b < 1460 ∨ b = 1460 ∧ (m = 24 → k = 3)) :=
    ⟨a / 1461, a % 1461, by omega, by omega, by omega, by omega, by omega⟩
  obtain ⟨j, r, hj0, hj, hb', hr0, hr⟩ : ∃ j r : Int, 0 ≤ j ∧ j < 4 ∧ b = 365 * j + r ∧ 0 ≤ r ∧
      (r < 365 ∨ r = 365 ∧ j = 3 ∧ b = 1460) := by
    by_cases hlast : b = 1460
    · exact ⟨3, 365, by decide, by decide, by omega, by decide, .inr ⟨rfl, rfl, hlast⟩⟩
    · exact ⟨b / 365, b % 365, by omega, by omega, by omega, by omega, .inl (by omega)⟩
  refine ⟨k, m, j, r, by omega, hk0, hk, hm0, hm, hj0, hj, hr0, ?_⟩
  rcases hr with hlt | ⟨hr, hj3, hb1460⟩
  · exact .inl hlt
  · exact .inr ⟨hr, hj3, by omega⟩

theorem daysInMonth_of_february (year : Int) :
    daysInMonth year 2 = if isLeapYear year then 29 else 28 := rfl

/-- The days before a month, counted from March, and the month's own. -/
theorem valid_of_dayOfYear {year r mp : Int} (hr0 : 0 ≤ r)
    (hr : r < 365 ∨ r = 365 ∧ isLeapYear year = true) (hmp : mp = (5 * r + 2) / 153) :
    Civil.Valid ⟨year, if mp < 10 then mp + 3 else mp - 9, r - (153 * mp + 2) / 5 + 1⟩ := by
  have hmp0 : 0 ≤ mp := by omega
  have hmp12 : mp < 12 := by omega
  have hday : 1 ≤ r - (153 * mp + 2) / 5 + 1 ∧
      r - (153 * mp + 2) / 5 + 1 ≤ daysInMonth year (if mp < 10 then mp + 3 else mp - 9) := by
    by_cases hfeb : mp = 11
    · subst hfeb
      show _ ∧ _ ≤ daysInMonth year 2
      rw [daysInMonth_of_february]
      rcases hr with hlt | ⟨rfl, hleap⟩
      · split_ifs <;> omega
      · rw [if_pos hleap]
        decide
    · have hne : ¬(if mp < 10 then mp + 3 else mp - 9) = 2 := by split_ifs <;> omega
      rw [daysInMonth, if_neg hne]
      clear hne
      have hr' : r ≤ 336 := by omega
      interval_cases mp <;> norm_num <;> omega
  refine ⟨?_, ?_, hday.1, hday.2⟩
  · show 1 ≤ if mp < 10 then mp + 3 else mp - 9
    split_ifs <;> omega
  · show (if mp < 10 then mp + 3 else mp - 9) ≤ 12
    split_ifs <;> omega

/-- The calendar splits every day into a date of it. -/
theorem valid_civilFromDays (z : Int) : (civilFromDays z).Valid := by
  obtain ⟨doe, hdoe⟩ : ∃ doe, doe = (z + 719468) % 146097 := ⟨_, rfl⟩
  have hdoe0 : 0 ≤ doe := by omega
  have hdoe1 : doe < 146097 := by omega
  obtain ⟨k, m, j, r, hsplit, hk0, hk, hm0, hm, hj0, hj, hr0, hr⟩ := exists_day hdoe0 hdoe1
  have hyear := yearOfEra_of_day hk0 hk hm0 hm hj0 hj hr0 hr
  rw [← hsplit] at hyear
  obtain ⟨yoe, hyoe⟩ : ∃ yoe, yoe = 100 * k + 4 * m + j := ⟨_, rfl⟩
  have hrest : doe - (365 * yoe + yoe / 4 - yoe / 100) = r := by
    have h4 : yoe / 4 = 25 * k + m := by omega
    have h100 : yoe / 100 = k := by omega
    rw [h4, h100]
    omega
  obtain ⟨era, hera⟩ : ∃ era, era = (z + 719468) / 146097 := ⟨_, rfl⟩
  obtain ⟨mp, hmp⟩ : ∃ mp, mp = (5 * r + 2) / 153 := ⟨_, rfl⟩
  rw [← hyoe] at hyear
  have hcivil : civilFromDays z =
      ⟨yoe + era * 400 + if (if mp < 10 then mp + 3 else mp - 9) ≤ 2 then 1 else 0,
        if mp < 10 then mp + 3 else mp - 9, r - (153 * mp + 2) / 5 + 1⟩ := by
    unfold yearOfEra at hyear
    simp only [civilFromDays, ← hdoe, hyear, hrest, ← hera, ← hmp]
  rw [hcivil]
  refine valid_of_dayOfYear hr0 ?_ hmp
  rcases hr with hlt | ⟨hr, hj3, hlast⟩
  · exact .inl hlt
  · have hfeb : ((if mp < 10 then mp + 3 else mp - 9) ≤ 2) := by
      have hmp11 : mp = 11 := by omega
      subst hmp11
      decide
    rw [if_pos hfeb]
    refine .inr ⟨hr, isLeapYear_iff.mpr ?_⟩
    rw [hyoe, hj3]
    refine ⟨by omega, ?_⟩
    by_cases hm24 : m = 24
    · exact .inr (by rw [hm24, hlast hm24]; omega)
    · exact .inl (by omega)

/-! ## Date.UTC -/

theorem year_civilFromDays {z : Int} (h : 0 ≤ z) : 99 < (civilFromDays z).year := by
  have h0 : 0 ≤ (z + 719468) % 146097 := by omega
  have h1 : (z + 719468) % 146097 < 146097 := by omega
  obtain ⟨hy0, -⟩ := yearOfEra_bounds h0 h1
  have hera : 4 ≤ (z + 719468) / 146097 := by omega
  unfold yearOfEra at hy0
  simp only [civilFromDays]
  split <;> omega

/-- The day that `Date.UTC` makes of the date of an instant. -/
def readDay (t : Int) : Int :=
  if 0 ≤ (civil t).year ∧ (civil t).year ≤ 99 then
    daysFromCivil { civil t with year := 1900 + (civil t).year }
  else t / msPerDay

theorem readDay_of_nonneg {t : Int} (h : 0 ≤ t) : readDay t = t / msPerDay := by
  have hyear : 99 < (civil t).year := year_civilFromDays (Int.ediv_nonneg h (by decide))
  rw [readDay, if_neg (by omega)]

theorem dateUTC_civil (t : Int) :
    dateUTC (getUTCFullYear t) (getUTCMonth t) (getUTCDate t) = readDay t * msPerDay := by
  have hback : daysFromCivil (civil t) = t / msPerDay := daysFromCivil_civilFromDays _
  change dateUTC (civil t).year ((civil t).month - 1) (civil t).day = _
  simp only [dateUTC, Int.sub_add_cancel, readDay]
  by_cases hyear : 0 ≤ (civil t).year ∧ (civil t).year ≤ 99
  · rw [if_pos hyear, if_pos hyear]
  · rw [if_neg hyear, if_neg hyear, ← hback]

theorem mathRound_mul (n : Int) {d : Int} (hd : 0 < d) : mathRound (n * d) d = n := by
  have hpos : 0 < 2 * d := by omega
  have hsplit : 2 * (n * d) + d = d + n * (2 * d) := by ring
  rw [mathRound, hsplit, Int.add_mul_ediv_right _ _ (by omega), Int.ediv_eq_zero_of_lt (by omega) (by omega),
    Int.zero_add]

end Calendar
