import LlmGateway.Lib.Grid

namespace Calendar

variable (days : Int)

/-- The day 29 February, when the year has it. -/
def leapDay (year : Int) : Int := if year % 4 = 0 ∧ (year % 100 ≠ 0 ∨ year % 400 = 0) then 1 else 0

/-- The number of the first day of a year of the Gregorian calendar. Day 0 is 1 January 1970. -/
def yearStart (year : Int) : Int :=
  365 * (year - 1) + (year - 1) / 4 - (year - 1) / 100 + (year - 1) / 400 - 719162

/-- How many days of a year stand before a month; January is month 0. -/
def monthOffset (leap month : Int) : Int :=
  if month < 2 then 31 * month else 59 + leap + (153 * (month - 2) + 2) / 5

/-- The month a day of the year stands in. -/
def monthAt (leap day : Int) : Int :=
  if day < 31 then 0
  else if day < 59 + leap then 1
  else (5 * (day - 59 - leap) + 2) / 153 + 2

/-- The year of a day. 400 years have 146097 days, which gives the year up to one. -/
def yearAt (day : Int) : Int :=
  let guess := (day + 719162) * 400 / 146097 + 1
  if day < yearStart guess then guess - 1
  else if day < yearStart (guess + 1) then guess
  else guess + 1

theorem yearStart_succ (year : Int) : yearStart (year + 1) = yearStart year + 365 + leapDay year := by
  unfold yearStart leapDay
  split <;> omega

theorem leapDay_cases (year : Int) : leapDay year = 0 ∨ leapDay year = 1 := by
  unfold leapDay
  split <;> simp

/-- The years as intervals of days. -/
def years : Grid where
  start := yearStart
  index := yearAt
  start_lt year := by
    have := yearStart_succ year
    have := leapDay_cases year
    omega
  start_index_le day := by
    unfold yearAt yearStart
    dsimp only
    split_ifs <;> omega
  lt_start_next day := by
    unfold yearAt yearStart
    dsimp only
    split_ifs <;> omega

theorem monthOffset_lt {leap month : Int} (leaps : leap = 0 ∨ leap = 1) (lower : 0 ≤ month) (upper : month < 12) :
    monthOffset leap month < monthOffset leap (month + 1) := by
  unfold monthOffset
  split_ifs <;> omega

theorem monthAt_bounds {leap day : Int} (lower : 0 ≤ day) (upper : day < 365 + leap) :
    0 ≤ monthAt leap day ∧ monthAt leap day < 12 ∧ monthOffset leap (monthAt leap day) ≤ day ∧
      day < monthOffset leap (monthAt leap day + 1) := by
  unfold monthAt monthOffset
  split_ifs <;> omega

/-- The first day of a month; the months are counted from January of the year 0. -/
def monthStart (month : Int) : Int := yearStart (month / 12) + monthOffset (leapDay (month / 12)) (month % 12)

def monthIndex (day : Int) : Int :=
  12 * yearAt day + monthAt (leapDay (yearAt day)) (day - yearStart (yearAt day))

theorem monthStart_succ (month : Int) :
    monthStart (month + 1) = yearStart (month / 12) + monthOffset (leapDay (month / 12)) (month % 12 + 1) := by
  unfold monthStart
  by_cases last : month % 12 = 11
  · have year : (month + 1) / 12 = month / 12 + 1 := by omega
    have january : (month + 1) % 12 = 0 := by omega
    rw [year, january, last, yearStart_succ]
    simp [monthOffset]
    omega
  · have year : (month + 1) / 12 = month / 12 := by omega
    have next : (month + 1) % 12 = month % 12 + 1 := by omega
    rw [year, next]

theorem monthIndex_bounds (day : Int) :
    monthIndex day / 12 = yearAt day ∧
      monthIndex day % 12 = monthAt (leapDay (yearAt day)) (day - yearStart (yearAt day)) ∧
      monthStart (monthIndex day) ≤ day ∧ day < monthStart (monthIndex day + 1) := by
  have first : yearStart (yearAt day) ≤ day := years.start_index_le day
  have last : day < yearStart (yearAt day + 1) := years.lt_start_next day
  rw [yearStart_succ] at last
  obtain ⟨low, high, below, above⟩ := monthAt_bounds (by omega : 0 ≤ day - yearStart (yearAt day))
    (by omega : day - yearStart (yearAt day) < 365 + leapDay (yearAt day))
  have year : monthIndex day / 12 = yearAt day := by
    unfold monthIndex
    omega
  have month : monthIndex day % 12 = monthAt (leapDay (yearAt day)) (day - yearStart (yearAt day)) := by
    unfold monthIndex
    omega
  refine ⟨year, month, ?_, ?_⟩
  · rw [monthStart, year, month]
    omega
  · rw [monthStart_succ, year, month]
    omega

/-- The months as intervals of days. -/
def months : Grid where
  start := monthStart
  index := monthIndex
  start_lt month := by
    have := monthOffset_lt (leapDay_cases (month / 12)) (by omega : 0 ≤ month % 12) (by omega)
    rw [monthStart_succ, monthStart]
    omega
  start_index_le day := (monthIndex_bounds day).2.2.1
  lt_start_next day := (monthIndex_bounds day).2.2.2

/-- A day of the calendar. -/
structure Date where
  year : Int
  month : Nat
  day : Nat
  deriving DecidableEq

def Date.ofDays (days : Int) : Date where
  year := yearAt days
  month := (monthAt (leapDay (yearAt days)) (days - yearStart (yearAt days))).toNat + 1
  day := (days - monthStart (monthIndex days)).toNat + 1

/-- The number of the day, for a month from 1 to 12. -/
def ofYmd (year : Int) (month day : Nat) : Int := monthStart (12 * year + (month - 1)) + (day - 1)

theorem Date.ofDays_month :
    ((Date.ofDays days).month : Int) = monthIndex days % 12 + 1 := by
  obtain ⟨-, month, -⟩ := monthIndex_bounds days
  simp only [Date.ofDays]
  omega

theorem Date.monthIndex_eq :
    monthIndex days = 12 * (Date.ofDays days).year + ((Date.ofDays days).month - 1) := by
  obtain ⟨year, -⟩ := monthIndex_bounds days
  rw [Date.ofDays_month]
  simp only [Date.ofDays]
  omega

/-- The first day of the month of a day. -/
theorem Date.ofYmd_first :
    ofYmd (Date.ofDays days).year (Date.ofDays days).month 1 = monthStart (monthIndex days) := by
  rw [ofYmd, ← Date.monthIndex_eq]
  omega

/-- The first day of the month after that, in the next year after December. -/
theorem Date.ofYmd_next :
    (if (Date.ofDays days).month = 12 then ofYmd ((Date.ofDays days).year + 1) 1 1
      else ofYmd (Date.ofDays days).year ((Date.ofDays days).month + 1) 1) = monthStart (monthIndex days + 1) := by
  have index := Date.monthIndex_eq days
  split_ifs with december
  · have next : monthIndex days + 1 = 12 * ((Date.ofDays days).year + 1) + ((1 : Nat) - 1) := by omega
    rw [ofYmd, ← next]
    omega
  · have next : monthIndex days + 1 = 12 * (Date.ofDays days).year +
        (((Date.ofDays days).month + 1 : Nat) - 1) := by
      omega
    rw [ofYmd, ← next]
    omega

theorem Date.month_le : 1 ≤ (Date.ofDays days).month ∧ (Date.ofDays days).month ≤ 12 := by
  have := Date.ofDays_month days
  omega

/-- The days of a month have its year and its number. -/
theorem Date.eq_of_monthIndex {d e : Int} (same : monthIndex d = monthIndex e) :
    (Date.ofDays d).year = (Date.ofDays e).year ∧ (Date.ofDays d).month = (Date.ofDays e).month := by
  have := Date.monthIndex_eq d
  have := Date.monthIndex_eq e
  have := Date.month_le d
  have := Date.month_le e
  omega

/-- A month has at most 31 days. -/
theorem monthStart_le (month : Int) : monthStart (month + 1) ≤ monthStart month + 31 := by
  have : monthOffset (leapDay (month / 12)) (month % 12 + 1) ≤
      monthOffset (leapDay (month / 12)) (month % 12) + 31 := by
    have leaps := leapDay_cases (month / 12)
    have lower := Int.emod_nonneg month (by decide : (12 : Int) ≠ 0)
    have upper := Int.emod_lt_of_pos month (by decide : (0 : Int) < 12)
    generalize month % 12 = m at lower upper ⊢
    generalize leapDay (month / 12) = leap at leaps ⊢
    unfold monthOffset
    split_ifs <;> omega
  rw [monthStart_succ, monthStart]
  omega

theorem Date.day_le : 1 ≤ (Date.ofDays days).day ∧ (Date.ofDays days).day ≤ 31 := by
  obtain ⟨-, -, first, last⟩ := monthIndex_bounds days
  have := monthStart_le (monthIndex days)
  simp only [Date.ofDays]
  omega

/-- The date of a day determines the day. -/
theorem Date.ofYmd_ofDays :
    ofYmd (Date.ofDays days).year (Date.ofDays days).month (Date.ofDays days).day = days := by
  obtain ⟨-, -, first, -⟩ := monthIndex_bounds days
  rw [ofYmd, ← Date.monthIndex_eq]
  simp only [Date.ofDays]
  omega

end Calendar
