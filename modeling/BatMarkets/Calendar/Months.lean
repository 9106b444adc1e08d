import Mathlib

/-!
# Days and months

The proleptic Gregorian calendar.  Days are counted from 1 January 1970.  Months are counted from
January of the year 0, so that month `12 * year + 0` is January and `12 * year + 11` December of
`year`.  The computations count the months of a year from March on, which puts the leap day last.

## Main results

* `firstDay_succ` : each month has the days of the calendar, with the rule for leap years.
* `firstDay_strictMono` : months come one after the other.
* `monthOfDay_eq_iff` : a day is of the month between whose first day and the next it falls.
-/

namespace Calendar

/-- The days from 1 March of the year 0 to 1 March of `year`. -/
def marchDay (year : ℤ) : ℤ := 365 * year + year / 4 - year / 100 + year / 400

/-- The day 1 January 1970, counted from 1 March of the year 0. -/
def epochDay : ℤ := 719468

/-- The first day of a month. -/
def firstDay (month : ℤ) : ℤ :=
  marchDay ((month - 2) / 12) + (153 * ((month - 2) % 12) + 2) / 5 - epochDay

/-- The year, from 1 March on, in which a day falls that is counted from 1 March of the year 0. -/
def marchYear (day : ℤ) : ℤ :=
  let estimate := 400 * day / 146097
  if day < marchDay estimate then estimate - 1
  else if marchDay (estimate + 1) ≤ day then estimate + 1
  else estimate

/-- The month in which a day falls. -/
def monthOfDay (day : ℤ) : ℤ :=
  let year := marchYear (day + epochDay)
  12 * year + (5 * (day + epochDay - marchDay year) + 2) / 153 + 2

/-- A year with a leap day. -/
def isLeap (year : ℤ) : Bool := year % 4 = 0 ∧ (year % 100 ≠ 0 ∨ year % 400 = 0)

/-- The days of a month. -/
def monthLength (month : ℤ) : ℤ :=
  if month % 12 = 1 then if isLeap (month / 12) then 29 else 28
  else if month % 12 = 3 ∨ month % 12 = 5 ∨ month % 12 = 8 ∨ month % 12 = 10 then 30
  else 31

theorem marchYear_spec (day : ℤ) :
    marchDay (marchYear day) ≤ day ∧ day < marchDay (marchYear day + 1) := by
  unfold marchYear marchDay
  dsimp only
  split_ifs <;> omega

theorem marchDay_succ (year : ℤ) :
    marchDay year + 365 ≤ marchDay (year + 1) ∧ marchDay (year + 1) ≤ marchDay year + 366 := by
  unfold marchDay
  omega

theorem firstDay_lt_succ (month : ℤ) : firstDay month < firstDay (month + 1) := by
  have hyear := marchDay_succ ((month - 2) / 12)
  unfold firstDay
  by_cases hlast : (month - 2) % 12 = 11
  · have hnext : (month + 1 - 2) / 12 = (month - 2) / 12 + 1 := by omega
    have hfirst : (month + 1 - 2) % 12 = 0 := by omega
    rw [hnext, hfirst, hlast]
    omega
  · have hsame : (month + 1 - 2) / 12 = (month - 2) / 12 := by omega
    rw [hsame]
    omega

/-- Each month has the days that it has in the calendar. -/
theorem firstDay_succ (month : ℤ) : firstDay (month + 1) = firstDay month + monthLength month := by
  obtain ⟨year, index, hlow, hhigh, rfl⟩ : ∃ year index : ℤ, 0 ≤ index ∧ index < 12 ∧
      month = 12 * year + index := ⟨month / 12, month % 12, by omega, by omega, by omega⟩
  have hyear : (12 * year + index) / 12 = year := by omega
  have hindex : (12 * year + index) % 12 = index := by omega
  -- the place of a month in the years from March on
  have hplace : ∀ y i : ℤ, 0 ≤ i → i < 12 →
      firstDay (12 * y + i + 2) = marchDay y + (153 * i + 2) / 5 - epochDay := by
    intro y i hi hi'
    have hy : (12 * y + i + 2 - 2) / 12 = y := by omega
    have hrest : (12 * y + i + 2 - 2) % 12 = i := by omega
    rw [firstDay, hy, hrest]
  unfold monthLength isLeap
  rw [hyear, hindex]
  by_cases hmarch : 2 ≤ index
  · have hthis := hplace year (index - 2) (by omega) (by omega)
    have hnext := hplace year (index - 1) (by omega) (by omega)
    rw [show 12 * year + (index - 2) + 2 = 12 * year + index by omega] at hthis
    rw [show 12 * year + (index - 1) + 2 = 12 * year + index + 1 by omega] at hnext
    rw [hthis, hnext, if_neg (show index ≠ 1 by omega)]
    have hcases : index = 2 ∨ index = 3 ∨ index = 4 ∨ index = 5 ∨ index = 6 ∨ index = 7 ∨ index = 8 ∨
        index = 9 ∨ index = 10 ∨ index = 11 := by omega
    rcases hcases with rfl | rfl | rfl | rfl | rfl | rfl | rfl | rfl | rfl | rfl <;>
      split_ifs <;> omega
  · have hthis := hplace (year - 1) (index + 10) (by omega) (by omega)
    rw [show 12 * (year - 1) + (index + 10) + 2 = 12 * year + index by omega] at hthis
    rw [hthis]
    obtain rfl | rfl : index = 0 ∨ index = 1 := by omega
    · have hnext := hplace (year - 1) 11 (by omega) (by omega)
      rw [show 12 * (year - 1) + 11 + 2 = 12 * year + 0 + 1 by omega] at hnext
      rw [hnext]
      simp
      omega
    · have hnext := hplace year 0 (by omega) (by omega)
      rw [show 12 * year + 0 + 2 = 12 * year + 1 + 1 by omega] at hnext
      rw [hnext]
      unfold marchDay
      simp only [decide_eq_true_eq, if_true]
      split_ifs <;> omega

theorem firstDay_strictMono : StrictMono firstDay := strictMono_int_of_lt_succ firstDay_lt_succ

/-- A day falls between the first day of its month and that of the next. -/
theorem monthOfDay_spec (day : ℤ) :
    firstDay (monthOfDay day) ≤ day ∧ day < firstDay (monthOfDay day + 1) := by
  obtain ⟨hlow, hhigh⟩ := marchYear_spec (day + epochDay)
  have hyear := marchDay_succ (marchYear (day + epochDay))
  unfold monthOfDay
  dsimp only
  generalize marchYear (day + epochDay) = year at *
  generalize hrest : day + epochDay - marchDay year = rest
  generalize hindex : (5 * rest + 2) / 153 = index
  have hbounds : 0 ≤ index ∧ index < 12 := by omega
  have hyear0 : (12 * year + index + 2 - 2) / 12 = year := by omega
  have hindex0 : (12 * year + index + 2 - 2) % 12 = index := by omega
  unfold firstDay
  rw [hyear0, hindex0]
  constructor
  · omega
  · by_cases hlast : index = 11
    · have hnext : (12 * year + index + 2 + 1 - 2) / 12 = year + 1 := by omega
      have hfirst : (12 * year + index + 2 + 1 - 2) % 12 = 0 := by omega
      rw [hnext, hfirst]
      omega
    · have hsame : (12 * year + index + 2 + 1 - 2) / 12 = year := by omega
      have hnext : (12 * year + index + 2 + 1 - 2) % 12 = index + 1 := by omega
      rw [hsame, hnext]
      omega

theorem monthOfDay_eq_iff {day month : ℤ} :
    monthOfDay day = month ↔ firstDay month ≤ day ∧ day < firstDay (month + 1) := by
  constructor
  · rintro rfl
    exact monthOfDay_spec day
  · rintro ⟨hlow, hhigh⟩
    obtain ⟨hlow', hhigh'⟩ := monthOfDay_spec day
    have hle := firstDay_strictMono.lt_iff_lt.1 (hlow.trans_lt hhigh')
    have hge := firstDay_strictMono.lt_iff_lt.1 (hlow'.trans_lt hhigh)
    omega

@[simp] theorem monthOfDay_firstDay (month : ℤ) : monthOfDay (firstDay month) = month :=
  monthOfDay_eq_iff.2 ⟨le_rfl, firstDay_lt_succ month⟩

theorem monthOfDay_mono : Monotone monthOfDay := by
  intro a b hab
  have hlt := (monthOfDay_spec a).1.trans_lt (hab.trans_lt (monthOfDay_spec b).2)
  have := firstDay_strictMono.lt_iff_lt.1 hlt
  omega

/-- 1 January 1970, and the leap day of the year 2000. -/
example : firstDay (12 * 1970) = 0 ∧ monthOfDay 11016 = 12 * 2000 + 1 ∧
    monthOfDay 11017 = 12 * 2000 + 2 := by decide

end Calendar
