import BatMarkets.Calendar.Months
import BatMarkets.Core.Market

/-!
# The candles of an interval

How an interval is spelled on the venues and when its candles end.  All intervals but the month have
a fixed length; the end of a monthly candle is looked up in the calendar, whose dates end with the
year 9999.

The candles of an interval open on a grid: at the first of a month, or at a fixed distance from one
another, from an origin that the venue chooses.

## Main results

* `closeTimeMs_eq_iff` : when the end of a candle is found, and what it is.
* `Closes.lt_iff` : on a grid, what opens after the end of a candle is what opens after it.
* `Closes.between` : a time between two whose candles end has a candle that ends.
-/

namespace BatMarkets

open Calendar

/-- A computed `i64`.  An overflow panics. -/
def checkedI64 (value : ℤ) : Except Failure Int64 :=
  if -2 ^ 63 ≤ value ∧ value < 2 ^ 63 then .ok (Int64.ofInt value) else .error .panic

/-- The number after one that is below another does not overflow. -/
theorem checkedI64_next {a b : Int64} (h : a < b) : checkedI64 (a.toInt + 1) = .ok (a + 1) := by
  have hsum := toInt_add_one h
  have hlow := (a + 1).le_toInt
  have hhigh := (a + 1).toInt_lt
  rw [hsum] at hlow hhigh
  rw [checkedI64, if_pos ⟨hlow, hhigh⟩, ← hsum, Int64.ofInt_toInt]

theorem checkedI64_prev {a b : Int64} (h : a < b) : checkedI64 (b.toInt - 1) = .ok (b - 1) := by
  have hdiff := toInt_sub_one h
  have hlow := (b - 1).le_toInt
  have hhigh := (b - 1).toInt_lt
  rw [hdiff] at hlow hhigh
  rw [checkedI64, if_pos ⟨hlow, hhigh⟩, ← hdiff, Int64.ofInt_toInt]

/-- The milliseconds of a day. -/
def dayMs : ℤ := 24 * 60 * 60000

namespace KlineInterval

/-- The names of the intervals. -/
def asIntervalStr : KlineInterval → String
  | minute1 => "1m"
  | minute3 => "3m"
  | minute5 => "5m"
  | minute15 => "15m"
  | minute30 => "30m"
  | hour1 => "1h"
  | hour2 => "2h"
  | hour4 => "4h"
  | hour6 => "6h"
  | hour12 => "12h"
  | day1 => "1d"
  | day3 => "3d"
  | week1 => "1w"
  | month1 => "1M"

/-- Binance uses the same names. -/
def asBinanceStr (interval : KlineInterval) : String := interval.asIntervalStr

/-- Bybit counts minutes, and has letters for longer intervals. -/
def asBybitStr : KlineInterval → String
  | minute1 => "1"
  | minute3 => "3"
  | minute5 => "5"
  | minute15 => "15"
  | minute30 => "30"
  | hour1 => "60"
  | hour2 => "120"
  | hour4 => "240"
  | hour6 => "360"
  | hour12 => "720"
  | day1 => "D"
  | day3 => "3d"
  | week1 => "W"
  | month1 => "M"

/-- The length of a candle.  A month has no fixed one. -/
def durationMs : KlineInterval → Option ℤ
  | minute1 => some 60000
  | minute3 => some (3 * 60000)
  | minute5 => some (5 * 60000)
  | minute15 => some (15 * 60000)
  | minute30 => some (30 * 60000)
  | hour1 => some (60 * 60000)
  | hour2 => some (120 * 60000)
  | hour4 => some (240 * 60000)
  | hour6 => some (360 * 60000)
  | hour12 => some (720 * 60000)
  | day1 => some (24 * 60 * 60000)
  | day3 => some (3 * 24 * 60 * 60000)
  | week1 => some (7 * 24 * 60 * 60000)
  | month1 => none

/-- A month with a date in the years that dates can have. -/
def hasDates (month : ℤ) : Bool := -9999 ≤ month / 12 ∧ month / 12 ≤ 9999

/-- The last millisecond of the candle that opens at `openTimeMs`, if the calendar has it. -/
def closeTimeMs (interval : KlineInterval) (openTimeMs : TimestampMs) :
    Except Failure (Option TimestampMs) := do
  match interval.durationMs with
  | some durationMs =>
    let sum ← checkedI64 (openTimeMs.toInt + durationMs)
    return some (← checkedI64 (sum.toInt - 1))
  | none =>
    let month := monthOfDay (openTimeMs.toInt / dayMs)
    -- January of the next year follows December.
    let nextMonth := month + 1
    if hasDates month ∧ hasDates nextMonth then
      return some (← checkedI64 (firstDay nextMonth * dayMs - 1))
    else return none

/-! ### The end of a candle -/

/-- A candle that opens at `openMs` ends at `closeMs`. -/
def Closes (interval : KlineInterval) (openMs closeMs : ℤ) : Prop :=
  match interval.durationMs with
  | some durationMs => closeMs = openMs + durationMs - 1 ∧ openMs + durationMs < 2 ^ 63
  | none =>
    closeMs = firstDay (monthOfDay (openMs / dayMs) + 1) * dayMs - 1 ∧
      hasDates (monthOfDay (openMs / dayMs)) ∧ hasDates (monthOfDay (openMs / dayMs) + 1)

/-- The times at which candles open, the candles of fixed length counted from `origin` on. -/
def OnGrid (interval : KlineInterval) (origin openMs : ℤ) : Prop :=
  match interval.durationMs with
  | some durationMs => ∃ n, openMs = origin + n * durationMs
  | none => ∃ month, openMs = firstDay month * dayMs

theorem durationMs_eq_some {interval : KlineInterval} {durationMs : ℤ}
    (h : interval.durationMs = some durationMs) :
    60000 ≤ durationMs ∧ durationMs ≤ 604800000 ∧ durationMs % 1000 = 0 := by
  cases interval <;> simp only [KlineInterval.durationMs, Option.some.injEq, reduceCtorEq] at h <;>
    omega

theorem checkedI64_eq (value : ℤ) (h : -2 ^ 63 ≤ value ∧ value < 2 ^ 63) :
    checkedI64 value = .ok (Int64.ofInt value) := if_pos h

theorem toInt_checkedI64 {value : ℤ} {result : Int64} (h : checkedI64 value = .ok result) :
    result.toInt = value := by
  unfold checkedI64 at h
  split at h
  next hrange =>
    cases h
    exact Int64.toInt_ofInt_of_le hrange.1 hrange.2
  next => cases h

/-- The first days of the months that have dates are far inside the range of `i64`. -/
theorem firstDay_range {month : ℤ} (h : hasDates month = true) :
    -2 ^ 63 < firstDay month * dayMs ∧ firstDay month * dayMs < 2 ^ 63 := by
  simp only [hasDates, decide_eq_true_eq] at h
  have hlow := firstDay_strictMono.monotone (show 12 * (-9999) ≤ month by omega)
  have hhigh := firstDay_strictMono.monotone (show month ≤ 12 * 9999 + 11 by omega)
  have hfirst : firstDay (12 * (-9999)) = -4371587 := by decide
  have hlast : firstDay (12 * 9999 + 11) = 2932866 := by decide
  unfold dayMs
  omega

variable {interval : KlineInterval} {origin a b c c' t : ℤ}

/-- The end of a candle is found exactly of a candle that ends at a time there is. -/
theorem closeTimeMs_eq_iff {openTimeMs closeTime : TimestampMs} :
    interval.closeTimeMs openTimeMs = .ok (some closeTime) ↔
      interval.Closes openTimeMs.toInt closeTime.toInt := by
  have hlow := openTimeMs.le_toInt
  unfold closeTimeMs Closes
  cases hduration : interval.durationMs with
  | some durationMs =>
    have hpos := durationMs_eq_some hduration
    dsimp only
    by_cases hrange : openTimeMs.toInt + durationMs < 2 ^ 63
    · have hsum := checkedI64_eq (openTimeMs.toInt + durationMs) ⟨by omega, hrange⟩
      have hend := checkedI64_eq (openTimeMs.toInt + durationMs - 1) ⟨by omega, by omega⟩
      rw [hsum]
      simp only [bind, Except.bind, pure, Except.pure]
      rw [Int64.toInt_ofInt_of_le (by omega) hrange, hend]
      simp only [Except.ok.injEq, Option.some.injEq, hrange, and_true]
      rw [← Int64.toInt_inj, Int64.toInt_ofInt_of_le (by omega) (by omega)]
      exact eq_comm
    · have hsum : checkedI64 (openTimeMs.toInt + durationMs) = .error .panic :=
        if_neg fun h => hrange h.2
      rw [hsum]
      simp only [bind, Except.bind, reduceCtorEq, hrange, and_false]
  | none =>
    dsimp only
    split
    next hdates =>
      have hrange := firstDay_range hdates.2
      have hend := checkedI64_eq
        (firstDay (monthOfDay (openTimeMs.toInt / dayMs) + 1) * dayMs - 1)
        ⟨by omega, by omega⟩
      rw [hend]
      simp only [bind, Except.bind, pure, Except.pure, Except.ok.injEq, Option.some.injEq]
      rw [← Int64.toInt_inj, Int64.toInt_ofInt_of_le (by omega) (by omega)]
      simp only [hdates, and_true]
      exact eq_comm
    next hdates =>
      simp only [pure, Except.pure, Except.ok.injEq, reduceCtorEq, false_iff]
      exact fun h => hdates h.2

theorem Closes.le (h : interval.Closes a c) : a ≤ c := by
  unfold Closes at h
  cases hduration : interval.durationMs with
  | some durationMs =>
    have hpos := durationMs_eq_some hduration
    rw [hduration] at h
    dsimp only at h
    omega
  | none =>
    rw [hduration] at h
    have hday := (monthOfDay_spec (a / dayMs)).2
    simp only [dayMs] at h hday
    omega

/-- No candle opens at the last time there is. -/
theorem Closes.lt_max (h : interval.Closes a c) : a < 2 ^ 63 - 1 := by
  have hle := h.le
  unfold Closes at h
  cases hduration : interval.durationMs with
  | some durationMs =>
    have hpos := durationMs_eq_some hduration
    rw [hduration] at h
    dsimp only at h
    omega
  | none =>
    rw [hduration] at h
    have hnext := firstDay_range h.2.2
    dsimp only at h
    omega

/-- The candle that opens at a time and ends is found with its end. -/
theorem Closes.exists_closeTimeMs {openTimeMs : TimestampMs}
    (h : interval.Closes openTimeMs.toInt c) :
    ∃ closeTime, interval.closeTimeMs openTimeMs = .ok (some closeTime) ∧
      closeTime.toInt = c := by
  have hlow := openTimeMs.le_toInt
  have hrange : -2 ^ 63 ≤ c ∧ c < 2 ^ 63 := by
    have hle := h.le
    unfold Closes at h
    cases hduration : interval.durationMs with
    | some durationMs =>
      rw [hduration] at h
      dsimp only at h
      omega
    | none =>
      rw [hduration] at h
      have hnext := firstDay_range h.2.2
      dsimp only at h
      omega
  have hend := Int64.toInt_ofInt_of_le hrange.1 hrange.2
  exact ⟨Int64.ofInt c, closeTimeMs_eq_iff.2 (hend.symm ▸ h), hend⟩

/-- On a grid, a candle opens after another one ends exactly if it opens after it. -/
theorem Closes.lt_iff (ha : interval.OnGrid origin a) (hb : interval.OnGrid origin b)
    (h : interval.Closes a c) : c < b ↔ a < b := by
  refine ⟨fun hlt => h.le.trans_lt hlt, fun hlt => ?_⟩
  unfold OnGrid at ha hb
  unfold Closes at h
  cases hduration : interval.durationMs with
  | some durationMs =>
    have hpos := durationMs_eq_some hduration
    rw [hduration] at ha hb h
    obtain ⟨n, rfl⟩ := ha
    obtain ⟨k, rfl⟩ := hb
    dsimp only at h
    have hnk : n < k := lt_of_mul_lt_mul_right (lt_of_add_lt_add_left hlt) (by omega)
    have hnext : (n + 1) * durationMs ≤ k * durationMs :=
      mul_le_mul_of_nonneg_right hnk (by omega)
    rw [Int.add_mul, Int.one_mul] at hnext
    omega
  | none =>
    rw [hduration] at ha hb h
    obtain ⟨n, rfl⟩ := ha
    obtain ⟨k, rfl⟩ := hb
    dsimp only at h
    simp only [dayMs] at hlt h ⊢
    have hnk : n < k := firstDay_strictMono.lt_iff_lt.1 (by omega)
    have hnext := firstDay_strictMono.monotone (Int.add_one_le_iff.2 hnk)
    rw [Int.mul_ediv_cancel _ (by decide), monthOfDay_firstDay] at h
    omega

/-- A time between two whose candles end has a candle that ends. -/
theorem Closes.between (h : interval.Closes a c) (h' : interval.Closes b c') (hat : a ≤ t)
    (htb : t ≤ b) : ∃ close, interval.Closes t close := by
  unfold Closes at h h' ⊢
  cases hduration : interval.durationMs with
  | some durationMs =>
    rw [hduration] at h h'
    dsimp only at h h' ⊢
    exact ⟨_, rfl, by omega⟩
  | none =>
    rw [hduration] at h h'
    have hlow := monthOfDay_mono (Int.ediv_le_ediv (by decide : 0 < dayMs) hat)
    have hhigh := monthOfDay_mono (Int.ediv_le_ediv (by decide : 0 < dayMs) htb)
    simp only [hasDates, decide_eq_true_eq] at h h' ⊢
    exact ⟨_, rfl, by omega, by omega⟩

/-- The candle after one that opens at a full second opens at a full second. -/
theorem Closes.full_second (h : interval.Closes a c) (ha : a % 1000 = 0) : (c + 1) % 1000 = 0 := by
  unfold Closes at h
  cases hduration : interval.durationMs with
  | some durationMs =>
    have hpos := durationMs_eq_some hduration
    rw [hduration] at h
    dsimp only at h
    omega
  | none =>
    rw [hduration] at h
    simp only [dayMs] at h
    omega

/-- A time that is not before the second after the end of a candle is after its beginning. -/
theorem Closes.lt_of_second (h : interval.Closes a c) (hb : 1000 * (c + 1).tdiv 1000 ≤ b) :
    a < b := by
  have hle := h.le
  have hsplit := Int.mul_tdiv_add_tmod (c + 1) 1000
  have hrest := Int.tmod_lt_of_pos (c + 1) (show (0 : ℤ) < 1000 by decide)
  unfold Closes at h
  cases hduration : interval.durationMs with
  | some durationMs =>
    have hpos := durationMs_eq_some hduration
    rw [hduration] at h
    dsimp only at h
    omega
  | none =>
    rw [hduration] at h
    simp only [dayMs] at h
    have hexact : (c + 1).tmod 1000 = 0 := Int.tmod_eq_zero_of_dvd (by omega)
    omega

end KlineInterval

end BatMarkets
