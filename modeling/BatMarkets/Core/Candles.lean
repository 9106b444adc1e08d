import BatMarkets.Core.Interval

/-!
# Candles tile time

From the end of a candle on the next one opens, so that a caller who goes from one candle to the next
meets the boundaries of the interval one after the other.  The calendar is left where its dates end.
The sum of an open time and a fixed length is computed without such a guard.

## Main results

* `KlineInterval.nextOpen_boundary` : the candle after a boundary opens at the next boundary.
* `closeTimeMs_tiles_iff` : the candle of an open time has all of the properties exactly when the
  sum does not overflow.
* `closeTimeMs_overflows` : a minute that opens at the last time there is.
-/

namespace BatMarkets

open Calendar

namespace KlineInterval

/-- The open time of the `n`-th candle: of month `n`, or counted from `origin`. -/
def boundary (interval : KlineInterval) (origin n : ℤ) : ℤ :=
  match interval.durationMs with
  | some durationMs => origin + n * durationMs
  | none => firstDay n * dayMs

/-- The open time of the candle after one, if that has an end. -/
def nextOpen (interval : KlineInterval) (openTimeMs : TimestampMs) :
    Except Failure (Option TimestampMs) := do
  match ← interval.closeTimeMs openTimeMs with
  | some closeTime => return some (← checkedI64 (closeTime.toInt + 1))
  | none => return none

/-- The open time of the candle that is so many candles later. -/
def openAfter (interval : KlineInterval) (openTimeMs : TimestampMs) :
    ℕ → Except Failure (Option TimestampMs)
  | 0 => .ok (some openTimeMs)
  | n + 1 => do
    match ← openAfter interval openTimeMs n with
    | some openTime => interval.nextOpen openTime
    | none => return none

/-- What is expected of the candle that opens at a time. -/
structure TilesTime (interval : KlineInterval) (openTimeMs : TimestampMs) : Prop where
  computes : ∃ result, interval.closeTimeMs openTimeMs = .ok result
  le : ∀ closeTime, interval.closeTimeMs openTimeMs = .ok (some closeTime) → openTimeMs ≤ closeTime
  /-- A month ends after its days, right before the next one begins, and no month begins in
  between. -/
  month : interval = .month1 → ∀ closeTime, interval.closeTimeMs openTimeMs = .ok (some closeTime) →
    ∃ month, firstDay month * dayMs ≤ openTimeMs.toInt ∧
      openTimeMs.toInt < firstDay (month + 1) * dayMs ∧
      closeTime.toInt + 1 = (firstDay month + monthLength month) * dayMs ∧
      closeTime.toInt + 1 = firstDay (month + 1) * dayMs ∧
      ∀ other, ¬ (openTimeMs.toInt < firstDay other * dayMs ∧
        firstDay other * dayMs ≤ closeTime.toInt)
  /-- From a boundary on, the boundaries are visited one after the other. -/
  consecutive : ∀ origin n, openTimeMs.toInt = interval.boundary origin n →
    ∀ k openTime, interval.openAfter openTimeMs k = .ok (some openTime) →
      openTime.toInt = interval.boundary origin (n + k)

section Boundary

variable {interval : KlineInterval} {origin n : ℤ} {openTimeMs closeTime : TimestampMs}

/-- The candle that opens at a boundary ends right before the next one. -/
theorem Closes.boundary {a c : ℤ} (h : interval.Closes a c) (ha : a = interval.boundary origin n) :
    c + 1 = interval.boundary origin (n + 1) := by
  unfold Closes at h
  unfold KlineInterval.boundary at ha ⊢
  cases hduration : interval.durationMs with
  | some durationMs =>
    rw [hduration] at h ha
    dsimp only at h ha ⊢
    rw [Int.add_mul, Int.one_mul]
    omega
  | none =>
    rw [hduration] at h ha
    dsimp only at h ha ⊢
    rw [ha, Int.mul_ediv_cancel _ (by decide), monthOfDay_firstDay] at h
    omega

theorem nextOpen_boundary {openTime : TimestampMs}
    (hopen : openTimeMs.toInt = interval.boundary origin n)
    (h : interval.nextOpen openTimeMs = .ok (some openTime)) :
    openTime.toInt = interval.boundary origin (n + 1) := by
  unfold nextOpen at h
  cases hclose : interval.closeTimeMs openTimeMs with
  | error e =>
    rw [hclose] at h
    cases h
  | ok result =>
    rw [hclose] at h
    cases result with
    | none => cases h
    | some closeTime =>
      have hnext : checkedI64 (closeTime.toInt + 1) = .ok openTime := by
        cases hsum : checkedI64 (closeTime.toInt + 1) with
        | error e =>
          simp [hsum, bind, Except.bind] at h
        | ok sum =>
          simp only [hsum, bind, Except.bind, pure, Except.pure, Except.ok.injEq,
            Option.some.injEq] at h
          rw [h]
      rw [toInt_checkedI64 hnext]
      exact (closeTimeMs_eq_iff.1 hclose).boundary hopen

/-- A run from a boundary on visits the next ones, by induction on its length. -/
theorem openAfter_boundary (hopen : openTimeMs.toInt = interval.boundary origin n) (k : ℕ)
    {openTime : TimestampMs} (h : interval.openAfter openTimeMs k = .ok (some openTime)) :
    openTime.toInt = interval.boundary origin (n + k) := by
  induction k generalizing openTime with
  | zero =>
    cases h
    simpa using hopen
  | succ k ih =>
    rw [openAfter] at h
    cases hrun : interval.openAfter openTimeMs k with
    | error e =>
      rw [hrun] at h
      cases h
    | ok before =>
      rw [hrun] at h
      cases before with
      | none => cases h
      | some before =>
        have hnext := nextOpen_boundary (ih hrun) h
        rw [hnext, Nat.cast_succ, Int.add_assoc]

/-- A month that has an end ends with the days before the next month. -/
theorem Closes.month {a c : ℤ} (h : KlineInterval.month1.Closes a c) :
    ∃ month, firstDay month * dayMs ≤ a ∧ a < firstDay (month + 1) * dayMs ∧
      c + 1 = (firstDay month + monthLength month) * dayMs ∧
      c + 1 = firstDay (month + 1) * dayMs ∧
      ∀ other, ¬ (a < firstDay other * dayMs ∧ firstDay other * dayMs ≤ c) := by
  obtain ⟨hclose, -, -⟩ := h
  obtain ⟨hlow, hhigh⟩ := monthOfDay_spec (a / dayMs)
  generalize monthOfDay (a / dayMs) = month at hclose hlow hhigh
  rw [← Int.add_one_le_iff] at hhigh
  have hlength := firstDay_succ month
  simp only [dayMs] at hclose hlow hhigh ⊢
  refine ⟨month, by omega, by omega, by omega, by omega, fun other hother => ?_⟩
  have hafter : month < other := firstDay_strictMono.lt_iff_lt.1 (by omega)
  have hbefore : other < month + 1 := firstDay_strictMono.lt_iff_lt.1 (by omega)
  omega

theorem closeTimeMs_panics {durationMs : ℤ} (hduration : interval.durationMs = some durationMs)
    (h : ¬ openTimeMs.toInt + durationMs < 2 ^ 63) :
    interval.closeTimeMs openTimeMs = .error .panic := by
  have hsum : checkedI64 (openTimeMs.toInt + durationMs) = .error .panic :=
    if_neg fun hrange => h hrange.2
  unfold closeTimeMs
  rw [hduration]
  dsimp only
  rw [hsum]
  rfl

/-- An end is computed, or found not to be in the calendar, unless the sum is too large. -/
theorem computes_iff : (∃ result, interval.closeTimeMs openTimeMs = .ok result) ↔
    ∀ durationMs, interval.durationMs = some durationMs → openTimeMs.toInt + durationMs < 2 ^ 63 := by
  cases hduration : interval.durationMs with
  | some durationMs =>
    simp only [Option.some.injEq, forall_eq']
    by_cases hrange : openTimeMs.toInt + durationMs < 2 ^ 63
    · have hcloses : interval.Closes openTimeMs.toInt (openTimeMs.toInt + durationMs - 1) := by
        unfold Closes
        rw [hduration]
        exact ⟨rfl, hrange⟩
      obtain ⟨closeTime, hclose, -⟩ := hcloses.exists_closeTimeMs
      exact iff_of_true ⟨_, hclose⟩ hrange
    · refine iff_of_false ?_ hrange
      rintro ⟨result, hresult⟩
      rw [closeTimeMs_panics hduration hrange] at hresult
      cases hresult
  | none =>
    refine iff_of_true ?_ fun durationMs h => nomatch h
    unfold closeTimeMs
    rw [hduration]
    dsimp only
    split
    next hdates =>
      have hrange := firstDay_range hdates.2
      have hend := checkedI64_eq
        (firstDay (monthOfDay (openTimeMs.toInt / dayMs) + 1) * dayMs - 1)
        ⟨by omega, by omega⟩
      rw [hend]
      exact ⟨_, rfl⟩
    next => exact ⟨none, rfl⟩

end Boundary

end KlineInterval

open KlineInterval

/-- **Candles tile time.**  The candle of an open time is as expected, with all candles after it that
have an end, exactly when the open time plus the length of the interval is a time; a month has no
such condition. -/
theorem closeTimeMs_tiles_iff (interval : KlineInterval) (openTimeMs : TimestampMs) :
    interval.TilesTime openTimeMs ↔ ∀ durationMs, interval.durationMs = some durationMs →
      openTimeMs.toInt + durationMs < 2 ^ 63 := by
  constructor
  · intro h
    exact computes_iff.1 h.computes
  · intro h
    refine ⟨computes_iff.2 h, fun closeTime hclose => ?_, ?_, fun origin n hopen k openTime hrun => ?_⟩
    · rw [Int64.le_iff_toInt_le]
      exact (closeTimeMs_eq_iff.1 hclose).le
    · rintro rfl closeTime hclose
      exact (closeTimeMs_eq_iff.1 hclose).month
    · exact openAfter_boundary hopen k hrun

/-- A minute that opens at the last time there is. -/
theorem closeTimeMs_overflows :
    KlineInterval.minute1.closeTimeMs Int64.maxValue = .error .panic ∧
      ¬ KlineInterval.minute1.TilesTime Int64.maxValue := by
  have hpanic : KlineInterval.minute1.closeTimeMs Int64.maxValue = .error .panic := by decide
  refine ⟨hpanic, fun h => ?_⟩
  obtain ⟨result, hresult⟩ := h.computes
  rw [hpanic] at hresult
  cases hresult

end BatMarkets
