import BatMarkets.Runtime.Recovery

/-!
# The window of a repair

`repair_window_start_ms` (`runtime.rs`) chooses from when on the history of an instrument is asked
for.  It starts from an anchor: the earliest of the latest order, the latest execution and the
oldest pending command, or else the time of the last private message.  The window begins a minute
before the anchor, but no more than seven days ago and not in the future.

All differences saturate.  `windowStart` is the same choice in exact numbers, and the window begins
there, or at the least time there is.

## Main results

* `repair_window_covers` : the window is inside its bounds, and it begins a minute before every
  pending command unless it begins at the bound.
* `spec_repairTimeWindow` : so does the window that a task gets, and there is one as long as a
  command is pending.
-/

namespace BatMarkets

open Interleaving RuntimeM

/-- When the window of an anchor begins, in exact numbers. -/
def windowStart (nowMs anchor : ℤ) : ℤ :=
  min (max (anchor - historyRepairRewindMs.toInt) (nowMs - historyRepairMaxLookbackMs.toInt)) nowMs

/-- The number, or the least time if it is below that. -/
def clampLow (value : ℤ) : ℤ := max (-2 ^ 63) value

/-- The time the oldest command was recorded at. -/
def oldestPending (pending : List PendingUnknownCommand) : Option Int64 :=
  (pending.map (·.recordedAt)).min?

/-- What a window must cover. -/
structure WindowCovers (nowMs startMs : Int64) (pending : List PendingUnknownCommand) : Prop where
  notBeforeBound : saturatingSub nowMs historyRepairMaxLookbackMs ≤ startMs
  notInFuture : startMs ≤ nowMs
  /-- It begins a minute before each command, or as far back as it may. -/
  covers : ∀ command ∈ pending,
    startMs.toInt ≤ command.recordedAt.toInt - historyRepairRewindMs.toInt ∨
      startMs = saturatingSub nowMs historyRepairMaxLookbackMs

theorem toInt_saturatingSub (a : Int64) {b : Int64} (hb : 0 ≤ b.toInt) :
    (saturatingSub a b).toInt = clampLow (a.toInt - b.toInt) := by
  have hlow := a.le_toInt
  have hhigh := a.toInt_lt
  unfold saturatingSub clampLow
  rw [Int64.toInt_ofInt_of_le (by omega) (by omega)]
  omega

theorem rewind_nonneg : 0 ≤ historyRepairRewindMs.toInt := by decide

theorem lookback_nonneg : 0 ≤ historyRepairMaxLookbackMs.toInt := by decide

variable {nowMs startMs anchor : Int64} {latestOrderMs latestExecutionMs fallbackLastPrivateMs
  oldestPendingMs : Option Int64} {pending : List PendingUnknownCommand}

/-- A list with a time in it has an earliest time, which is not after that one. -/
theorem exists_min? {times : List Int64} {time : Int64} (hmem : time ∈ times) :
    ∃ earliest, times.min? = some earliest ∧ earliest ≤ time := by
  cases hmin : times.min? with
  | none =>
    rw [List.min?_eq_none_iff.1 hmin] at hmem
    cases hmem
  | some earliest => exact ⟨earliest, rfl, (List.min?_eq_some_iff.1 hmin).2 time hmem⟩

/-- The earliest of the three times, when there is a pending command. -/
theorem exists_earliest (latestOrderMs latestExecutionMs : Option Int64) (oldest : Int64) :
    ∃ earliest, ([latestOrderMs, latestExecutionMs, some oldest].filterMap id).min? =
      some earliest ∧ earliest ≤ oldest :=
  exists_min? (List.mem_filterMap.2 ⟨some oldest, by simp, rfl⟩)

/-- The earliest of three times, or else a fourth, is one of the four. -/
theorem mem_anchors (h : ([latestOrderMs, latestExecutionMs, oldestPendingMs].filterMap id).min?.or
      fallbackLastPrivateMs = some anchor) :
    anchor ∈ [latestOrderMs, latestExecutionMs, oldestPendingMs,
      fallbackLastPrivateMs].filterMap id := by
  rcases Option.or_eq_some_iff.1 h with hmin | ⟨-, rfl⟩
  · have hmem := List.mem_filterMap.1 (List.min?_eq_some_iff.1 hmin).1
    obtain ⟨time, htime, hanchor⟩ := hmem
    refine List.mem_filterMap.2 ⟨time, ?_, hanchor⟩
    simp only [List.mem_cons, List.not_mem_nil, or_false] at htime ⊢
    tauto
  · exact List.mem_filterMap.2 ⟨some anchor, by simp, rfl⟩

/-- The anchor of a window is one of the four times, and not after the oldest pending command. -/
theorem of_repairWindowStartMs (h : repairWindowStartMs nowMs latestOrderMs latestExecutionMs
      fallbackLastPrivateMs oldestPendingMs = some startMs) :
    ∃ anchor ∈ [latestOrderMs, latestExecutionMs, oldestPendingMs,
        fallbackLastPrivateMs].filterMap id,
      (∀ oldest, oldestPendingMs = some oldest → anchor ≤ oldest) ∧
      startMs = min (max (saturatingSub anchor historyRepairRewindMs)
        (saturatingSub nowMs historyRepairMaxLookbackMs)) nowMs := by
  unfold repairWindowStartMs at h
  rw [Option.bind_eq_bind, Option.bind_eq_some_iff] at h
  obtain ⟨anchor, hanchor, hstart⟩ := h
  refine ⟨anchor, mem_anchors hanchor, fun oldest holdest => ?_, (Option.some.inj hstart).symm⟩
  subst holdest
  obtain ⟨earliest, hmin, hle⟩ := exists_earliest latestOrderMs latestExecutionMs oldest
  rw [hmin] at hanchor
  obtain rfl := Option.some.inj hanchor
  exact hle

theorem exists_oldestPending {command : PendingUnknownCommand} (hmem : command ∈ pending) :
    ∃ oldest, oldestPending pending = some oldest ∧ oldest ≤ command.recordedAt :=
  exists_min? (List.mem_map_of_mem hmem)

/-- Where the window of an anchor begins. -/
theorem toInt_start (hstart : startMs = min (max (saturatingSub anchor historyRepairRewindMs)
      (saturatingSub nowMs historyRepairMaxLookbackMs)) nowMs) :
    startMs.toInt = clampLow (windowStart nowMs.toInt anchor.toInt) := by
  have hlow := nowMs.le_toInt
  rw [hstart, toInt_min, toInt_max, toInt_saturatingSub _ rewind_nonneg,
    toInt_saturatingSub _ lookback_nonneg]
  unfold windowStart clampLow
  omega

/-- The window of an anchor covers the commands that were recorded after the anchor. -/
theorem windowCovers_of_anchor (hstart : startMs = min (max (saturatingSub anchor
      historyRepairRewindMs) (saturatingSub nowMs historyRepairMaxLookbackMs)) nowMs)
    (hrecorded : ∀ command ∈ pending, anchor ≤ command.recordedAt) :
    WindowCovers nowMs startMs pending := by
  have hexact := toInt_start hstart
  have hbound := toInt_saturatingSub nowMs lookback_nonneg
  have hlow := nowMs.le_toInt
  have hlookback := lookback_nonneg
  unfold clampLow windowStart at hexact
  unfold clampLow at hbound
  refine ⟨?_, ?_, fun command hcommand => ?_⟩
  · rw [Int64.le_iff_toInt_le, hbound]
    omega
  · rw [Int64.le_iff_toInt_le]
    omega
  · have hle := Int64.le_iff_toInt_le.1 (hrecorded command hcommand)
    -- the window begins a minute before the anchor, unless the bound is later than that
    rw [← Int64.toInt_inj, hbound]
    omega

/-- The anchor of a window, which is not after any pending command. -/
theorem exists_anchor (h : repairWindowStartMs nowMs latestOrderMs latestExecutionMs
      fallbackLastPrivateMs (oldestPending pending) = some startMs) :
    ∃ anchor ∈ [latestOrderMs, latestExecutionMs, oldestPending pending,
        fallbackLastPrivateMs].filterMap id,
      (∀ command ∈ pending, anchor ≤ command.recordedAt) ∧
      startMs = min (max (saturatingSub anchor historyRepairRewindMs)
        (saturatingSub nowMs historyRepairMaxLookbackMs)) nowMs := by
  obtain ⟨anchor, hmem, hanchor, hstart⟩ := of_repairWindowStartMs h
  refine ⟨anchor, hmem, fun command hcommand => ?_, hstart⟩
  obtain ⟨oldest, holdest, hrecorded⟩ := exists_oldestPending hcommand
  exact Std.le_trans (hanchor oldest holdest) hrecorded

/-- As long as a command is pending there is a window. -/
theorem isSome_repairWindowStartMs (h : pending ≠ []) :
    (repairWindowStartMs nowMs latestOrderMs latestExecutionMs fallbackLastPrivateMs
      (oldestPending pending)).isSome := by
  obtain ⟨command, hcommand⟩ := List.exists_mem_of_ne_nil pending h
  obtain ⟨oldest, holdest, -⟩ := exists_oldestPending hcommand
  obtain ⟨earliest, hmin, -⟩ := exists_earliest latestOrderMs latestExecutionMs oldest
  unfold repairWindowStartMs
  rw [holdest, hmin]
  rfl

/-- What a task gets for the window of an instrument: the time of the call ends it, and it covers
the commands it was asked for. -/
theorem spec_repairTimeWindow (i : InstrumentId) (τ : List (Event RuntimeCall RuntimeReply)) :
    (repairTimeWindow i pending).Spec (fun _ _ => True)
      (fun _ window => (pending ≠ [] → window.isSome) ∧
        ∀ startMs nowMs, window = some (startMs, nowMs) → WindowCovers nowMs startMs pending) τ := by
  refine ⟨trivial, fun nowMs => ⟨trivial, fun (times : Option Int64 × Option Int64) =>
    ⟨trivial, fun (health : HealthReport) => ⟨fun h => ?_, fun startMs endMs h => ?_⟩⟩⟩⟩
  · rw [Option.isSome_map]
    exact isSome_repairWindowStartMs h
  · obtain ⟨start, hstart, hwindow⟩ := Option.map_eq_some_iff.1 h
    obtain ⟨rfl, rfl⟩ := Prod.mk.inj hwindow
    obtain ⟨anchor, -, hanchor, hstart⟩ := exists_anchor hstart
    exact windowCovers_of_anchor hstart hanchor

/-- **The window covers what it must.**  Whatever the clock and the times of the records are, and
also for commands that are older than the window or in the future.  It begins where it does in exact
numbers for one of the times, so nothing has wrapped around. -/
theorem repair_window_covers (h : repairWindowStartMs nowMs latestOrderMs latestExecutionMs
      fallbackLastPrivateMs (oldestPending pending) = some startMs) :
    WindowCovers nowMs startMs pending ∧
      ∃ anchor ∈ [latestOrderMs, latestExecutionMs, oldestPending pending,
        fallbackLastPrivateMs].filterMap id,
        startMs.toInt = clampLow (windowStart nowMs.toInt anchor.toInt) := by
  obtain ⟨anchor, hmem, hanchor, hstart⟩ := exists_anchor h
  exact ⟨windowCovers_of_anchor hstart hanchor, anchor, hmem, toInt_start hstart⟩

/-- A command recorded an hour ago, when the last order is two days old. -/
theorem repair_window_covers_hour :
    repairWindowStartMs 1000000000 (some 827200000) none none
        (oldestPending [⟨.createOrder, ⟨"BTC/USDT:USDT"⟩, none, none, 996400000⟩]) =
      some 827140000 ∧
    WindowCovers 1000000000 827140000
      [⟨.createOrder, ⟨"BTC/USDT:USDT"⟩, none, none, 996400000⟩] := by
  have h : repairWindowStartMs 1000000000 (some 827200000) none none
      (oldestPending [⟨.createOrder, ⟨"BTC/USDT:USDT"⟩, none, none, 996400000⟩]) =
      some 827140000 := by decide
  exact ⟨h, (repair_window_covers h).1⟩

end BatMarkets
