import BatMarkets.Core.State

/-!
# Reconcile modes and reports

What a reconcile of the private state decides from what it knows (`runtime.rs`): whether a snapshot
is enough or the recent history has to be repaired, and which report it makes in the end.
`reconcileOps` is what it writes to the engine state when it ends, and `reconcileHealthOps` what
that does to the health report.
-/

namespace BatMarkets

/-- How much a reconcile repairs. -/
inductive PrivateReconcileMode
  | snapshotOnly
  | recentHistoryRepair
  deriving DecidableEq, Repr

/-- Whose executions a repair asks for. -/
inductive ExecutionRepairScope
  | pendingUnknownOnly
  | localEvidence
  deriving DecidableEq, Repr

/-- Whether the histories are to be asked for: there are pending commands, or health says so. -/
def needsRecentHistoryRepair (health : HealthReport) (pendingUnknownCount : Nat) : Bool :=
  if 0 < pendingUnknownCount ∨ health.stateDivergence = true then true
  else
    match health.degradedReason with
    | some .privateStreamGap | some .reconcileRequired | some .commandUncertain
    | some .stateDivergence => true
    | _ => false

/-- The mode of a reconcile, from its trigger and, when it is periodic, from the health report and
the number of pending commands. -/
def reconcileMode (trigger : ReconcileTrigger) (health : HealthReport)
    (pendingUnknownCount : Nat) : PrivateReconcileMode :=
  match trigger with
  | .manual | .reconnect | .sequenceGap | .unknownExecution => .recentHistoryRepair
  | .periodic =>
    if needsRecentHistoryRepair health pendingUnknownCount then .recentHistoryRepair
    else .snapshotOnly

/-- Of which instruments the executions are to be asked for, by what has started the reconcile. -/
def executionRepairScope (trigger : ReconcileTrigger) (health : HealthReport) :
    ExecutionRepairScope :=
  match trigger with
  | .manual | .reconnect | .sequenceGap => .localEvidence
  | .unknownExecution => .pendingUnknownOnly
  | .periodic =>
    if health.stateDivergence = true ∨ health.degradedReason = some .privateStreamGap ∨
        health.degradedReason = some .reconcileRequired ∨
        health.degradedReason = some .stateDivergence then
      .localEvidence
    else .pendingUnknownOnly

/-- The report of a reconcile that ended with `result`: an error, or the number of commands that
are still unresolved. -/
def reconcileReport (trigger : ReconcileTrigger) (repairedAt : TimestampMs)
    (mode : PrivateReconcileMode) (result : Except MarketError Nat) : ReconcileReport :=
  match result with
  | .ok 0 =>
    { trigger, outcome := .synchronized, repairedAt
      note := some (match mode with
        | .snapshotOnly => "snapshot reconcile completed"
        | .recentHistoryRepair => "snapshot reconcile with recent-history repair completed") }
  | .ok unresolved =>
    { trigger, outcome := .stillUncertain, repairedAt
      note := some (toString unresolved ++ " pending command outcomes still unresolved") }
  | .error _ =>
    { trigger, outcome := .stillUncertain, repairedAt, note := some "snapshot reconcile failed" }

/-- What a reconcile writes to the engine state when it ends. -/
def reconcileOps (snapshotStaleAfterMs : UInt64) (report : ReconcileReport)
    (result : Except MarketError Nat) : List EngineOp :=
  match result with
  | .ok _ => [.applyReconcileReport report]
  | .error _ =>
    [.applyReconcileReport report, .markSnapshotAge snapshotStaleAfterMs snapshotStaleAfterMs]

/-- What the end of a reconcile does to the health report. -/
def reconcileHealthOps (snapshotStaleAfterMs : UInt64) :
    Except MarketError Nat → List HealthOp
  | .ok 0 => [.markReconcileComplete]
  | .ok (_ + 1) => [.markReconcileRequired]
  | .error _ => [.markReconcileRequired, .markSnapshotAge snapshotStaleAfterMs snapshotStaleAfterMs]

/-- Whether the reason alone asks for a repair of the recent history. -/
def DegradedReason.AsksRepair (reason : Option DegradedReason) : Prop :=
  reason = some .privateStreamGap ∨ reason = some .reconcileRequired ∨
    reason = some .commandUncertain ∨ reason = some .stateDivergence

theorem needsRecentHistoryRepair_iff {health : HealthReport} {n : Nat} :
    needsRecentHistoryRepair health n = true ↔
      0 < n ∨ health.stateDivergence = true ∨
        DegradedReason.AsksRepair health.degradedReason := by
  unfold needsRecentHistoryRepair DegradedReason.AsksRepair
  split
  · next h => simp [← or_assoc, h]
  · next h =>
    rw [not_or] at h
    simp only [h.1, h.2, false_or]
    cases health.degradedReason with
    | none => simp
    | some reason => cases reason <;> simp

end BatMarkets
