import BatMarkets.Core.Types
import BatMarkets.Transition.Basic

/-!
# Engine health

`HealthReport` (`health.rs`) summarises the health of the engine in a status, a reason and a few
flags, which thirteen operations rewrite.  `HealthOp` is one call of one of them, so that a list of
them is a history of the report.

## Main results

* `HealthReport.Consistent.apply` : whatever is called, the report is healthy exactly when it gives
  no reason for being degraded.
* `HealthReport.divergence_unmasked_iff` : a history keeps an unresolved divergence visible exactly
  when neither the private message observer nor the REST observer is called, with a divergence
  unresolved, in a status that it turns into `healthy`.
-/

namespace BatMarkets

open Transition

/-- Stable engine health state. -/
inductive HealthStatus
  | healthy
  | degradedPublicStream
  | degradedPrivateStream
  | reconcileRequired
  | commandUncertain
  | readOnlySafe
  | disconnected
  deriving DecidableEq, Repr

/-- Why the engine entered a degraded mode. -/
inductive DegradedReason
  | publicStreamGap
  | privateStreamGap
  | reconcileRequired
  | commandUncertain
  | snapshotStale
  | stateDivergence
  | disconnected
  deriving DecidableEq, Repr

/-- Cheap snapshot of engine health.  The defaults are those of a new engine. -/
structure HealthReport where
  status : HealthStatus := .disconnected
  restOk : Bool := false
  wsPublicOk : Bool := false
  wsPrivateOk : Bool := false
  clockSkewMs : Option Int64 := none
  lastPublicMsgAt : Option TimestampMs := none
  lastPrivateMsgAt : Option TimestampMs := none
  reconnectCount : UInt64 := 0
  snapshotAgeMs : Option UInt64 := none
  stateDivergence : Bool := false
  degradedReason : Option DegradedReason := some .disconnected
  deriving DecidableEq, Repr

/-- Emitted when the health snapshot changes. -/
structure HealthNotification where
  previous : HealthReport
  current : HealthReport
  deriving DecidableEq, Repr

namespace HealthReport

/-- The report of a new engine. -/
def default : HealthReport := {}

/-- A public message heals what a lost stream has done, but nothing that needs a reconcile. -/
def observePublicMessage (h : HealthReport) (timestamp : TimestampMs) : HealthReport :=
  let h := { h with lastPublicMsgAt := some timestamp, wsPublicOk := true }
  if (h.status = .disconnected ∨ h.status = .degradedPublicStream ∨ h.status = .readOnlySafe) ∧
      h.stateDivergence = false ∧
      ¬ (h.degradedReason = some .reconcileRequired ∨ h.degradedReason = some .commandUncertain ∨
        h.degradedReason = some .stateDivergence) then
    { h with status := .healthy, degradedReason := none }
  else h

/-- A private message heals what a lost stream has done. -/
def observePrivateMessage (h : HealthReport) (timestamp : TimestampMs) : HealthReport :=
  let h := { h with lastPrivateMsgAt := some timestamp, wsPrivateOk := true }
  -- unlike the public observer, this one looks at the status only
  if h.status = .disconnected ∨ h.status = .degradedPrivateStream ∨ h.status = .readOnlySafe then
    { h with status := .healthy, degradedReason := none }
  else h

/-- A request that succeeds ends the state of being disconnected. -/
def observeRestSuccess (h : HealthReport) (clockSkewMs : Option Int64) : HealthReport :=
  let h := { h with restOk := true, clockSkewMs := clockSkewMs.or h.clockSkewMs }
  if h.status = .disconnected then { h with status := .healthy, degradedReason := none } else h

/-- The loss of the public stream degrades a client that still has another way to the venue. -/
def markPublicDisconnect (h : HealthReport) : HealthReport :=
  let h := { h with wsPublicOk := false }
  if h.wsPrivateOk ∨ h.restOk then
    { h with status := .degradedPublicStream, degradedReason := some .publicStreamGap }
  else
    { h with status := .disconnected, degradedReason := some .disconnected }

/-- Something is missing from the public stream. -/
def markPublicGap (h : HealthReport) : HealthReport :=
  { h with
    status := .degradedPublicStream, wsPublicOk := false, degradedReason := some .publicStreamGap }

/-- Without the private stream a client that has another way to the venue may only read. -/
def markPrivateDisconnect (h : HealthReport) : HealthReport :=
  let h := { h with wsPrivateOk := false }
  if h.wsPublicOk ∨ h.restOk then
    { h with status := .readOnlySafe, degradedReason := some .privateStreamGap }
  else
    { h with status := .disconnected, degradedReason := some .disconnected }

/-- Something is missing from the private stream, which takes a reconcile to repair. -/
def markPrivateGap (h : HealthReport) : HealthReport :=
  { h with
    status := .reconcileRequired, wsPrivateOk := false, degradedReason := some .privateStreamGap }

/-- A snapshot that is too old asks for a reconcile, unless one is asked for on better grounds. -/
def markSnapshotAge (h : HealthReport) (ageMs staleAfterMs : UInt64) : HealthReport :=
  let h := { h with snapshotAgeMs := some ageMs }
  if staleAfterMs ≤ ageMs ∧
      ¬ (h.degradedReason = some .commandUncertain ∨ h.degradedReason = some .stateDivergence) then
    { h with status := .reconcileRequired, degradedReason := some .snapshotStale }
  else h

/-- The number of reconnects, which starts over after the greatest one. -/
def markReconnect (h : HealthReport) : HealthReport :=
  { h with reconnectCount := h.reconnectCount + 1 }

/-- A reconcile is asked for. -/
def markReconcileRequired (h : HealthReport) : HealthReport :=
  { h with status := .reconcileRequired, degradedReason := some .reconcileRequired }

/-- The outcome of a command is open. -/
def markCommandUncertain (h : HealthReport) : HealthReport :=
  { h with status := .commandUncertain, degradedReason := some .commandUncertain }

/-- The state has been found to differ from the venue. -/
def markStateDivergence (h : HealthReport) : HealthReport :=
  { h with
    status := .reconcileRequired, stateDivergence := true,
    degradedReason := some .stateDivergence }

/-- After a reconcile the streams alone decide about the status. -/
def markReconcileComplete (h : HealthReport) : HealthReport :=
  let h := { h with stateDivergence := false, snapshotAgeMs := some 0 }
  if h.wsPublicOk ∧ (h.wsPrivateOk ∨ h.restOk) then
    { h with status := .healthy, degradedReason := none }
  else if h.wsPublicOk then
    { h with status := .readOnlySafe, degradedReason := some .privateStreamGap }
  else
    { h with status := .disconnected, degradedReason := some .disconnected }

end HealthReport

/-! ### Histories -/

/-- One call of an operation of `HealthReport`. -/
inductive HealthOp
  | observePublicMessage (timestamp : TimestampMs)
  | observePrivateMessage (timestamp : TimestampMs)
  | observeRestSuccess (clockSkewMs : Option Int64)
  | markPublicDisconnect
  | markPublicGap
  | markPrivateDisconnect
  | markPrivateGap
  | markSnapshotAge (ageMs staleAfterMs : UInt64)
  | markReconnect
  | markReconcileRequired
  | markCommandUncertain
  | markStateDivergence
  | markReconcileComplete
  deriving DecidableEq, Repr

/-- The report after the call. -/
def HealthOp.apply (h : HealthReport) : HealthOp → HealthReport
  | observePublicMessage timestamp => h.observePublicMessage timestamp
  | observePrivateMessage timestamp => h.observePrivateMessage timestamp
  | observeRestSuccess clockSkewMs => h.observeRestSuccess clockSkewMs
  | markPublicDisconnect => h.markPublicDisconnect
  | markPublicGap => h.markPublicGap
  | markPrivateDisconnect => h.markPrivateDisconnect
  | markPrivateGap => h.markPrivateGap
  | markSnapshotAge ageMs staleAfterMs => h.markSnapshotAge ageMs staleAfterMs
  | markReconnect => h.markReconnect
  | markReconcileRequired => h.markReconcileRequired
  | markCommandUncertain => h.markCommandUncertain
  | markStateDivergence => h.markStateDivergence
  | markReconcileComplete => h.markReconcileComplete

namespace HealthReport

/-- The report is healthy exactly when it gives no reason for being degraded. -/
def Consistent (h : HealthReport) : Prop := h.status = .healthy ↔ h.degradedReason = none

/-- A healthy report has no unresolved divergence. -/
def Unmasked (h : HealthReport) : Prop := h.status = .healthy → h.stateDivergence = false

/-- The condition under which a call keeps a divergence visible: the two observers that do not
look at it are not called, while it is unresolved, in a status that they turn into `healthy`. -/
def KeepsDivergence (h : HealthReport) : HealthOp → Prop
  | .observePrivateMessage _ =>
    h.stateDivergence = true →
      ¬ (h.status = .disconnected ∨ h.status = .degradedPrivateStream ∨ h.status = .readOnlySafe)
  | .observeRestSuccess _ => h.stateDivergence = true → h.status ≠ .disconnected
  | _ => True

/-- **Healthy means no reason**, whatever is called. -/
theorem Consistent.apply {h : HealthReport} (hc : h.Consistent) (op : HealthOp) :
    (op.apply h).Consistent := by
  unfold Consistent at *
  cases op with
  | observePublicMessage t =>
    simp only [HealthOp.apply, observePublicMessage]
    split <;> simp [hc]
  | observePrivateMessage t =>
    simp only [HealthOp.apply, observePrivateMessage]
    split <;> simp [hc]
  | observeRestSuccess c =>
    simp only [HealthOp.apply, observeRestSuccess]
    split <;> simp [hc]
  | markPublicDisconnect =>
    simp only [HealthOp.apply, markPublicDisconnect]
    split <;> simp
  | markPrivateDisconnect =>
    simp only [HealthOp.apply, markPrivateDisconnect]
    split <;> simp
  | markSnapshotAge a s =>
    simp only [HealthOp.apply, markSnapshotAge]
    split <;> simp [hc]
  | markReconcileComplete =>
    simp only [HealthOp.apply, markReconcileComplete]
    split <;> (try split) <;> simp
  | markReconnect => exact hc
  | markPublicGap | markPrivateGap | markReconcileRequired | markCommandUncertain
  | markStateDivergence =>
    simp [HealthOp.apply, markPublicGap, markPrivateGap, markReconcileRequired,
      markCommandUncertain, markStateDivergence]

/-- What one call does to the visibility of a divergence. -/
theorem Unmasked.apply_iff {h : HealthReport} (hu : h.Unmasked) (op : HealthOp) :
    (op.apply h).Unmasked ↔ h.KeepsDivergence op := by
  unfold Unmasked at *
  cases op with
  | observePublicMessage t =>
    simp only [HealthOp.apply, observePublicMessage, KeepsDivergence, iff_true]
    split
    · next hif => exact fun _ => hif.2.1
    · exact hu
  | observePrivateMessage t =>
    simp only [HealthOp.apply, observePrivateMessage, KeepsDivergence]
    split
    · next hif => simp [hif]
    · next hif => simp [hif]; exact hu
  | observeRestSuccess c =>
    simp only [HealthOp.apply, observeRestSuccess, KeepsDivergence]
    split
    · next hif => simp [hif]
    · next hif => simp [hif]; exact hu
  | markPublicDisconnect =>
    simp only [HealthOp.apply, markPublicDisconnect, KeepsDivergence, iff_true]
    split <;> simp
  | markPrivateDisconnect =>
    simp only [HealthOp.apply, markPrivateDisconnect, KeepsDivergence, iff_true]
    split <;> simp
  | markSnapshotAge a s =>
    simp only [HealthOp.apply, markSnapshotAge, KeepsDivergence, iff_true]
    split
    · simp
    · exact hu
  | markReconcileComplete =>
    simp only [HealthOp.apply, markReconcileComplete, KeepsDivergence, iff_true]
    split <;> (try split) <;> simp
  | markReconnect => exact iff_true_intro hu
  | markPublicGap | markPrivateGap | markReconcileRequired | markCommandUncertain
  | markStateDivergence =>
    simp [HealthOp.apply, markPublicGap, markPrivateGap, markReconcileRequired,
      markCommandUncertain, markStateDivergence, KeepsDivergence]

/-- Only a completed reconcile clears the divergence flag. -/
theorem stateDivergence_apply {h : HealthReport} {op : HealthOp} (hd : h.stateDivergence = true)
    (hop : op ≠ .markReconcileComplete) : (op.apply h).stateDivergence = true := by
  cases op with
  | markReconcileComplete => exact absurd rfl hop
  | observePublicMessage _ | observePrivateMessage _ | observeRestSuccess _
  | markPublicDisconnect | markPrivateDisconnect | markSnapshotAge _ _ =>
    simp only [HealthOp.apply, observePublicMessage, observePrivateMessage, observeRestSuccess,
      markPublicDisconnect, markPrivateDisconnect, markSnapshotAge]
    split <;> exact hd
  | markPublicGap | markPrivateGap | markReconnect | markReconcileRequired
  | markCommandUncertain => exact hd
  | markStateDivergence => rfl

theorem stateDivergence_run {h : HealthReport} {ops : List HealthOp}
    (hd : h.stateDivergence = true) (hops : .markReconcileComplete ∉ ops) :
    (run HealthOp.apply h ops).stateDivergence = true := by
  induction ops generalizing h with
  | nil => exact hd
  | cons op ops ih =>
    rw [List.mem_cons, not_or] at hops
    exact ih (stateDivergence_apply hd (Ne.symm hops.1)) hops.2

/-- **Divergence is never masked, exactly.**  In all the reports of a history, healthy means no
reason and no unresolved divergence exactly when every call of the history meets
`KeepsDivergence`; and then a divergence that no reconcile completes after keeps the report
unhealthy. -/
theorem divergence_unmasked_iff (ops : List HealthOp) :
    ((∀ h, Visited HealthOp.apply default ops h → h.Consistent ∧ h.Unmasked) ↔
        StepsMeet HealthOp.apply KeepsDivergence default ops) ∧
      (StepsMeet HealthOp.apply KeepsDivergence default ops →
        ∀ before after, ops = before ++ .markStateDivergence :: after →
          .markReconcileComplete ∉ after → (run HealthOp.apply default ops).status ≠ .healthy) := by
  have hinit : default.Consistent ∧ default.Unmasked :=
    ⟨by simp [Consistent, default], by simp [Unmasked, default]⟩
  have hiff : (∀ h, Visited HealthOp.apply default ops h → h.Unmasked) ↔
      StepsMeet HealthOp.apply KeepsDivergence default ops :=
    forall_visited_iff_stepsMeet (I := Consistent) (fun _ op hc => hc.apply op)
      (fun _ op _ hu => hu.apply_iff op) hinit.1 hinit.2
  refine ⟨?_, ?_⟩
  · rw [← hiff]
    refine ⟨fun h t ht => (h t ht).2, fun h t ht => ⟨?_, h t ht⟩⟩
    exact ht.invariant (fun _ op hc => hc.apply op) hinit.1
  · rintro hmeet before after rfl hafter hhealthy
    have hd : (run HealthOp.apply default (before ++ .markStateDivergence :: after)).stateDivergence
        = true := by
      rw [run_append, run_cons]
      exact stateDivergence_run rfl hafter
    have hu := hiff.2 hmeet _ (visited_run _ _) hhealthy
    rw [hd] at hu
    cases hu

/-- A private message after a private disconnect hides a divergence. -/
theorem divergence_masked :
    ¬ ∀ ops : List HealthOp,
      (run HealthOp.apply default ops).Consistent ∧ (run HealthOp.apply default ops).Unmasked := by
  intro h
  have hu := (h [.markStateDivergence, .markPrivateDisconnect, .observePrivateMessage 0]).2
  exact absurd (hu rfl) (by decide)

end HealthReport

end BatMarkets
