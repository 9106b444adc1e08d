import BatMarkets.Runtime.Reconcile

/-!
# The obligation to repair the recent history

A private sequence gap, a required reconcile, an uncertain command or a divergence means that the
private state may have missed something, and obliges the engine to repair the recent history.  The
obligation is met by a reconcile that ran in that mode and ended synchronized, as far as it was
recorded before that reconcile began; what is recorded while it waits for replies is still owed.

`RepairState` runs the operations of the health report together with any number of overlapping
reconciles, and counts with two ghost counters what was `recorded` and what is `covered`.  The
engine itself remembers the obligation in the flag and the reason of its health report only, which
is what `needsRecentHistoryRepair` looks at.

## Main results

* `keepsObligation_iff` : one step forgets an obligation exactly when it breaks `KeepsObligation`.
* `repair_obligation_iff` : in every run, the engine knows of the obligation in all states exactly
  when all steps meet `KeepsObligation`.
-/

namespace BatMarkets

open Transition

/-- A reconcile that has chosen its mode and is waiting for replies. -/
structure ReconcileAttempt where
  mode : PrivateReconcileMode
  /-- What was recorded when it began. -/
  seen : Nat
  deriving DecidableEq, Repr

/-- The health report, the reconciles under way and the obligation. -/
structure RepairState where
  health : HealthReport
  attempts : List ReconcileAttempt := []
  /-- How many causes of a repair have been recorded. -/
  recorded : Nat := 0
  /-- How many of them a completed repair covers. -/
  covered : Nat := 0

/-- One step of the private lane. -/
inductive RepairOp
  /-- An operation on the health report; only a reconcile reports that it is complete. -/
  | health (op : HealthOp) (hop : op ≠ .markReconcileComplete)
  /-- A reconcile begins and chooses its mode. -/
  | start (trigger : ReconcileTrigger) (pendingUnknownCount : Nat)
  /-- Reconcile `i` ends: its requests failed, or left that many commands unresolved. -/
  | finish (i : Nat) (result : Except MarketError Nat)

/-- The operations that record a cause of a repair. -/
def HealthOp.Records : HealthOp → Bool
  | .markPrivateGap | .markReconcileRequired | .markCommandUncertain | .markStateDivergence => true
  | _ => false

/-- How a reconcile ends: one that only takes a snapshot resolves no commands. -/
def ReconcileAttempt.result (a : ReconcileAttempt) (result : Except MarketError Nat) :
    Except MarketError Nat :=
  match a.mode with
  | .snapshotOnly => (fun _ => 0) <$> result
  | .recentHistoryRepair => result

/-- The number of causes that are covered when the reconcile ends with `result`. -/
def ReconcileAttempt.covers (a : ReconcileAttempt) (covered : Nat) :
    Except MarketError Nat → Nat
  | .ok 0 => if a.mode = .recentHistoryRepair then max covered a.seen else covered
  | _ => covered

namespace RepairState

/-- A cause has been recorded that no completed repair covers. -/
def Owed (s : RepairState) : Prop := s.covered < s.recorded

/-- The engine knows that a repair is owed, whatever is pending. -/
def Remembers (s : RepairState) : Prop :=
  s.Owed → ∀ n, needsRecentHistoryRepair s.health n = true

/-- One step.  `reportsRecord` says whether a report that the state is still uncertain counts as a
recorded cause of its own. -/
def next (reportsRecord : Bool) (snapshotStaleAfterMs : UInt64) (s : RepairState) :
    RepairOp → RepairState
  | .health op _ =>
    { s with
      health := op.apply s.health
      recorded := s.recorded + if op.Records then 1 else 0 }
  | .start trigger pendingUnknownCount =>
    { s with
      attempts := s.attempts ++ [⟨reconcileMode trigger s.health pendingUnknownCount, s.recorded⟩] }
  | .finish i result =>
    match s.attempts[i]? with
    | none => s
    | some a =>
      let result := a.result result
      { health := (reconcileHealthOps snapshotStaleAfterMs result).foldl HealthOp.apply s.health
        attempts := s.attempts.eraseIdx i
        recorded := s.recorded +
          if reportsRecord ∧ result.toOption ≠ some 0 then 1 else 0
        covered := a.covers s.covered result }

end RepairState

/-! ### What the health report remembers -/

namespace HealthReport

/-- The report asks for a repair of the recent history. -/
def AsksRepair (h : HealthReport) : Prop :=
  h.stateDivergence = true ∨ DegradedReason.AsksRepair h.degradedReason

theorem forall_needsRecentHistoryRepair_iff {h : HealthReport} :
    (∀ n, needsRecentHistoryRepair h n = true) ↔ h.AsksRepair := by
  simp only [needsRecentHistoryRepair_iff, AsksRepair]
  exact ⟨fun hn => (hn 0).resolve_left (Nat.lt_irrefl 0), fun hr _ => .inr hr⟩

/-- The call does not overwrite a reason that asks for a repair. -/
def SparesReason (h : HealthReport) : HealthOp → Prop
  | .observePublicMessage _ =>
    h.status = .disconnected ∨ h.status = .degradedPublicStream ∨ h.status = .readOnlySafe →
      h.degradedReason = some .reconcileRequired ∨ h.degradedReason = some .commandUncertain ∨
        h.degradedReason = some .stateDivergence
  | .observePrivateMessage _ =>
    ¬ (h.status = .disconnected ∨ h.status = .degradedPrivateStream ∨ h.status = .readOnlySafe)
  | .observeRestSuccess _ => h.status ≠ .disconnected
  | .markPublicDisconnect | .markPublicGap => False
  | .markPrivateDisconnect => h.wsPublicOk = true ∨ h.restOk = true
  | .markSnapshotAge ageMs staleAfterMs =>
    staleAfterMs ≤ ageMs →
      h.degradedReason = some .commandUncertain ∨ h.degradedReason = some .stateDivergence
  | _ => True

theorem asksRepair_of_records (h : HealthReport) {op : HealthOp} (hop : op.Records = true) :
    (op.apply h).AsksRepair := by
  cases op <;> simp_all [HealthOp.Records, HealthOp.apply, AsksRepair, DegradedReason.AsksRepair,
    markPrivateGap, markReconcileRequired, markCommandUncertain, markStateDivergence]

/-- With a divergence flagged, every call keeps asking for a repair. -/
theorem asksRepair_of_stateDivergence {h : HealthReport} {op : HealthOp}
    (hd : h.stateDivergence = true) (hop : op ≠ .markReconcileComplete) :
    (op.apply h).AsksRepair :=
  .inl (stateDivergence_apply hd hop)

/-- Without a flagged divergence, a call that records nothing keeps asking for a repair exactly
when it spares the reason. -/
theorem asksRepair_apply_iff {h : HealthReport} {op : HealthOp} (hd : h.stateDivergence = false)
    (ha : DegradedReason.AsksRepair h.degradedReason) (hop : op ≠ .markReconcileComplete)
    (hr : op.Records = false) : (op.apply h).AsksRepair ↔ h.SparesReason op := by
  unfold AsksRepair SparesReason
  -- each operation keeps the reason unless it heals it or names another one
  cases op with
  | markReconcileComplete => exact absurd rfl hop
  | markPrivateGap | markReconcileRequired | markCommandUncertain | markStateDivergence =>
    exact absurd hr (by decide)
  | markReconnect => exact iff_of_true (.inr ha) trivial
  | observePublicMessage t =>
    simp only [HealthOp.apply, observePublicMessage]
    split
    · next hif =>
      simp only [hd, Bool.false_eq_true, DegradedReason.AsksRepair, reduceCtorEq, or_self, hif.1,
        hif.2.2, imp_false, not_true_eq_false]
    · next hif => exact iff_of_true (.inr ha) fun hs => not_not.1 fun hn => hif ⟨hs, hd, hn⟩
  | observePrivateMessage t =>
    simp only [HealthOp.apply, observePrivateMessage]
    split
    · next hif =>
      simp only [hd, Bool.false_eq_true, DegradedReason.AsksRepair, reduceCtorEq, or_self, hif,
        not_true_eq_false]
    · next hif => exact iff_of_true (.inr ha) hif
  | observeRestSuccess c =>
    simp only [HealthOp.apply, observeRestSuccess]
    split
    · next hif =>
      simp only [hd, Bool.false_eq_true, DegradedReason.AsksRepair, reduceCtorEq, or_self, hif, ne_eq,
        not_true_eq_false]
    · next hif => exact iff_of_true (.inr ha) hif
  | markPublicDisconnect =>
    simp only [HealthOp.apply, markPublicDisconnect]
    split <;>
      simp only [hd, Bool.false_eq_true, DegradedReason.AsksRepair, Option.some.injEq, reduceCtorEq,
        or_self]
  | markPublicGap =>
    simp only [HealthOp.apply, markPublicGap, hd, Bool.false_eq_true, DegradedReason.AsksRepair,
      Option.some.injEq, reduceCtorEq, or_self]
  | markPrivateDisconnect =>
    simp only [HealthOp.apply, markPrivateDisconnect]
    split
    · next hif => exact iff_of_true (.inr (.inl rfl)) hif
    · next hif =>
      simp only [hd, Bool.false_eq_true, DegradedReason.AsksRepair, Option.some.injEq, reduceCtorEq,
        or_self, hif]
  | markSnapshotAge a s =>
    simp only [HealthOp.apply, markSnapshotAge]
    split
    · next hif =>
      simp only [hd, Bool.false_eq_true, DegradedReason.AsksRepair, Option.some.injEq, reduceCtorEq,
        or_self, hif.1, hif.2, imp_false, not_true_eq_false]
    · next hif => exact iff_of_true (.inr ha) fun hs => not_not.1 fun hn => hif ⟨hs, hn⟩

end HealthReport

/-! ### What one step does, and what a run does -/

/-- The end of a reconcile does not make the report forget a repair that is still owed: what is
left owed by a synchronized one is remembered only as a private gap of an engine with nothing but
public data, and a failed one is remembered only through the divergence flag. -/
def ReconcileAttempt.EndsRemembering (a : ReconcileAttempt) (reportsRecord : Bool)
    (s : RepairState) : Except MarketError Nat → Prop
  | .ok 0 => a.covers s.covered (.ok 0) < s.recorded →
      s.health.wsPublicOk = true ∧ s.health.wsPrivateOk = false ∧ s.health.restOk = false
  | .ok (_ + 1) => True
  | .error _ => s.Owed ∨ reportsRecord = true → s.health.stateDivergence = true

theorem ReconcileAttempt.covers_le (a : ReconcileAttempt) {covered recorded : Nat}
    (hcov : covered ≤ recorded) (hseen : a.seen ≤ recorded) (result : Except MarketError Nat) :
    a.covers covered result ≤ recorded := by
  unfold ReconcileAttempt.covers
  split
  · split
    · exact Nat.max_le.2 ⟨hcov, hseen⟩
    · exact hcov
  · exact hcov

namespace RepairState

instance (s : RepairState) : Decidable s.Owed := inferInstanceAs (Decidable (_ < _))

/-- The condition under which a step keeps the obligation known. -/
def KeepsObligation (reportsRecord : Bool) (s : RepairState) : RepairOp → Prop
  | .health op _ => s.Owed → s.health.stateDivergence = false → s.health.SparesReason op
  | .start _ _ => True
  | .finish i result =>
    match s.attempts[i]? with
    | none => True
    | some a => a.EndsRemembering reportsRecord s (a.result result)

/-- What is covered, now or by a reconcile under way, has been recorded. -/
def WellFormed (s : RepairState) : Prop :=
  s.covered ≤ s.recorded ∧ ∀ a ∈ s.attempts, a.seen ≤ s.recorded

variable {reportsRecord : Bool} {snapshotStaleAfterMs : UInt64} {s : RepairState}

theorem remembers_iff : s.Remembers ↔ (s.Owed → s.health.AsksRepair) := by
  unfold Remembers
  rw [HealthReport.forall_needsRecentHistoryRepair_iff]

theorem WellFormed.next (hw : s.WellFormed) (op : RepairOp) :
    (next reportsRecord snapshotStaleAfterMs s op).WellFormed := by
  obtain ⟨hcov, hseen⟩ := hw
  cases op with
  | health op hop =>
    exact ⟨Nat.le_add_right_of_le hcov, fun a ha => Nat.le_add_right_of_le (hseen a ha)⟩
  | start trigger n =>
    refine ⟨hcov, fun a ha => ?_⟩
    rcases List.mem_append.1 ha with ha | ha
    · exact hseen a ha
    · rw [List.mem_singleton.1 ha]
      exact Nat.le_refl _
  | finish i result =>
    cases hi : s.attempts[i]? with
    | none =>
      simp only [RepairState.next, hi]
      exact ⟨hcov, hseen⟩
    | some a =>
      simp only [RepairState.next, hi]
      have ha : a.seen ≤ s.recorded := hseen a (List.mem_of_getElem? hi)
      refine ⟨?_, fun b hb => ?_⟩
      · exact Nat.le_add_right_of_le (a.covers_le hcov ha _)
      · exact Nat.le_add_right_of_le (hseen b (List.mem_of_mem_eraseIdx hb))

/-- A call on the health report. -/
theorem Remembers.health_iff (hs : s.Remembers) (op : HealthOp) (hop : op ≠ .markReconcileComplete) :
    (next reportsRecord snapshotStaleAfterMs s (.health op hop)).Remembers ↔
      s.KeepsObligation reportsRecord (.health op hop) := by
  rw [remembers_iff] at hs ⊢
  by_cases hr : op.Records = true
  · -- a new cause is recorded, and the report names it
    refine iff_of_true (fun _ => s.health.asksRepair_of_records hr) fun _ _ => ?_
    cases op <;> trivial
  · have hr : op.Records = false := by simpa using hr
    have howed : (next reportsRecord snapshotStaleAfterMs s (.health op hop)).Owed ↔ s.Owed := by
      simp [next, Owed, hr]
    rw [howed]
    refine forall_congr' fun ho => ?_
    cases hd : s.health.stateDivergence with
    | true => exact iff_of_true (HealthReport.asksRepair_of_stateDivergence hd hop) nofun
    | false =>
      have ha : DegradedReason.AsksRepair s.health.degradedReason :=
        (hs ho).resolve_left (by simp [hd])
      exact (HealthReport.asksRepair_apply_iff hd ha hop hr).trans (by simp)

/-- What the end of a reconcile leaves in the report. -/
theorem asksRepair_reconcileHealthOps (h : HealthReport) (result : Except MarketError Nat) :
    ((reconcileHealthOps snapshotStaleAfterMs result).foldl HealthOp.apply h).AsksRepair ↔
      match result with
      | .ok 0 => h.wsPublicOk = true ∧ h.wsPrivateOk = false ∧ h.restOk = false
      | .ok (_ + 1) => True
      | .error _ => h.stateDivergence = true := by
  match result with
  | .ok 0 =>
    simp only [reconcileHealthOps, List.foldl_cons, List.foldl_nil, HealthOp.apply,
      HealthReport.markReconcileComplete]
    split
    · next hif =>
      refine iff_of_false (by simp [HealthReport.AsksRepair, DegradedReason.AsksRepair]) ?_
      rintro ⟨-, hpriv, hrest⟩
      simp [hpriv, hrest] at hif
    · next hif =>
      split
      · next hpub => exact iff_of_true (.inr (.inl rfl)) (by simpa [hpub] using hif)
      · next hpub =>
        refine iff_of_false (by simp [HealthReport.AsksRepair, DegradedReason.AsksRepair]) ?_
        exact fun hr => hpub hr.1
  | .ok (n + 1) => exact iff_of_true (.inr (.inr (.inl rfl))) trivial
  | .error e =>
    simp [reconcileHealthOps, HealthOp.apply, HealthReport.markReconcileRequired,
      HealthReport.markSnapshotAge, HealthReport.AsksRepair, DegradedReason.AsksRepair]

theorem Remembers.finish_iff (hw : s.WellFormed) (hs : s.Remembers) (i : Nat)
    (result : Except MarketError Nat) :
    (next reportsRecord snapshotStaleAfterMs s (.finish i result)).Remembers ↔
      s.KeepsObligation reportsRecord (.finish i result) := by
  cases ha : s.attempts[i]? with
  | none =>
    have hnext : next reportsRecord snapshotStaleAfterMs s (.finish i result) = s := by
      simp only [next, ha]
    rw [hnext]
    simp only [KeepsObligation, ha, iff_true]
    exact hs
  | some a =>
    rw [remembers_iff]
    simp only [next, KeepsObligation, ha, asksRepair_reconcileHealthOps, Owed]
    generalize a.result result = r
    match r with
    | .ok 0 => simp [ReconcileAttempt.EndsRemembering, Except.toOption]
    | .ok (n + 1) => simp [ReconcileAttempt.EndsRemembering]
    | .error e =>
      have hcov := hw.1
      refine imp_congr ?_ Iff.rfl
      cases reportsRecord <;> simp [Except.toOption, ReconcileAttempt.covers, Owed]
      omega

/-- What one step does to the knowledge of the obligation. -/
theorem keepsObligation_iff (hw : s.WellFormed) (hs : s.Remembers) (op : RepairOp) :
    (next reportsRecord snapshotStaleAfterMs s op).Remembers ↔
      s.KeepsObligation reportsRecord op := by
  cases op with
  | health op hop => exact hs.health_iff op hop
  | start trigger n => exact iff_of_true hs trivial
  | finish i result => exact hs.finish_iff hw i result

/-- **The obligation to repair is never lost, exactly.**  In a run from a state in which nothing is
owed, the engine knows in all states that a repair is owed whenever one is, exactly when all steps
meet `KeepsObligation`; and then a periodic reconcile never settles for a snapshot while a repair
is owed. -/
theorem repair_obligation_iff (reportsRecord : Bool) (snapshotStaleAfterMs : UInt64)
    (health : HealthReport) (ops : List RepairOp) :
    ((∀ s, Visited (next reportsRecord snapshotStaleAfterMs) { health } ops s → s.Remembers) ↔
        StepsMeet (next reportsRecord snapshotStaleAfterMs) (KeepsObligation reportsRecord)
          { health } ops) ∧
      (StepsMeet (next reportsRecord snapshotStaleAfterMs) (KeepsObligation reportsRecord)
          { health } ops →
        ∀ s, Visited (next reportsRecord snapshotStaleAfterMs) { health } ops s → s.Owed →
          ∀ n, reconcileMode .periodic s.health n = .recentHistoryRepair) := by
  have hwell : WellFormed { health } := ⟨Nat.le_refl 0, nofun⟩
  have hnothing : Remembers { health } := fun ho => absurd ho (Nat.lt_irrefl 0)
  have hiff : _ ↔ StepsMeet (next reportsRecord snapshotStaleAfterMs)
      (KeepsObligation reportsRecord) { health } ops :=
    forall_visited_iff_stepsMeet (I := WellFormed) (P := Remembers) (fun _ op hw => hw.next op)
      (fun _ op hw hs => keepsObligation_iff hw hs op) hwell hnothing
  refine ⟨hiff, fun hmeet s hs ho n => ?_⟩
  simp only [reconcileMode, hiff.2 hmeet s hs ho n, if_true]

/-- A gap that a failed reconcile was meant to repair is forgotten. -/
theorem failed_reconcile_forgets_gap :
    ¬ ∀ (snapshotStaleAfterMs : UInt64) (health : HealthReport) (ops : List RepairOp),
      (run (next false snapshotStaleAfterMs) { health } ops).Remembers := by
  intro h
  have hneeds := h 5000 {} [.health .markPrivateGap nofun, .start .sequenceGap 0,
    .finish 0 (.error { kind := .timeout, message := "timeout" })] (by decide) 0
  exact absurd hneeds (by decide)

end RepairState
end BatMarkets
