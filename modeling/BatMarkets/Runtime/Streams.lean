import BatMarkets.Core.Health

/-!
# The reconnect loop of a stream

A stream task (`run_public_stream` and `run_private_stream` of `runtime.rs`) connects, and when a
connection ends with an error that may pass, it marks the stream as disconnected in the health
report and connects again.  Any other error, and any error when the attempts are used up, ends the
task without a mark.

The loop is fed with connections.  A connection comes with all the calls on the health report from
the mark before it, or from the start of the task, to its end: those of the task itself, which
refreshes the metadata or reconciles before it connects again and then observes messages and gaps,
and those of all other tasks, in the order in which they hold the lock.

## Main results

* `LiveStream.dead_apply_iff` : which calls mark a stream as dead, and which keep it so.
* `dead_stream_reported_iff` : a task that ends with an error leaves a report that says so exactly
  when the calls of its last connection do.
-/

namespace BatMarkets

open Transition

/-- The two streams of a client. -/
inductive LiveStream
  | publicStream
  | privateStream
  deriving DecidableEq, Repr

namespace LiveStream

/-- Whether the report counts the stream as alive. -/
def ok (h : HealthReport) : LiveStream → Bool
  | publicStream => h.wsPublicOk
  | privateStream => h.wsPrivateOk

/-- The mark that the loss of the stream leaves. -/
def markDisconnect : LiveStream → HealthOp
  | publicStream => .markPublicDisconnect
  | privateStream => .markPrivateDisconnect

end LiveStream

/-! ### The loop -/

/-- One connection: the calls on the health report since the mark before it, and its result. -/
structure Connection where
  calls : List HealthOp
  result : Except MarketError Unit

section Loop

variable (maxReconnectAttempts : Option UInt32)

/-- Whether a connection that has ended is made again: the error may pass, and there are attempts
left. -/
def shouldReconnect (reconnectAttempt : UInt32) (error : MarketError) : Bool :=
  if error.kind ∈ [.transportError, .timeout, .temporaryUnavailable] then
    match maxReconnectAttempts with
    | some maxAttempts => reconnectAttempt < maxAttempts
    | none => true
  else false

/-- The health report and the result of the task; there is no result while it is still running. -/
def runStream (stream : LiveStream) :
    UInt32 → HealthReport → List Connection → HealthReport × Option (Except MarketError Unit)
  | _, h, [] => (h, none)
  | reconnectAttempt, h, connection :: connections =>
    let h := run HealthOp.apply h connection.calls
    match connection.result with
    | .ok () => (h, some (.ok ()))
    | .error error =>
      if shouldReconnect maxReconnectAttempts reconnectAttempt error then
        runStream stream (reconnectAttempt + 1) (stream.markDisconnect.apply h).markReconnect
          connections
      -- the stream is dead from here on, and nothing is marked
      else (h, some (.error error))

/-- The task of the public stream. -/
def runPublicStream := runStream maxReconnectAttempts .publicStream 0

/-- The task of the private stream. -/
def runPrivateStream := runStream maxReconnectAttempts .privateStream 0

/-- The connections end with errors after which the task connects again. -/
def AllRetried : UInt32 → List Connection → Prop
  | _, [] => True
  | reconnectAttempt, connection :: connections =>
    (∃ e, connection.result = .error e ∧
      shouldReconnect maxReconnectAttempts reconnectAttempt e = true) ∧
      AllRetried (reconnectAttempt + 1) connections

/-- The connection ends with an error after which the task does not connect again. -/
def EndsTask (reconnectAttempt : UInt32) (connection : Connection) : Prop :=
  ∃ e, connection.result = .error e ∧
    shouldReconnect maxReconnectAttempts reconnectAttempt e = false

end Loop

/-- The report when the task connects again after these connections. -/
def reportAfter (stream : LiveStream) (h : HealthReport) (connections : List Connection) :
    HealthReport :=
  connections.foldl
    (fun h c => (stream.markDisconnect.apply (run HealthOp.apply h c.calls)).markReconnect) h

/-! ### Dead streams -/

namespace HealthReport

/-- A public message would make the report healthy. -/
def HealedByPublicMessage (h : HealthReport) : Prop :=
  (h.status = .disconnected ∨ h.status = .degradedPublicStream ∨ h.status = .readOnlySafe) ∧
    h.stateDivergence = false ∧
    ¬ (h.degradedReason = some .reconcileRequired ∨ h.degradedReason = some .commandUncertain ∨
      h.degradedReason = some .stateDivergence)

/-- A private message would make the report healthy. -/
def HealedByPrivateMessage (h : HealthReport) : Prop :=
  h.status = .disconnected ∨ h.status = .degradedPrivateStream ∨ h.status = .readOnlySafe

/-- A completed reconcile would make the report healthy. -/
def HealedByReconcile (h : HealthReport) : Prop :=
  h.wsPublicOk = true ∧ (h.wsPrivateOk = true ∨ h.restOk = true)

/-- A snapshot of this age would make the report ask for a reconcile. -/
def StaleAt (h : HealthReport) (ageMs staleAfterMs : UInt64) : Prop :=
  staleAfterMs ≤ ageMs ∧
    ¬ (h.degradedReason = some .commandUncertain ∨ h.degradedReason = some .stateDivergence)

end HealthReport

namespace LiveStream

/-- The report says that the stream is dead, and is not healthy. -/
def Dead (stream : LiveStream) (h : HealthReport) : Prop :=
  stream.ok h = false ∧ h.status ≠ .healthy

/-- The calls after which the stream is reported dead, whether or not it was before. -/
def MarksDead (stream : LiveStream) (h : HealthReport) : HealthOp → Prop
  | .markPublicDisconnect | .markPublicGap => stream = .publicStream ∨ stream.ok h = false
  | .markPrivateDisconnect | .markPrivateGap => stream = .privateStream ∨ stream.ok h = false
  | .markReconcileRequired | .markCommandUncertain | .markStateDivergence => stream.ok h = false
  | .markSnapshotAge ageMs staleAfterMs => stream.ok h = false ∧ h.StaleAt ageMs staleAfterMs
  | .markReconcileComplete => stream.ok h = false ∧ ¬ h.HealedByReconcile
  | .observePublicMessage _ | .observePrivateMessage _ | .observeRestSuccess _
  | .markReconnect => False

/-- The calls after which a stream that was reported dead still is: no message of its own, and
nothing that finds the report in a state that it turns into `healthy`. -/
def KeepsDead (stream : LiveStream) (h : HealthReport) : HealthOp → Prop
  | .observePublicMessage _ => stream = .privateStream ∧ ¬ h.HealedByPublicMessage
  | .observePrivateMessage _ => stream = .publicStream ∧ ¬ h.HealedByPrivateMessage
  | .observeRestSuccess _ => h.status ≠ .disconnected
  | .markReconcileComplete => ¬ h.HealedByReconcile
  | .markPublicDisconnect | .markPublicGap | .markPrivateDisconnect | .markPrivateGap
  | .markReconcileRequired | .markCommandUncertain | .markStateDivergence | .markSnapshotAge _ _
  | .markReconnect => True

/-- After the calls the stream is reported dead, because one of them marks it so, or it was at the
start, and all those after it keep it so. -/
def LeftDead (stream : LiveStream) (h : HealthReport) (calls : List HealthOp) : Prop :=
  (stream.Dead h ∧ StepsMeet HealthOp.apply stream.KeepsDead h calls) ∨
    SetAndKept HealthOp.apply stream.MarksDead stream.KeepsDead h calls

/-- What one call does to a dead stream. -/
theorem dead_apply_iff (stream : LiveStream) (h : HealthReport) (op : HealthOp) :
    stream.Dead (op.apply h) ↔ stream.MarksDead h op ∨ stream.Dead h ∧ stream.KeepsDead h op := by
  -- an operation revives a stream only where it heals the report
  cases op with
  | observePublicMessage t =>
    simp only [HealthOp.apply, HealthReport.observePublicMessage, Dead, MarksDead, KeepsDead,
      false_or]
    by_cases hheals : h.HealedByPublicMessage
    · have hif := hheals
      unfold HealthReport.HealedByPublicMessage at hif
      rw [if_pos hif]
      simp [hheals]
    · have hif := hheals
      unfold HealthReport.HealedByPublicMessage at hif
      rw [if_neg hif]
      cases stream <;> simp [ok, hheals]
  | observePrivateMessage t =>
    simp only [HealthOp.apply, HealthReport.observePrivateMessage, Dead, MarksDead, KeepsDead,
      false_or]
    by_cases hheals : h.HealedByPrivateMessage
    · have hif := hheals
      unfold HealthReport.HealedByPrivateMessage at hif
      rw [if_pos hif]
      simp [hheals]
    · have hif := hheals
      unfold HealthReport.HealedByPrivateMessage at hif
      rw [if_neg hif]
      cases stream <;> simp [ok, hheals]
  | observeRestSuccess c =>
    simp only [HealthOp.apply, HealthReport.observeRestSuccess, Dead, MarksDead, KeepsDead,
      false_or]
    by_cases hheals : h.status = .disconnected
    · rw [if_pos hheals]
      simp [hheals]
    · rw [if_neg hheals]
      cases stream <;> simp [ok, hheals]
  | markReconcileComplete =>
    simp only [HealthOp.apply, HealthReport.markReconcileComplete, Dead, MarksDead, KeepsDead]
    by_cases hheals : h.HealedByReconcile
    · have hif := hheals
      unfold HealthReport.HealedByReconcile at hif
      rw [if_pos hif]
      simp [hheals]
    · have hif := hheals
      unfold HealthReport.HealedByReconcile at hif
      rw [if_neg hif]
      split <;> cases stream <;> simp +contextual [ok, hheals]
  | markSnapshotAge a t =>
    simp only [HealthOp.apply, HealthReport.markSnapshotAge, Dead, MarksDead, KeepsDead, and_true]
    by_cases hstale : h.StaleAt a t
    · have hif := hstale
      unfold HealthReport.StaleAt at hif
      rw [if_pos hif]
      cases stream <;> simp +contextual [ok, hstale]
    · have hif := hstale
      unfold HealthReport.StaleAt at hif
      rw [if_neg hif]
      cases stream <;> simp [ok, hstale]
  | markPublicDisconnect =>
    simp only [HealthOp.apply, HealthReport.markPublicDisconnect, Dead, MarksDead, KeepsDead,
      and_true]
    split <;> cases stream <;> simp +contextual [ok]
  | markPrivateDisconnect =>
    simp only [HealthOp.apply, HealthReport.markPrivateDisconnect, Dead, MarksDead, KeepsDead,
      and_true]
    split <;> cases stream <;> simp +contextual [ok]
  | markPublicGap | markPrivateGap | markReconcileRequired | markCommandUncertain
  | markStateDivergence =>
    simp only [HealthOp.apply, HealthReport.markPublicGap, HealthReport.markPrivateGap,
      HealthReport.markReconcileRequired, HealthReport.markCommandUncertain,
      HealthReport.markStateDivergence, Dead, MarksDead, KeepsDead, and_true]
    cases stream <;> simp +contextual [ok]
  | markReconnect =>
    simp only [HealthOp.apply, HealthReport.markReconnect, Dead, MarksDead, KeepsDead, and_true,
      false_or]
    cases stream <;> rfl

/-- A stream is reported dead after the calls exactly when they leave it so. -/
theorem dead_run_iff (stream : LiveStream) (h : HealthReport) (calls : List HealthOp) :
    stream.Dead (run HealthOp.apply h calls) ↔ stream.LeftDead h calls :=
  run_iff_setAndKept stream.dead_apply_iff

theorem dead_markDisconnect (stream : LiveStream) (h : HealthReport) :
    stream.Dead (stream.markDisconnect.apply h).markReconnect := by
  have hmarked : stream.Dead (stream.markDisconnect.apply h) := by
    rw [dead_apply_iff]
    cases stream <;> simp [markDisconnect, MarksDead]
  exact (stream.dead_apply_iff _ .markReconnect).2 (.inr ⟨hmarked, trivial⟩)

end LiveStream

/-! ### The report that a task leaves -/

section Left

variable {stream : LiveStream} {maxReconnectAttempts : Option UInt32} {h : HealthReport}

/-- Once the task has marked the disconnect, a connection begins with the stream reported dead. -/
theorem dead_reportAfter {connections : List Connection} (hne : connections ≠ []) :
    stream.Dead (reportAfter stream h connections) := by
  obtain ⟨earlier, last, rfl⟩ := List.eq_nil_or_concat connections |>.resolve_left hne
  unfold reportAfter
  rw [List.concat_eq_append, List.foldl_append]
  exact stream.dead_markDisconnect _

theorem attempt_add_succ (reconnectAttempt : UInt32) (n : ℕ) :
    reconnectAttempt + .ofNat (n + 1) = reconnectAttempt + 1 + .ofNat n := by
  rw [UInt32.ofNat_add, UInt32.add_comm (.ofNat n), UInt32.add_assoc]
  rfl

/-- A task ends with an error in the first connection whose error it does not retry. -/
theorem runStream_error_iff {reconnectAttempt : UInt32} {connections : List Connection}
    {h' : HealthReport} {e : MarketError} :
    runStream maxReconnectAttempts stream reconnectAttempt h connections = (h', some (.error e)) ↔
      ∃ earlier last later, connections = earlier ++ last :: later ∧
        AllRetried maxReconnectAttempts reconnectAttempt earlier ∧ last.result = .error e ∧
        shouldReconnect maxReconnectAttempts (reconnectAttempt + .ofNat earlier.length) e = false ∧
        run HealthOp.apply (reportAfter stream h earlier) last.calls = h' := by
  induction connections generalizing reconnectAttempt h with
  | nil => simp [runStream]
  | cons connection connections ih =>
    rw [runStream]
    cases hresult : connection.result with
    | ok a =>
      -- a connection that is shut down ends the task, and is not one of the earlier ones
      constructor
      · intro heq
        cases heq
      · rintro ⟨earlier, last, later, heq, hretried, hlast, -⟩
        cases earlier with
        | nil =>
          obtain ⟨rfl, -⟩ := List.cons.inj heq
          rw [hresult] at hlast
          cases hlast
        | cons c earlier =>
          obtain ⟨rfl, -⟩ := List.cons.inj heq
          obtain ⟨⟨e', he', -⟩, -⟩ := hretried
          rw [hresult] at he'
          cases he'
    | error error =>
      by_cases hretry : shouldReconnect maxReconnectAttempts reconnectAttempt error = true
      · simp only [hretry, if_true]
        rw [ih]
        constructor
        · rintro ⟨earlier, last, later, rfl, hretried, hlast, hend, hreport⟩
          refine ⟨connection :: earlier, last, later, rfl, ⟨⟨error, hresult, hretry⟩, hretried⟩,
            hlast, ?_, hreport⟩
          rwa [List.length_cons, attempt_add_succ]
        · rintro ⟨earlier, last, later, heq, hretried, hlast, hend, hreport⟩
          cases earlier with
          | nil =>
            obtain ⟨rfl, -⟩ := List.cons.inj heq
            obtain rfl := Except.error.inj (hlast.symm.trans hresult)
            have hend : shouldReconnect maxReconnectAttempts reconnectAttempt e = false := by
              rwa [List.length_nil, show UInt32.ofNat 0 = 0 from rfl, UInt32.add_zero] at hend
            exact absurd hretry (by simp [hend])
          | cons c earlier =>
            obtain ⟨rfl, hrest⟩ := List.cons.inj heq
            refine ⟨earlier, last, later, hrest, hretried.2, hlast, ?_, hreport⟩
            rwa [List.length_cons, attempt_add_succ] at hend
      · simp only [hretry, Bool.false_eq_true, if_false]
        constructor
        · intro heq
          obtain ⟨rfl, hresult'⟩ := Prod.mk.inj heq
          obtain rfl := Except.error.inj (Option.some.inj hresult')
          refine ⟨[], connection, connections, rfl, trivial, hresult, ?_, rfl⟩
          simpa using hretry
        · rintro ⟨earlier, last, later, heq, hretried, hlast, hend, rfl⟩
          cases earlier with
          | nil =>
            obtain ⟨rfl, -⟩ := List.cons.inj heq
            obtain rfl := Except.error.inj (hlast.symm.trans hresult)
            rfl
          | cons c earlier =>
            obtain ⟨rfl, -⟩ := List.cons.inj heq
            obtain ⟨⟨e', he', hretry'⟩, -⟩ := hretried
            obtain rfl := Except.error.inj (he'.symm.trans hresult)
            exact absurd hretry' hretry

end Left

/-- Whenever the task ends with an error, the report says that the stream is dead. -/
def DeadStreamReported (stream : LiveStream) (maxReconnectAttempts : Option UInt32)
    (h : HealthReport) (connections : List Connection) : Prop :=
  ∀ h' e, runStream maxReconnectAttempts stream 0 h connections = (h', some (.error e)) →
    stream.Dead h'

/-- **A dead stream is reported dead, exactly.**  The report when a task ends with an error says so
exactly when the calls since the last mark of the task, or since its start, leave it so; and it says
so at the last mark. -/
theorem dead_stream_reported_iff (stream : LiveStream) (maxReconnectAttempts : Option UInt32)
    (h : HealthReport) (connections : List Connection) :
    (DeadStreamReported stream maxReconnectAttempts h connections ↔
        ∀ earlier last later, connections = earlier ++ last :: later →
          AllRetried maxReconnectAttempts 0 earlier →
          EndsTask maxReconnectAttempts (.ofNat earlier.length) last →
          stream.LeftDead (reportAfter stream h earlier) last.calls) ∧
      ∀ earlier ≠ [], stream.Dead (reportAfter stream h earlier) := by
  refine ⟨?_, fun earlier hne => dead_reportAfter hne⟩
  constructor
  · rintro hdead earlier last later rfl hretried ⟨e, hlast, hend⟩
    rw [← stream.dead_run_iff]
    refine hdead _ e (runStream_error_iff.2 ⟨earlier, last, later, rfl, hretried, hlast, ?_, rfl⟩)
    rwa [UInt32.zero_add]
  · intro hleft h' e hrun
    obtain ⟨earlier, last, later, rfl, hretried, hlast, hend, rfl⟩ := runStream_error_iff.1 hrun
    rw [UInt32.zero_add] at hend
    rw [stream.dead_run_iff]
    exact hleft earlier last later rfl hretried ⟨e, hlast, hend⟩

/-- A public stream that ends with a message that cannot be decoded, after one that could, is still
reported alive. -/
theorem undecodable_message_leaves_stream_alive :
    ¬ DeadStreamReported .publicStream none .default
      [⟨[.observePublicMessage 1], .error { kind := .decodeError, message := "unknown event" }⟩] := by
  intro h
  have hdead := h _ _ rfl
  exact absurd hdead.1 (by decide)

end BatMarkets
