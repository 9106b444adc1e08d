import BatMarkets.Commands.Call
import BatMarkets.Runtime.MissingOrders

/-!
# The recovery that a command schedules

A command whose outcome is not known starts a task of its own (`apply_command_receipt`), which
reconciles the private state and then tells the handle of the command that the recovery is complete.
It tells it only of a reconcile that has a report: a reconcile that fails on one of its requests
writes its report to the engine state, but the task ends without an event.

The reconcile is cut short by a reply.  `EndsReconcile` says by which, and `Settles` of a step that
it fails exactly when the last thing it did was to get such a reply.

## Main results

* `settles_reconcileSteps` : a reconcile fails exactly when it is cut short.
* `recovery_completed_iff` : the task reports that the recovery is complete exactly when the
  reconcile has not been cut short; then it does so once, with the acknowledgement of the command.
-/

namespace BatMarkets

open CommandM Interleaving RuntimeM

/-- The task that a command starts to recover from an unknown outcome. -/
def recoverCommand (context : LiveContext) (ack : CommandAck) : CommandM Unit := do
  match ← (liftRuntime (reconcilePrivate context .unknownExecution)).run with
  | .ok report => .perform (CommandCall.emitCommandEvent (.lifecycle (.recoveryCompleted ack report)))
  | .error _ => return ()

/-! ### Replies that end a reconcile -/

/-- After this event nothing follows but the report: a request failed, or an instrument was looked
up and no request could be made for it.  A lookup of an order may fail in a way that the reconcile
goes on after. -/
def EndsReconcile : Event RuntimeCall RuntimeReply → Prop
  | ⟨.resolveInstrument _, _⟩ => True
  | ⟨.signedGet .order _, r⟩ => goesOn r = false
  | ⟨.signedGet _ _, r⟩ => ∃ e, r = .error e
  | _ => False

/-- The last event is not one that ends a reconcile. -/
def Calm (τ : RuntimeTrace) : Prop := ∀ e ∈ τ.head?, ¬ EndsReconcile e

theorem calm_cons {e : Event RuntimeCall RuntimeReply} {τ : RuntimeTrace} :
    Calm (e :: τ) ↔ ¬ EndsReconcile e := by
  simp [Calm]

/-- From this trace, the step fails exactly when it ends with an event that ends the reconcile. -/
def SettlesAt {α : Type} (x : RuntimeE α) (τ : RuntimeTrace) : Prop :=
  x.run.Spec (fun _ _ => True) (fun τ' r => Calm τ' ↔ ∃ a, r = .ok a) τ

/-- The step fails so from every calm trace. -/
def Settles {α : Type} (x : RuntimeE α) : Prop := ∀ τ, Calm τ → SettlesAt x τ

section Settles

variable {α β : Type} {τ : RuntimeTrace} {context : LiveContext} {f : α → RuntimeE β}

theorem settles_pure (a : α) : Settles (pure a : RuntimeE α) :=
  fun _ hτ => iff_of_true hτ ⟨a, rfl⟩

/-- A step that fails is the last one. -/
theorem SettlesAt.attempt {x : RuntimeE α} (hx : SettlesAt x τ) (hf : ∀ a, Settles (f a)) :
    SettlesAt (x >>= f) τ := by
  refine Prog.spec_attempt (Prog.Spec.mono hx (fun _ _ h => h) fun τ' r hr => ?_)
  cases r with
  | ok a => exact hf a τ' (hr.2 ⟨a, rfl⟩)
  | error e =>
    refine iff_of_false (fun hcalm => ?_) (fun ⟨b, hb⟩ => (nomatch hb))
    obtain ⟨a, ha⟩ := hr.1 hcalm
    cases ha

theorem Settles.attempt {x : RuntimeE α} (hx : Settles x) (hf : ∀ a, Settles (f a)) :
    Settles (x >>= f) :=
  fun τ hτ => (hx τ hτ).attempt hf

/-- A call that does not end the reconcile, whatever was before it. -/
theorem settlesAt_lift {q : RuntimeCall} (hq : ∀ r, ¬ EndsReconcile ⟨q, r⟩)
    {f : RuntimeReply q → RuntimeE β} (hf : ∀ r, Settles (f r)) :
    SettlesAt ((liftM (Prog.perform q : RuntimeM (RuntimeReply q)) : RuntimeE _) >>= f) τ :=
  ⟨trivial, fun r => hf r _ (calm_cons.2 (hq r))⟩

/-- A request fails with a reply that ends the reconcile. -/
theorem settlesAt_signedGet {decoder : Decoder} (hd : decoder ≠ .order) {path operation : String}
    {query : List (String × String)} : SettlesAt (signedGet decoder path query operation) τ := by
  refine ⟨trivial, fun r => ?_⟩
  have hends : EndsReconcile ⟨.signedGet decoder ⟨path, query, operation⟩, r⟩ ↔
      ∃ e, r = .error e := by
    cases decoder with
    | order => exact absurd rfl hd
    | _ => exact Iff.rfl
  show Calm _ ↔ ∃ a, r = .ok a
  rw [calm_cons, hends]
  cases r with
  | ok a => simp
  | error e => simp

/-- An instrument is looked up for a request. -/
theorem settlesAt_requireSpec {i : InstrumentId} {f : InstrumentSpec → RuntimeE β}
    (hf : ∀ spec τ, SettlesAt (f spec) τ) : SettlesAt (requireSpec context i >>= f) τ := by
  refine ⟨trivial, fun spec => ?_⟩
  cases spec with
  | some spec => exact hf spec _
  | none =>
    refine iff_of_false (fun hcalm => ?_) (fun ⟨b, hb⟩ => (nomatch hb))
    exact calm_cons.1 hcalm trivial

/-! ### Snapshots -/

theorem settles_fetchBalance : Settles (fetchBalance context) := by
  obtain ⟨venue, product, stale⟩ := context
  have hwrite : ∀ (ops : List EngineOp) (account : AccountSnapshot), Settles (do
      RuntimeM.write ops
      return account : RuntimeE AccountSnapshot) :=
    fun ops account τ _ => settlesAt_lift (fun _ => id) fun _ => settles_pure account
  cases venue with
  | binance =>
    intro τ _
    exact (settlesAt_signedGet (by decide)).attempt fun (account, positions) => hwrite _ account
  | bybit =>
    intro τ _
    refine SettlesAt.attempt (f := fun walletAccountType => do
      let account ← signedGet .account "/v5/account/wallet-balance"
        [("accountType", walletAccountType)] "bybit.account.wallet_balance"
      RuntimeM.write [.replaceAccountSnapshot account, .markRestSuccess none]
      return account) ?_ fun walletAccountType τ' _ =>
        (settlesAt_signedGet (by decide)).attempt fun account => hwrite _ account
    refine settlesAt_lift (fun _ => id) fun cached => ?_
    cases cached with
    | some cached => exact settles_pure cached
    | none =>
      intro τ' _
      refine (settlesAt_signedGet (by decide)).attempt fun parsed τ'' _ => ?_
      exact settlesAt_lift (fun _ => id) fun _ => settles_pure parsed
  | mexc =>
    intro τ _
    exact (settlesAt_signedGet (by decide)).attempt fun account => hwrite _ account

theorem settles_refreshPositions : Settles (refreshPositions context) := by
  obtain ⟨venue, product, stale⟩ := context
  have hwrite : ∀ (ops : List EngineOp) (positions : List Position), Settles (do
      RuntimeM.write ops
      return positions : RuntimeE (List Position)) :=
    fun ops positions τ _ => settlesAt_lift (fun _ => id) fun _ => settles_pure positions
  intro τ _
  cases venue with
  | binance =>
    exact (settlesAt_signedGet (by decide)).attempt fun (account, positions) => hwrite _ positions
  | bybit => exact (settlesAt_signedGet (by decide)).attempt fun positions => hwrite _ positions
  | mexc => exact (settlesAt_signedGet (by decide)).attempt fun positions => hwrite _ positions

theorem settles_refreshOpenOrders : Settles (refreshOpenOrders context none) := by
  obtain ⟨venue, product, stale⟩ := context
  refine Settles.attempt (fun τ _ => ?_) fun orders τ _ =>
    settlesAt_lift (fun _ => id) fun _ => settles_pure orders
  cases venue with
  | binance =>
    refine (settlesAt_signedGet (by decide)).attempt fun orders τ' _ => ?_
    exact (settlesAt_signedGet (by decide)).attempt fun algoOrders => settles_pure _
  | bybit => exact settlesAt_signedGet (by decide)
  | mexc => exact settlesAt_signedGet (by decide)

/-! ### Pending commands -/

/-- How a lookup ends.  If it leaves commands unresolved, there is something left to do, and the
last event may be one that would end the reconcile. -/
def LookupEnds (unresolved : α → Prop) (τ τ' : RuntimeTrace) : Except MarketError α → Prop
  | .ok a => unresolved a ∨ (Calm τ → Calm τ')
  | .error _ => ¬ Calm τ'

/-- The program settles, unless its result leaves something unresolved. -/
def SettlesUnless (unresolved : α → Prop) (x : RuntimeE α) (τ : RuntimeTrace) : Prop :=
  x.run.Spec (fun _ _ => True) (LookupEnds unresolved τ) τ

/-- A lookup that failed leaves the command unresolved, or ends the reconcile. -/
theorem lookupEnds_failed {e : MarketError} {τ τ' : RuntimeTrace}
    (h : isMissingOrderError e = false → ¬ Calm τ') :
    LookupEnds (· = false) τ τ' (if isMissingOrderError e then .ok false else .error e) := by
  cases hmissing : isMissingOrderError e with
  | true => exact .inl rfl
  | false => exact h hmissing

theorem settlesUnless_lookupOrder (command : PendingUnknownCommand) :
    SettlesUnless (· = false) (lookupOrder context command) τ := by
  unfold SettlesUnless
  rw [lookupOrder, ExceptT.run_mk]
  split
  · refine Prog.spec_bind.2 ?_
    rw [getOrder, run_requireSpec_bind]
    refine ⟨trivial, fun spec => ?_⟩
    cases spec with
    | none => exact .inl rfl
    | some spec =>
      dsimp only
      split
      · exact lookupEnds_failed fun _ hcalm => calm_cons.1 hcalm trivial
      · refine ⟨trivial, fun r => ?_⟩
        cases r with
        | ok order => exact ⟨trivial, fun _ => ⟨trivial, fun _ => .inr fun _ => calm_cons.2 id⟩⟩
        | error e =>
          exact lookupEnds_failed fun hstops hcalm => calm_cons.1 hcalm hstops
  · exact .inr id

theorem settlesUnless_lookupOrders (pending : List PendingUnknownCommand) :
    SettlesUnless (· ≠ []) (lookupOrders context pending) τ := by
  induction pending generalizing τ with
  | nil => exact .inr id
  | cons command pending ih =>
    refine Prog.spec_attempt (Prog.Spec.mono (settlesUnless_lookupOrder command)
      (fun _ _ h => h) fun τ' r hr => ?_)
    cases r with
    | error e => exact hr
    | ok resolved =>
      refine Prog.spec_attempt (Prog.Spec.mono ih (fun _ _ h => h) fun τ'' r' hr' => ?_)
      cases r' with
      | error e => exact hr'
      | ok unresolved =>
        cases resolved with
        | false => exact .inl (List.cons_ne_nil _ _)
        | true =>
          have hcalm : Calm τ → Calm τ' := hr.resolve_left (by decide)
          exact hr'.imp id fun h => h ∘ hcalm

/-- With commands left, the local state is read, which is calm. -/
theorem settlesAt_resolvePendingFromLocalState {pending : List PendingUnknownCommand}
    (h : pending = [] → Calm τ) {f : List PendingUnknownCommand → RuntimeE β}
    (hf : ∀ pending, Settles (f pending)) :
    SettlesAt ((liftM (resolvePendingFromLocalState pending) : RuntimeE _) >>= f) τ := by
  cases pending with
  | nil => exact hf [] τ (h rfl)
  | cons command pending =>
    exact ⟨trivial, fun (orders, executions) => hf _ _ (calm_cons.2 id)⟩

theorem settlesAt_repairTimeWindow {i : InstrumentId} {pending : List PendingUnknownCommand}
    {f : Option (Int64 × Int64) → RuntimeE β} (hf : ∀ window τ, SettlesAt (f window) τ) :
    SettlesAt ((liftM (repairTimeWindow i pending) : RuntimeE _) >>= f) τ :=
  ⟨trivial, fun _ => ⟨trivial, fun _ => ⟨trivial, fun _ => hf _ _⟩⟩⟩

theorem settlesAt_refreshRecentOrderHistory (i : InstrumentId)
    (pending : List PendingUnknownCommand) :
    SettlesAt (refreshRecentOrderHistory context i pending) τ :=
  settlesAt_requireSpec fun _ _ => settlesAt_repairTimeWindow fun _ _ =>
    settlesAt_signedGet (by decide)

theorem settlesAt_refreshRecentExecutionHistory (i : InstrumentId)
    (pending : List PendingUnknownCommand) :
    SettlesAt (refreshRecentExecutionHistory context i pending) τ :=
  settlesAt_repairTimeWindow fun _ _ => settlesAt_requireSpec fun _ _ =>
    settlesAt_signedGet (by decide)

theorem settles_resolveGroups {ρ : Type}
    {refresh : InstrumentId → List PendingUnknownCommand → RuntimeE (List ρ)}
    (h : ∀ i pending τ, SettlesAt (refresh i pending) τ) (merge : List ρ → EngineOp)
    (unresolvedAfter : List PendingUnknownCommand → List ρ → List PendingUnknownCommand)
    (groups : List (InstrumentId × List PendingUnknownCommand)) :
    Settles (resolveGroups refresh merge unresolvedAfter groups) := by
  induction groups with
  | nil => exact settles_pure []
  | cons group groups ih =>
    intro τ _
    refine (h group.1 group.2 τ).attempt fun records τ' _ => ?_
    refine settlesAt_lift (fun _ => id) fun _ => ?_
    exact ih.attempt fun unresolved => settles_pure _

theorem settles_resolvePendingUnknownCommands : Settles (resolvePendingUnknownCommands context) := by
  have hreplace : ∀ (pending : List PendingUnknownCommand) (n : ℕ), Settles (do
      replacePendingUnknownCommands pending
      return n : RuntimeE ℕ) :=
    fun pending n τ _ => settlesAt_lift (fun _ => id) fun _ => settles_pure n
  intro τ _
  refine settlesAt_lift (fun _ => id) fun pending τ hτ => ?_
  refine settlesAt_resolvePendingFromLocalState (fun _ => hτ) fun pending => ?_
  split
  · exact settles_pure 0
  -- the lookups end calmly, or leave commands to look for in the local state
  intro τ hτ
  refine Prog.spec_attempt (Prog.Spec.mono (settlesUnless_lookupOrders pending)
    (fun _ _ h => h) fun τ' r hr => ?_)
  cases r with
  | error e => exact iff_of_false hr fun ⟨n, hn⟩ => (nomatch hn)
  | ok unresolved =>
    refine settlesAt_resolvePendingFromLocalState (fun hnil => ?_) fun unresolved => ?_
    · exact hr.resolve_left (fun hne => hne hnil) hτ
    · split
      · exact hreplace [] 0
      · refine (settles_resolveGroups (fun i pending τ =>
          settlesAt_refreshRecentOrderHistory i pending) _ _ _).attempt fun unresolved => ?_
        split
        · exact hreplace [] 0
        · refine (settles_resolveGroups (fun i pending τ =>
            settlesAt_refreshRecentExecutionHistory i pending) _ _ _).attempt fun unresolved => ?_
          exact hreplace unresolved _

theorem settles_reconcileSteps :
    Settles (reconcileSteps context .unknownExecution .recentHistoryRepair) := by
  unfold reconcileSteps
  refine (settles_fetchBalance.attempt fun account => settles_pure account.summary).attempt
    fun _ => ?_
  refine settles_refreshPositions.attempt fun _ => ?_
  refine settles_refreshOpenOrders.attempt fun _ τ _ => ?_
  exact settlesAt_lift (fun _ => id) fun health => settles_resolvePendingUnknownCommands

end Settles

/-! ### The task -/

/-- The calls of a command with what came back, the last one first. -/
abbrev CommandTrace := List (Event CommandCall CommandReply)

/-- The event of a task of the runtime that a command runs. -/
def liftEvent (e : Event RuntimeCall RuntimeReply) : Event CommandCall CommandReply :=
  ⟨.runtime e.1, e.2⟩

/-- What a task of the runtime does, it does in a command. -/
theorem spec_liftRuntime {α : Type} {task : RuntimeE α}
    {Post : RuntimeTrace → Except MarketError α → Prop} {σ : CommandTrace}
    (h : task.run.Spec (fun _ _ => True) Post []) :
    (liftRuntime task).run.Spec (fun _ _ => True) (fun σ' r =>
      ∃ τ r', σ' = τ.map liftEvent ++ σ ∧ Post τ r' ∧ r = r'.mapError .error) σ := by
  have key : ∀ {t : RuntimeM (Except MarketError α)} {τ : RuntimeTrace},
      t.Spec (fun _ _ => True) Post τ →
      (t.mapCalls CommandCall.runtime fun _ r => r).Spec (fun _ _ => True)
        (fun σ' r' => ∃ τ, σ' = τ.map liftEvent ++ σ ∧ Post τ r') (τ.map liftEvent ++ σ) := by
    intro t
    induction t with
    | ret a => exact fun hpost => ⟨_, rfl, hpost⟩
    | call q k ih => exact fun hspec => ⟨trivial, fun r => ih r (hspec.2 r)⟩
  refine Prog.spec_bind.2 ((key h).mono (fun _ _ h => h) fun σ' r' hr' => ?_)
  obtain ⟨τ, hσ', hpost⟩ := hr'
  exact ⟨τ, r', hσ', hpost, rfl⟩

/-- The call writes to the engine state. -/
def IsWrite : Event CommandCall CommandReply → Bool
  | ⟨.runtime (.write _), _⟩ => true
  | _ => false

/-- What was done before the report of the reconcile was written, which is the last write. -/
def beforeReport (σ : CommandTrace) : CommandTrace := (σ.dropWhile fun e => !IsWrite e).tail

/-- The event ends a reconcile that a command runs. -/
def EndsRecovery : Event CommandCall CommandReply → Prop
  | ⟨.runtime q, r⟩ => EndsReconcile ⟨q, r⟩
  | _ => False

/-- The report was written right after an event that ends a reconcile. -/
def CutShort (σ : CommandTrace) : Prop := ∃ e ∈ (beforeReport σ).head?, EndsRecovery e

/-- The events that report a completed recovery of the acknowledged command. -/
def completions (ack : CommandAck) (σ : CommandTrace) : List ReconcileReport :=
  σ.filterMap fun
    | ⟨.emitCommandEvent (.lifecycle (.recoveryCompleted a report)), _⟩ =>
      if a = ack then some report else none
    | _ => none

theorem calm_iff_not_endsRecovery {τ : RuntimeTrace} :
    Calm τ ↔ ¬ ∃ e ∈ (τ.map liftEvent).head?, EndsRecovery e := by
  cases τ with
  | nil => simp [Calm]
  | cons e τ => simp [Calm, liftEvent, EndsRecovery]

theorem completions_map_liftEvent (ack : CommandAck) (τ : RuntimeTrace) :
    completions ack (τ.map liftEvent) = [] := by
  induction τ with
  | nil => rfl
  | cons e τ ih => simp [completions, liftEvent]

/-- The reconcile writes its report, and has one to return unless it was cut short. -/
theorem spec_reconcile (context : LiveContext) :
    (reconcilePrivate context .unknownExecution).run.Spec (fun _ _ => True)
      (fun τ r => ∃ τ' ops, τ = ⟨.write ops, ()⟩ :: τ' ∧ (Calm τ' ↔ ∃ report, r = .ok report))
      [] := by
  refine ⟨trivial, fun repairedAt => ?_⟩
  have hsteps : SettlesAt (reconcileSteps context .unknownExecution .recentHistoryRepair)
      [⟨.timestampNowMs, repairedAt⟩] := settles_reconcileSteps _ (calm_cons.2 id)
  show Prog.Spec _ _ ((reconcileSteps context .unknownExecution .recentHistoryRepair).run >>= _) _
  refine Prog.spec_bind.2 (Prog.Spec.mono hsteps (fun _ _ h => h) fun τ' r hr => ?_)
  refine ⟨trivial, fun _ => ?_⟩
  refine ⟨τ', _, rfl, hr.trans ?_⟩
  cases r with
  | ok n => exact ⟨fun _ => ⟨_, rfl⟩, fun _ => ⟨n, rfl⟩⟩
  | error e => exact ⟨fun ⟨n, hn⟩ => (nomatch hn), fun ⟨report, hreport⟩ => (nomatch hreport)⟩

/-- The task reports exactly the reconciles that are not cut short. -/
theorem spec_recoverCommand (context : LiveContext) (ack : CommandAck) :
    (recoverCommand context ack).Spec (fun _ _ => True)
      (fun σ _ => (¬ CutShort σ ∧ ∃ report, completions ack σ = [report]) ∨
        CutShort σ ∧ completions ack σ = []) [] := by
  refine Prog.spec_bind.2 ?_
  refine (spec_liftRuntime (spec_reconcile context)).mono (fun _ _ h => h) fun σ r hr => ?_
  obtain ⟨_, r, rfl, ⟨τ, ops, rfl, hcalm⟩, rfl⟩ := hr
  rw [List.append_nil]
  have hcut : ∀ later : CommandTrace, (∀ e ∈ later, IsWrite e = false) →
      (CutShort (later ++ (⟨.write ops, ()⟩ :: τ : RuntimeTrace).map liftEvent) ↔ ¬ Calm τ) := by
    intro later hlater
    have hbefore : beforeReport (later ++ (⟨.write ops, ()⟩ :: τ : RuntimeTrace).map liftEvent) =
        τ.map liftEvent := by
      rw [beforeReport, List.dropWhile_append_of_pos (by simpa using hlater)]
      rfl
    rw [CutShort, hbefore, calm_iff_not_endsRecovery, not_not]
  cases r with
  | ok report =>
    refine ⟨trivial, fun _ => .inl ⟨?_, report, ?_⟩⟩
    · have hlater := hcut [⟨.emitCommandEvent (.lifecycle (.recoveryCompleted ack report)), ()⟩]
        (by simp [IsWrite])
      exact fun h => hlater.1 h (hcalm.2 ⟨report, rfl⟩)
    · have hnone := completions_map_liftEvent ack (⟨.write ops, ()⟩ :: τ)
      unfold completions at hnone ⊢
      rw [List.filterMap_cons_some (b := report) (by simp), hnone]
  | error e =>
    refine .inr ⟨?_, completions_map_liftEvent ack _⟩
    refine (hcut [] (by simp)).2 fun h => ?_
    obtain ⟨report, hreport⟩ := hcalm.1 h
    cases hreport

/-! ### What a command schedules -/

/-- The acknowledgements for which a recovery is announced. -/
def scheduled (τ : CommandTrace) : List CommandAck :=
  τ.filterMap fun
    | ⟨.emitCommandEvent (.lifecycle (.recoveryScheduled ack)), _⟩ => some ack
    | _ => none

/-- The acknowledgements for which a task is started. -/
def spawned (τ : CommandTrace) : List CommandAck :=
  τ.filterMap fun
    | ⟨.spawnReconcile ack, _⟩ => some ack
    | _ => none

theorem spec_applyCommandReceipt {receipt : CommandReceipt} (transport : CommandTransport)
    (h : receipt.status = .unknownExecution) :
    (applyCommandReceipt receipt transport).run.Spec (fun _ _ => True)
      (fun τ r => ∃ ack, r = .ok ack ∧ scheduled τ = [ack] ∧ spawned τ = [ack]) [] := by
  refine ⟨trivial, fun acknowledgedAt => ⟨trivial, fun _ => ⟨trivial, fun _ => ⟨trivial, fun _ => ?_⟩⟩⟩⟩
  rw [if_pos h]
  exact ⟨trivial, fun _ => ⟨trivial, fun _ => ⟨_, rfl, rfl, rfl⟩⟩⟩

/-- **Scheduled recoveries are completed, exactly.**  A receipt of unknown execution announces one
recovery and starts one task.  The task reports once that the recovery of the acknowledged command
is complete exactly when its reconcile is not cut short, and otherwise it never does. -/
theorem recovery_completed_iff {receipt : CommandReceipt} {transport : CommandTransport}
    {τ : CommandTrace} {ack : CommandAck} (hunknown : receipt.status = .unknownExecution)
    (hcall : (applyCommandReceipt receipt transport).run.Ends [] τ (.ok ack)) :
    scheduled τ = [ack] ∧ spawned τ = [ack] ∧
      ∀ context σ, (recoverCommand context ack).Ends [] σ () →
        ((completions ack σ).length = 1 ↔ ¬ CutShort σ) := by
  obtain ⟨ack', hack, hscheduled, hspawned⟩ :=
    hcall.post (spec_applyCommandReceipt transport hunknown)
  obtain rfl := Except.ok.inj hack
  refine ⟨hscheduled, hspawned, fun context σ hσ => ?_⟩
  obtain ⟨hcut, report, hreport⟩ | ⟨hcut, hnone⟩ :=
    hσ.post (spec_recoverCommand context ack)
  · rw [hreport]
    exact iff_of_true rfl hcut
  · rw [hnone]
    exact iff_of_false (by decide) (not_not_intro hcut)

/-- An order on Binance whose outcome is not known. -/
def unknownAck : CommandAck := ⟨unknownExecution .binance .createOrder none, .rest, 0⟩

/-- The venue answers no request. -/
def noReply : (q : CommandCall) → Unit → CommandReply q × Unit :=
  staticReply (.active .binance "BTC/USDT:USDT" "BTCUSDT" 2 3)
    (.error { kind := .timeout, message := "no reply" })

/-- The calls with which the command is acknowledged. -/
def unknownTrace : CommandTrace :=
  Prog.execTrace noReply (applyCommandReceipt unknownAck.receipt .rest).run () []

theorem ends_unknownAck :
    (applyCommandReceipt unknownAck.receipt .rest).run.Ends [] unknownTrace (.ok unknownAck) :=
  Prog.ends_exec _

theorem recovery_completed_iff_unknownAck :
    scheduled unknownTrace = [unknownAck] ∧ spawned unknownTrace = [unknownAck] ∧
      ∀ context σ, (recoverCommand context unknownAck).Ends [] σ () →
        ((completions unknownAck σ).length = 1 ↔ ¬ CutShort σ) :=
  recovery_completed_iff rfl ends_unknownAck

/-- A recovery is announced, its task ends, and nothing reports that it is complete. -/
theorem failed_reconcile_completes_nothing :
    ∃ τ σ, (applyCommandReceipt unknownAck.receipt .rest).run.Ends [] τ (.ok unknownAck) ∧
      (recoverCommand ⟨.binance, .linearUsdt, 5000⟩ unknownAck).Ends [] σ () ∧
      scheduled τ = [unknownAck] ∧ completions unknownAck σ = [] := by
  have htask : (recoverCommand ⟨.binance, .linearUsdt, 5000⟩ unknownAck).Ends []
      (Prog.execTrace noReply (recoverCommand ⟨.binance, .linearUsdt, 5000⟩ unknownAck) () []) () :=
    Prog.ends_exec _
  exact ⟨_, _, ends_unknownAck, htask, rfl, rfl⟩

end BatMarkets
