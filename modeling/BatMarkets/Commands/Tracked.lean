import BatMarkets.Commands.Acknowledged
import BatMarkets.Commands.Recovery
import BatMarkets.Interleaving.Shows

/-!
# Uncertain commands are tracked

A command whose outcome is not known is remembered in the list of pending commands, and a recovery
is started for it.  These are two calls: the first is made where the receipt is known
(`cache_pending_unknown`), the second where the receipt is acknowledged (`apply_command_receipt`),
and the commands that change the leverage or the margin mode make only the second.

What a recovery finds out depends on the list: with nothing in it, a reconcile that is not cut short
reports that all is synchronized.

## Main results

* `recoveries_tracked_iff` : every recovery that a command starts is for a command that has been
  remembered before, exactly when the command is not one that changes the leverage or the margin
  mode.
* `synchronized_of_nothing_pending` : a recovery that finds nothing pending reports success.
-/

namespace BatMarkets

open CommandM Interleaving Prog Wire

/-- The command for this target has been remembered as pending. -/
def Remembered (operation : CommandOperation) (target : OrderTarget) (τ : CommandTrace) : Prop :=
  ∃ recordedAt, ⟨.runtime (.cachePendingUnknown ⟨operation, target.instrumentId, target.orderId,
    target.clientOrderId, recordedAt⟩), ()⟩ ∈ τ

/-- A recovery is started only for a target that its receipt names and that has been remembered. -/
def TrackedBefore (operation : CommandOperation) (targets : List OrderTarget) (τ : CommandTrace) :
    CommandCall → Prop
  | .spawnReconcile ack =>
    ∃ target ∈ targets, target.Names operation ack.receipt ∧ Remembered operation target τ
  | _ => True

/-! ### Orders -/

section Orders

variable {operation : CommandOperation} {targets : List OrderTarget}

theorem trackedBefore_of_silent (τ : CommandTrace) (q : CommandCall) (hq : q.Silent) :
    TrackedBefore operation targets τ q := by
  cases q with
  | spawnReconcile ack => exact hq.elim
  | _ => trivial

theorem TrackedBefore.mono {targets' : List OrderTarget} (h : targets ⊆ targets')
    (τ : CommandTrace) (q : CommandCall) (hq : TrackedBefore operation targets τ q) :
    TrackedBefore operation targets' τ q := by
  cases q with
  | spawnReconcile ack =>
    obtain ⟨target, htarget, hnames⟩ := hq
    exact ⟨target, h htarget, hnames⟩
  | _ => trivial

theorem grows_trackedBefore : Grows (TrackedBefore operation targets) := by
  intro τ τ' hτ q hq
  cases q with
  | spawnReconcile ack =>
    obtain ⟨target, htarget, hnames, recordedAt, hmem⟩ := hq
    exact ⟨target, htarget, hnames, recordedAt, hτ hmem⟩
  | _ => trivial

theorem tracked_cacheAndApply {target : OrderTarget} {receipt : CommandReceipt}
    (transport : CommandTransport)
    (hnames : receipt.status = .unknownExecution → target.Names operation receipt) :
    Yields (TrackedBefore operation [target]) (fun _ => True)
      (cacheAndApply operation target receipt transport) := by
  unfold cacheAndApply cachePendingUnknown
  by_cases hs : receipt.status = .unknownExecution
  · rw [if_pos hs]
    refine fun τ => ⟨trivial, fun recordedAt => ⟨trivial, fun _ => ?_⟩⟩
    -- the command is remembered, and then acknowledged
    refine ⟨trivial, fun acknowledgedAt => ⟨trivial, fun _ => ⟨trivial, fun _ => ⟨trivial, ?_⟩⟩⟩⟩
    intro _
    rw [if_pos hs]
    refine ⟨trivial, fun _ => ⟨?_, fun _ _ _ => trivial⟩⟩
    exact ⟨target, by simp, hnames hs, recordedAt, by simp⟩
  · rw [if_neg hs]
    refine fun τ => ⟨trivial, fun acknowledgedAt => ⟨trivial, fun _ => ⟨trivial, fun _ => ?_⟩⟩⟩
    refine ⟨trivial, fun _ => ?_⟩
    rw [if_neg hs]
    exact fun _ _ => trivial

/-- The commands for orders track what they recover. -/
theorem ackLogic_tracked (operation : CommandOperation) :
    AckLogic operation fun _ _ items x =>
      Yields (TrackedBefore operation items) (fun _ => True) x where
  fail := fun e => yields_throw e
  silent := fun hx hf => (hx.imp trackedBefore_of_silent).attempt hf
  single := fun _ _ transport hnames => tracked_cacheAndApply transport hnames
  inRow := by
    intro α γ acks items f cs h
    refine (Yields.mapM (P := fun _ _ => True) fun c hc => ?_).mono fun _ _ => trivial
    exact (h c hc).imp (TrackedBefore.mono fun t ht => List.mem_flatMap.2 ⟨c, hc, ht⟩)
  sideBySide := by
    intro α γ acks items f cs h
    unfold tryJoinAll
    refine Yields.attempt (P := fun _ => True)
      (yields_perform (fun _ => trivial) fun _ => trivial) fun schedule _ => .of_always ?_
    refine Always.tryJoin_of_grows grows_trackedBefore schedule fun t ht => ?_
    obtain ⟨c, hc, rfl⟩ := by simpa using ht
    have hsubset : items c ⊆ cs.flatMap items := fun t ht => List.mem_flatMap.2 ⟨c, hc, ht⟩
    exact ((h c hc).imp (TrackedBefore.mono hsubset)).always
  value := fun hx _ _ => hx.attempt fun _ _ => yields_ofExcept fun _ _ => trivial
  perm := fun hperm hx => hx.imp (TrackedBefore.mono hperm.subset)

end Orders

/-! ### The commands -/

/-- The command of the runtime that the handles are for. -/
def WebSocketCommand.operation : WebSocketCommand → CommandOperation
  | .createOrder _ | .createOrders _ => .createOrder
  | .editOrder _ | .editOrders _ => .amendOrder
  | .cancelOrder _ | .cancelOrders _ => .cancelOrder
  | .cancelAllOrders _ => .cancelAllOrders

/-- What the command is about, without an order if it is about all orders of an instrument. -/
def WebSocketCommand.targets : WebSocketCommand → List OrderTarget
  | .createOrder request => [request.target]
  | .createOrders request => request.orders.map (·.target)
  | .editOrder request => [request.target]
  | .editOrders request => request.orders.map (·.target)
  | .cancelOrder request => [request.target]
  | .cancelOrders request => request.orders
  | .cancelAllOrders request => request.instrumentId.toList.map fun i => ⟨i, none, none⟩

namespace RootCommand

/-- What the command does. -/
def operation : RootCommand → CommandOperation
  | .createOrder _ | .createOrders _ => .createOrder
  | .editOrder _ | .editOrders _ => .amendOrder
  | .cancelOrder _ | .cancelOrders _ => .cancelOrder
  | .closePosition _ => .closePosition
  | .cancelAllOrders _ => .cancelAllOrders
  | .validateOrder _ => .validateOrder
  | .setLeverage _ => .setLeverage
  | .setMarginMode _ => .setMarginMode
  | .setPositionMode _ => .setPositionMode
  | .webSocketOnly command => command.operation

/-- The orders that the command names. -/
def targets : RootCommand → List OrderTarget
  | .createOrder request => [request.target]
  | .createOrders request => request.orders.map (·.target)
  | .editOrder request => [request.target]
  | .editOrders request => request.orders.map (·.target)
  | .cancelOrder request => [request.target]
  | .cancelOrders request => request.orders
  | .closePosition request => [request.target]
  | .cancelAllOrders request => request.instrumentId.toList.map fun i => ⟨i, none, none⟩
  | .validateOrder request => [request.order.target]
  | .setLeverage request => [⟨request.instrumentId, none, none⟩]
  | .setMarginMode request => [⟨request.instrumentId, none, none⟩]
  | .setPositionMode request => request.instrumentId.toList.map fun i => ⟨i, none, none⟩
  | .webSocketOnly command => command.targets

/-- The command changes the leverage or the margin mode. -/
def ChangesMargin : RootCommand → Prop
  | .setLeverage _ | .setMarginMode _ => True
  | _ => False

/-- Every recovery is started for a target of the command that has been remembered before. -/
def RecoveriesTracked (command : RootCommand) (τ : CommandTrace) : Prop :=
  ∀ later earlier ack, τ = later ++ ⟨.spawnReconcile ack, ()⟩ :: earlier →
    ∃ target ∈ command.targets,
      target.Names command.operation ack.receipt ∧ Remembered command.operation target earlier

end RootCommand

section Commands

variable {context : CommandContext} {operation : CommandOperation} {targets : List OrderTarget}

theorem tracked_ofAck {x : CommandE CommandAck}
    (hx : Yields (TrackedBefore operation targets) (fun _ => True) x) :
    Yields (TrackedBefore operation targets) (fun _ => True) (RootCommand.ofAck x) :=
  hx.attempt fun _ _ => yields_pure trivial

theorem tracked_ofAcks {x : CommandE (List CommandAck)} {receivers : ℕ}
    (hx : Yields (TrackedBefore operation targets) (fun _ => True) x) :
    Yields (TrackedBefore operation targets) (fun _ => True) (RootCommand.ofAcks x receivers) :=
  hx.attempt fun _ _ => yields_pure trivial

/-- A receipt whose execution is known starts no recovery. -/
theorem tracked_finishReceipt {receipt : CommandReceipt}
    (hknown : receipt.status ≠ .unknownExecution) :
    Yields (TrackedBefore operation targets) (fun _ => True) (finishReceipt receipt) := by
  have happly : Yields (TrackedBefore operation targets) (fun _ => True)
      (applyCommandReceipt receipt .rest) := by
    refine fun τ => ⟨trivial, fun acknowledgedAt => ⟨trivial, fun _ => ⟨trivial, fun _ => ?_⟩⟩⟩
    refine ⟨trivial, fun _ => ?_⟩
    rw [if_neg hknown]
    exact fun _ _ => trivial
  exact happly.attempt fun _ _ => yields_pure trivial

theorem tracked_fromReceipt {x : CommandE CommandReceipt} {transport : CommandTransport}
    (hx : Yields (TrackedBefore operation targets) (fun _ => True) x) :
    Yields (TrackedBefore operation targets) (fun _ => True)
      (do return [← PendingCommandHandle.fromReceipt (← x) transport]) :=
  hx.attempt fun _ _ _ => ⟨trivial, fun _ _ _ => trivial⟩

theorem tracked_cancelAllOrders (request : CancelAllOrdersRequest) :
    Yields (TrackedBefore operation targets) (fun _ => True) (cancelAllOrders context request) := by
  unfold cancelAllOrders
  split
  · exact yields_throw_bind _
  · exact ((silently_sendCancelAllOrders request).imp trackedBefore_of_silent).attempt
      fun _ hknown => tracked_finishReceipt hknown

theorem tracked_validateOrder (request : ValidateOrderRequest) :
    Yields (TrackedBefore operation targets) (fun _ => True) (validateOrder context request) := by
  unfold validateOrder
  refine ((preparing_validateCreateOrder _).silently.imp trackedBefore_of_silent).attempt
    fun _ _ => ?_
  refine ((silently_commandSpec _).imp trackedBefore_of_silent).attempt fun spec _ => ?_
  exact ((silently_sendValidateOrder spec _).imp trackedBefore_of_silent).attempt
    fun _ _ => tracked_finishReceipt (fun h => nomatch h)

theorem tracked_setPositionMode (request : SetPositionModeRequest) :
    Yields (TrackedBefore operation targets) (fun _ => True) (setPositionMode context request) :=
  ((silently_sendSetPositionMode request).imp trackedBefore_of_silent).attempt
    fun _ hknown => tracked_finishReceipt hknown

theorem tracked_rootCommand {command : RootCommand} (h : ¬ command.ChangesMargin) :
    Yields (TrackedBefore command.operation command.targets) (fun _ => True)
      (command.run context) := by
  cases command with
  | createOrder request => exact tracked_ofAck ((ackLogic_tracked _).createOrder request)
  | createOrders request => exact tracked_ofAcks ((ackLogic_tracked _).createOrders request)
  | editOrder request => exact tracked_ofAck ((ackLogic_tracked _).amendOrder request)
  | editOrders request => exact tracked_ofAcks ((ackLogic_tracked _).amendOrders request)
  | cancelOrder request => exact tracked_ofAck ((ackLogic_tracked _).cancelOrder request)
  | cancelOrders request => exact tracked_ofAcks ((ackLogic_tracked _).cancelOrders request)
  | closePosition request => exact tracked_ofAck ((ackLogic_tracked _).closePosition request)
  | cancelAllOrders request => exact tracked_fromReceipt (tracked_cancelAllOrders request)
  | validateOrder request => exact tracked_fromReceipt (tracked_validateOrder request)
  | setLeverage request => exact absurd trivial h
  | setMarginMode request => exact absurd trivial h
  | setPositionMode request => exact tracked_fromReceipt (tracked_setPositionMode request)
  | webSocketOnly command =>
    show Yields _ _ (command.run context)
    rw [command.run_eq]
    cases command with
    | createOrder request => exact tracked_ofAck ((ackLogic_tracked _).createOrder request)
    | createOrders request => exact tracked_ofAcks ((ackLogic_tracked _).createOrders request)
    | editOrder request => exact tracked_ofAck ((ackLogic_tracked _).amendOrder request)
    | editOrders request => exact tracked_ofAcks ((ackLogic_tracked _).amendOrders request)
    | cancelOrder request => exact tracked_ofAck ((ackLogic_tracked _).cancelOrder request)
    | cancelOrders request => exact tracked_ofAcks ((ackLogic_tracked _).cancelOrders request)
    | cancelAllOrders request => exact tracked_fromReceipt (tracked_cancelAllOrders request)

/-! ### Leverage and margin mode -/

/-- The call does not remember a pending command. -/
def CommandCall.RemembersNothing : CommandCall → Prop
  | .runtime (.cachePendingUnknown _) => False
  | _ => True

theorem remembersNothing_of_silent (_ : CommandTrace) (q : CommandCall) (hq : q.Silent) :
    q.RemembersNothing := by
  cases q with
  | runtime q =>
    cases q with
    | cachePendingUnknown pending => exact hq.elim
    | _ => trivial
  | _ => trivial

/-- The program remembers no pending command. -/
abbrev RemembersNothing {α : Type} (x : CommandE α) : Prop :=
  Yields (fun _ q => q.RemembersNothing) (fun _ => True) x

theorem remembersNothing_finishReceipt (receipt : CommandReceipt) :
    RemembersNothing (finishReceipt receipt) := by
  have happly : RemembersNothing (applyCommandReceipt receipt .rest) := by
    refine fun τ => ⟨trivial, fun acknowledgedAt => ⟨trivial, fun _ => ⟨trivial, fun _ => ?_⟩⟩⟩
    refine ⟨trivial, fun _ => ?_⟩
    split
    · exact ⟨trivial, fun _ => ⟨trivial, fun _ _ _ => trivial⟩⟩
    · exact fun _ _ => trivial
  exact happly.attempt fun _ _ => yields_pure trivial

theorem remembersNothing_fromReceipt {x : CommandE CommandReceipt} (hx : RemembersNothing x) :
    RemembersNothing (RootCommand.ofReceipt x) :=
  hx.attempt fun _ _ _ => ⟨trivial, fun _ _ _ => trivial⟩

theorem remembersNothing_changesMargin {command : RootCommand} (h : command.ChangesMargin) :
    RemembersNothing (command.run context) := by
  cases command with
  | setLeverage request =>
    refine remembersNothing_fromReceipt (x := setLeverage context request) ?_
    refine ((silently_commandSpec _).imp remembersNothing_of_silent).attempt fun spec _ => ?_
    exact ((silently_sendSetLeverage spec request).imp remembersNothing_of_silent).attempt
      fun receipt _ => remembersNothing_finishReceipt receipt
  | setMarginMode request =>
    refine remembersNothing_fromReceipt (x := setMarginMode context request) ?_
    refine ((silently_sendSetMarginMode request).imp remembersNothing_of_silent).attempt
      fun receipt _ => ?_
    split
    · exact (yields_perform (fun _ => trivial) fun _ => trivial).attempt
        fun _ _ => remembersNothing_finishReceipt receipt
    · exact remembersNothing_finishReceipt receipt
  | createOrder request => exact h.elim
  | createOrders request => exact h.elim
  | editOrder request => exact h.elim
  | editOrders request => exact h.elim
  | cancelOrder request => exact h.elim
  | cancelOrders request => exact h.elim
  | closePosition request => exact h.elim
  | cancelAllOrders request => exact h.elim
  | validateOrder request => exact h.elim
  | setPositionMode request => exact h.elim
  | webSocketOnly command => exact h.elim

theorem mem_spawned_iff {ack : CommandAck} {τ : CommandTrace} :
    ack ∈ spawned τ ↔ ⟨.spawnReconcile ack, ()⟩ ∈ τ := by
  unfold spawned
  rw [List.mem_filterMap]
  constructor
  · rintro ⟨⟨q, r⟩, he, hq⟩
    cases q with
    | spawnReconcile ack' =>
      obtain rfl := Option.some.inj hq
      exact he
    | _ => cases hq
  · exact fun he => ⟨_, he, rfl⟩

/-- Such a command recovers what it has not remembered. -/
theorem not_recoveriesTracked {command : RootCommand} {τ : CommandTrace}
    {r : Except Failure (List PendingCommandHandle)} (hmargin : command.ChangesMargin)
    (hrun : (command.run context).run.Ends [] τ r) (hrecovery : spawned τ ≠ []) :
    ¬ command.RecoveriesTracked τ := by
  intro htracked
  -- some recovery has been started, and nothing has been remembered
  obtain ⟨ack, hack⟩ := List.exists_mem_of_ne_nil _ hrecovery
  have hspawn : ⟨.spawnReconcile ack, ()⟩ ∈ τ := mem_spawned_iff.1 hack
  obtain ⟨later, earlier, hτ⟩ := List.append_of_mem hspawn
  obtain ⟨target, -, -, recordedAt, hmem⟩ := htracked later earlier ack hτ
  have hremembered : Remembered command.operation target τ := by
    refine ⟨recordedAt, ?_⟩
    rw [hτ]
    exact List.mem_append_right _ (List.mem_cons_of_mem _ hmem)
  obtain ⟨recordedAt, hmem⟩ := hremembered
  obtain ⟨later, earlier, hτ⟩ := List.append_of_mem hmem
  have hnone : CommandCall.RemembersNothing (.runtime (.cachePendingUnknown _)) :=
    hrun.permitted (remembersNothing_changesMargin hmargin []) hτ (Nat.zero_le _)
  exact hnone

/-- **Uncertain commands are tracked, exactly.**  In every run of a command that starts a recovery,
each recovery is for a target that the receipt names and that has been remembered as pending before,
exactly when the command is not one that changes the leverage or the margin mode. -/
theorem recoveries_tracked_iff (command : RootCommand) {τ : CommandTrace}
    {r : Except Failure (List PendingCommandHandle)}
    (hrun : (command.run context).run.Ends [] τ r) (hrecovery : spawned τ ≠ []) :
    command.RecoveriesTracked τ ↔ ¬ command.ChangesMargin := by
  constructor
  · intro htracked hmargin
    exact not_recoveriesTracked hmargin hrun hrecovery htracked
  · rintro hmargin later earlier ack hτ
    exact hrun.permitted (tracked_rootCommand hmargin []) hτ (Nat.zero_le _)

end Commands

/-! ### What the recovery of a command that is not remembered reports -/

/-- Every look at the list of pending commands finds it empty. -/
def NothingPending (τ : RuntimeTrace) : Prop :=
  ∀ pending, ⟨.pendingUnknownCommands, pending⟩ ∈ τ → pending = []

/-- A step, in the runs in which nothing is pending. -/
def ResolvesNone (x : RuntimeE ℕ) : Prop :=
  ∀ τ, x.run.Spec (fun _ _ => True) (fun τ' r => NothingPending τ' → ∀ n, r = .ok n → n = 0) τ

/-- What comes before does not matter. -/
theorem ResolvesNone.after {α : Type} {x : RuntimeE α} {f : α → RuntimeE ℕ}
    (hf : ∀ a, ResolvesNone (f a)) : ResolvesNone (x >>= f) := by
  refine fun τ => spec_attempt ((spec_suffix x.run τ).mono (fun _ _ h => h) fun τ' r _ => ?_)
  cases r with
  | ok a => exact hf a τ'
  | error e => exact fun _ n hn => nomatch hn

theorem resolvesNone_resolvePending (context : LiveContext) :
    ResolvesNone (resolvePendingUnknownCommands context) := by
  refine fun τ => ⟨trivial, fun pending => spec_assume (fun e τ hU p hp => ?_) fun hnone => ?_⟩
  · exact hU p (List.mem_cons_of_mem _ hp)
  · obtain rfl : pending = [] := hnone pending (by simp)
    rintro - n hn
    exact (Except.ok.inj hn).symm

theorem resolvesNone_reconcileSteps (context : LiveContext) :
    ResolvesNone (reconcileSteps context .unknownExecution .recentHistoryRepair) :=
  .after fun _ => .after fun _ => .after fun _ => .after fun _ =>
    resolvesNone_resolvePending context

/-- A reconcile that finds nothing pending has nothing but success to report. -/
theorem spec_reconcile_none (context : LiveContext) :
    (reconcilePrivate context .unknownExecution).run.Spec (fun _ _ => True)
      (fun τ r => NothingPending τ → ∀ report, r = .ok report → report.outcome = .synchronized)
      [] := by
  refine ⟨trivial, fun repairedAt => ?_⟩
  have hsteps := resolvesNone_reconcileSteps context [⟨.timestampNowMs, repairedAt⟩]
  show Prog.Spec _ _ ((reconcileSteps context .unknownExecution .recentHistoryRepair).run >>= _) _
  refine spec_bind.2 (hsteps.mono (fun _ _ h => h) fun τ r hr => ⟨trivial, fun _ => ?_⟩)
  intro hnone report hreport
  cases r with
  | error e => cases hreport
  | ok n =>
    obtain rfl : n = 0 := hr (fun p hp => hnone p (List.mem_cons_of_mem _ hp)) n rfl
    obtain rfl := Except.ok.inj hreport
    rfl

/-- A recovery that finds nothing pending reports success, whatever became of its command. -/
theorem synchronized_of_nothing_pending {context : LiveContext} {ack : CommandAck}
    {σ : CommandTrace} (hrun : (recoverCommand context ack).Ends [] σ ())
    (hnone : ∀ pending, ⟨.runtime .pendingUnknownCommands, pending⟩ ∈ σ → pending = []) :
    ∀ report ∈ completions ack σ, report.outcome = .synchronized := by
  have hspec : (recoverCommand context ack).Spec (fun _ _ => True) (fun σ _ =>
      (∀ pending, ⟨.runtime .pendingUnknownCommands, pending⟩ ∈ σ → pending = []) →
      ∀ report ∈ completions ack σ, report.outcome = .synchronized) [] := by
    refine spec_bind.2 ((spec_liftRuntime (spec_reconcile_none context)).mono (fun _ _ h => h) ?_)
    rintro σ _ ⟨τ, r, rfl, hreport, rfl⟩
    rw [List.append_nil]
    cases r with
    | error e =>
      intro _ report hmem
      rw [completions_map_liftEvent] at hmem
      cases hmem
    | ok report =>
      refine ⟨trivial, fun _ hnone report' hmem => ?_⟩
      -- the only report is the one of the reconcile
      have hevents := completions_map_liftEvent ack τ
      unfold completions at hevents hmem
      rw [List.filterMap_cons_some (b := report) (by simp), hevents, List.mem_singleton] at hmem
      rw [hmem]
      refine hreport (fun p hp => hnone p ?_) report rfl
      exact List.mem_cons_of_mem _ (List.mem_map.2 ⟨_, hp, rfl⟩)
  exact hrun.post hspec hnone

/-! ### A lost change of the leverage -/

/-- A Bybit account without positions and open orders. -/
def flatAccount : LiveWorld where
  engine := .new .bybit .linearUsdt ⟨16, 16⟩ []
  bybitAccountContext := some "UNIFIED"
  catalog := fun _ => some (.active .bybit "BTC/USDT:USDT" "BTCUSDT" 2 3)
  venueReply
    | .account, _ => .ok ⟨[], none⟩
    | .positions, _ => .ok []
    | .openOrders, _ => .ok []
    | _, _ => .error { kind := .timeout, message := "no reply" }

/-- The account is known, but what is sent to it gets no reply. -/
def lostWrites : (q : CommandCall) → Unit → CommandReply q × Unit
  | .runtime q, _ => ((LiveWorld.reply q flatAccount).1, ())
  | q, _ => staticReply (.active .bybit "BTC/USDT:USDT" "BTCUSDT" 2 3)
      (.error { kind := .timeout, message := "no reply" }) q ()

/-- Set the leverage of an instrument to ten. -/
def leverageCommand : RootCommand := .setLeverage ⟨none, ⟨"BTC/USDT:USDT"⟩, ⟨.ofNat 10⟩⟩

/-- The calls of the command, and those of its recovery. -/
def leverageTrace : CommandTrace :=
  execTrace lostWrites (leverageCommand.run (restContext .bybit)).run () []

/-- The acknowledgement of that command when its request is lost. -/
def leverageAck : CommandAck := ⟨unknownExecution .bybit .setLeverage none, .rest, 0⟩

/-- The recovery of that command when every request is lost. -/
def leverageRecovery : CommandTrace :=
  execTrace lostWrites (recoverCommand (restContext .bybit).toLiveContext leverageAck) () []

/-- The change of the leverage is recovered without having been remembered, and the recovery makes an
accepted command of it. -/
theorem lost_leverage_accepted :
    ∃ r, (leverageCommand.run (restContext .bybit)).run.Ends [] leverageTrace r ∧
      spawned leverageTrace = [leverageAck] ∧ ¬ leverageCommand.RecoveriesTracked leverageTrace ∧
      (recoverCommand (restContext .bybit).toLiveContext leverageAck).Ends [] leverageRecovery () ∧
      ∃ report, completions leverageAck leverageRecovery = [report] ∧
        (receiptAfterRecovery leverageAck.receipt report).status = .accepted := by
  have hspawned : spawned leverageTrace = [leverageAck] := rfl
  refine ⟨_, ends_exec _, hspawned, ?_, ends_exec _, _, rfl, rfl⟩
  have hrecovery : spawned leverageTrace ≠ [] := by
    rw [hspawned]
    exact List.cons_ne_nil _ _
  have hrun : (leverageCommand.run (restContext .bybit)).run.Ends [] leverageTrace _ := ends_exec _
  exact not_recoveriesTracked trivial hrun hrecovery

theorem recoveries_tracked_iff_leverage :
    leverageCommand.RecoveriesTracked leverageTrace ↔ ¬ leverageCommand.ChangesMargin :=
  recoveries_tracked_iff leverageCommand (ends_exec _) (List.cons_ne_nil leverageAck [])

end BatMarkets
