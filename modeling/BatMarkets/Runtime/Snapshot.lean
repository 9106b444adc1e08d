import BatMarkets.Adapter.OrderSnapshot
import BatMarkets.Interleaving.Pool
import BatMarkets.Runtime.PrivateRecords
import BatMarkets.Runtime.Recovery

/-!
# Snapshots and the private stream

The positions and orders of the engine state are kept up to date by stream events and, now and then,
overwritten by what a refresh or a reconcile has read over REST.  A task reads, waits, and writes
later, so a write may be older than the events applied in between.

`snapshotInterpretation` runs any number of refreshes of the positions, refreshes of the open orders
and reconciles (`runtime.rs`) while the venue changes and its stream events are applied in order.
A request is answered by what the venue shows at that moment; all calls that do not concern
positions or orders may be answered by anything.  A conditional order of Binance looks different in
a reply: REST tells nothing of what is filled, and the adapter takes it for nothing
(`Order.restView`).

## Main results

* `always_snapshotTask` : the tasks write only what they have read since their last write.
* `view_algoOrderFromSnapshot` : the adapter decodes the records of a conditional order into what
  `Order.restView` says.
* `engine_agrees_of_writesInTime` : in a run whose writes are all in time (`WritesInTime`), the
  engine agrees with the venue whenever all stream events have been applied.
* `stale_snapshot_rolls_back` : a snapshot that is read before a change and written after its event
  leaves the engine with the old position.
-/

namespace BatMarkets

open Interleaving Ordered Replication RuntimeM Transition

/-- The calls and replies of a task, latest first. -/
abbrev SnapshotTrace := List (Event RuntimeCall RuntimeReply)

/-! ### What the tasks write -/

/-- The call writes to the engine state. -/
def RuntimeCall.isWrite : RuntimeCall → Bool
  | .write _ => true
  | _ => false

/-- The calls of a task since its last write. -/
def sinceWrite (τ : SnapshotTrace) : SnapshotTrace := τ.takeWhile fun e => !e.1.isWrite

/-- The operation leaves positions and orders alone. -/
def EngineOp.LeavesRecords : EngineOp → Prop
  | .replaceAccountSnapshot _ | .mergeExecutions _ | .applyReconcileReport _ | .markRestSuccess _
  | .markSnapshotAge _ _ => True
  | _ => False

/-- The operation writes the records of one of the readings. -/
inductive Backed (context : LiveContext) (readings : SnapshotTrace) : EngineOp → Prop
  | other {op : EngineOp} : op.LeavesRecords → Backed context readings op
  | accountAndPositions {request : SignedGet} {account : AccountSnapshot} {ps : List Position} :
      ⟨.signedGet .accountAndPositions request, .ok (account, ps)⟩ ∈ readings →
        Backed context readings (.replacePositions ps)
  | positions {request : SignedGet} {ps : List Position} :
      ⟨.signedGet .positions request, .ok ps⟩ ∈ readings →
        Backed context readings (.replacePositions ps)
  | openOrders {request : SignedGet} {os : List Order} : context.venue ≠ .binance →
      ⟨.signedGet .openOrders request, .ok os⟩ ∈ readings →
        Backed context readings (.replaceOpenOrders os)
  | openAndAlgoOrders {request request' : SignedGet} {os os' : List Order} :
      context.venue = .binance → ⟨.signedGet .openOrders request, .ok os⟩ ∈ readings →
      ⟨.signedGet .openAlgoOrders request', .ok os'⟩ ∈ readings →
        Backed context readings (.replaceOpenOrders (os ++ os'))
  | order {request : SignedGet} {o : Order} :
      ⟨.signedGet .order request, .ok o⟩ ∈ readings →
        Backed context readings (.applyPrivateEvent (.order o))
  | orderHistory {request : SignedGet} {os : List Order} :
      ⟨.signedGet .orderHistory request, .ok os⟩ ∈ readings →
        Backed context readings (.mergeOrderHistory os)

/-- A task writes only what it has read since its last write. -/
def WritesReadings (context : LiveContext) (τ : SnapshotTrace) : RuntimeCall → Prop
  | .write ops => ∀ op ∈ ops, Backed context (sinceWrite τ) op
  | _ => True

section Tasks

variable {context : LiveContext} {τ : SnapshotTrace}

/-- The specification of a step that reads something for `op` to write. -/
def ReadsFor {ρ : Type} (context : LiveContext) (op : ρ → EngineOp) (x : RuntimeE ρ) : Prop :=
  ∀ τ, x.run.Spec (WritesReadings context)
    (fun τ r => ∀ a, r = .ok a → Backed context (sinceWrite τ) (op a)) τ

theorem ReadsFor.attempt {ρ α : Type} {op : ρ → EngineOp} {x : RuntimeE ρ} {f : ρ → RuntimeE α}
    (hx : ReadsFor context op x)
    (hf : ∀ τ a, Backed context (sinceWrite τ) (op a) →
      (f a).run.Spec (WritesReadings context) (fun _ _ => True) τ) :
    (x >>= f).run.Always (WritesReadings context) := by
  refine fun τ => Prog.spec_attempt ((hx τ).mono (fun _ _ hq => hq) fun τ r hr => ?_)
  cases r with
  | ok a => exact hf τ a (hr a rfl)
  | error e => trivial

/-- The rule for one request that is read for `op`. -/
theorem readsFor_signedGet (decoder : Decoder) {op : decoder.Output → EngineOp}
    (hop : ∀ request a readings, ⟨.signedGet decoder request, .ok a⟩ ∈ readings →
      Backed context readings (op a))
    (path : String) (query : List (String × String)) (operation : String) :
    ReadsFor context op (signedGet decoder path query operation) := by
  refine fun τ => ⟨trivial, fun r a hr => ?_⟩
  obtain rfl : r = .ok a := hr
  exact hop _ a _ List.mem_cons_self

theorem ReadsFor.of_attempt {ρ σ : Type} {op : ρ → EngineOp} {x : RuntimeE σ} {f : σ → RuntimeE ρ}
    (hx : x.run.Always (WritesReadings context)) (hf : ∀ a, ReadsFor context op (f a)) :
    ReadsFor context op (x >>= f) := by
  refine fun τ => Prog.spec_attempt ((hx τ).mono (fun _ _ hq => hq) fun τ r _ => ?_)
  cases r with
  | ok a => exact hf a τ
  | error e =>
    intro a h
    cases h

/-- The rule for a write of backed operations at the end of a refresh. -/
theorem spec_write {α : Type} {ops : List EngineOp} {rest : RuntimeE α}
    (hops : ∀ op ∈ ops, Backed context (sinceWrite τ) op)
    (hrest : rest.run.Always (WritesReadings context)) :
    ((do RuntimeM.write ops; rest : RuntimeE α).run).Spec (WritesReadings context)
      (fun _ _ => True) τ :=
  ⟨hops, fun _ => hrest _⟩

theorem always_return {α : Type} (a : α) :
    (return a : RuntimeE α).run.Always (WritesReadings context) := fun _ => trivial

theorem always_requireSpec (i : InstrumentId) :
    (requireSpec context i).run.Always (WritesReadings context) := by
  refine fun τ => ⟨trivial, fun spec => ?_⟩
  cases spec <;> trivial

/-- A backed operation and operations that leave the records alone. -/
theorem backed_pair {op op' : EngineOp} (h : Backed context (sinceWrite τ) op)
    (h' : op'.LeavesRecords) : ∀ o ∈ [op, op'], Backed context (sinceWrite τ) o :=
  List.forall_mem_cons.2 ⟨h, List.forall_mem_singleton.2 (.other h')⟩

theorem backed_account {account : AccountSnapshot} {ps : List Position}
    (h : Backed context (sinceWrite τ) (.replacePositions ps)) :
    ∀ op ∈ [.replaceAccountSnapshot account, .replacePositions ps, .markRestSuccess none],
      Backed context (sinceWrite τ) op :=
  List.forall_mem_cons.2 ⟨.other trivial, backed_pair h trivial⟩

theorem readsFor_accountAndPositions (operation : String) :
    ReadsFor context (fun reply : AccountSnapshot × List Position => .replacePositions reply.2)
      (signedGet .accountAndPositions "/fapi/v3/account" [] operation) :=
  readsFor_signedGet .accountAndPositions (fun _ _ _ h => .accountAndPositions h) _ _ _

theorem always_fetchBalance : (fetchBalance context).run.Always (WritesReadings context) := by
  have hread : ∀ (path : String) (query : List (String × String)) (operation : String),
      ReadsFor context (fun account => .replaceAccountSnapshot account)
        (signedGet .account path query operation) :=
    readsFor_signedGet _ fun _ _ _ _ => .other trivial
  obtain ⟨venue, product, stale⟩ := context
  cases venue with
  | binance =>
    exact (readsFor_accountAndPositions "binance.account").attempt fun τ reply h =>
      spec_write (backed_account h) (always_return _)
  | bybit =>
    refine Prog.Always.attempt ?_ fun walletAccountType => (hread _ _ _).attempt fun τ account h =>
      spec_write (backed_pair h trivial) (always_return _)
    refine fun τ => ⟨trivial, fun cached => ?_⟩
    cases cached with
    | some cached => trivial
    | none => exact spec_signedGet trivial (fun _ => trivial) fun _ => ⟨trivial, fun _ => trivial⟩
  | mexc =>
    exact (hread _ _ _).attempt fun τ account h =>
      spec_write (backed_pair h trivial) (always_return _)

theorem always_refreshPositions :
    (refreshPositions context).run.Always (WritesReadings context) := by
  have hread : ∀ (path : String) (query : List (String × String)) (operation : String),
      ReadsFor context .replacePositions (signedGet .positions path query operation) :=
    readsFor_signedGet _ fun _ _ _ h => .positions h
  obtain ⟨venue, product, stale⟩ := context
  cases venue with
  | binance =>
    exact (readsFor_accountAndPositions "binance.positions").attempt fun τ reply h =>
      spec_write (backed_account h) (always_return _)
  | bybit =>
    exact (hread _ _ _).attempt fun τ ps h => spec_write (backed_pair h trivial) (always_return _)
  | mexc =>
    exact (hread _ _ _).attempt fun τ ps h => spec_write (backed_pair h trivial) (always_return _)

/-- Open orders are read with one request, or with two at Binance. -/
theorem readsFor_fetchOpenOrders (request : Option ListOpenOrdersRequest) :
    ReadsFor context .replaceOpenOrders (fetchOpenOrders context request) := by
  obtain ⟨venue, product, stale⟩ := context
  cases venue with
  | binance =>
    have hread : ∀ pairs, ReadsFor ⟨.binance, product, stale⟩ .replaceOpenOrders (do
        let orders ← signedGet .openOrders "/fapi/v1/openOrders" pairs "binance.open_orders"
        let algoOrders ← signedGet .openAlgoOrders "/fapi/v1/openAlgoOrders" pairs
          "binance.open_algo_orders"
        return orders ++ algoOrders) := by
      refine fun pairs τ => spec_signedGet trivial (fun _ _ h => by cases h) fun os => ?_
      refine spec_signedGet trivial (fun _ _ h => by cases h) fun os' a ha => ?_
      rw [← Except.ok.inj ha]
      exact .openAndAlgoOrders rfl (List.mem_cons_of_mem _ List.mem_cons_self) List.mem_cons_self
    unfold fetchOpenOrders
    dsimp only
    cases request.bind (·.instrumentId) with
    | none => exact hread _
    | some i => exact .of_attempt (always_requireSpec i) fun _ => hread _
  | bybit =>
    have hread : ∀ pairs, ReadsFor ⟨.bybit, product, stale⟩ .replaceOpenOrders
        (signedGet .openOrders "/v5/order/realtime" pairs "bybit.open_orders") := fun pairs =>
      readsFor_signedGet _ (fun _ _ _ h => .openOrders (by simp) h) _ _ _
    unfold fetchOpenOrders
    dsimp only
    cases request.bind (·.instrumentId) with
    | none => exact hread _
    | some i => exact .of_attempt (always_requireSpec i) fun _ => hread _
  | mexc =>
    have hread : ∀ path, ReadsFor ⟨.mexc, product, stale⟩ .replaceOpenOrders
        (signedGet .openOrders path [] "mexc.open_orders") := fun path =>
      readsFor_signedGet _ (fun _ _ _ h => .openOrders (by simp) h) _ _ _
    unfold fetchOpenOrders
    dsimp only
    cases request.bind (·.instrumentId) with
    | none => exact hread _
    | some i => exact .of_attempt (always_requireSpec i) fun _ => hread _

theorem always_refreshOpenOrders (request : Option ListOpenOrdersRequest) :
    (refreshOpenOrders context request).run.Always (WritesReadings context) :=
  (readsFor_fetchOpenOrders request).attempt fun _ _ h =>
    spec_write (backed_pair h trivial) (always_return _)

theorem always_getOrder (request : GetOrderRequest) :
    (getOrder context request).run.Always (WritesReadings context) := by
  refine (always_requireSpec _).attempt fun spec => ?_
  cases orderLookup context spec request with
  | error e => exact fun τ => trivial
  | ok lookup =>
    have hread : ReadsFor context (fun o => .applyPrivateEvent (.order o))
        (signedGet .order lookup.path lookup.query lookup.operation) :=
      readsFor_signedGet .order (fun _ _ _ h => .order h) _ _ _
    refine hread.attempt fun τ o h => spec_write (List.forall_mem_singleton.2 h) fun τ => ?_
    exact spec_write (List.forall_mem_singleton.2 (.other trivial)) (always_return _)

/-! ### What a reconcile writes -/

theorem always_repairTimeWindow (i : InstrumentId) (pending : List PendingUnknownCommand) :
    (repairTimeWindow i pending).Always (WritesReadings context) :=
  fun _ => ⟨trivial, fun _ => ⟨trivial, fun _ => ⟨trivial, fun _ => trivial⟩⟩⟩

theorem always_liftM {α : Type} {t : RuntimeM α} (h : t.Always (WritesReadings context)) :
    (liftM t : RuntimeE α).run.Always (WritesReadings context) :=
  h.bind fun _ _ => trivial

theorem readsFor_refreshRecentOrderHistory (i : InstrumentId)
    (pending : List PendingUnknownCommand) :
    ReadsFor context .mergeOrderHistory (refreshRecentOrderHistory context i pending) :=
  .of_attempt (always_requireSpec i) fun _ =>
    .of_attempt (always_liftM (always_repairTimeWindow i pending)) fun _ =>
      readsFor_signedGet _ (fun _ _ _ h => .orderHistory h) _ _ _

theorem readsFor_refreshRecentExecutionHistory (i : InstrumentId)
    (pending : List PendingUnknownCommand) :
    ReadsFor context .mergeExecutions (refreshRecentExecutionHistory context i pending) := by
  refine .of_attempt (always_liftM (always_repairTimeWindow i pending)) fun _ =>
    .of_attempt (always_requireSpec i) fun _ => readsFor_signedGet _ (fun _ _ _ _ => ?_) _ _ _
  exact .other trivial

/-- What is read for a merge may be merged. -/
theorem spec_writeHistory {ρ α : Type} {merge : List ρ → EngineOp} {records : List ρ}
    {rest : RuntimeE α} (h : Backed context (sinceWrite τ) (merge records))
    (hrest : rest.run.Always (WritesReadings context)) :
    ((do writeHistory merge records; rest : RuntimeE α).run).Spec (WritesReadings context)
      (fun _ _ => True) τ := by
  refine spec_write (fun op hop => ?_) hrest
  rcases List.mem_append.1 hop with hop | hop
  · split at hop
    · cases hop
    · rwa [List.mem_singleton.1 hop]
  · rw [List.mem_singleton.1 hop]
    exact .other trivial

theorem always_refreshExecutionsOfGroups
    (groups : List (InstrumentId × List PendingUnknownCommand)) :
    (refreshExecutionsOfGroups context groups).run.Always (WritesReadings context) := by
  induction groups with
  | nil => exact always_return ()
  | cons group groups ih =>
    refine fun τ => ⟨trivial, fun spec => ?_⟩
    cases spec with
    | none => exact ih _
    | some spec =>
      exact (readsFor_refreshRecentExecutionHistory group.1 group.2).attempt
        (fun τ records h => spec_writeHistory h ih) _

theorem always_refreshExecutionRepairEvidence :
    (refreshExecutionRepairEvidence context).run.Always (WritesReadings context) :=
  fun _ => ⟨trivial, fun _ => ⟨trivial, fun _ => always_refreshExecutionsOfGroups _ _⟩⟩

theorem always_resolvePendingFromLocalState (pending : List PendingUnknownCommand) :
    (resolvePendingFromLocalState pending).Always (WritesReadings context) := by
  unfold resolvePendingFromLocalState
  split
  · exact fun _ => trivial
  · exact fun _ => ⟨trivial, fun _ => trivial⟩

theorem always_lookupOrder (command : PendingUnknownCommand) :
    (lookupOrder context command).run.Always (WritesReadings context) := by
  unfold lookupOrder
  rw [ExceptT.run_mk]
  split
  · refine (always_getOrder command.orderRequest).bind fun r => ?_
    cases r with
    | ok o => exact fun _ => trivial
    | error e =>
      dsimp only
      split <;> exact fun _ => trivial
  · exact fun _ => trivial

theorem always_lookupOrders (pending : List PendingUnknownCommand) :
    (lookupOrders context pending).run.Always (WritesReadings context) := by
  induction pending with
  | nil => exact always_return []
  | cons command pending ih =>
    refine (always_lookupOrder command).attempt fun resolved => ih.attempt fun unresolved => ?_
    exact always_return _

theorem always_resolveGroups {ρ : Type}
    {refresh : InstrumentId → List PendingUnknownCommand → RuntimeE (List ρ)}
    {merge : List ρ → EngineOp}
    {unresolvedAfter : List PendingUnknownCommand → List ρ → List PendingUnknownCommand}
    (hrefresh : ∀ i commands, ReadsFor context merge (refresh i commands))
    (groups : List (InstrumentId × List PendingUnknownCommand)) :
    (resolveGroups refresh merge unresolvedAfter groups).run.Always (WritesReadings context) := by
  induction groups with
  | nil => exact always_return []
  | cons group groups ih =>
    exact (hrefresh group.1 group.2).attempt fun τ records h =>
      spec_writeHistory h (ih.attempt fun unresolved => always_return _)

theorem always_replacePending (pending : List PendingUnknownCommand) {α : Type} (a : α) :
    (do replacePendingUnknownCommands pending; return a : RuntimeE α).run.Always
      (WritesReadings context) :=
  fun _ => ⟨trivial, fun _ => trivial⟩

theorem always_resolvePendingUnknownCommands :
    (resolvePendingUnknownCommands context).run.Always (WritesReadings context) := by
  have hlocal : ∀ pending, (liftM (resolvePendingFromLocalState pending) :
      RuntimeE (List PendingUnknownCommand)).run.Always (WritesReadings context) :=
    fun pending => always_liftM (always_resolvePendingFromLocalState pending)
  refine Prog.Always.attempt (fun _ => ⟨trivial, fun _ => trivial⟩) fun pending => ?_
  refine (hlocal pending).attempt fun pending => ?_
  split
  · exact always_return 0
  · refine (always_lookupOrders pending).attempt fun unresolved => ?_
    refine (hlocal unresolved).attempt fun unresolved => ?_
    split
    · exact always_replacePending [] 0
    · refine (always_resolveGroups readsFor_refreshRecentOrderHistory _).attempt fun unresolved => ?_
      split
      · exact always_replacePending [] 0
      · refine (always_resolveGroups readsFor_refreshRecentExecutionHistory _).attempt ?_
        exact fun unresolved => always_replacePending unresolved _

theorem always_reconcileSteps (trigger : ReconcileTrigger) (mode : PrivateReconcileMode) :
    (reconcileSteps context trigger mode).run.Always (WritesReadings context) := by
  refine Prog.Always.attempt (always_fetchBalance.attempt fun _ => always_return _) fun _ => ?_
  refine always_refreshPositions.attempt fun _ => (always_refreshOpenOrders none).attempt fun _ => ?_
  cases mode with
  | snapshotOnly => exact always_return 0
  | recentHistoryRepair =>
    refine Prog.Always.attempt (x := (liftM (read .health) : RuntimeE HealthReport))
      (fun _ => ⟨trivial, fun _ => trivial⟩) fun health => ?_
    cases executionRepairScope trigger health with
    | localEvidence =>
      exact always_refreshExecutionRepairEvidence.attempt fun _ =>
        always_resolvePendingUnknownCommands
    | pendingUnknownOnly => exact always_resolvePendingUnknownCommands

theorem always_chooseReconcileMode (trigger : ReconcileTrigger) :
    (chooseReconcileMode trigger).Always (WritesReadings context) := by
  cases trigger with
  | periodic => exact fun _ => ⟨trivial, fun _ => ⟨trivial, fun _ => trivial⟩⟩
  | manual | reconnect | sequenceGap | unknownExecution => exact fun _ => trivial

theorem always_reconcilePrivate (trigger : ReconcileTrigger) :
    (reconcilePrivate context trigger).run.Always (WritesReadings context) := by
  refine Prog.Always.bind (fun _ => ⟨trivial, fun _ => trivial⟩) fun repairedAt => ?_
  refine (always_chooseReconcileMode trigger).bind fun mode => ?_
  refine (always_reconcileSteps trigger mode).bind fun result => fun τ => ⟨fun op hop => ?_,
    fun _ => trivial⟩
  cases result with
  | ok n =>
    rw [List.mem_singleton.1 hop]
    exact .other trivial
  | error e =>
    revert op
    exact backed_pair (.other trivial) trivial

end Tasks

/-! ### The runs -/

/-- The engine, and the venue: what it had at first, the changes it has made, and how many of them
have reached the engine as stream events. -/
structure SnapshotWorld where
  engine : EngineState
  start : VenueState
  changes : List VenueChange := []
  applied : Nat := 0

/-- What the venue has. -/
def SnapshotWorld.venue (w : SnapshotWorld) : VenueState := run VenueState.apply w.start w.changes

/-- The regular orders of a venue; conditional orders of Binance have an endpoint of their own. -/
def RegularId (context : LiveContext) (id : OrderId) : Prop :=
  context.venue = .binance → isBinanceAlgoOrderId (some id) = false

instance (context : LiveContext) (id : OrderId) : Decidable (RegularId context id) :=
  inferInstanceAs (Decidable (context.venue = .binance → isBinanceAlgoOrderId (some id) = false))

/-- What a reply shows of an order that a stream message has told.  A reply about a conditional
order has no filled quantity: the adapter takes it for zero, with the status that goes with it. -/
def Order.restView (context : LiveContext) (o : Order) : OrderView :=
  if RegularId context o.orderId then o.view
  else { o.view with
    status := (o.venueStatus.map (Binance.parseAlgoOrderStatus · 0)).getD o.status
    filledQuantity := 0 }

/-- The order of a reply is one of the venue. -/
def VenueState.HasOrder (context : LiveContext) (v : VenueState) (o : Order) : Prop :=
  ∃ q, v.orders.get? o.orderId = some q ∧ o.view = q.restView context

/-- A reply shows the same of the order as the stream. -/
def VenueState.DecodedAlike (context : LiveContext) (v : VenueState) (id : OrderId) : Prop :=
  ∀ q, v.orders.get? id = some q → (q.restView context).shown = q.view.shown

/-- The request is one for all open orders, not for those of one instrument. -/
def SignedGet.AsksForAll (request : SignedGet) : Prop :=
  request.path ∈ ["/fapi/v1/openOrders", "/fapi/v1/openAlgoOrders", "/v5/order/realtime",
      "/api/v1/private/order/list/open_orders"] ∧ ∀ x ∈ request.query, x.1 ≠ "symbol"

/-- The reply has all open orders of its kind, if it is one with open orders. -/
def ListsAllOpen (context : LiveContext) (v : VenueState) :
    Event RuntimeCall RuntimeReply → Prop
  | ⟨.signedGet .openOrders _, .ok os⟩ => v.ListsOpen (RegularId context) os
  | ⟨.signedGet .openAlgoOrders _, .ok os⟩ => v.ListsOpen (¬ RegularId context ·) os
  | _ => True

/-- The reply lists open orders, and the request was not one for all of them. -/
def ListsSome : Event RuntimeCall RuntimeReply → Prop
  | ⟨.signedGet .openOrders request, _⟩ => ¬ request.AsksForAll
  | ⟨.signedGet .openAlgoOrders request, _⟩ => ¬ request.AsksForAll
  | _ => False

/-- The positions and orders of a reply are those of the venue. -/
def RepliesFrom (context : LiveContext) (v : VenueState) : Event RuntimeCall RuntimeReply → Prop
  | ⟨.signedGet .accountAndPositions _, .ok reply⟩ => v.ListsPositions reply.2
  | ⟨.signedGet .positions _, .ok ps⟩ => v.ListsPositions ps
  | ⟨.signedGet .openOrders _, .ok os⟩ =>
    ∀ o ∈ os, v.HasOrder context o ∧ RegularId context o.orderId
  | ⟨.signedGet .openAlgoOrders _, .ok os⟩ =>
    ∀ o ∈ os, v.HasOrder context o ∧ ¬ RegularId context o.orderId
  | ⟨.signedGet .order _, .ok o⟩ => v.HasOrder context o
  | ⟨.signedGet .orderHistory _, .ok os⟩ => ∀ o ∈ os, v.HasOrder context o
  | _ => True

/-- What the venue may answer. -/
structure Answers (context : LiveContext) (v : VenueState) (e : Event RuntimeCall RuntimeReply) :
    Prop where
  records : RepliesFrom context v e
  complete : ¬ ListsSome e → ListsAllOpen context v e

/-- The meaning of the calls. -/
def serveSnapshot (context : LiveContext) (w : SnapshotWorld) :
    (q : RuntimeCall) → RuntimeReply q → SnapshotWorld → Prop
  | .write ops, _, w' => w' = { w with engine := ops.foldl EngineState.apply w.engine }
  | .read what, r, w' => r = what.eval w.engine ∧ w' = w
  | .signedGet decoder request, r, w' =>
    Answers context w.venue ⟨.signedGet decoder request, r⟩ ∧ w' = w
  | _, _, w' => w' = w

/-- The venue changes, or its next stream event is applied. -/
inductive VenueMoves (context : LiveContext) (w : SnapshotWorld) : SnapshotWorld → Prop
  | change (c : VenueChange) : VenueMoves context w { w with changes := w.changes ++ [c] }
  | deliver {c : VenueChange} : w.changes[w.applied]? = some c →
      VenueMoves context w { w with
        engine := (streamEvents context.venue c).foldl EngineState.applyPrivateEvent w.engine
        applied := w.applied + 1 }

/-- The tasks that write positions and orders they have read over REST. -/
inductive SnapshotTask
  | refreshPositions
  | refreshOpenOrders (request : Option ListOpenOrdersRequest)
  | reconcilePrivate (trigger : ReconcileTrigger)

/-- The program of the call, whose result does not matter here. -/
def SnapshotTask.prog (context : LiveContext) : SnapshotTask → RuntimeM Unit
  | .refreshPositions => do
    let _ ← (BatMarkets.refreshPositions context).run
    return ()
  | .refreshOpenOrders request => do
    let _ ← (BatMarkets.refreshOpenOrders context request).run
    return ()
  | .reconcilePrivate trigger => do
    let _ ← (BatMarkets.reconcilePrivate context trigger).run
    return ()

/-- The tasks over a venue that changes. -/
def snapshotInterpretation (context : LiveContext) :
    Interpretation SnapshotWorld RuntimeCall RuntimeReply Unit where
  start t := ∃ task : SnapshotTask, t = task.prog context
  serve := serveSnapshot context
  env := VenueMoves context

/-- Refreshes over the venue, the stream and the engine. -/
abbrev SnapshotPool := Pool SnapshotWorld RuntimeCall RuntimeReply Unit

/-- The runs that start with an engine that agrees with the venue. -/
abbrev snapshotSystem (context : LiveContext) : System SnapshotPool Action :=
  (snapshotInterpretation context).system fun w =>
    w.engine.Agrees w.start ∧ w.changes = [] ∧ w.applied = 0

/-! ### Writes in time -/

/-- The reading shows the slot. -/
def ShowsSlot (context : LiveContext) : Event RuntimeCall RuntimeReply → Slot → Prop
  | ⟨.signedGet .accountAndPositions _, .ok _⟩, .position _ => True
  | ⟨.signedGet .positions _, .ok _⟩, .position _ => True
  | ⟨.signedGet .openOrders _, .ok _⟩, .order id => RegularId context id
  | ⟨.signedGet .openAlgoOrders _, .ok _⟩, .order id => ¬ RegularId context id
  | ⟨.signedGet .order _, .ok o⟩, .order id => o.orderId = id
  | ⟨.signedGet .orderHistory _, .ok os⟩, .order id => ∃ o ∈ os, o.orderId = id
  | _, _ => False

/-- The operation writes what a reading says about the slot. -/
def EngineOp.WritesSlot : EngineOp → Slot → Prop
  | .replacePositions _, .position _ => True
  | .replaceOpenOrders _, .order _ => True
  | .applyPrivateEvent (.order o), .order id => o.orderId = id
  | .mergeOrderHistory os, .order id => ∃ o ∈ os, o.orderId = id
  | _, _ => False

/-- The reading `x`, with the world it was made in, is not too old for the operation to write it:
none of the changes made since then to what it shows has been applied.  What it shows of orders is
what the stream shows, and if it does not ask for all open orders, they were in its reply
nevertheless. -/
structure InTime (context : LiveContext) (w : SnapshotWorld) (op : EngineOp)
    (x : SnapshotWorld × Event RuntimeCall RuntimeReply) : Prop where
  fresh : ∀ k, op.WritesSlot k → ShowsSlot context x.2 k →
    ∀ c ∈ (w.changes.take w.applied).drop x.1.changes.length, c.effect.slot ≠ k
  decoded : ∀ id, op.WritesSlot (.order id) → ShowsSlot context x.2 (.order id) →
    x.1.venue.DecodedAlike context id
  complete : ∀ os, op = .replaceOpenOrders os → ListsSome x.2 → ListsAllOpen context x.1.venue x.2

/-- The readings of a task since its last write. -/
def readingsOf (log : List (SnapshotWorld × Event RuntimeCall RuntimeReply)) :
    List (SnapshotWorld × Event RuntimeCall RuntimeReply) :=
  log.takeWhile fun x => !x.2.1.isWrite

/-- When the step is a write, the readings it writes are in time. -/
def WritesInTime (context : LiveContext) (p : SnapshotPool) : Action → Prop
  | .run i =>
    match p.threads[i]? with
    | some ⟨log, .call (.write ops) _⟩ =>
      ∀ op ∈ ops, ∀ x ∈ readingsOf log, InTime context p.world op x
    | _ => True
  | _ => True

/-! ### What a reply shows of an order -/

theorem isBinanceAlgoOrderId_algoOrderId (n : ℤ) :
    isBinanceAlgoOrderId (some (Binance.algoOrderId n)) = true := by
  have hvalue : binanceAlgoOrderIdValue (Binance.algoOrderId n) = some (toString n) :=
    Text.map_toString_dropPrefix? _ _
  rw [isBinanceAlgoOrderId, Option.bind_some, hvalue]
  rfl

theorem toRat_zero : (0 : Decimal).toRat = 0 := by decide +kernel

/-- Whether a conditional order is open does not depend on what is filled. -/
theorem isOpen_parseAlgoOrderStatus (raw : String) (filledQuantity : Decimal) :
    (Binance.parseAlgoOrderStatus raw filledQuantity).isOpen =
      (Binance.parseAlgoOrderStatus raw 0).isOpen := by
  unfold Binance.parseAlgoOrderStatus
  cases Decimal.lt 0 filledQuantity <;> cases Decimal.lt 0 0 <;> split <;> rfl

/-- A reply shows the same of a conditional order as the stream, unless it is open and something of
it is filled. -/
theorem shown_restView_iff {context : LiveContext} {q : Order} {raw : String}
    (hid : ¬ RegularId context q.orderId) (hraw : q.venueStatus = some raw)
    (hstatus : q.status = Binance.parseAlgoOrderStatus raw q.filledQuantity.value) :
    (q.restView context).shown = q.view.shown ↔
      (q.status.isOpen = true → q.view.filledQuantity = 0) := by
  have hrest : q.restView context = { q.view with
      status := Binance.parseAlgoOrderStatus raw 0
      filledQuantity := 0 } := by
    rw [Order.restView, if_neg hid, hraw]
    rfl
  have hopen : (Binance.parseAlgoOrderStatus raw 0).isOpen = q.view.status.isOpen :=
    (isOpen_parseAlgoOrderStatus raw q.filledQuantity.value).symm.trans
      (congrArg OrderStatus.isOpen hstatus.symm)
  rw [hrest, OrderView.shown, OrderView.shown, hopen]
  by_cases hq : q.view.status.isOpen = true
  · rw [if_pos hq, if_pos hq, Option.some.injEq, RecordView.order.injEq]
    constructor
    · intro heq _
      exact (congrArg OrderView.filledQuantity heq).symm
    · intro hnone
      have hzero : q.filledQuantity.value.toRat = 0 := hnone hq
      -- with nothing filled, the status is that of a reply
      have hsame : Binance.parseAlgoOrderStatus raw 0 = q.view.status := by
        have hlt : Decimal.lt 0 q.filledQuantity.value = Decimal.lt 0 0 := by
          rw [Bool.eq_iff_iff, Decimal.lt_iff, Decimal.lt_iff, hzero, toRat_zero]
        refine Eq.trans ?_ hstatus.symm
        unfold Binance.parseAlgoOrderStatus
        rw [hlt]
      rw [hsame, ← hnone hq]
  · rw [if_neg hq, if_neg hq]
    exact iff_of_true rfl fun h => absurd h hq

/-- A REST record and a stream message about a conditional order, with the same text in the fields
they share. -/
structure Binance.SameAlgoOrder (snapshot : AlgoOrderSnapshot) (event : AlgoOrderUpdateEvent) :
    Prop where
  algoId : snapshot.algoId = event.algoId
  clientAlgoId : snapshot.clientAlgoId = event.clientAlgoId
  orderType : snapshot.orderType = event.orderType
  symbol : snapshot.symbol = event.symbol
  side : snapshot.side = event.side
  timeInForce : snapshot.timeInForce = event.timeInForce
  quantity : snapshot.quantity = event.quantity
  price : snapshot.price = event.price
  algoStatus : snapshot.algoStatus = event.algoStatus

/-- The two decoders of a conditional order. -/
theorem view_algoOrderFromSnapshot {context : LiveContext} {catalog : InstrumentCatalog}
    {snapshot : Binance.AlgoOrderSnapshot} {event : Binance.AlgoOrderUpdateEvent} {o q : Order}
    (hvenue : context.venue = .binance) (hsame : Binance.SameAlgoOrder snapshot event)
    (hsnapshot : Binance.algoOrderFromSnapshot catalog snapshot = .ok o)
    (hevent : Binance.algoOrderFromUpdateEvent catalog event = .ok q) :
    o.view = q.restView context := by
  obtain ⟨hid, hclient, htype, hsymbol, hside, htime, hquantity, hprice, hstatus⟩ := hsame
  simp only [Binance.algoOrderFromSnapshot, hsymbol, hside, htype, htime, hprice, hquantity, hid,
    hclient, hstatus, except_bind_eq_ok] at hsnapshot
  simp only [Binance.algoOrderFromUpdateEvent, except_bind_eq_ok] at hevent
  obtain ⟨spec, hspec, side, hside, type, htype, tif, htif, price, hprice, quantity, hquantity,
    average, -, ho⟩ := hsnapshot
  obtain ⟨spec', hspec', filled, -, side', hside', type', htype', tif', htif', price', hprice',
    quantity', hquantity', average', -, hq⟩ := hevent
  obtain rfl : spec = spec' := Except.ok.inj (hspec.symm.trans hspec')
  obtain rfl : side = side' := Except.ok.inj (hside.symm.trans hside')
  obtain rfl : type = type' := Except.ok.inj (htype.symm.trans htype')
  obtain rfl : price = price' := Except.ok.inj (hprice.symm.trans hprice')
  obtain rfl : quantity = quantity' := Except.ok.inj (hquantity.symm.trans hquantity')
  have hconditional : ¬ RegularId context (Binance.algoOrderId event.algoId.toInt) := by
    intro hregular
    have halgo := hregular hvenue
    rw [isBinanceAlgoOrderId_algoOrderId] at halgo
    cases halgo
  cases ho
  cases hq
  rw [Order.restView, if_neg hconditional]
  simp only [Order.view, toRat_zero, Option.map_some, Option.getD_some]

/-- In a reply that shows the same as the stream, an order shows what the venue shows. -/
theorem VenueState.HasOrder.shows {context : LiveContext} {v : VenueState} {o : Order}
    (h : v.HasOrder context o) (hdecoded : v.DecodedAlike context o.orderId) : v.ShowsOrder o := by
  obtain ⟨q, hq, hview⟩ := h
  rw [ShowsOrder, VenueState.shows, hq, Option.bind_some, hview]
  exact hdecoded q hq

/-! ### What a write does -/

theorem always_snapshotTask (context : LiveContext) (task : SnapshotTask) :
    (task.prog context).Always (WritesReadings context) := by
  cases task with
  | refreshPositions => exact always_refreshPositions.bind fun _ _ => trivial
  | refreshOpenOrders request => exact (always_refreshOpenOrders request).bind fun _ _ => trivial
  | reconcilePrivate trigger => exact (always_reconcilePrivate trigger).bind fun _ _ => trivial

theorem EngineState.shows_apply_of_leavesRecords {s : EngineState} {op : EngineOp}
    (h : op.LeavesRecords) : (s.apply op).shows = s.shows := by
  cases op with
  | replaceAccountSnapshot snapshot =>
    exact shows_observeLatest { s with balances := _, accountSummary := _ } _
  | mergeExecutions executions =>
    have hfold : ∀ (xs : List Execution) (s : EngineState),
        (xs.foldl pushExecution s).shows = s.shows := by
      intro xs
      induction xs with
      | nil => exact fun _ => rfl
      | cons x xs ih =>
        intro s
        rw [List.foldl_cons, ih, pushExecution]
        split <;> rfl
    exact (shows_observeLatest _ _).trans (hfold executions s)
  | applyReconcileReport report =>
    change (s.applyReconcileReport report).shows = s.shows
    unfold applyReconcileReport
    split <;> rfl
  | markRestSuccess | markSnapshotAge => rfl
  | _ => exact h.elim

/-- A reading in the log of a task, seen from a later world. -/
structure ReadingOf (context : LiveContext) (w₀ : SnapshotWorld)
    (e : Event RuntimeCall RuntimeReply) (w : SnapshotWorld) : Prop where
  answers : Answers context w₀.venue e
  start : w.start = w₀.start
  changes : w₀.changes <+: w.changes

/-- The log of a task, in a world in which all changes were in step. -/
structure GoodLog (context : LiveContext) (w : SnapshotWorld)
    (log : List (SnapshotWorld × Event RuntimeCall RuntimeReply)) : Prop where
  readings : ∀ x ∈ log, ReadingOf context x.1 x.2 w
  oneLeg : w.start.OneLeg
  inStep : StepsMeet VenueState.apply (InStep context.venue) w.start w.changes

/-- The slot shows what the venue showed after some of its changes, of which no later one about the
slot has been applied yet. -/
def Overwritten (w : SnapshotWorld) (k : Slot) (shown : Option RecordView) : Prop :=
  ∃ r, shown = replay w.start.shows ((w.changes.map (·.effect)).take r) k ∧
    ∀ c ∈ ((w.changes.map (·.effect)).take w.applied).drop r, c.slot ≠ k

section Writes

variable {context : LiveContext} {w : SnapshotWorld}
  {log : List (SnapshotWorld × Event RuntimeCall RuntimeReply)}

theorem exists_reading {e : Event RuntimeCall RuntimeReply}
    (h : e ∈ sinceWrite (log.map Prod.snd)) : ∃ w₀, (w₀, e) ∈ readingsOf log := by
  rw [sinceWrite, List.takeWhile_map] at h
  obtain ⟨⟨w₀, e⟩, hx, rfl⟩ := List.mem_map.1 h
  exact ⟨w₀, hx⟩

variable {w₀ : SnapshotWorld} {e : Event RuntimeCall RuntimeReply} {op : EngineOp}

theorem GoodLog.reading (h : GoodLog context w log) (hx : (w₀, e) ∈ readingsOf log) :
    ReadingOf context w₀ e w :=
  h.readings _ ((List.takeWhile_sublist _).subset hx)

/-- What the venue had when a reading was made. -/
theorem GoodLog.venue (h : GoodLog context w log) (hx : (w₀, e) ∈ readingsOf log) :
    w₀.venue.OneLeg ∧ w₀.venue.shows =
      replay w.start.shows ((w.changes.map (·.effect)).take w₀.changes.length) := by
  obtain ⟨-, hstart, hpre⟩ := h.reading hx
  rw [← List.map_take, ← List.prefix_iff_eq_take.1 hpre, hstart]
  exact VenueState.shows_run (hstart ▸ h.oneLeg) (hstart ▸ h.inStep.of_prefix hpre)

/-- A slot that shows what a reading in time says about it. -/
theorem GoodLog.overwritten (h : GoodLog context w log) (hx : (w₀, e) ∈ readingsOf log)
    (hok : InTime context w op (w₀, e)) (k : Slot) (hwrites : op.WritesSlot k)
    (hshows : ShowsSlot context e k) {shown : Option RecordView}
    (hshown : shown = w₀.venue.shows k) : Overwritten w k shown := by
  refine ⟨w₀.changes.length, hshown.trans (congrFun (h.venue hx).2 k), ?_⟩
  rw [← List.map_take, ← List.map_drop, List.forall_mem_map]
  exact hok.fresh k hwrites hshows

/-- A reading of open orders that is written has all of them. -/
theorem GoodLog.listsAllOpen (h : GoodLog context w log) (hx : (w₀, e) ∈ readingsOf log)
    {os : List Order} (hok : InTime context w (.replaceOpenOrders os) (w₀, e)) :
    ListsAllOpen context w₀.venue e := by
  by_cases hsome : ListsSome e
  · exact hok.complete os rfl hsome
  · exact (h.reading hx).answers.complete hsome

theorem GoodLog.shows_replacePositions (h : GoodLog context w log) {s : EngineState}
    {ps : List Position} (hx : (w₀, e) ∈ readingsOf log)
    (hok : InTime context w (.replacePositions ps) (w₀, e)) (hlists : w₀.venue.ListsPositions ps)
    (hshows : ∀ i, ShowsSlot context e (.position i)) (k : Slot) :
    (s.apply (.replacePositions ps)).shows k = s.shows k ∨
      Overwritten w k ((s.apply (.replacePositions ps)).shows k) := by
  have hshown := s.shows_replacePositions ps k
  cases k with
  | order id => exact .inl hshown
  | position i =>
    exact .inr (h.overwritten hx hok (.position i) trivial (hshows i)
      (hshown.trans (hlists.shows (h.venue hx).1 i)))

/-- A backed operation keeps what is shown in a slot, or overwrites it with what a reading in time
says. -/
theorem GoodLog.shows_backed (h : GoodLog context w log) {s : EngineState}
    (hb : Backed context (sinceWrite (log.map Prod.snd)) op)
    (hok : ∀ x ∈ readingsOf log, InTime context w op x) (k : Slot) :
    (s.apply op).shows k = s.shows k ∨ Overwritten w k ((s.apply op).shows k) := by
  cases hb with
  | other hleaves => exact .inl (congrFun (EngineState.shows_apply_of_leavesRecords hleaves) k)
  | accountAndPositions he =>
    obtain ⟨w₀, hx⟩ := exists_reading he
    exact h.shows_replacePositions hx (hok _ hx) (h.reading hx).answers.records (fun _ => trivial) k
  | positions he =>
    obtain ⟨w₀, hx⟩ := exists_reading he
    exact h.shows_replacePositions hx (hok _ hx) (h.reading hx).answers.records (fun _ => trivial) k
  | @openOrders request os hvenue he =>
    obtain ⟨w₀, hx⟩ := exists_reading he
    have hall : w₀.venue.ListsOpen (RegularId context) os := h.listsAllOpen hx (hok _ hx)
    have hrecords : ∀ o ∈ os, w₀.venue.HasOrder context o ∧ RegularId context o.orderId :=
      (h.reading hx).answers.records
    have hsound : ∀ o ∈ os, w₀.venue.ShowsOrder o := fun o ho =>
      (hrecords o ho).1.shows ((hok _ hx).decoded _ trivial (hrecords o ho).2)
    have hshown := s.shows_replaceOpenOrders os k
    cases k with
    | position i => exact .inl hshown
    | order id =>
      -- away from Binance one list has all the open orders
      have hregular : RegularId context id := fun hb => absurd hb hvenue
      exact .inr (h.overwritten hx (hok _ hx) (.order id) trivial hregular
        (hshown.trans (hall.shows hsound hregular)))
  | @openAndAlgoOrders request request' os os' hvenue he he' =>
    obtain ⟨w₀, hx⟩ := exists_reading he
    obtain ⟨w₁, hx'⟩ := exists_reading he'
    have hall : w₀.venue.ListsOpen (RegularId context) os := h.listsAllOpen hx (hok _ hx)
    have hall' : w₁.venue.ListsOpen (¬ RegularId context ·) os' := h.listsAllOpen hx' (hok _ hx')
    have hrecords : ∀ o ∈ os, w₀.venue.HasOrder context o ∧ RegularId context o.orderId :=
      (h.reading hx).answers.records
    have hrecords' : ∀ o ∈ os', w₁.venue.HasOrder context o ∧ ¬ RegularId context o.orderId :=
      (h.reading hx').answers.records
    have hsound : ∀ o ∈ os, w₀.venue.ShowsOrder o := fun o ho =>
      (hrecords o ho).1.shows ((hok _ hx).decoded _ trivial (hrecords o ho).2)
    have hsound' : ∀ o ∈ os', w₁.venue.ShowsOrder o := fun o ho =>
      (hrecords' o ho).1.shows ((hok _ hx').decoded _ trivial (hrecords' o ho).2)
    have hshown := s.shows_replaceOpenOrders (os ++ os') k
    cases k with
    | position i => exact .inl hshown
    | order id =>
      dsimp only at hshown
      rw [lastOf_append] at hshown
      -- an order is listed by the endpoint of its kind only
      by_cases hid : RegularId context id
      · have hnone : lastOf Order.orderId id os' = none :=
          lastOf_eq_none.2 fun o ho heq => (hrecords' o ho).2 (heq ▸ hid)
        rw [hnone, Option.none_or, hall.shows hsound hid] at hshown
        exact .inr (h.overwritten hx (hok _ hx) (.order id) trivial hid hshown)
      · have hnone : lastOf Order.orderId id os = none :=
          lastOf_eq_none.2 fun o ho heq => hid (heq ▸ (hrecords o ho).2)
        rw [hnone, Option.or_none, hall'.shows hsound' hid] at hshown
        exact .inr (h.overwritten hx' (hok _ hx') (.order id) trivial hid hshown)
  | @order request o he =>
    obtain ⟨w₀, hx⟩ := exists_reading he
    have hrecord : w₀.venue.HasOrder context o := (h.reading hx).answers.records
    have hsound : w₀.venue.ShowsOrder o :=
      hrecord.shows ((hok _ hx).decoded o.orderId rfl rfl)
    have hstep : InStep context.venue w₀.venue (.order o) := trivial
    have hshown := congrFun (EngineState.shows_streamed (s := s) hstep) k
    -- only the slot of the order is written
    by_cases hk : k = .order o.orderId
    · subst hk
      refine .inr (h.overwritten hx (hok _ hx) (.order o.orderId) rfl rfl (hshown.trans ?_))
      rw [Change.apply, VenueChange.effect, Function.update_self, hsound]
    · exact .inl (hshown.trans (Function.update_of_ne hk _ _))
  | @orderHistory request os he =>
    obtain ⟨w₀, hx⟩ := exists_reading he
    have hrecords : ∀ o ∈ os, w₀.venue.HasOrder context o := (h.reading hx).answers.records
    have hsound : ∀ o ∈ os, w₀.venue.ShowsOrder o := fun o ho =>
      (hrecords o ho).shows ((hok _ hx).decoded _ ⟨o, ho, rfl⟩ ⟨o, ho, rfl⟩)
    have hshown := s.shows_mergeOrderHistory os k
    cases k with
    | position i => exact .inl hshown
    | order id =>
      dsimp only at hshown
      -- an order that the history does not list keeps what is shown of it
      cases hl : lastOf Order.orderId id os with
      | none =>
        rw [hl] at hshown
        exact .inl hshown
      | some o =>
        rw [hl] at hshown
        have ho : ∃ o ∈ os, o.orderId = id := ⟨o, lastOf_eq_some hl⟩
        exact .inr (h.overwritten hx (hok _ hx) (.order id) ho ho
          (hshown.trans (VenueState.shows_of_lastOf hsound hl)))

/-- The same for a whole write. -/
theorem GoodLog.shows_write (h : GoodLog context w log) {ops : List EngineOp} {s : EngineState}
    (hb : ∀ op ∈ ops, Backed context (sinceWrite (log.map Prod.snd)) op)
    (hok : ∀ op ∈ ops, ∀ x ∈ readingsOf log, InTime context w op x) (k : Slot) :
    (ops.foldl EngineState.apply s).shows k = s.shows k ∨
      Overwritten w k ((ops.foldl EngineState.apply s).shows k) := by
  induction ops generalizing s with
  | nil => exact .inl rfl
  | cons op ops ih =>
    rw [List.forall_mem_cons] at hb hok
    rcases ih (s := s.apply op) hb.2 hok.2 with heq | hover
    · rw [List.foldl_cons, heq]
      exact h.shows_backed hb.1 hok.1 k
    · exact .inr hover

end Writes

/-! ### Whole runs -/

section Runs

variable {context : LiveContext} {p : SnapshotPool}

theorem readingOf_of_reachable (hp : (snapshotSystem context).Reachable p) :
    ∀ θ ∈ p.threads, ∀ x ∈ θ.log, ReadingOf context x.1 x.2 p.world := by
  refine log_of_reachable (J := ReadingOf context) (fun w q r w' hs => ?_)
    (fun w e v v' hJ hchange => ?_) hp
  · cases q with
    | signedGet decoder request =>
      obtain ⟨hanswers, rfl⟩ := hs
      exact ⟨hanswers, rfl, List.prefix_rfl⟩
    | read what =>
      obtain ⟨-, rfl⟩ := hs
      exact ⟨⟨trivial, fun _ => trivial⟩, rfl, List.prefix_rfl⟩
    | write ops =>
      cases hs
      exact ⟨⟨trivial, fun _ => trivial⟩, rfl, List.prefix_rfl⟩
    | _ =>
      cases hs
      exact ⟨⟨trivial, fun _ => trivial⟩, rfl, List.prefix_rfl⟩
  · have hkeeps : v'.start = v.start ∧ v.changes <+: v'.changes := by
      rcases hchange with henv | ⟨q, r, hs⟩
      · cases henv with
        | change c => exact ⟨rfl, List.prefix_append _ _⟩
        | deliver _ => exact ⟨rfl, List.prefix_rfl⟩
      · cases q with
        | signedGet decoder request =>
          obtain ⟨-, rfl⟩ := hs
          exact ⟨rfl, List.prefix_rfl⟩
        | read what =>
          obtain ⟨-, rfl⟩ := hs
          exact ⟨rfl, List.prefix_rfl⟩
        | _ =>
          cases hs
          exact ⟨rfl, List.prefix_rfl⟩
    exact ⟨hJ.answers, hkeeps.1.trans hJ.start, hJ.changes.trans hkeeps.2⟩

/-- The engine is behind the venue by the stream events that have not been applied. -/
structure KeepsUp (context : LiveContext) (w : SnapshotWorld) : Prop where
  oneLeg : w.start.OneLeg
  applied_le : w.applied ≤ w.changes.length
  catchesUp : StepsMeet VenueState.apply (InStep context.venue) w.start w.changes →
    CatchesUp w.start.shows (w.changes.map (·.effect)) w.applied w.engine.shows

theorem KeepsUp.env {w w' : SnapshotWorld} (h : KeepsUp context w) (hmove : VenueMoves context w w') :
    KeepsUp context w' := by
  cases hmove with
  | change c =>
    refine ⟨h.oneLeg, h.applied_le.trans (by simp), fun hsteps => ?_⟩
    have hold := h.catchesUp (hsteps.of_prefix (List.prefix_append _ _))
    rw [List.map_append]
    exact hold.change (by simpa using h.applied_le) _
  | @deliver c hc =>
    obtain ⟨hlt, -⟩ := List.getElem?_eq_some_iff.1 hc
    refine ⟨h.oneLeg, hlt, fun hsteps => ?_⟩
    have hstep := hsteps.getElem? hc
    rw [EngineState.shows_streamed hstep]
    exact (h.catchesUp hsteps).deliver (by rw [List.getElem?_map, hc, Option.map_some])

/-- What is left of each task writes what the task has read. -/
theorem spec_of_snapshotTask (hp : (snapshotSystem context).Reachable p) :
    ∀ θ ∈ p.threads, θ.prog.Spec (WritesReadings context) (fun _ _ => True) θ.trace := by
  refine spec_of_reachable (fun t ht => ?_) hp
  obtain ⟨task, rfl⟩ := ht
  exact always_snapshotTask context task []

/-- **One step** that is no late write keeps up. -/
theorem KeepsUp.step {p' : SnapshotPool} {a : Action} (hp : (snapshotSystem context).Reachable p)
    (h : KeepsUp context p.world) (hok : WritesInTime context p a)
    (hst : (snapshotSystem context).step p a p') : KeepsUp context p'.world := by
  cases hst with
  | start _ => exact h
  | env hmove => exact h.env hmove
  | @run i log q k r w' hi hs =>
    have hmem := List.mem_of_getElem? hi
    cases q with
    | write ops =>
      obtain rfl : w' = _ := hs
      have hbacked : WritesReadings context (log.map Prod.snd) (.write ops) :=
        (spec_of_snapshotTask hp _ hmem).1
      simp only [WritesInTime, hi] at hok
      refine ⟨h.oneLeg, h.applied_le, fun hsteps => ?_⟩
      have hlog : GoodLog context p.world log :=
        ⟨readingOf_of_reachable hp _ hmem, h.oneLeg, hsteps⟩
      exact (h.catchesUp hsteps).overwrite (hlog.shows_write hbacked hok)
    | signedGet decoder request =>
      obtain ⟨-, rfl⟩ := hs
      exact h
    | read what =>
      obtain ⟨-, rfl⟩ := hs
      exact h
    | _ =>
      cases hs
      exact h

/-- **Snapshots that are written in time never roll the state back.**  In every run of refreshes and
reconciles whose writes are in time, over a venue whose changes the engine can follow, the engine
agrees with the venue whenever it has applied all stream events, even while replies are still to be
written. -/
theorem engine_agrees_of_writesInTime
    (hp : (snapshotSystem context).ReachableWhen (WritesInTime context) p)
    (hsteps : StepsMeet VenueState.apply (InStep context.venue) p.world.start p.world.changes)
    (hall : p.world.applied = p.world.changes.length) : p.world.engine.Agrees p.world.venue := by
  have hinv : (snapshotSystem context).Reachable p ∧ KeepsUp context p.world := by
    refine hp.invariant (I := fun p => (snapshotSystem context).Reachable p ∧
      KeepsUp context p.world) (fun p hinit => ⟨.init hinit, ?_⟩) fun p a p' hinv hok hst =>
        ⟨hinv.1.step hst, hinv.2.step hinv.1 hok hst⟩
    obtain ⟨⟨hagrees, hchanges, happlied⟩, -⟩ := hinit
    obtain ⟨hleg, hshows⟩ := agrees_iff.1 hagrees
    refine ⟨hleg, by rw [happlied]; exact Nat.zero_le _, fun _ => ?_⟩
    rw [hchanges, happlied, hshows]
    exact .initial _
  obtain ⟨hleg, hshows⟩ := VenueState.shows_run hinv.2.oneLeg hsteps
  refine agrees_iff.2 ⟨hleg, ?_⟩
  rw [(hinv.2.catchesUp hsteps).eq (by simp [hall])]
  exact hshows.symm

end Runs

/-! ### A snapshot that is late -/

/-- A client of Bybit. -/
def bybitContext : LiveContext := ⟨.bybit, .linearUsdt, 30000⟩

/-- A long position in BTC. -/
def longBtc (size : Quantity) : Position where
  positionId := ⟨"bybit:BTCUSDT:0"⟩
  instrumentId := ⟨"BTC/USDT:USDT"⟩
  direction := .long
  size := size
  entryPrice := none
  markPrice := none
  unrealizedPnl := none
  leverage := none
  marginMode := .cross
  positionMode := .oneWay
  updatedAt := 1

/-- One contract of BTC. -/
def oneContract : Position := longBtc ⟨.ofNat 1 Decimal.one_fits⟩

/-- Two contracts of BTC. -/
def twoContracts : Position := longBtc ⟨.ofNat 2⟩

/-- An engine and a venue that agree on one contract. -/
def agreeing : SnapshotWorld where
  engine := { EngineState.new .bybit .linearUsdt ⟨16, 16⟩ [] with
    positionsById := .collect [oneContract] }
  start := ⟨.collect [oneContract], ∅⟩

/-- The second contract has been bought. -/
def bought : SnapshotWorld where
  engine := agreeing.engine
  start := agreeing.start
  changes := [.position twoContracts]

/-- Its event has been applied as well. -/
def told : SnapshotWorld where
  engine := agreeing.engine.applyPrivateEvent (.position twoContracts)
  start := agreeing.start
  changes := [.position twoContracts]
  applied := 1

/-- A snapshot of the positions has been written after the event. -/
def toldThenWritten (ps : List Position) : SnapshotWorld where
  engine := (told.engine.apply (.replacePositions ps)).apply (.markRestSuccess none)
  start := agreeing.start
  changes := [.position twoContracts]
  applied := 1

/-- The request for the positions at Bybit. -/
def positionsRequest : SignedGet where
  path := "/v5/position/list"
  query := [("category", "linear"), ("settleCoin", "USDT")]
  operation := "bybit.positions"

/-- A refresh under way. -/
abbrev SnapshotThread := Thread SnapshotWorld RuntimeCall RuntimeReply Unit

/-- A refresh of the positions that is about to start. -/
def refreshStarted : SnapshotThread := .fresh (SnapshotTask.refreshPositions.prog bybitContext)

/-- A refresh of the positions that has its reply. -/
def refreshAnswered (w : SnapshotWorld) (ps : List Position) : SnapshotThread where
  log := [(w, ⟨.signedGet .positions positionsRequest, .ok ps⟩)]
  prog := .call (.write [.replacePositions ps, .markRestSuccess none]) fun _ => .ret ()

/-- A refresh of the positions that has written them. -/
def refreshDone (w : SnapshotWorld) (ps : List Position) : SnapshotThread where
  log := (told, ⟨.write [.replacePositions ps, .markRestSuccess none], ()⟩) ::
    (refreshAnswered w ps).log
  prog := .ret ()

theorem init_agreeing : (snapshotSystem bybitContext).init ⟨agreeing, []⟩ :=
  ⟨⟨⟨fun _ _ => Iff.rfl, fun _ _ => Iff.rfl⟩, rfl, rfl⟩, rfl⟩

theorem step_start {w : SnapshotWorld} :
    (snapshotSystem bybitContext).step ⟨w, []⟩ .start ⟨w, [refreshStarted]⟩ :=
  .start ⟨_, rfl⟩

theorem step_read {w : SnapshotWorld} {ps : List Position} (h : w.venue.ListsPositions ps) :
    (snapshotSystem bybitContext).step ⟨w, [refreshStarted]⟩ (.run 0)
      ⟨w, [refreshAnswered w ps]⟩ := by
  have hserve : (snapshotInterpretation bybitContext).serve w
      (.signedGet .positions positionsRequest) (.ok ps) w := ⟨⟨h, fun _ => trivial⟩, rfl⟩
  exact .run (p := ⟨w, [refreshStarted]⟩) (i := 0) rfl hserve

theorem step_change {θ : SnapshotThread} :
    (snapshotSystem bybitContext).step ⟨agreeing, [θ]⟩ .env ⟨bought, [θ]⟩ :=
  .env (.change (.position twoContracts))

theorem step_deliver {θ : SnapshotThread} :
    (snapshotSystem bybitContext).step ⟨bought, [θ]⟩ .env ⟨told, [θ]⟩ := by
  have hevents : streamEvents .bybit (.position twoContracts) = [.position twoContracts] :=
    if_neg (by decide +kernel)
  have hmove : VenueMoves bybitContext bought { bought with
      engine := (streamEvents .bybit (.position twoContracts)).foldl
        EngineState.applyPrivateEvent bought.engine
      applied := 1 } := .deliver rfl
  rw [hevents] at hmove
  exact .env hmove

theorem step_write {w : SnapshotWorld} {ps : List Position} :
    (snapshotSystem bybitContext).step ⟨told, [refreshAnswered w ps]⟩ (.run 0)
      ⟨toldThenWritten ps, [refreshDone w ps]⟩ :=
  .run rfl rfl

/-- **A late snapshot rolls the state back.**  The positions are read before the second contract is
bought and written after its event has been applied. -/
theorem stale_snapshot_rolls_back :
    ¬ ∀ (context : LiveContext) (p : SnapshotPool), (snapshotSystem context).Reachable p → p.Idle →
      p.world.applied = p.world.changes.length → p.world.engine.Agrees p.world.venue := by
  intro h
  have hlists : agreeing.venue.ListsPositions [oneContract] :=
    ⟨by decide +kernel, by decide +kernel⟩
  have hread := (System.Reachable.init init_agreeing).step step_start |>.step (step_read hlists)
  have hwritten := ((hread.step step_change).step step_deliver).step step_write
  have hidle : Pool.Idle (Pool.mk (toldThenWritten [oneContract])
      [refreshDone agreeing [oneContract]]) := fun θ hθ => ⟨(), by rw [List.mem_singleton.1 hθ]; rfl⟩
  have hmem := ((h _ _ hwritten hidle rfl).positions twoContracts.view (by decide +kernel)).2
    (by decide +kernel)
  revert hmem
  decide +kernel

/-- A snapshot that is read after the change does not. -/
theorem engine_agrees_of_writesInTime_fresh :
    (toldThenWritten [twoContracts]).engine.Agrees (toldThenWritten [twoContracts]).venue := by
  have hlists : told.venue.ListsPositions [twoContracts] :=
    ⟨by decide +kernel, by decide +kernel⟩
  have hinit : (snapshotSystem bybitContext).ReachableWhen (WritesInTime bybitContext)
      ⟨agreeing, []⟩ := .init init_agreeing
  have hstarted := hinit.step (l := Action.start) trivial step_start
  have hchanged := hstarted.step (l := Action.env) trivial step_change
  have htold := hchanged.step (l := Action.env) trivial step_deliver
  have hread := htold.step (l := Action.run 0) trivial (step_read hlists)
  have hintime : WritesInTime bybitContext ⟨told, [refreshAnswered told [twoContracts]]⟩
      (.run 0) := by
    intro op hop x hx
    obtain rfl := List.mem_singleton.1 hx
    exact ⟨fun k _ _ c hc => absurd hc List.not_mem_nil, fun id _ hshows => False.elim hshows,
      fun os _ hsome => False.elim hsome⟩
  exact engine_agrees_of_writesInTime (hread.step hintime step_write)
    ⟨⟨fun _ => by decide +kernel, by decide +kernel⟩, trivial⟩ rfl

end BatMarkets
