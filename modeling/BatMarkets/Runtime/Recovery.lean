import BatMarkets.Runtime.Reconcile
import BatMarkets.Runtime.Refresh

/-!
# Recovery of commands with an unknown outcome

A command whose outcome is unknown is kept in a list of pending commands.  A reconcile looks for
evidence of each of them: in the local state, by asking the venue for the order, and in the recent
order and execution history of its instrument.  A command leaves the list when a record carries its
identity; when none is left, the reconcile ends synchronized, and the handle of the command turns
its receipt into an accepted one (`receiptAfterRecovery`).

These are the tasks of `runtime.rs` from `resolvePendingUnknownCommands` to `reconcilePrivate`.
What they guarantee is the subject of `BatMarkets.Runtime.Evidence`.
-/

namespace BatMarkets

open Interleaving Ordered RuntimeM

/-! ### Matching records and commands -/

/-- A record with the given identity is about the command: the same instrument, and the order id or
the client order id of the command. -/
def identityMatches (instrumentId : InstrumentId) (orderId : OrderId)
    (clientOrderId : Option ClientOrderId) (pending : PendingUnknownCommand) : Bool :=
  instrumentId = pending.instrumentId &&
    (pending.orderId.any (fun id => orderId = id) ||
      pending.clientOrderId.any fun id => clientOrderId = some id)

/-- The order has the identity of the command. -/
def orderMatchesPending (order : Order) (pending : PendingUnknownCommand) : Bool :=
  identityMatches order.instrumentId order.orderId order.clientOrderId pending

/-- The execution has the identity of the command. -/
def executionMatchesPending (execution : Execution) (pending : PendingUnknownCommand) : Bool :=
  identityMatches execution.instrumentId execution.orderId execution.clientOrderId pending

/-- The commands that no order has the identity of. -/
def unresolvedPendingAfterOrders (pending : List PendingUnknownCommand) (orders : List Order) :
    List PendingUnknownCommand :=
  pending.filter fun command => !orders.any (orderMatchesPending · command)

/-- The commands that no execution has the identity of. -/
def unresolvedPendingAfterExecutions (pending : List PendingUnknownCommand)
    (executions : List Execution) : List PendingUnknownCommand :=
  pending.filter fun command => !executions.any (executionMatchesPending · command)

/-- The commands that nothing in the local state has the identity of. -/
def unresolvedPendingAfterState (pending : List PendingUnknownCommand) (orders : List Order)
    (executions : List Execution) : List PendingUnknownCommand :=
  unresolvedPendingAfterExecutions (unresolvedPendingAfterOrders pending orders) executions

/-- The commands of each instrument, in the order of the list. -/
def pendingByInstrument (pending : List PendingUnknownCommand) :
    BTreeMap InstrumentId (List PendingUnknownCommand) :=
  groupBy (·.instrumentId) pending

/-- The errors of a lookup after which the recovery goes on. -/
def isMissingOrderError (e : MarketError) : Bool :=
  e.kind = .exchangeReject || e.kind = .unsupported

/-! ### Recent history -/

/-- Subtraction that stops at the ends of the range. -/
def saturatingSub (a b : Int64) : Int64 :=
  Int64.ofInt (max (-2 ^ 63) (min (2 ^ 63 - 1) (a.toInt - b.toInt)))

/-- How far before the last known record a history begins. -/
def historyRepairRewindMs : Int64 := 60000

/-- How far back a history begins at most. -/
def historyRepairMaxLookbackMs : Int64 := 7 * 24 * 60 * 60 * 1000

/-- Where a history begins: a minute before the earliest known time, but at most seven days ago. -/
def repairWindowStartMs (nowMs : Int64) (latestOrderMs latestExecutionMs fallbackLastPrivateMs
    oldestPendingMs : Option Int64) : Option Int64 := do
  let anchor ← ([latestOrderMs, latestExecutionMs, oldestPendingMs].filterMap id).min?.or
    fallbackLastPrivateMs
  let lowerBound := saturatingSub nowMs historyRepairMaxLookbackMs
  return min (max (saturatingSub anchor historyRepairRewindMs) lowerBound) nowMs

variable (context : LiveContext)

/-- From when to when the history of an instrument is asked for. -/
def repairTimeWindow (instrumentId : InstrumentId) (pending : List PendingUnknownCommand) :
    RuntimeM (Option (Int64 × Int64)) := do
  let nowMs ← timestampNowMs
  let (latestOrderMs, latestExecutionMs) ← read (.latestTimes instrumentId)
  let health ← read .health
  let oldestPendingMs := (pending.map (·.recordedAt)).min?
  let start := repairWindowStartMs nowMs latestOrderMs latestExecutionMs health.lastPrivateMsgAt
    oldestPendingMs
  return start.map (·, nowMs)

/-- The query parameters of a time window, under the keys the venue has for its ends. -/
def windowQuery (startKey endKey : String) : Option (Int64 × Int64) → List (String × String)
  | none => []
  | some (startTime, endTime) => [(startKey, toString startTime), (endKey, toString endTime)]

/-- The request for the recent orders of an instrument. -/
def orderHistoryGet (spec : InstrumentSpec) (window : Option (Int64 × Int64)) : SignedGet :=
  match context.venue with
  | .binance => ⟨"/fapi/v1/allOrders",
      [("symbol", spec.nativeSymbol), ("limit", "50")] ++ windowQuery "startTime" "endTime" window,
      "binance.order_history"⟩
  | .bybit => ⟨"/v5/order/history",
      [("category", "linear"), ("symbol", spec.nativeSymbol), ("limit", "50")] ++
        windowQuery "startTime" "endTime" window,
      "bybit.order_history"⟩
  | .mexc => ⟨"/api/v1/private/order/list/history_orders",
      [("symbol", spec.nativeSymbol), ("page_num", "1"), ("page_size", "50")] ++
        windowQuery "start_time" "end_time" window,
      "mexc.order_history"⟩

/-- The request for the recent executions of an instrument. -/
def executionHistoryGet (spec : InstrumentSpec) (window : Option (Int64 × Int64)) : SignedGet :=
  match context.venue with
  | .binance => ⟨"/fapi/v1/userTrades",
      [("symbol", spec.nativeSymbol), ("limit", "100")] ++
        windowQuery "startTime" "endTime" window,
      "binance.execution_history"⟩
  | .bybit => ⟨"/v5/execution/list",
      [("category", "linear"), ("symbol", spec.nativeSymbol), ("limit", "100")] ++
        windowQuery "startTime" "endTime" window,
      "bybit.execution_history"⟩
  | .mexc => ⟨"/api/v1/private/order/list/order_deals",
      [("symbol", spec.nativeSymbol), ("page_num", "1"), ("page_size", "100")] ++
        windowQuery "start_time" "end_time" window,
      "mexc.execution_history"⟩

/-- The recent orders of an instrument, which are merged into the state by the caller. -/
def refreshRecentOrderHistory (instrumentId : InstrumentId)
    (pending : List PendingUnknownCommand) : RuntimeE (List Order) := do
  let spec ← requireSpec context instrumentId
  let window ← repairTimeWindow instrumentId pending
  let request := orderHistoryGet context spec window
  signedGet .orderHistory request.path request.query request.operation

/-- The recent executions of an instrument, which are merged into the state by the caller. -/
def refreshRecentExecutionHistory (instrumentId : InstrumentId)
    (pending : List PendingUnknownCommand) : RuntimeE (List Execution) := do
  let window ← repairTimeWindow instrumentId pending
  let spec ← requireSpec context instrumentId
  let request := executionHistoryGet context spec window
  signedGet .executions request.path request.query request.operation

/-- Merge recent records into the engine state. -/
def writeHistory {ρ : Type} (merge : List ρ → EngineOp) (records : List ρ) : RuntimeM Unit :=
  write ((if records.isEmpty then [] else [merge records]) ++ [.markRestSuccess none])

/-- Merge the recent executions of each instrument the adapter knows. -/
def refreshExecutionsOfGroups :
    List (InstrumentId × List PendingUnknownCommand) → RuntimeE Unit
  | [] => return ()
  | (instrumentId, pending) :: groups => do
    match ← resolveInstrument instrumentId with
    | none => refreshExecutionsOfGroups groups
    | some _ =>
      let executions ← refreshRecentExecutionHistory context instrumentId pending
      writeHistory .mergeExecutions executions
      refreshExecutionsOfGroups groups

/-- Ask for the recent executions of every instrument that the state or a pending command knows
of. -/
def refreshExecutionRepairEvidence : RuntimeE Unit := do
  let instrumentIds ← read .repairInstruments
  let pending ← pendingUnknownCommands
  let evidence := instrumentIds.foldl (fun evidence i => extendEntry evidence i []) ∅
  let evidence := (pendingByInstrument pending).toList.foldl
    (fun evidence group => extendEntry evidence group.1 group.2) evidence
  refreshExecutionsOfGroups context evidence.toList

/-! ### Pending commands -/

/-- The first look, at what the engine has already. -/
def resolvePendingFromLocalState (pending : List PendingUnknownCommand) :
    RuntimeM (List PendingUnknownCommand) := do
  if pending.isEmpty then return pending
  else
    let (orders, executions) ← read .ordersAndExecutions
    return unresolvedPendingAfterState pending orders executions

/-- The request for the order of a command. -/
def PendingUnknownCommand.orderRequest (command : PendingUnknownCommand) : GetOrderRequest where
  requestId := none
  instrumentId := command.instrumentId
  orderId := command.orderId
  clientOrderId := command.clientOrderId

/-- Whether the venue knows the order of a command. -/
def lookupOrder (command : PendingUnknownCommand) : RuntimeE Bool := ExceptT.mk do
  if command.orderId.isSome || command.clientOrderId.isSome then
    match ← (getOrder context command.orderRequest).run with
    | .ok _ => return .ok true
    | .error e => return if isMissingOrderError e then .ok false else .error e
  else return .ok false

/-- The commands whose order the venue does not know. -/
def lookupOrders : List PendingUnknownCommand → RuntimeE (List PendingUnknownCommand)
  | [] => return []
  | command :: pending => do
    let resolved ← lookupOrder context command
    let unresolved ← lookupOrders pending
    return if resolved then unresolved else command :: unresolved

/-- Ask for the recent records of each instrument, merge them into the engine state, and keep the
commands they leave unresolved. -/
def resolveGroups {ρ : Type}
    (refresh : InstrumentId → List PendingUnknownCommand → RuntimeE (List ρ))
    (merge : List ρ → EngineOp)
    (unresolvedAfter : List PendingUnknownCommand → List ρ → List PendingUnknownCommand) :
    List (InstrumentId × List PendingUnknownCommand) → RuntimeE (List PendingUnknownCommand)
  | [] => return []
  | (instrumentId, commands) :: groups => do
    let records ← refresh instrumentId commands
    writeHistory merge records
    let unresolved ← resolveGroups refresh merge unresolvedAfter groups
    return unresolvedAfter commands records ++ unresolved

/-- The third look, at the order histories. -/
def resolvePendingFromRecentOrderHistory (pending : List PendingUnknownCommand) :
    RuntimeE (List PendingUnknownCommand) :=
  resolveGroups (refreshRecentOrderHistory context) .mergeOrderHistory
    unresolvedPendingAfterOrders (pendingByInstrument pending).toList

/-- The fourth look, at the execution histories. -/
def resolvePendingFromRecentExecutionHistory (pending : List PendingUnknownCommand) :
    RuntimeE (List PendingUnknownCommand) :=
  resolveGroups (refreshRecentExecutionHistory context) .mergeExecutions
    unresolvedPendingAfterExecutions (pendingByInstrument pending).toList

/-- Look for evidence of the pending commands, and give the number of those left. -/
def resolvePendingUnknownCommands : RuntimeE Nat := do
  let pending ← resolvePendingFromLocalState (← pendingUnknownCommands)
  -- Nothing is removed from the list when the local state alone resolves all of it.
  if pending.isEmpty then return 0
  else
    let unresolved ← lookupOrders context pending
    let unresolved ← resolvePendingFromLocalState unresolved
    if unresolved.isEmpty then
      replacePendingUnknownCommands []
      return 0
    else
      let unresolved ← resolvePendingFromRecentOrderHistory context unresolved
      if unresolved.isEmpty then
        replacePendingUnknownCommands []
        return 0
      else
        let unresolved ← resolvePendingFromRecentExecutionHistory context unresolved
        replacePendingUnknownCommands unresolved
        return unresolved.length

/-! ### The reconcile -/

/-- Choose the mode of a reconcile; only a periodic one looks at the pending commands and at the
health report. -/
def chooseReconcileMode (trigger : ReconcileTrigger) : RuntimeM PrivateReconcileMode := do
  match trigger with
  | .periodic =>
    let pending ← pendingUnknownCommands
    let health ← read .health
    return reconcileMode trigger health pending.length
  | _ => return .recentHistoryRepair

/-- Refresh the snapshots, then repair the recent history if the mode asks for it; the number of
commands left pending. -/
def reconcileSteps (trigger : ReconcileTrigger) (mode : PrivateReconcileMode) : RuntimeE Nat := do
  let _ ← refreshAccount context
  let _ ← refreshPositions context
  let _ ← refreshOpenOrders context none
  match mode with
  | .snapshotOnly => return 0
  | .recentHistoryRepair =>
    match executionRepairScope trigger (← read .health) with
    | .localEvidence =>
      refreshExecutionRepairEvidence context
      resolvePendingUnknownCommands context
    | .pendingUnknownOnly => resolvePendingUnknownCommands context

/-- The mode, the steps, the report, and what the report does to health. -/
def reconcilePrivate (trigger : ReconcileTrigger) : RuntimeE ReconcileReport := ExceptT.mk do
  let repairedAt ← timestampNowMs
  let mode ← chooseReconcileMode trigger
  let result ← (reconcileSteps context trigger mode).run
  let report := reconcileReport trigger repairedAt mode result
  write (reconcileOps context.snapshotStaleAfterMs report result)
  return result.map fun _ => report

/-- What the handle of a command makes of the report of its recovery. -/
def receiptAfterRecovery (receipt : CommandReceipt) (report : ReconcileReport) :
    CommandReceipt :=
  match report.outcome with
  | .synchronized =>
    { receipt with
      status := .accepted
      retriable := false
      message := some (report.note.getD "command outcome resolved by reconcile") }
  | .stillUncertain | .diverged =>
    { receipt with
      status := .unknownExecution
      retriable := true
      message := some (report.note.getD "command outcome remains unresolved after reconcile") }

end BatMarkets
