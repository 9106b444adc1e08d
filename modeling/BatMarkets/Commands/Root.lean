import BatMarkets.Commands.WebSocketOnly
import BatMarkets.Runtime.Recovery

/-!
# The root commands

The commands of the public interface (`facade.rs`) and the handles they return (`entry.rs`).  A
handle made from an acknowledgement keeps it; a handle made from a receipt takes a new time for it.
The channel of a handle is the list of the events that arrive on it; it is not full, so none is lost.
-/

namespace BatMarkets

open CommandM Wire

/-! ### Handles -/

/-- Whether a receipt is about the command of another: the same operation and, of the ids that
both have, the first ones agree. -/
def matchesReceipt (left right : CommandReceipt) : Bool :=
  if left.operation ≠ right.operation then false
  else match left.orderId, right.orderId with
    | some leftId, some rightId => leftId == rightId
    | _, _ => match left.clientOrderId, right.clientOrderId with
      | some leftId, some rightId => leftId == rightId
      | _, _ => match left.requestId, right.requestId with
        | some leftId, some rightId => leftId == rightId
        | _, _ => false

/-- Whether an event on the channel is about the command of the handle. -/
def matchesLifecycle (ack : CommandAck) : CommandLifecycleEvent → Bool
  | .ack other | .recoveryScheduled other | .recoveryCompleted other _ => ack == other
  | .receipt other => matchesReceipt ack.receipt other

namespace PendingCommandHandle

variable (handle : PendingCommandHandle)

/-- The next lifecycle event of the command, and what is left on the channel. -/
def nextLifecycle : List CommandLaneEvent → Option (CommandLifecycleEvent × List CommandLaneEvent)
  | [] => none
  | .lifecycle event :: events =>
    if matchesLifecycle handle.ack event then some (event, events) else nextLifecycle events
  | .receipt _ :: events => nextLifecycle events

theorem length_nextLifecycle {events rest : List CommandLaneEvent} {event : CommandLifecycleEvent}
    (h : handle.nextLifecycle events = some (event, rest)) : rest.length < events.length := by
  induction events with
  | nil => cases h
  | cons e events ih =>
    cases e with
    | receipt r => exact (ih h).trans (by simp)
    | lifecycle e =>
      rw [nextLifecycle] at h
      split at h
      · cases h
        simp
      · exact (ih h).trans (by simp)

/-- The receipt, once a recovery of the command has been completed; nothing while the handle waits. -/
def recovered (events : List CommandLaneEvent) : Option CommandReceipt :=
  match _hnext : handle.nextLifecycle events with
  | none => none
  | some (.recoveryCompleted _ report, _) => some (receiptAfterRecovery handle.ack.receipt report)
  | some (.ack _, rest) | some (.receipt _, rest) | some (.recoveryScheduled _, rest) =>
    recovered rest
termination_by events.length
decreasing_by all_goals exact handle.length_nextLifecycle _hnext

/-- A receipt that is resolved as far as local evidence allows. -/
def resolved (events : List CommandLaneEvent) : Option CommandReceipt :=
  if handle.ack.receipt.status ≠ .unknownExecution then some handle.ack.receipt
  else handle.recovered events

/-- A completed recovery that matches ends the wait. -/
theorem isSome_recovered {ack : CommandAck} {report : ReconcileReport}
    (hmatch : matchesLifecycle handle.ack (.recoveryCompleted ack report) = true)
    {events : List CommandLaneEvent}
    (hmem : .lifecycle (.recoveryCompleted ack report) ∈ events) :
    (handle.recovered events).isSome := by
  -- the events before the one that matches do not hide it
  have hnext : ∀ {events : List CommandLaneEvent},
      .lifecycle (.recoveryCompleted ack report) ∈ events →
      ∃ event rest, handle.nextLifecycle events = some (event, rest) ∧
        ((∃ ack' report', event = .recoveryCompleted ack' report') ∨
          .lifecycle (.recoveryCompleted ack report) ∈ rest) := by
    intro events hmem
    induction events with
    | nil => cases hmem
    | cons e events ih =>
      cases e with
      | receipt r => exact ih (by simpa using hmem)
      | lifecycle e =>
        by_cases hm : matchesLifecycle handle.ack e = true
        · refine ⟨e, events, by rw [nextLifecycle, if_pos hm], ?_⟩
          rcases List.mem_cons.1 hmem with heq | hmem
          · obtain rfl := CommandLaneEvent.lifecycle.inj heq
            exact .inl ⟨_, _, rfl⟩
          · exact .inr hmem
        · rcases List.mem_cons.1 hmem with heq | hmem
          · obtain rfl := CommandLaneEvent.lifecycle.inj heq
            exact absurd hmatch hm
          · obtain ⟨event, rest, hevent, hor⟩ := ih hmem
            exact ⟨event, rest, by rw [nextLifecycle, if_neg hm, hevent], hor⟩
  induction hlen : events.length using Nat.strong_induction_on generalizing events with
  | _ n ih =>
    subst hlen
    obtain ⟨event, rest, hevent, hor⟩ := hnext hmem
    have hrest : rest.length < events.length := handle.length_nextLifecycle hevent
    rw [recovered]
    split
    · rename_i heq
      rw [hevent] at heq
      cases heq
    · rfl
    all_goals
      rename_i heq
      rw [hevent] at heq
      cases heq
      rcases hor with ⟨_, _, heq⟩ | hor
      · cases heq
      · exact ih _ hrest hor rfl

end PendingCommandHandle

/-! ### Checking an order -/

variable (context : CommandContext)

/-- Have the venue check an order, without placing it. -/
def sendValidateOrder (spec : InstrumentSpec) (order : CreateOrderRequest) : CommandE Unit := do
  match context.venue with
  | .binance =>
    let _ ← restText ⟨.post, "/fapi/v1/order/test",
      buildBinanceCreatePairs spec.nativeSymbol order, "binance.validate_order"⟩
  | .bybit =>
    let _ ← restText ⟨.post, "/v5/order/pre-check",
      buildBybitCreateObject spec.nativeSymbol order, "bybit.validate_order"⟩
  | .mexc => throw (.error (MarketError.withVenue
      { kind := .unsupported
        message := "mexc validate_order is unsupported: official MEXC futures docs do not " ++
          "expose a dry-run or precheck endpoint for regular orders" }
      context.venue context.product))

/-- The check of an order, here and at the venue, without sending it. -/
def validateOrder (request : ValidateOrderRequest) : CommandE CommandReceipt := do
  validateCreateOrder context request.order
  let spec ← commandSpec context request.order.instrumentId
  sendValidateOrder context spec request.order
  finishReceipt {
    operation := .validateOrder
    status := .accepted
    venue := context.venue
    product := context.product
    instrumentId := some spec.instrumentId
    orderId := none
    clientOrderId := request.order.clientOrderId
    requestId := request.requestId.or request.order.requestId
    message := some "validated"
    nativeCode := none
    retriable := false }

/-! ### The commands -/

/-- A root command with its request. -/
inductive RootCommand
  | createOrder (request : CreateOrderRequest)
  | createOrders (request : CreateOrdersRequest)
  | editOrder (request : AmendOrderRequest)
  | editOrders (request : AmendOrdersRequest)
  | cancelOrder (request : CancelOrderRequest)
  | cancelOrders (request : CancelOrdersRequest)
  | closePosition (request : ClosePositionRequest)
  | cancelAllOrders (request : CancelAllOrdersRequest)
  | validateOrder (request : ValidateOrderRequest)
  | setLeverage (request : SetLeverageRequest)
  | setMarginMode (request : SetMarginModeRequest)
  | setPositionMode (request : SetPositionModeRequest)
  | webSocketOnly (command : WebSocketCommand)

namespace RootCommand

/-- A handle for the acknowledgement of a command. -/
def ofAck (command : CommandE CommandAck) : CommandE (List PendingCommandHandle) :=
  return [.fromAck (← command)]

/-- Handles for the acknowledgements of a batch. -/
def ofAcks (command : CommandE (List CommandAck)) (receivers : ℕ) :
    CommandE (List PendingCommandHandle) :=
  return commandHandlesFromAcks (← command) receivers

/-- A handle for the receipt of a command that is sent over REST. -/
def ofReceipt (command : CommandE CommandReceipt) : CommandE (List PendingCommandHandle) :=
  return [← PendingCommandHandle.fromReceipt (← command) .rest]

/-- Run the command; a single handle is a list of one. -/
def run : RootCommand → CommandE (List PendingCommandHandle)
  | .createOrder request => ofAck (BatMarkets.createOrder context request)
  | .createOrders request =>
    ofAcks (BatMarkets.createOrders context request) request.orders.length
  | .editOrder request => ofAck (amendOrder context request)
  | .editOrders request => ofAcks (amendOrders context request) request.orders.length
  | .cancelOrder request => ofAck (BatMarkets.cancelOrder context request)
  | .cancelOrders request =>
    ofAcks (BatMarkets.cancelOrders context request) request.orders.length
  | .closePosition request => ofAck (BatMarkets.closePosition context request)
  | .cancelAllOrders request => ofReceipt (BatMarkets.cancelAllOrders context request)
  | .validateOrder request => ofReceipt (BatMarkets.validateOrder context request)
  | .setLeverage request => ofReceipt (BatMarkets.setLeverage context request)
  | .setMarginMode request => ofReceipt (BatMarkets.setMarginMode context request)
  | .setPositionMode request => ofReceipt (BatMarkets.setPositionMode context request)
  | .webSocketOnly command => command.run context

end RootCommand

/-- The command, for any transport. -/
def WebSocketCommand.root : WebSocketCommand → RootCommand
  | .createOrder request => .createOrder request
  | .createOrders request => .createOrders request
  | .editOrder request => .editOrder request
  | .editOrders request => .editOrders request
  | .cancelOrder request => .cancelOrder request
  | .cancelOrders request => .cancelOrders request
  | .cancelAllOrders request => .cancelAllOrders request

/-- A command that requires the websocket is the command in such a configuration. -/
theorem WebSocketCommand.run_eq (command : WebSocketCommand) :
    command.run context = command.root.run (webSocketOnlyContext context) := by
  cases command with
  | createOrder request =>
    simp only [WebSocketCommand.run, createOrderWs, root, RootCommand.run, RootCommand.ofAck,
      bind_assoc, pure_bind]
  | createOrders request => rfl
  | editOrder request =>
    simp only [WebSocketCommand.run, editOrderWs, root, RootCommand.run, RootCommand.ofAck,
      bind_assoc, pure_bind]
  | editOrders request => rfl
  | cancelOrder request =>
    simp only [WebSocketCommand.run, cancelOrderWs, root, RootCommand.run, RootCommand.ofAck,
      bind_assoc, pure_bind]
  | cancelOrders request => rfl
  | cancelAllOrders request =>
    -- the command is refused before there is a receipt
    rfl

end BatMarkets
