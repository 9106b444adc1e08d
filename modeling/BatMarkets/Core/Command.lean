import BatMarkets.Core.Trade

/-!
# Commands

What a caller asks the command lane for (`trade.rs`), and what it is told about the outcome
(`command.rs`, `execution.rs`).
-/

namespace BatMarkets

/-- Trigger source for stop/take-profit orders. -/
inductive TriggerType
  | lastPrice
  | markPrice
  | indexPrice
  deriving DecidableEq

/-- Create-order request for the unified command layer. -/
structure CreateOrderRequest where
  requestId : Option RequestId
  instrumentId : InstrumentId
  clientOrderId : Option ClientOrderId
  side : Side
  orderType : OrderType
  timeInForce : Option TimeInForce
  quantity : Quantity
  price : Option Price
  triggerPrice : Option Price
  triggerType : Option TriggerType
  reduceOnly : Bool
  postOnly : Bool
  deriving DecidableEq

/-- Batch create-order request for the unified command layer. -/
structure CreateOrdersRequest where
  requestId : Option RequestId
  orders : List CreateOrderRequest
  deriving DecidableEq

/-- Amend-order request for the unified command layer. -/
structure AmendOrderRequest where
  requestId : Option RequestId
  instrumentId : InstrumentId
  orderId : Option OrderId
  clientOrderId : Option ClientOrderId
  quantity : Option Quantity
  price : Option Price
  triggerPrice : Option Price
  deriving DecidableEq

/-- Batch amend-order request. -/
structure AmendOrdersRequest where
  requestId : Option RequestId
  orders : List AmendOrderRequest
  deriving DecidableEq

/-- Order-target locator used by amend/cancel requests. -/
structure OrderTarget where
  instrumentId : InstrumentId
  orderId : Option OrderId
  clientOrderId : Option ClientOrderId
  deriving DecidableEq

/-- Cancel-order request for the unified command layer. -/
structure CancelOrderRequest where
  requestId : Option RequestId
  instrumentId : InstrumentId
  orderId : Option OrderId
  clientOrderId : Option ClientOrderId
  deriving DecidableEq

/-- Batch cancel-order request for the unified command layer. -/
structure CancelOrdersRequest where
  requestId : Option RequestId
  orders : List OrderTarget
  deriving DecidableEq

/-- Cancel-all-orders request for the unified command layer. -/
structure CancelAllOrdersRequest where
  requestId : Option RequestId
  instrumentId : Option InstrumentId
  deriving DecidableEq

/-- Close-position request. -/
structure ClosePositionRequest where
  requestId : Option RequestId
  instrumentId : InstrumentId
  quantity : Option Quantity
  clientOrderId : Option ClientOrderId
  price : Option Price
  timeInForce : Option TimeInForce
  postOnly : Bool
  deriving DecidableEq

/-- Set-leverage request. -/
structure SetLeverageRequest where
  requestId : Option RequestId
  instrumentId : InstrumentId
  leverage : Leverage
  deriving DecidableEq

/-- Set-margin-mode request. -/
structure SetMarginModeRequest where
  requestId : Option RequestId
  instrumentId : InstrumentId
  marginMode : MarginMode
  deriving DecidableEq

/-- Set-position-mode request. -/
structure SetPositionModeRequest where
  requestId : Option RequestId
  instrumentId : Option InstrumentId
  positionMode : PositionMode
  deriving DecidableEq

/-- Validate-order request; the order is checked by the venue and not placed. -/
structure ValidateOrderRequest where
  requestId : Option RequestId
  order : CreateOrderRequest
  deriving DecidableEq

/-! ### Acknowledgements -/

/-- Transport path chosen for a command attempt. -/
inductive CommandTransport
  | auto
  | rest
  | webSocket
  deriving DecidableEq

/-- Fast acknowledgement returned on the command hot path. -/
structure CommandAck where
  receipt : CommandReceipt
  transport : CommandTransport
  acknowledgedAt : TimestampMs
  deriving DecidableEq

/-- Lifecycle notifications for low-latency command tracking. -/
inductive CommandLifecycleEvent
  | ack (ack : CommandAck)
  | receipt (receipt : CommandReceipt)
  | recoveryScheduled (ack : CommandAck)
  | recoveryCompleted (ack : CommandAck) (report : ReconcileReport)
  deriving DecidableEq

/-- Notifications of the command lane. -/
inductive CommandLaneEvent
  | receipt (receipt : CommandReceipt)
  | lifecycle (event : CommandLifecycleEvent)
  deriving DecidableEq

/-! ### What a request asks for -/

/-- The request asks for an order that must not take liquidity. -/
def CreateOrderRequest.asksPostOnly (request : CreateOrderRequest) : Bool :=
  request.postOnly || request.timeInForce == some .postOnly

/-- The order is the requested one, with the same numbers for its decimals. -/
structure CreateOrderRequest.Describes (request : CreateOrderRequest) (order : Order) : Prop where
  side : order.side = request.side
  orderType : order.orderType = request.orderType
  quantity : order.quantity.value.toRat = request.quantity.value.toRat
  clientOrderId : order.clientOrderId = request.clientOrderId
  reduceOnly : order.reduceOnly = request.reduceOnly
  price : ∀ p, request.price = some p → ∃ q, order.price = some q ∧ q.value.toRat = p.value.toRat
  postOnly : order.postOnly = request.asksPostOnly
  timeInForce : order.timeInForce = some .postOnly ↔ request.asksPostOnly = true
  ioc : request.timeInForce = some .ioc → order.timeInForce = some .ioc
  fok : request.timeInForce = some .fok → order.timeInForce = some .fok

end BatMarkets
