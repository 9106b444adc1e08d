import BatMarkets.Core.Numeric

/-!
# Orders, positions, commands and reconcile reports

The private side of the engine core: what a venue account holds (`account.rs`, `position.rs`,
`trade.rs`), the outcome of a command (`command.rs`) and the outcome of a repair (`reconcile.rs`).
-/

namespace BatMarkets

/-! ### Account -/

/-- Balance snapshot for a single asset. -/
structure Balance where
  asset : AssetCode
  walletBalance : Amount
  availableBalance : Amount
  updatedAt : TimestampMs
  deriving DecidableEq, Repr

/-- Coarse account summary for futures trading. -/
structure AccountSummary where
  totalWalletBalance : Amount
  totalAvailableBalance : Amount
  totalUnrealizedPnl : Amount
  updatedAt : TimestampMs
  deriving DecidableEq, Repr

/-- REST-backed account snapshot used by repair flows. -/
structure AccountSnapshot where
  balances : List Balance
  summary : Option AccountSummary
  deriving DecidableEq, Repr

/-- Unified futures position snapshot. -/
structure Position where
  positionId : PositionId
  instrumentId : InstrumentId
  direction : PositionDirection
  size : Quantity
  entryPrice : Option Price
  markPrice : Option Price
  unrealizedPnl : Option Amount
  leverage : Option Leverage
  marginMode : MarginMode
  positionMode : PositionMode
  updatedAt : TimestampMs
  deriving DecidableEq, Repr

/-! ### Orders and executions -/

/-- Unified order snapshot. -/
structure Order where
  orderId : OrderId
  clientOrderId : Option ClientOrderId
  instrumentId : InstrumentId
  side : Side
  orderType : OrderType
  timeInForce : Option TimeInForce
  status : OrderStatus
  price : Option Price
  quantity : Quantity
  filledQuantity : Quantity
  averageFillPrice : Option Price
  reduceOnly : Bool
  postOnly : Bool
  createdAt : TimestampMs
  updatedAt : TimestampMs
  venueStatus : Option String
  deriving DecidableEq, Repr

/-- A limit order to buy one unit of which nothing is filled.  Concrete runs are about orders of
this kind. -/
def Order.unit (orderId instrumentId : String) (status : OrderStatus) (updatedAt : TimestampMs) :
    Order where
  orderId := ⟨orderId⟩
  clientOrderId := none
  instrumentId := ⟨instrumentId⟩
  side := .buy
  orderType := .limit
  timeInForce := none
  status := status
  price := some ⟨.ofNat 1 Decimal.one_fits⟩
  quantity := ⟨.ofNat 1 Decimal.one_fits⟩
  filledQuantity := ⟨.ofNat 0 Decimal.zero_fits⟩
  averageFillPrice := none
  reduceOnly := false
  postOnly := false
  createdAt := 0
  updatedAt := updatedAt
  venueStatus := none

/-- Trade execution liquidity tag. -/
inductive Liquidity
  | maker
  | taker
  deriving DecidableEq, Repr

/-- Unified fill/execution. -/
structure Execution where
  executionId : TradeId
  orderId : OrderId
  clientOrderId : Option ClientOrderId
  instrumentId : InstrumentId
  side : Side
  quantity : Quantity
  price : Price
  fee : Option Amount
  feeAsset : Option AssetCode
  liquidity : Option Liquidity
  executedAt : TimestampMs
  deriving DecidableEq, Repr

/-- Minimal repairable private-state snapshot. -/
structure PrivateSnapshot where
  account : Option AccountSnapshot
  positions : List Position
  openOrders : List Order
  deriving DecidableEq, Repr

/-- Get-order request for the unified command layer. -/
structure GetOrderRequest where
  requestId : Option RequestId
  instrumentId : InstrumentId
  orderId : Option OrderId
  clientOrderId : Option ClientOrderId
  deriving DecidableEq, Repr

/-- Open-order listing request. -/
structure ListOpenOrdersRequest where
  instrumentId : Option InstrumentId
  deriving DecidableEq, Repr

/-- Execution-history request. -/
structure ListExecutionsRequest where
  instrumentId : Option InstrumentId
  limit : Option Nat
  deriving DecidableEq, Repr

/-! ### Commands -/

/-- Supported command-lane operations. -/
inductive CommandOperation
  | createOrder
  | createOrders
  | amendOrder
  | amendOrders
  | cancelOrder
  | cancelOrders
  | cancelAllOrders
  | closePosition
  | validateOrder
  | getOrder
  | setLeverage
  | setMarginMode
  | setPositionMode
  deriving DecidableEq, Repr

/-- Result of command classification. -/
inductive CommandStatus
  | accepted
  | rejected
  | unknownExecution
  deriving DecidableEq, Repr

/-- Command-lane output suitable for state hints and caller handling. -/
structure CommandReceipt where
  operation : CommandOperation
  status : CommandStatus
  venue : Venue
  product : Product
  instrumentId : Option InstrumentId
  orderId : Option OrderId
  clientOrderId : Option ClientOrderId
  requestId : Option RequestId
  message : Option String
  nativeCode : Option String
  retriable : Bool
  deriving DecidableEq, Repr

/-! ### Reconcile reports -/

/-- Why the engine initiated a reconcile cycle. -/
inductive ReconcileTrigger
  | manual
  | reconnect
  | sequenceGap
  | unknownExecution
  | periodic
  deriving DecidableEq, Repr

/-- Outcome of a repair attempt. -/
inductive ReconcileOutcome
  | synchronized
  | stillUncertain
  | diverged
  deriving DecidableEq, Repr

/-- Result of a reconcile pass. -/
structure ReconcileReport where
  trigger : ReconcileTrigger
  outcome : ReconcileOutcome
  repairedAt : TimestampMs
  note : Option String
  deriving DecidableEq, Repr

end BatMarkets
