import BatMarkets.Commands.Manage

/-!
# Amending several orders

The command that amends a batch of orders (`amend_orders` of `runtime.rs`).  Over the websocket
Binance takes one request for each order; a batch over REST needs every order in the cache.
-/

namespace BatMarkets

open CommandM Wire

/-! ### Orders of a batch -/

/-- An order without a request id gets that of its batch. -/
def hydrateAmendRequestWithBatchId (request : AmendOrderRequest)
    (batchRequestId : Option RequestId) : AmendOrderRequest :=
  { request with requestId := request.requestId.or batchRequestId }

/-- The identity that its receipt gets back. -/
def amendIdentity (order : AmendOrderRequest) : BatchIdentity where
  instrumentId := some order.instrumentId
  orderId := order.orderId
  clientOrderId := order.clientOrderId
  requestId := order.requestId

variable (context : CommandContext)

/-- All orders of the batch are checked before any is sent. -/
def validateAmendOrders (request : AmendOrdersRequest) : CommandE Unit := do
  if request.orders = [] then
    throw (.error (configError "amend_orders requires at least one order"))
  let _ ← request.orders.mapM (validateAmendOrder context)

/-- Binance amends only orders that are cached, since it wants the values that stay as well. -/
def resolveCachedOrderForAmend (request : AmendOrderRequest) : CommandE Order := do
  let state ← readState
  match state.orders.find? (amendTarget request) with
  | some order => return order
  | none => throw (.error (configError ("binance batch amend requires cached order state for " ++
      request.instrumentId.asStr)))

/-- The parameters of an order in a batch, like those of an order amended alone. -/
def binanceBatchAmendPairs (spec : InstrumentSpec) (request : AmendOrderRequest)
    (current : Order) : Except MarketError (List (String × String)) := do
  if current.orderType ≠ .limit then
    throw { kind := .unsupported
            message := "binance batch amend currently supports only cached LIMIT orders" }
  if request.triggerPrice.isSome then
    throw {
      kind := .unsupported
      message :=
        "binance batch amend does not support modifying trigger_price on linear futures" }
  match request.price.or current.price with
  | none =>
    throw (configError "binance batch amend requires a limit price or a cached order price")
  | some price =>
    appendOrderIdentity
      [("symbol", spec.nativeSymbol), ("side", binanceSide current.side),
        ("quantity", formatQuantity (request.quantity.getD current.quantity)),
        ("price", formatPrice price)] request.orderId request.clientOrderId

/-- The object of an order in the batch request of Binance. -/
def buildBinanceBatchAmendObject (request : AmendOrderRequest) : CommandE Json := do
  let spec ← commandSpec context request.instrumentId
  let current ← resolveCachedOrderForAmend request
  return bodyToObject (← ofExcept (binanceBatchAmendPairs spec request current))

/-- The object of an order in the batch request of Bybit. -/
def buildBybitBatchAmendObject (request : AmendOrderRequest) : CommandE Json := do
  let spec ← commandSpec context request.instrumentId
  let pairs ← ofExcept (appendBybitOrderIdentity [("symbol", spec.nativeSymbol)] request.orderId
    request.clientOrderId)
  return bodyToObject (pairs ++
    (request.quantity.map fun quantity => ("qty", formatQuantity quantity)).toList ++
    (request.price.map fun price => ("price", formatPrice price)).toList ++
    (request.triggerPrice.map fun price => ("triggerPrice", formatPrice price)).toList)

/-! ### The command -/

/-- Amend the orders of a chunk in one request. -/
def amendChunkBinance (chunk : List AmendOrderRequest) : CommandE (List CommandAck) := do
  let orders ← chunk.mapM (buildBinanceBatchAmendObject context)
  let receipts ← sendBatchRest context .amendOrder (chunk.map amendIdentity)
    (classifyBinanceBatchPayload · .amendOrder · (chunk.map (·.requestId)))
    ⟨.put, "/fapi/v1/batchOrders", .object [("batchOrders", .array orders)],
      "binance.amend_orders"⟩
  finishChunk "binance batch amend" receipts (chunk.map amendIdentity) .amendOrder .rest

/-- One request of Bybit, with a chunk of the orders. -/
def amendChunkBybit (chunk : List AmendOrderRequest) : CommandE (List CommandAck) := do
  let orders ← chunk.mapM (buildBybitBatchAmendObject context)
  let body := Json.object [("category", .string "linear"), ("request", .array orders)]
  let identities := chunk.map amendIdentity
  let (receipts, transport) ← sendBatch context "edit_orders_ws" .amendOrder identities
    (classifyBybitBatchPayload context.toLiveContext · .amendOrder · identities)
    ⟨"order.amend-batch", .array [body], "bybit.amend_orders_ws"⟩
    ⟨.post, "/v5/order/amend-batch", body, "bybit.amend_orders"⟩
  finishChunk "bybit batch amend" receipts identities .amendOrder transport

/-- Amend the orders of a batch; there is an acknowledgement for each order of a chunk, so none is
missing at the end. -/
def sendAmendOrders (orders : List AmendOrderRequest) : CommandE (List CommandAck) := do
  match context.venue with
  | .binance =>
    if context.wsOrderEntry then
      return (← (chunks 5 orders).mapM fun chunk =>
        tryJoinAll (chunk.map (amendOrder context))).flatten
    else
      if context.websocketOnly then
        throw (.error (unsupportedWsCommand context "edit_orders_ws"))
      return (← (chunks 5 orders).mapM (amendChunkBinance context)).flatten
  | .bybit => return (← (chunks 20 orders).mapM (amendChunkBybit context)).flatten
  | .mexc => throw (.error (MarketError.withVenue
      { kind := .unsupported
        message := "mexc amend_orders is unsupported: " ++
          "official MEXC futures docs do not expose a regular order amend endpoint" }
      context.venue context.product))

/-- A batch of one order is a single command. -/
def amendOrders (request : AmendOrdersRequest) : CommandE (List CommandAck) := do
  validateAmendOrders context request
  match request.orders with
  | [single] =>
    return [← amendOrder context (hydrateAmendRequestWithBatchId single request.requestId)]
  | orders =>
    sendAmendOrders context (orders.map (hydrateAmendRequestWithBatchId · request.requestId))

end BatMarkets
