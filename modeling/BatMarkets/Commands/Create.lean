import BatMarkets.Commands.Batch
import BatMarkets.Commands.Encode
import BatMarkets.Core.Arithmetic

/-!
# Placing orders

The commands that place orders (`create_order`, `create_orders` and `close_position` of
`runtime.rs`).  Waiting for the rate limiter and recording latencies are left out.  A body for MEXC
looks at the cached positions twice in the source; here it sees them once.
-/

namespace BatMarkets

open CommandM Wire

/-! ### Checks -/

/-- The error for a request that cannot be sent. -/
def configError (message : String) : MarketError where
  kind := .configError
  message := message

/-- The check of an order against its instrument; the notional may panic. -/
def checkCreateOrder (spec : InstrumentSpec) (request : CreateOrderRequest) :
    Except Failure Unit := do
  if request.quantity.value.lt spec.minQty.value then
    throw (.error (configError ("order quantity " ++ request.quantity.value.display ++
      " is below min_qty " ++ spec.minQty.value.display ++ " for " ++ spec.instrumentId.asStr)))
  match request.price with
  | none => pure ()
  | some price =>
    let notional ← price.value.mul request.quantity.value
    if notional.lt spec.minNotional.value then
      throw (.error (configError ("order notional " ++ notional.display ++
        " is below min_notional " ++ spec.minNotional.value.display ++ " for " ++
        spec.instrumentId.asStr)))
  match request.orderType with
  | .market =>
    if request.price.isSome then
      throw (.error (configError "market orders must not include a limit price"))
  | .limit =>
    if request.price.isNone then
      throw (.error (configError "limit orders require price"))
  | .stopMarket =>
    if request.triggerPrice.isNone then
      throw (.error (configError "stop_market orders require trigger_price"))
    if request.price.isSome then
      throw (.error (configError "stop_market orders must not include a limit price"))
  | .stopLimit =>
    if request.price.isNone || request.triggerPrice.isNone then
      throw (.error (configError "stop_limit orders require both price and trigger_price"))
  | .takeProfitMarket =>
    if request.triggerPrice.isNone then
      throw (.error (configError "take_profit_market orders require trigger_price"))
    if request.price.isSome then
      throw (.error (configError "take_profit_market orders must not include a limit price"))
  | .takeProfitLimit =>
    if request.price.isNone || request.triggerPrice.isNone then
      throw (.error (configError "take_profit_limit orders require both price and trigger_price"))

variable (context : CommandContext)

/-- The check of an order before it is sent, against its instrument. -/
def validateCreateOrder (request : CreateOrderRequest) : CommandE Unit := do
  let spec ← commandSpec context request.instrumentId
  ExceptT.mk (.ret (checkCreateOrder spec request))

/-- The checks of the orders of a batch, from the one at `index` on; `seen` holds the client order
ids of those before, with their indexes. -/
def validateOrdersFrom (batch : Bool) :
    ℕ → List (ClientOrderId × ℕ) → List CreateOrderRequest → CommandE Unit
  | _, _, [] => pure ()
  | index, seen, order :: orders => do
    validateCreateOrder context order
    if batch then
      match order.clientOrderId with
      | none => throw (.error (configError
          "batch create requires client_order_id on every order for deterministic tracking"))
      | some clientOrderId =>
        match seen.find? (·.1 = clientOrderId) with
        | some (_, previous) => throw (.error (configError ("duplicate client_order_id '" ++
            clientOrderId.asStr ++ "' in batch create at indexes " ++ toString previous ++
            " and " ++ toString index)))
        | none => validateOrdersFrom batch (index + 1) ((clientOrderId, index) :: seen) orders
    else validateOrdersFrom batch (index + 1) seen orders

/-- A batch must have orders; each of them is checked before any is sent. -/
def validateCreateOrders (request : CreateOrdersRequest) : CommandE Unit := do
  if request.orders = [] then
    throw (.error (configError "create_orders requires at least one order"))
  validateOrdersFrom context (1 < request.orders.length) 0 [] request.orders

/-! ### Single orders -/

/-- An order without a request id gets that of its batch. -/
def hydrateCreateRequestWithBatchId (request : CreateOrderRequest)
    (batchRequestId : Option RequestId) : CreateOrderRequest :=
  { request with requestId := request.requestId.or batchRequestId }

/-- What a receipt lacks is filled in from the request. -/
def hydrateCreateReceipt (receipt : CommandReceipt) (request : CreateOrderRequest) :
    CommandReceipt :=
  { receipt with
    instrumentId := receipt.instrumentId.or (some request.instrumentId)
    clientOrderId := receipt.clientOrderId.or request.clientOrderId }

/-- Conditional orders have an endpoint of their own on Binance. -/
def binanceCreateUsesAlgoOrderEndpoint (request : CreateOrderRequest) : Bool :=
  request.orderType.isConditional

/-- The body of an order for MEXC. -/
def mexcCreateBody (build : LiveContext → InstrumentSpec → List Position → CreateOrderRequest →
    Except MarketError Json) (request : CreateOrderRequest) : CommandE Json := do
  let spec ← commandSpec context request.instrumentId
  let state ← readState
  ofExcept (build context.toLiveContext spec state.positions request)

/-- Send a new order. -/
def sendCreateOrder (request : CreateOrderRequest) :
    CommandE (CommandReceipt × CommandTransport) := do
  match context.venue with
  | .binance =>
    let spec ← commandSpec context request.instrumentId
    if binanceCreateUsesAlgoOrderEndpoint request then
      sendRestOnly context "create_order_ws" .createOrder request.requestId
        ⟨.post, "/fapi/v1/algoOrder", buildBinanceAlgoCreatePairs spec.nativeSymbol request,
          "binance.create_algo_order"⟩
    else
      let order := buildBinanceCreatePairs spec.nativeSymbol request
      sendCommand context "create_order_ws" .createOrder request.requestId
        ⟨"order.place", order, "binance.create_order_ws"⟩
        ⟨.post, "/fapi/v1/order", order, "binance.create_order"⟩
  | .bybit =>
    let spec ← commandSpec context request.instrumentId
    let order := buildBybitCreateObject spec.nativeSymbol request
    sendCommand context "create_order_ws" .createOrder request.requestId
      ⟨"order.create", .array [order], "bybit.create_order_ws"⟩
      ⟨.post, "/v5/order/create", order, "bybit.create_order"⟩
  | .mexc =>
    if context.websocketOnly then
      throw (.error (unsupportedWsCommand context "mexc.create_order_ws"))
    let order ← mexcCreateBody context mexcCreateOrderObject request
    return (← sendRest context .createOrder request.requestId
      ⟨.post, "/api/v1/private/order/submit", order, "mexc.create_order"⟩, .rest)

/-- The check, the request, the receipt, and what follows from it. -/
def createOrder (request : CreateOrderRequest) : CommandE CommandAck := do
  validateCreateOrder context request
  let (receipt, transport) ← sendCreateOrder context request
  let receipt := hydrateCreateReceipt receipt request
  cachePendingUnknown receipt .createOrder request.instrumentId none request.clientOrderId
  applyCommandReceipt receipt transport

/-! ### Batches -/

/-- The identity that its receipt gets back. -/
def createIdentity (order : CreateOrderRequest) : BatchIdentity where
  instrumentId := some order.instrumentId
  orderId := none
  clientOrderId := order.clientOrderId
  requestId := order.requestId

/-- Send the orders of a chunk in one request. -/
def createChunkBinance (chunk : List CreateOrderRequest) : CommandE (List CommandAck) := do
  let orders ← chunk.mapM fun order => do
    let spec ← commandSpec context order.instrumentId
    return buildBinanceBatchCreateObject spec.nativeSymbol order
  let receipts ← sendBatchRest context .createOrder (chunk.map createIdentity)
    (classifyBinanceBatchPayload · .createOrder · (chunk.map (·.requestId)))
    ⟨.post, "/fapi/v1/batchOrders", .object [("batchOrders", .array orders)],
      "binance.create_orders"⟩
  finishChunk "binance batch create" receipts (chunk.map createIdentity) .createOrder .rest

/-- One request of Bybit, with a chunk of the orders. -/
def createChunkBybit (chunk : List CreateOrderRequest) : CommandE (List CommandAck) := do
  let orders ← chunk.mapM fun order => do
    let spec ← commandSpec context order.instrumentId
    return buildBybitBatchCreateObject spec.nativeSymbol order
  let body := Json.object [("category", .string "linear"), ("request", .array orders)]
  let identities := chunk.map createIdentity
  let (receipts, transport) ← sendBatch context "create_orders_ws" .createOrder identities
    (classifyBybitBatchPayload context.toLiveContext · .createOrder · identities)
    ⟨"order.create-batch", .array [body], "bybit.create_orders_ws"⟩
    ⟨.post, "/v5/order/create-batch", body, "bybit.create_orders"⟩
  finishChunk "bybit batch create" receipts identities .createOrder transport

/-- One request of MEXC, with a chunk of the orders. -/
def createChunkMexc (chunk : List CreateOrderRequest) : CommandE (List CommandAck) := do
  let orders ← chunk.mapM fun order =>
    mexcCreateBody context buildMexcBatchCreateOrderObject order
  let receipts ← sendBatchRest context .createOrder (chunk.map createIdentity)
    (fun _ payload => classifyMexcBatchPayload .createOrder payload (chunk.map (·.requestId)))
    ⟨.post, "/api/v1/private/order/submit_batch", .object [("orders", .array orders)],
      "mexc.create_orders"⟩
  finishChunk "mexc batch create" receipts (chunk.map createIdentity) .createOrder .rest

/-- Send the orders of a batch; there is an acknowledgement for each order of a chunk, so none is
missing at the end. -/
def sendCreateOrders (orders : List CreateOrderRequest) : CommandE (List CommandAck) := do
  match context.venue with
  | .binance =>
    if context.wsOrderEntry then
      return (← (chunks 5 orders).mapM fun chunk =>
        tryJoinAll (chunk.map (createOrder context))).flatten
    else
      if context.websocketOnly then
        throw (.error (unsupportedWsCommand context "create_orders_ws"))
      return (← (chunks 5 orders).mapM (createChunkBinance context)).flatten
  | .bybit => return (← (chunks 20 orders).mapM (createChunkBybit context)).flatten
  | .mexc =>
    if context.websocketOnly then
      throw (.error (unsupportedWsCommand context "mexc.create_orders_ws"))
    return (← (chunks 20 orders).mapM (createChunkMexc context)).flatten

/-- A batch of one order is a single command. -/
def createOrders (request : CreateOrdersRequest) : CommandE (List CommandAck) := do
  validateCreateOrders context request
  match request.orders with
  | [single] =>
    return [← createOrder context (hydrateCreateRequestWithBatchId single request.requestId)]
  | orders =>
    sendCreateOrders context (orders.map (hydrateCreateRequestWithBatchId · request.requestId))

/-! ### Closing positions -/

/-- A cached position can be closed if it is not of size zero, and not smaller than the quantity. -/
def closePositionCacheIsActionable (position : Position) (request : ClosePositionRequest) : Bool :=
  !position.size.value.isZero &&
    (request.quantity.map fun quantity => !position.size.value.lt quantity.value).getD true

/-- The position to be closed: the cached one, or else one that the venue is asked for. -/
def resolveClosePosition (request : ClosePositionRequest) : CommandE Position := do
  let state ← readState
  match (state.positions.find? (·.instrumentId = request.instrumentId)).filter
      (closePositionCacheIsActionable · request) with
  | some position => return position
  | none =>
    let refreshed ← liftRuntime (refreshPositions context.toLiveContext)
    match refreshed.find? (·.instrumentId = request.instrumentId) with
    | some position => return position
    | none => throw (.error (configError ("no refreshed position found for " ++
        request.instrumentId.asStr ++
        "; start private stream or call refresh_positions before close_position")))

/-- An order that reduces a position. -/
def closeOrder (request : ClosePositionRequest) (side : Side) (quantity : Quantity) :
    CreateOrderRequest where
  requestId := request.requestId
  instrumentId := request.instrumentId
  clientOrderId := request.clientOrderId
  side := side
  orderType := if request.price.isSome then .limit else .market
  timeInForce := request.timeInForce
  quantity := quantity
  price := request.price
  triggerPrice := none
  triggerType := none
  reduceOnly := true
  postOnly := request.postOnly

/-- The order that closes a position. -/
def closeRequest (request : ClosePositionRequest) (position : Position) :
    Except MarketError CreateOrderRequest :=
  let alreadyFlat := configError ("position " ++ request.instrumentId.asStr ++ " is already flat")
  let quantity := request.quantity.getD position.size
  if position.size.value.isZero then .error alreadyFlat
  else if position.size.value.lt quantity.value then
    .error (configError "close_position quantity exceeds current position size")
  else match position.direction with
    | .long => .ok (closeOrder request .sell quantity)
    | .short => .ok (closeOrder request .buy quantity)
    | .flat => .error alreadyFlat

theorem closeRequest_eq_ok {request : ClosePositionRequest} {position : Position}
    {order : CreateOrderRequest} (h : closeRequest request position = .ok order) :
    ∃ side quantity, order = closeOrder request side quantity := by
  unfold closeRequest at h
  by_cases hzero : position.size.value.isZero = true
  · rw [if_pos hzero] at h
    cases h
  by_cases hlt : position.size.value.lt (request.quantity.getD position.size).value = true
  · rw [if_neg hzero, if_pos hlt] at h
    cases h
  rw [if_neg hzero, if_neg hlt] at h
  cases hd : position.direction <;> rw [hd] at h
  case flat => cases h
  all_goals exact ⟨_, _, (Except.ok.inj h).symm⟩

/-- Send the order that closes a position; the transport mode is not asked except for MEXC. -/
def sendCloseOrder (request : CreateOrderRequest) :
    CommandE (CommandReceipt × CommandTransport) := do
  match context.venue with
  | .binance =>
    let spec ← commandSpec context request.instrumentId
    let order := buildBinanceCreatePairs spec.nativeSymbol request
    let restOrder : RestCommand := ⟨.post, "/fapi/v1/order", order, "binance.close_position"⟩
    if context.wsOrderEntry then
      sendWebSocket context false .closePosition request.requestId
        ⟨"order.place", order, "binance.close_position_ws"⟩ restOrder
    else return (← sendRest context .closePosition request.requestId restOrder, .rest)
  | .bybit =>
    let spec ← commandSpec context request.instrumentId
    let order := buildBybitCloseObject spec.nativeSymbol request
    let restOrder : RestCommand := ⟨.post, "/v5/order/create", order, "bybit.close_position"⟩
    if context.wsOrderEntry then
      sendWebSocket context false .closePosition request.requestId
        ⟨"order.create", .array [order], "bybit.close_position_ws"⟩ restOrder
    else return (← sendRest context .closePosition request.requestId restOrder, .rest)
  | .mexc =>
    if context.websocketOnly then
      throw (.error (unsupportedWsCommand context "mexc.close_position_ws"))
    let order ← mexcCreateBody context mexcCreateOrderObject request
    return (← sendRest context .closePosition request.requestId
      ⟨.post, "/api/v1/private/order/submit", order, "mexc.close_position"⟩, .rest)

/-- The position, the order that closes it, the check, the request and the receipt. -/
def closePosition (request : ClosePositionRequest) : CommandE CommandAck := do
  let position ← resolveClosePosition context request
  let order ← ofExcept (closeRequest request position)
  validateCreateOrder context order
  let (receipt, transport) ← sendCloseOrder context order
  cachePendingUnknown receipt .closePosition order.instrumentId none order.clientOrderId
  applyCommandReceipt receipt transport

end BatMarkets
