import BatMarkets.Commands.Create

/-!
# Changing orders and settings

The commands that amend and cancel orders and that change the settings of an account
(`amend_order`, `cancel_order`, `cancel_all_orders`, `set_leverage`, `set_margin_mode` and
`set_position_mode` of `runtime.rs`).  What the source reads from the cached positions in two steps
is read here in one.
-/

namespace BatMarkets

open CommandM Interleaving Wire

/-- The pairs of a query or a body as JSON fields. -/
def stringFields (pairs : List (String × String)) : List (String × Json) :=
  pairs.map fun pair => (pair.1, .string pair.2)

/-- The pairs of a body as an object. -/
def bodyToObject (pairs : List (String × String)) : Json := .object (stringFields pairs)

/-- The id as an integer if it is one. -/
def idValue (id : String) : Json :=
  match Text.parseInt (-2 ^ 63) (2 ^ 63 - 1) id.toList with
  | .ok n => .integer n
  | .error _ => .string id

variable (context : CommandContext)

/-! ### Amending orders -/

/-- An order to be amended has a name, and something to be amended. -/
def validateAmendOrder (request : AmendOrderRequest) : CommandE Unit := do
  let _ ← commandSpec context request.instrumentId
  let _ ← ofExcept (appendOrderIdentity [] request.orderId request.clientOrderId)
  if request.quantity.isNone && request.price.isNone && request.triggerPrice.isNone then
    throw (.error (configError
      "amend_order requires at least one of quantity, price, or trigger_price"))

/-- The cached order is the one to amend. -/
def amendTarget (request : AmendOrderRequest) (order : Order) : Bool :=
  order.instrumentId == request.instrumentId &&
    match request.orderId, request.clientOrderId with
    | some orderId, _ => order.orderId == orderId
    | none, some clientOrderId => order.clientOrderId == some clientOrderId
    | none, none => false

/-- The order as it is now: the cached one, or else the one that the venue is asked for. -/
def resolveOrderForAmend (request : AmendOrderRequest) : CommandE Order := do
  let state ← readState
  match state.orders.find? (amendTarget request) with
  | some order => return order
  | none => liftRuntime (getOrder context.toLiveContext {
      requestId := request.requestId
      instrumentId := request.instrumentId
      orderId := request.orderId
      clientOrderId := request.clientOrderId })

/-- The parameters of an amended order, with its side, quantity and price. -/
def binanceAmendPairs (spec : InstrumentSpec) (request : AmendOrderRequest) (current : Order) :
    Except MarketError (List (String × String)) := do
  if current.orderType ≠ .limit then
    throw { kind := .unsupported
            message := "binance amend currently supports only LIMIT orders" }
  if request.triggerPrice.isSome then
    throw {
      kind := .unsupported
      message := "binance amend does not support modifying trigger_price on linear futures" }
  match request.price.or current.price with
  | none => throw (configError "binance amend requires a limit price or a cached order price")
  | some price =>
    appendOrderIdentity
      [("symbol", spec.nativeSymbol), ("side", binanceSide current.side),
        ("quantity", formatQuantity (request.quantity.getD current.quantity)),
        ("price", formatPrice price)] request.orderId request.clientOrderId

/-- The pairs of an amend of Bybit, with the values that change. -/
def bybitAmendPairs (spec : InstrumentSpec) (request : AmendOrderRequest) :
    Except MarketError (List (String × String)) := do
  let pairs ← appendBybitOrderIdentity [("category", "linear"), ("symbol", spec.nativeSymbol)]
    request.orderId request.clientOrderId
  return pairs ++ (request.quantity.map fun quantity => ("qty", formatQuantity quantity)).toList ++
    (request.price.map fun price => ("price", formatPrice price)).toList ++
    (request.triggerPrice.map fun price => ("triggerPrice", formatPrice price)).toList

/-- The request that amends an order, in the way of the venue; MEXC has none. -/
def sendAmendOrder (request : AmendOrderRequest) :
    CommandE (CommandReceipt × CommandTransport) := do
  match context.venue with
  | .binance =>
    let spec ← commandSpec context request.instrumentId
    let current ← resolveOrderForAmend context request
    let pairs ← ofExcept (binanceAmendPairs spec request current)
    sendCommand context "edit_order_ws" .amendOrder request.requestId
      ⟨"order.modify", bodyToObject (pairs ++ [("origType", binanceOrderType current.orderType)]),
        "binance.amend_order_ws"⟩
      ⟨.put, "/fapi/v1/order", bodyToObject pairs, "binance.amend_order"⟩
  | .bybit =>
    let spec ← commandSpec context request.instrumentId
    let pairs ← ofExcept (bybitAmendPairs spec request)
    sendCommand context "edit_order_ws" .amendOrder request.requestId
      ⟨"order.amend", .array [bodyToObject pairs], "bybit.amend_order_ws"⟩
      ⟨.post, "/v5/order/amend", bodyToObject pairs, "bybit.amend_order"⟩
  | .mexc => throw (.error (MarketError.withVenue
      { kind := .unsupported
        message := "mexc amend_order is unsupported: " ++
          "official MEXC futures docs do not expose a regular order amend endpoint" }
      context.venue context.product))

/-- The receipt, with what it does not say taken from the request. -/
def hydrateReceipt (receipt : CommandReceipt) (instrumentId : InstrumentId)
    (orderId : Option OrderId) (clientOrderId : Option ClientOrderId) : CommandReceipt :=
  { receipt with
    instrumentId := receipt.instrumentId.or (some instrumentId)
    orderId := receipt.orderId.or orderId
    clientOrderId := receipt.clientOrderId.or clientOrderId }

/-- What a receipt lacks is filled in from the request. -/
def hydrateAmendReceipt (receipt : CommandReceipt) (request : AmendOrderRequest) : CommandReceipt :=
  hydrateReceipt receipt request.instrumentId request.orderId request.clientOrderId

/-- The check, the request, the receipt, and what follows from it. -/
def amendOrder (request : AmendOrderRequest) : CommandE CommandAck := do
  validateAmendOrder context request
  let (receipt, transport) ← sendAmendOrder context request
  let receipt := hydrateAmendReceipt receipt request
  cachePendingUnknown receipt .amendOrder request.instrumentId request.orderId
    request.clientOrderId
  applyCommandReceipt receipt transport

/-! ### Cancelling orders -/

/-- The path and the body of a cancellation on MEXC. -/
def mexcCancelBody (spec : InstrumentSpec) (request : CancelOrderRequest) :
    Except MarketError (String × Json) :=
  match request.orderId, request.clientOrderId with
  | some orderId, _ => .ok ("/api/v1/private/order/cancel",
      .object [("orderIds", .array [idValue orderId.asStr])])
  | none, some clientOrderId => .ok ("/api/v1/private/order/batch_cancel_with_external",
      .array [.object [("symbol", .string spec.nativeSymbol),
        ("externalOid", .string clientOrderId.asStr)]])
  | none, none => .error (MarketError.withVenue
      (configError "mexc cancel_order requires order_id or client_order_id")
      context.venue context.product)

/-- The request that cancels an order, in the way of the venue. -/
def sendCancelOrder (spec : InstrumentSpec) (request : CancelOrderRequest) :
    CommandE (CommandReceipt × CommandTransport) := do
  match context.venue with
  | .binance =>
    if isBinanceAlgoOrderId request.orderId then
      if context.websocketOnly then
        throw (.error (unsupportedWsCommand context "cancel_order_ws"))
      let query ← ofExcept (binanceAlgoIdentityQuery request.orderId request.clientOrderId)
      return (← sendRest context .cancelOrder request.requestId
        ⟨.delete, "/fapi/v1/algoOrder", bodyToObject query, "binance.cancel_algo_order"⟩, .rest)
    else
      let query ← ofExcept (appendOrderIdentity [("symbol", spec.nativeSymbol)] request.orderId
        request.clientOrderId)
      sendCommand context "cancel_order_ws" .cancelOrder request.requestId
        ⟨"order.cancel", bodyToObject query, "binance.cancel_order_ws"⟩
        ⟨.delete, "/fapi/v1/order", bodyToObject query, "binance.cancel_order"⟩
  | .bybit =>
    let body ← ofExcept (appendBybitOrderIdentity
      [("category", "linear"), ("symbol", spec.nativeSymbol)] request.orderId
      request.clientOrderId)
    sendCommand context "cancel_order_ws" .cancelOrder request.requestId
      ⟨"order.cancel", .array [bodyToObject body], "bybit.cancel_order_ws"⟩
      ⟨.post, "/v5/order/cancel", bodyToObject body, "bybit.cancel_order"⟩
  | .mexc =>
    if context.websocketOnly then
      throw (.error (unsupportedWsCommand context "mexc.cancel_order_ws"))
    let (path, body) ← ofExcept (mexcCancelBody context spec request)
    return (← sendRest context .cancelOrder request.requestId
      ⟨.post, path, body, "mexc.cancel_order"⟩, .rest)

/-- What a receipt lacks is filled in from the request. -/
def hydrateCancelReceipt (receipt : CommandReceipt) (request : CancelOrderRequest) :
    CommandReceipt :=
  hydrateReceipt receipt request.instrumentId request.orderId request.clientOrderId

/-- The request, the receipt, and what follows from it. -/
def cancelOrder (request : CancelOrderRequest) : CommandE CommandAck := do
  let spec ← commandSpec context request.instrumentId
  let (receipt, transport) ← sendCancelOrder context spec request
  let receipt := hydrateCancelReceipt receipt request
  cachePendingUnknown receipt .cancelOrder request.instrumentId request.orderId
    request.clientOrderId
  applyCommandReceipt receipt transport

/-! ### Cancelling all orders -/

/-- The reply to a request, whatever it says; an error ends the command. -/
def restText (request : RestCommand) : CommandE (Payload × InstrumentCatalog) := do
  match ← rest request with
  | (.ok payload, catalog) => return (payload, catalog)
  | (.error e, _) => throw (.error e)

/-- The request that cancels the plain orders of a symbol at Binance. -/
def binanceCancelAll (spec : InstrumentSpec) : RestCommand :=
  ⟨.delete, "/fapi/v1/allOpenOrders", .object [("symbol", .string spec.nativeSymbol)],
    "binance.cancel_all_orders"⟩

/-- The request that cancels the conditional orders of a symbol at Binance. -/
def binanceCancelAllAlgo (spec : InstrumentSpec) : RestCommand :=
  ⟨.delete, "/fapi/v1/algoOpenOrders", .object [("symbol", .string spec.nativeSymbol)],
    "binance.cancel_all_algo_orders"⟩

/-- The instruments of the open orders of the engine, each once. -/
def openInstruments (state : EngineState) : List InstrumentId :=
  (Std.ExtTreeSet.ofList (state.openOrders.map (·.instrumentId)) compare).toList

/-- Cancel the orders of an instrument, plain and conditional; the replies are not looked at. -/
def cancelInstrument (instrumentId : InstrumentId) : CommandE Unit := do
  let spec ← commandSpec context instrumentId
  let _ ← restText (binanceCancelAll spec)
  let _ ← restText (binanceCancelAllAlgo spec)

/-- The requests that cancel all orders in scope, in the way of the venue. -/
def sendCancelAllOrders (request : CancelAllOrdersRequest) : CommandE CommandReceipt := do
  match context.venue, request.instrumentId with
  | .binance, some instrumentId =>
    let spec ← commandSpec context instrumentId
    let (payload, catalog) ← restText (binanceCancelAll spec)
    let _ ← restText (binanceCancelAllAlgo spec)
    classify context .cancelAllOrders catalog (some payload) request.requestId
  | .binance, none =>
    let state ← readState
    let _ ← (openInstruments state).mapM (cancelInstrument context)
    return { CommandReceipt.plain context.venue .cancelAllOrders .accepted request.requestId
      (some "accepted") none false with product := context.product }
  | .bybit, some instrumentId =>
    let spec ← commandSpec context instrumentId
    sendRestOrFail context .cancelAllOrders request.requestId
      ⟨.post, "/v5/order/cancel-all",
        .object [("category", .string "linear"), ("symbol", .string spec.nativeSymbol)],
        "bybit.cancel_all_orders"⟩
  | .bybit, none =>
    sendRestOrFail context .cancelAllOrders request.requestId
      ⟨.post, "/v5/order/cancel-all",
        .object [("category", .string "linear"), ("coin", .string "USDT")],
        "bybit.cancel_all_orders"⟩
  | .mexc, some instrumentId =>
    let spec ← commandSpec context instrumentId
    sendRestOrFail context .cancelAllOrders request.requestId
      ⟨.post, "/api/v1/private/order/cancel_all", .object [("symbol", .string spec.nativeSymbol)],
        "mexc.cancel_all_orders"⟩
  | .mexc, none =>
    sendRestOrFail context .cancelAllOrders request.requestId
      ⟨.post, "/api/v1/private/order/cancel_all", .object [], "mexc.cancel_all_orders"⟩

/-- Pass the receipt of a command on that is sent over REST only. -/
def finishReceipt (receipt : CommandReceipt) : CommandE CommandReceipt := do
  let _ ← applyCommandReceipt receipt .rest
  return receipt

/-- The requests and the receipt; there is no websocket request for it. -/
def cancelAllOrders (request : CancelAllOrdersRequest) : CommandE CommandReceipt := do
  if context.websocketOnly then
    throw (.error (unsupportedWsCommand context "cancel_all_orders_ws"))
  finishReceipt (← sendCancelAllOrders context request)

/-! ### Leverage and margin mode -/

/-- MEXC takes a leverage that is a whole number. -/
def mexcLeverageJsonValue (leverage : String) : Except MarketError Json :=
  match Text.parseInt (-2 ^ 63) (2 ^ 63 - 1) leverage.toList with
  | .ok n => .ok (.integer n)
  | .error e => .error (configError ("mexc leverage must be an integer: " ++ e))

/-- MEXC numbers the margin modes. -/
def mexcMarginModeOpenType : MarginMode → Int64
  | .isolated => 1
  | .cross => 2

/-- One body for each known position, or one for each side. -/
def mexcLeverageBodies (spec : InstrumentSpec) (positions : List Position)
    (instrumentId : InstrumentId) (leverage : Json) (marginMode : Option MarginMode) :
    List Json :=
  let openType := Json.integer ((marginMode.map mexcMarginModeOpenType).getD
    (mexcOpenTypeForOrder positions instrumentId)).toInt
  let cachedPositions := positions.filter fun position =>
    position.instrumentId == instrumentId && position.positionId.asStr != "0"
  if cachedPositions = [] then
    [1, 2].map fun positionType => .object [("openType", openType), ("leverage", leverage),
      ("symbol", .string (mexcWireSymbol spec)), ("positionType", .integer positionType)]
  else
    cachedPositions.map fun position => .object
      [("positionId", idValue position.positionId.asStr), ("leverage", leverage),
        ("openType", openType)]

/-- The bodies of the requests that change the leverage at MEXC. -/
def mexcChangeLeverageBodies (instrumentId : InstrumentId) (leverage : String)
    (marginMode : Option MarginMode) : CommandE (List Json) := do
  let spec ← commandSpec context instrumentId
  let leverage ← ofExcept (mexcLeverageJsonValue leverage)
  let state ← readState
  return mexcLeverageBodies spec state.positions instrumentId leverage marginMode

/-- A receipt that was refused, or else one to recover from, or else the last one. -/
def mexcMergeCommandReceipts (operation : CommandOperation) (requestId : Option RequestId)
    (receipts : List CommandReceipt) : CommandReceipt :=
  ((receipts.find? (·.status = .rejected)).or
    ((receipts.find? (·.status = .unknownExecution)).or receipts.getLast?)).getD
    { CommandReceipt.plain context.venue operation .accepted requestId (some "accepted") none
      false with product := context.product }

/-- Send the bodies one after the other. -/
def mexcChangeLeverage (operation : CommandOperation) (requestId : Option RequestId)
    (name : String) (bodies : List Json) : CommandE CommandReceipt := do
  let receipts ← bodies.mapM fun body => sendRest context operation requestId
    ⟨.post, "/api/v1/private/position/change_leverage", body, name⟩
  return mexcMergeCommandReceipts context operation requestId receipts

/-- The requests that set the leverage, in the way of the venue. -/
def sendSetLeverage (spec : InstrumentSpec) (request : SetLeverageRequest) :
    CommandE CommandReceipt := do
  let leverage := request.leverage.value.normalize.display
  match context.venue with
  | .binance =>
    sendRest context .setLeverage request.requestId
      ⟨.post, "/fapi/v1/leverage",
        bodyToObject [("symbol", spec.nativeSymbol), ("leverage", leverage)],
        "binance.set_leverage"⟩
  | .bybit =>
    sendRest context .setLeverage request.requestId
      ⟨.post, "/v5/position/set-leverage",
        bodyToObject [("category", "linear"), ("symbol", spec.nativeSymbol),
          ("buyLeverage", leverage), ("sellLeverage", leverage)],
        "bybit.set_leverage"⟩
  | .mexc =>
    let bodies ← mexcChangeLeverageBodies context request.instrumentId leverage none
    mexcChangeLeverage context .setLeverage request.requestId "mexc.set_leverage" bodies

/-- The requests, the receipt, and what follows from it. -/
def setLeverage (request : SetLeverageRequest) : CommandE CommandReceipt := do
  let spec ← commandSpec context request.instrumentId
  finishReceipt (← sendSetLeverage context spec request)

/-- The leverage in the reply to a query. -/
def mexcLeverageOf (payload : Payload) : Except MarketError String :=
  match payload with
  | .text _ => .error (batchDecodeError "failed to parse mexc leverage response")
  | .json value =>
    match (((((value.get? "data").bind Json.asArray).bind (·.head?)).bind
        (·.get? "leverage")).map Mexc.valueToIdString).filter
          fun text => text ≠ "" ∧ text ≠ "null" with
    | some leverage => .ok leverage
    | none => .error (MarketError.withVenue
        (batchDecodeError "mexc leverage response missing leverage") context.venue
        context.product)

/-- The leverage that stays when the margin mode is changed: that of the cached position, or else
the one that the venue is asked for. -/
def mexcFetchCurrentLeverage (instrumentId : InstrumentId) : CommandE String := do
  let state ← readState
  match (state.positions.find? (·.instrumentId = instrumentId)).bind (·.leverage) with
  | some leverage => return leverage.value.normalize.display
  | none =>
    let spec ← commandSpec context instrumentId
    let (payload, _) ← restText
      ⟨.get, "/api/v1/private/position/leverage", bodyToObject [("symbol", spec.nativeSymbol)],
        "mexc.position.leverage"⟩
    ofExcept (mexcLeverageOf context payload)

/-- The requests that set the margin mode, in the way of the venue. -/
def sendSetMarginMode (request : SetMarginModeRequest) : CommandE CommandReceipt := do
  match context.venue with
  | .binance =>
    let spec ← commandSpec context request.instrumentId
    let marginType := match request.marginMode with
      | .cross => "CROSSED"
      | .isolated => "ISOLATED"
    sendRest context .setMarginMode request.requestId
      ⟨.post, "/fapi/v1/marginType",
        bodyToObject [("symbol", spec.nativeSymbol), ("marginType", marginType)],
        "binance.set_margin_mode"⟩
  | .bybit =>
    let setMarginMode := match request.marginMode with
      | .cross => "REGULAR_MARGIN"
      | .isolated => "ISOLATED_MARGIN"
    sendRest context .setMarginMode request.requestId
      ⟨.post, "/v5/account/set-margin-mode", bodyToObject [("setMarginMode", setMarginMode)],
        "bybit.set_margin_mode"⟩
  | .mexc =>
    let leverage ← mexcFetchCurrentLeverage context request.instrumentId
    let bodies ← mexcChangeLeverageBodies context request.instrumentId leverage
      (some request.marginMode)
    mexcChangeLeverage context .setMarginMode request.requestId "mexc.set_margin_mode" bodies

/-- The requests and the receipt; Bybit's cached account context is given up. -/
def setMarginMode (request : SetMarginModeRequest) : CommandE CommandReceipt := do
  let receipt ← sendSetMarginMode context request
  if context.venue = .bybit then
    ExceptT.lift (.perform CommandCall.invalidateBybitAccountContext)
  finishReceipt receipt

/-! ### Position mode -/

/-- The request that sets the position mode, in the way of the venue. -/
def sendSetPositionMode (request : SetPositionModeRequest) : CommandE CommandReceipt := do
  match context.venue with
  | .binance =>
    let dualSidePosition := match request.positionMode with
      | .oneWay => "false"
      | .hedge => "true"
    sendRestOrFail context .setPositionMode request.requestId
      ⟨.post, "/fapi/v1/positionSide/dual", bodyToObject [("dualSidePosition", dualSidePosition)],
        "binance.set_position_mode"⟩
  | .bybit =>
    let mode := Json.integer (match request.positionMode with
      | .oneWay => 0
      | .hedge => 3)
    let scope ← match request.instrumentId with
      | some instrumentId => do
        let spec ← commandSpec context instrumentId
        pure ("symbol", Json.string spec.nativeSymbol)
      | none => pure ("coin", Json.string "USDT")
    sendRestOrFail context .setPositionMode request.requestId
      ⟨.post, "/v5/position/switch-mode",
        .object [("category", .string "linear"), ("mode", mode), scope],
        "bybit.set_position_mode"⟩
  | .mexc =>
    sendRestOrFail context .setPositionMode request.requestId
      ⟨.post, "/api/v1/private/position/change_position_mode",
        .object [("positionMode", .integer (mexcPositionMode request.positionMode).toInt)],
        "mexc.set_position_mode"⟩

/-- The request and the receipt. -/
def setPositionMode (request : SetPositionModeRequest) : CommandE CommandReceipt := do
  finishReceipt (← sendSetPositionMode context request)

end BatMarkets
