import BatMarkets.Commands.Manage

/-!
# Cancelling several orders

The command that cancels a batch of orders (`cancel_orders` of `runtime.rs`).  Binance takes ids and
client order ids in separate requests, one instrument at a time; a batch for Bybit names any orders;
a batch for MEXC has ids only, or client order ids only.
-/

namespace BatMarkets

open CommandM Ordered Wire

/-! ### Targets -/

/-- A batch must have orders, and each must have a name. -/
def validateCancelOrders (request : CancelOrdersRequest) : Except MarketError Unit :=
  if request.orders = [] then
    .error (configError "cancel_orders requires at least one target")
  else if request.orders.any fun target =>
      target.orderId.isNone && target.clientOrderId.isNone then
    .error (configError "cancel_orders requires order_id or client_order_id on every target")
  else .ok ()

theorem of_validateCancelOrders {request : CancelOrdersRequest}
    (h : validateCancelOrders request = .ok ()) :
    request.orders ≠ [] ∧ ∀ t ∈ request.orders, t.orderId.isSome ∨ t.clientOrderId.isSome := by
  unfold validateCancelOrders at h
  split at h
  · cases h
  · next hne =>
    split at h
    · cases h
    · next hany =>
      refine ⟨hne, fun t ht => ?_⟩
      rw [Bool.not_eq_true, List.any_eq_false] at hany
      have hnamed := hany t ht
      cases hid : t.orderId with
      | some id => exact .inl rfl
      | none => exact .inr (Option.isSome_iff_ne_none.2 (by simpa [hid] using hnamed))

/-- The request that cancels one target of a batch. -/
def OrderTarget.cancelRequest (requestId : Option RequestId) (target : OrderTarget) :
    CancelOrderRequest where
  requestId := requestId
  instrumentId := target.instrumentId
  orderId := target.orderId
  clientOrderId := target.clientOrderId

/-- The identity that its receipt gets back. -/
def OrderTarget.identity (requestId : Option RequestId) (target : OrderTarget) :
    BatchIdentity where
  instrumentId := some target.instrumentId
  orderId := target.orderId
  clientOrderId := target.clientOrderId
  requestId := requestId

/-- The acknowledgements in the order of the targets. -/
def collectBatchAcks (targets : ℕ) (acks : List (ℕ × CommandAck)) (operation : String) :
    Except MarketError (List CommandAck) :=
  (List.range targets).mapM fun index =>
    match acks.lookup index with
    | some ack => .ok ack
    | none => .error (batchDecodeError
        ("missing ack " ++ toString index ++ " while finalizing " ++ operation))

variable (context : CommandContext)

/-! ### Binance -/

/-- The ids as a list, without quotes. -/
def orderIdList (ids : List OrderId) : String :=
  "[" ++ ",".intercalate (ids.map (·.asStr)) ++ "]"

/-- The orders of a chunk, by their ids if its first order has one. -/
def binanceCancelBatch (spec : InstrumentSpec) (chunk : List OrderTarget) : RestCommand :=
  ⟨.delete, "/fapi/v1/batchOrders",
    .object [("symbol", .string spec.nativeSymbol),
      if (chunk.head?.bind (·.orderId)).isSome then
        ("orderIdList", .string (orderIdList (chunk.filterMap (·.orderId))))
      else ("origClientOrderIdList",
        .array ((chunk.filterMap (·.clientOrderId)).map fun id => .string id.asStr))],
    "binance.cancel_orders"⟩

/-- One request of Binance, with a chunk of the orders of an instrument and their places in the
batch. -/
def cancelChunkBinance (spec : InstrumentSpec) (chunk : List (OrderTarget × ℕ)) :
    CommandE (List (ℕ × CommandAck)) := do
  let targets := chunk.map (·.1)
  let identities := targets.map (·.identity none)
  let receipts ← sendBatchRest context .cancelOrder identities
    (classifyBinanceBatchPayload · .cancelOrder · (targets.map fun _ => none))
    (binanceCancelBatch spec targets)
  let acks ← finishChunk "binance batch cancel" receipts identities .cancelOrder .rest
  return (chunk.map (·.2)).zip acks

/-- Cancel the targets of one instrument. -/
def cancelGroupBinance (group : InstrumentId × List (OrderTarget × ℕ)) :
    CommandE (List (ℕ × CommandAck)) := do
  let spec ← commandSpec context group.1
  return (← (chunks 10 group.2).mapM (cancelChunkBinance context spec)).flatten

/-- Cancel the targets that have ids, and then those with a client order id only. -/
def cancelGroupsBinance (targets : List OrderTarget) : CommandE (List (ℕ × CommandAck)) := do
  let indexed := targets.zipIdx
  let orderIdGroups := groupBy (·.1.instrumentId) (indexed.filter (·.1.orderId.isSome))
  let clientIdGroups := groupBy (·.1.instrumentId) (indexed.filter fun target =>
    target.1.orderId.isNone && target.1.clientOrderId.isSome)
  return (← (orderIdGroups.toList ++ clientIdGroups.toList).mapM
    (cancelGroupBinance context)).flatten

/-! ### Bybit and MEXC -/

/-- One request of Bybit, with a chunk of the orders. -/
def cancelChunkBybit (chunk : List OrderTarget) : CommandE (List CommandAck) := do
  let orders ← chunk.mapM fun target => do
    let spec ← commandSpec context target.instrumentId
    let order ← ofExcept (appendBybitOrderIdentity [("symbol", spec.nativeSymbol)] target.orderId
      target.clientOrderId)
    return bodyToObject order
  let body := Json.object [("category", .string "linear"), ("request", .array orders)]
  let identities := chunk.map (·.identity none)
  let (receipts, transport) ← sendBatch context "cancel_orders_ws" .cancelOrder identities
    (classifyBybitBatchPayload context.toLiveContext · .cancelOrder · identities)
    ⟨"order.cancel-batch", .array [body], "bybit.cancel_orders_ws"⟩
    ⟨.post, "/v5/order/cancel-batch", body, "bybit.cancel_orders"⟩
  finishChunk "bybit batch cancel" receipts identities .cancelOrder transport

/-- The path and the body of a chunk for MEXC. -/
def mexcCancelChunkBody (byOrderId : Bool) (chunk : List OrderTarget) :
    CommandE (String × Json) := do
  if byOrderId then
    return ("/api/v1/private/order/cancel", .object [("orderIds",
      .array ((chunk.filterMap (·.orderId)).map fun id => idValue id.asStr))])
  else
    let orders ← chunk.mapM fun target => do
      let spec ← commandSpec context target.instrumentId
      return Json.object [("symbol", .string spec.nativeSymbol),
        ("externalOid", .string ((target.clientOrderId.map (·.asStr)).getD ""))]
    return ("/api/v1/private/order/batch_cancel_with_external", .array orders)

/-- One request of MEXC, with a chunk of orders that are named in the same way. -/
def cancelChunkMexc (requestId : Option RequestId) (byOrderId : Bool) (chunk : List OrderTarget) :
    CommandE (List CommandAck) := do
  let (path, body) ← mexcCancelChunkBody context byOrderId chunk
  let identities := chunk.map (·.identity requestId)
  let receipts ← sendBatchRest context .cancelOrder identities
    (fun _ payload => classifyMexcBatchPayload .cancelOrder payload (chunk.map fun _ => requestId))
    ⟨.post, path, body, "mexc.cancel_orders"⟩
  finishChunk "mexc batch cancel" receipts identities .cancelOrder .rest

/-! ### The command -/

/-- Cancel the targets side by side, each by a request of its own. -/
def cancelEach (requestId : Option RequestId) (targets : List OrderTarget) :
    CommandE (List CommandAck) :=
  tryJoinAll (targets.map fun target => cancelOrder context (target.cancelRequest requestId))

/-- The orders of a batch in the chunks of the venue. -/
def sendCancelOrders (requestId : Option RequestId) (targets : List OrderTarget) :
    CommandE (List CommandAck) := do
  match context.venue with
  | .binance =>
    if context.wsOrderEntry then
      return (← (chunks 10 targets).mapM (cancelEach context requestId)).flatten
    else
      if context.websocketOnly then
        throw (.error (unsupportedWsCommand context "cancel_orders_ws"))
      let acks ← cancelGroupsBinance context targets
      ofExcept (collectBatchAcks targets.length acks "cancel_orders")
  | .bybit => return (← (chunks 20 targets).mapM (cancelChunkBybit context)).flatten
  | .mexc =>
    if context.websocketOnly then
      throw (.error (unsupportedWsCommand context "mexc.cancel_orders_ws"))
    let allOrderIds := targets.all (·.orderId.isSome)
    let allExternalIds := targets.all fun target =>
      target.orderId.isNone && target.clientOrderId.isSome
    if !allOrderIds && !allExternalIds then cancelEach context requestId targets
    else return (← (chunks 50 targets).mapM
      (cancelChunkMexc context requestId allOrderIds)).flatten

/-- A batch of one order is a single command. -/
def cancelOrders (request : CancelOrdersRequest) : CommandE (List CommandAck) := do
  ofExcept (validateCancelOrders request)
  match request.orders with
  | [single] => return [← cancelOrder context (single.cancelRequest request.requestId)]
  | targets => sendCancelOrders context request.requestId targets

end BatMarkets
