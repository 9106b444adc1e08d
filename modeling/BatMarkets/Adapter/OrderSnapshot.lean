import BatMarkets.Binance.Private
import BatMarkets.Bybit.Private
import BatMarkets.Mexc.Private

/-!
# The answer to a request for one order

A signed request is answered with an HTTP response, or not at all.  A status that is not a success
is turned into an error (`classify_http_error` of `runtime.rs`), and the body of a success into an
order (`parse_order_snapshot` of the adapters).

## Main results

* `orderOfAnswer_refused` : an answer of Binance that refuses the request is a rejection.
* `orderOfAnswer_empty` : an answer of Bybit with an empty list of orders is one that cannot be
  decoded.
* `orderOfAnswer_mexc` : an answer of MEXC that says there is no such order is a rejection if it
  holds an order all the same, and cannot be decoded otherwise.
-/

namespace BatMarkets

open Wire

/-! ### Responses -/

/-- What comes back over HTTP. -/
structure HttpResponse where
  status : ℕ
  body : Payload

/-- The status is one of success. -/
def HttpResponse.isSuccess (response : HttpResponse) : Bool :=
  200 ≤ response.status && response.status < 300

/-- The text of the body. -/
def Payload.display : Payload → String
  | .json value => value.display
  | .text t => t

/-- The kind of error that a status stands for. -/
def httpErrorKind (status : ℕ) : ErrorKind :=
  if status = 429 then .rateLimited
  else if status = 401 then .authError
  else if status = 403 then .permissionDenied
  else if 500 ≤ status ∧ status < 600 then .temporaryUnavailable
  else .exchangeReject

/-- The error for a response whose status is no success; the body is its message. -/
def classifyHttpError (venue : Venue) (operation : String) (response : HttpResponse) :
    MarketError :=
  let context : ErrorContext := {
    venue := some venue
    product := some .linearUsdt
    operation := some operation
    retriable := response.status ∈ [429, 502, 503, 504] }
  let kind := httpErrorKind response.status
  match venue, response.body.value?.bind Binance.errorResponse with
  | .binance, some (code, message) =>
    { kind, message, context := { context with nativeCode := some (toString code) } }
  | _, _ => { kind, message := response.body.display, context }

/-- The body of a success. -/
def responseText (venue : Venue) (operation : String) (response : HttpResponse) :
    Except MarketError Payload :=
  if response.isSuccess then .ok response.body
  else .error (classifyHttpError venue operation response)

/-! ### Binance -/

namespace Binance

/-- An order in a reply of Binance. -/
structure OrderSnapshot where
  symbol : String
  orderId : Int64
  clientOrderId : String
  side : String
  orderType : String
  timeInForce : String
  status : String
  price : String
  originalQuantity : String
  executedQuantity : String
  averagePrice : String
  reduceOnly : Bool
  updateTime : TimestampMs
  createdTime : Option TimestampMs

/-- A conditional order in a reply of Binance. -/
structure AlgoOrderSnapshot where
  algoId : Int64
  clientAlgoId : String
  orderType : String
  symbol : String
  side : String
  timeInForce : Option String
  quantity : String
  algoStatus : String
  actualPrice : Option String
  price : Option String
  reduceOnly : Option Bool
  createTime : TimestampMs
  updateTime : TimestampMs

/-- Only the time of its creation may be missing from an order. -/
def OrderSnapshot.read (value : Json) : Option OrderSnapshot := do
  let fields ← value.recordOf ["symbol", "orderId", "clientOrderId", "side", "type",
    "timeInForce", "status", "price", "origQty", "executedQty", "avgPrice", "reduceOnly",
    "updateTime", "time"] 14
  return {
    symbol := ← Json.required fields "symbol" Json.asStr
    orderId := ← Json.required fields "orderId" Json.asInt64
    clientOrderId := ← Json.required fields "clientOrderId" Json.asStr
    side := ← Json.required fields "side" Json.asStr
    orderType := ← Json.required fields "type" Json.asStr
    timeInForce := ← Json.required fields "timeInForce" Json.asStr
    status := ← Json.required fields "status" Json.asStr
    price := ← Json.required fields "price" Json.asStr
    originalQuantity := ← Json.required fields "origQty" Json.asStr
    executedQuantity := ← Json.required fields "executedQty" Json.asStr
    averagePrice := ← Json.required fields "avgPrice" Json.asStr
    reduceOnly := ← Json.required fields "reduceOnly" Json.asBool
    updateTime := ← Json.required fields "updateTime" Json.asInt64
    createdTime := ← Json.optional fields "time" Json.asInt64 }

/-- A conditional order needs no time in force and no prices; some fields that nothing reads must
be of the right kind all the same. -/
def AlgoOrderSnapshot.read (value : Json) : Option AlgoOrderSnapshot := do
  let fields ← value.record ["algoId", "clientAlgoId", "orderType", "symbol", "side",
    "positionSide", "timeInForce", "quantity", "algoStatus", "actualOrderId", "actualPrice",
    "triggerPrice", "price", "workingType", "closePosition", "priceProtect", "reduceOnly",
    "createTime", "updateTime", "triggerTime"]
  let _ ← ["positionSide", "actualOrderId", "triggerPrice", "workingType"].mapM fun key =>
    Json.optional fields key Json.asStr
  let _ ← ["closePosition", "priceProtect"].mapM fun key => Json.optional fields key Json.asBool
  let _ ← Json.optional fields "triggerTime" Json.asInt64
  return {
    algoId := ← Json.required fields "algoId" Json.asInt64
    clientAlgoId := ← Json.required fields "clientAlgoId" Json.asStr
    orderType := ← Json.required fields "orderType" Json.asStr
    symbol := ← Json.required fields "symbol" Json.asStr
    side := ← Json.required fields "side" Json.asStr
    timeInForce := ← Json.optional fields "timeInForce" Json.asStr
    quantity := ← Json.required fields "quantity" Json.asStr
    algoStatus := ← Json.required fields "algoStatus" Json.asStr
    actualPrice := ← Json.optional fields "actualPrice" Json.asStr
    price := ← Json.optional fields "price" Json.asStr
    reduceOnly := ← Json.optional fields "reduceOnly" Json.asBool
    createTime := ← Json.required fields "createTime" Json.asInt64
    updateTime := ← Json.required fields "updateTime" Json.asInt64 }

/-- An order of Binance as the runtime knows it; an average price of zero is none. -/
def orderFromSnapshot (catalog : InstrumentCatalog) (snapshot : OrderSnapshot)
    (observedAt : TimestampMs) : Except MarketError Order := do
  let spec ← requireNativeSymbol .binance catalog snapshot.symbol
  let averageFillPrice ←
    if snapshot.averagePrice = "0" then pure none else some <$> parseDecimal snapshot.averagePrice
  let side ← parseSide snapshot.side
  let orderType ← parseOrderType snapshot.orderType
  let timeInForce ← parseTimeInForce snapshot.timeInForce
  let status ← parseOrderStatus snapshot.status
  let price ← parseDecimal snapshot.price
  let quantity ← parseDecimal snapshot.originalQuantity
  let filledQuantity ← parseDecimal snapshot.executedQuantity
  return {
    orderId := ⟨toString snapshot.orderId⟩
    clientOrderId := some ⟨snapshot.clientOrderId⟩
    instrumentId := spec.instrumentId
    side, orderType, status
    timeInForce := some timeInForce
    price := some ⟨price⟩
    quantity := ⟨quantity⟩
    filledQuantity := ⟨filledQuantity⟩
    averageFillPrice := averageFillPrice.map DecimalValue.mk
    reduceOnly := snapshot.reduceOnly
    postOnly := snapshot.timeInForce == "GTX"
    createdAt := snapshot.createdTime.getD observedAt
    updatedAt := snapshot.updateTime
    venueStatus := some snapshot.status }

/-- A conditional order of Binance as the runtime knows it.  Nothing of it is ever filled. -/
def algoOrderFromSnapshot (catalog : InstrumentCatalog) (snapshot : AlgoOrderSnapshot) :
    Except MarketError Order := do
  let spec ← requireNativeSymbol .binance catalog snapshot.symbol
  let side ← parseSide snapshot.side
  let orderType ← parseOrderType snapshot.orderType
  let timeInForce ← parseOptionalTimeInForce snapshot.timeInForce
  let price ← parseOptionalPriceOrEmpty snapshot.price
  let quantity ← parseDecimal snapshot.quantity
  let averageFillPrice ← parseOptionalPriceOrEmpty snapshot.actualPrice
  return {
    orderId := algoOrderId snapshot.algoId.toInt
    clientOrderId := some ⟨snapshot.clientAlgoId⟩
    instrumentId := spec.instrumentId
    side, orderType, timeInForce, price, averageFillPrice
    status := parseAlgoOrderStatus snapshot.algoStatus 0
    quantity := ⟨quantity⟩
    filledQuantity := ⟨0⟩
    reduceOnly := snapshot.reduceOnly.getD false
    postOnly := snapshot.timeInForce == some "GTX"
    createdAt := snapshot.createTime
    updatedAt := snapshot.updateTime
    venueStatus := some snapshot.algoStatus }

/-- The order in a reply: a plain one if it can be read as such, else a conditional one. -/
def parseOrderSnapshot (catalog : InstrumentCatalog) (payload : Payload)
    (observedAt : TimestampMs) : Except MarketError Order :=
  match payload.value?.bind OrderSnapshot.read, payload.value?.bind AlgoOrderSnapshot.read with
  | some snapshot, _ => orderFromSnapshot catalog snapshot observedAt
  | none, some snapshot => algoOrderFromSnapshot catalog snapshot
  | none, none => .error <| ((decodeFailure "failed to parse binance order snapshot").withVenue
      .binance .linearUsdt).withOperation "binance.parse_order_snapshot"

end Binance

/-! ### Bybit -/

namespace Bybit

/-- The reply of Bybit that lists orders. -/
structure OrderListResponse where
  retCode : Int64
  retMsg : String
  list : List OrderData

/-- The reply has a code, a message and, below `result`, the list of orders. -/
def OrderListResponse.read (value : Json) : Option OrderListResponse := do
  let fields ← value.record ["retCode", "retMsg", "result"]
  let retCode ← Json.required fields "retCode" Json.asInt64
  let retMsg ← Json.required fields "retMsg" Json.asStr
  let result ← Json.required fields "result" some
  let fields ← result.record ["list"]
  let list ← Json.required fields "list" (Json.each OrderData.read)
  return { retCode, retMsg, list }

/-- The error for a reply of Bybit that refuses. -/
def exchangeReject (code : Int64) (message : String) : MarketError where
  kind := .exchangeReject
  message := message
  context := {
    venue := some .bybit
    product := some .linearUsdt
    nativeCode := some (toString code) }

/-- The orders that a reply of Bybit lists, if its code is the one of a success. -/
def parseOpenOrdersSnapshot (catalog : InstrumentCatalog) (payload : Payload)
    (observedAt : TimestampMs) : Except MarketError (List Order) :=
  match payload.value?.bind OrderListResponse.read with
  | none => .error decodeError
  | some response =>
    if response.retCode = 0 then
      response.list.mapM fun order => orderFromSnapshot catalog order observedAt
    else .error (exchangeReject response.retCode response.retMsg)

/-- The last order that a reply of Bybit lists; a list without orders is an error. -/
def parseOrderSnapshot (catalog : InstrumentCatalog) (payload : Payload)
    (observedAt : TimestampMs) : Except MarketError Order := do
  let orders ← parseOpenOrdersSnapshot catalog payload observedAt
  match orders.getLast? with
  | some order => return order
  | none => throw (decodeFailure "missing bybit order snapshot entry in response")

end Bybit

/-! ### MEXC -/

namespace Mexc

/-- A response with one order. -/
structure OrderResponse where
  success : Bool
  code : Int64
  message : Option String
  data : OrderData

/-- The reply of MEXC about one order; its `data` has no default. -/
def OrderResponse.read (value : Json) : Option OrderResponse := do
  let fields ← value.record ["success", "code", "message", "data"]
  return {
    success := ← Json.required fields "success" Json.asBool
    code := ← Json.defaulted fields "code" Json.asInt64 0
    message := ← Json.optional fields "message" Json.asStr
    data := ← Json.required fields "data" OrderData.read }

/-- A reply of MEXC is a success if it says so and its code is 0. -/
def ensureSuccess (success : Bool) (code : Int64) (message : Option String) :
    Except MarketError Unit :=
  if success ∧ code = 0 then .ok ()
  else .error (MarketError.withVenue
    { kind := .exchangeReject, message := message.getD "mexc request rejected" } .mexc .linearUsdt)

/-- The order in a reply of MEXC. -/
def parseOrderSnapshot (catalog : InstrumentCatalog) (payload : Payload)
    (observedAt : TimestampMs) : Except Failure Order :=
  match payload.value?.bind OrderResponse.read with
  | none => .error (.error (decodeMessage "failed to parse mexc order"))
  | some response => do
    (ensureSuccess response.success response.code response.message).mapError .error
    orderFromData catalog response.data observedAt

end Mexc

/-! ### Answers -/

/-- The order in the response to a request for one. -/
def orderOfAnswer (venue : Venue) (catalog : InstrumentCatalog) (nowMs : TimestampMs)
    (operation : String) (response : HttpResponse) : Except Failure Order :=
  match responseText venue operation response with
  | .error e => .error (.error e)
  | .ok payload =>
    match venue with
    | .binance => (Binance.parseOrderSnapshot catalog payload nowMs).mapError .error
    | .bybit => (Bybit.parseOrderSnapshot catalog payload nowMs).mapError .error
    | .mexc => Mexc.parseOrderSnapshot catalog payload nowMs

/-- The code with which MEXC says that an order does not exist. -/
def Mexc.orderNotExist : Int64 := 2040

/-- The answer of MEXC says that there is no such order: it refuses the request for this reason, or
it is a success without an order. -/
def Mexc.SaysNoOrder (value : Json) : Prop :=
  ∃ fields, value.record ["success", "code", "message", "data"] = some fields ∧
    ((Json.required fields "success" Json.asBool = some false ∧
        Json.defaulted fields "code" Json.asInt64 0 = some orderNotExist) ∨
      (Json.required fields "success" Json.asBool = some true ∧
        Json.defaulted fields "code" Json.asInt64 0 = some 0 ∧
        Json.optional fields "data" OrderData.read = some none))

/-- The response says that there is no such order: Binance refuses the request, Bybit lists no
order, and MEXC refuses the request or gives no order. -/
def MeansNoSuchOrder (venue : Venue) (response : HttpResponse) : Prop :=
  match venue with
  | .binance => 400 ≤ response.status ∧ response.status < 500 ∧ response.status ∉ [401, 403, 429]
  | .bybit => response.isSuccess = true ∧ ∃ retMsg,
      response.body.value?.bind Bybit.OrderListResponse.read = some ⟨0, retMsg, []⟩
  | .mexc => response.isSuccess = true ∧ ∃ value,
      response.body.value? = some value ∧ Mexc.SaysNoOrder value

/-- The response says that there is no such order in a form that the adapter does not take for a
refusal: any of Bybit, and any of MEXC that cannot be read as a response with an order. -/
def HidesNoSuchOrder (venue : Venue) (response : HttpResponse) : Prop :=
  match venue with
  | .binance => False
  | .bybit => MeansNoSuchOrder .bybit response
  | .mexc => MeansNoSuchOrder .mexc response ∧
      response.body.value?.bind Mexc.OrderResponse.read = none

theorem orderOfAnswer_refused {catalog : InstrumentCatalog} {nowMs : TimestampMs}
    {operation : String} {response : HttpResponse} (h : MeansNoSuchOrder .binance response) :
    ∃ e, orderOfAnswer .binance catalog nowMs operation response = .error (.error e) ∧
      e.kind = .exchangeReject := by
  obtain ⟨hlo, hhi, hstatus⟩ := h
  have hfail : response.isSuccess = false := by
    simp only [HttpResponse.isSuccess, Bool.and_eq_false_iff, decide_eq_false_iff_not]
    omega
  have hkind : httpErrorKind response.status = .exchangeReject := by
    simp only [List.mem_cons, List.not_mem_nil, or_false, not_or] at hstatus
    have hserver : ¬(500 ≤ response.status ∧ response.status < 600) := by omega
    rw [httpErrorKind, if_neg hstatus.2.2, if_neg hstatus.1, if_neg hstatus.2.1, if_neg hserver]
  refine ⟨classifyHttpError .binance operation response, ?_, ?_⟩
  · simp [orderOfAnswer, responseText, hfail]
  · unfold classifyHttpError
    split <;> exact hkind

theorem orderOfAnswer_empty {catalog : InstrumentCatalog} {nowMs : TimestampMs}
    {operation : String} {response : HttpResponse} (h : MeansNoSuchOrder .bybit response) :
    orderOfAnswer .bybit catalog nowMs operation response =
      .error (.error (decodeFailure "missing bybit order snapshot entry in response")) := by
  obtain ⟨hok, retMsg, hbody⟩ := h
  have hnone : Bybit.parseOpenOrdersSnapshot catalog response.body nowMs = .ok [] := by
    rw [Bybit.parseOpenOrdersSnapshot, hbody]
    rfl
  simp only [orderOfAnswer, responseText, hok, if_true, Bybit.parseOrderSnapshot, hnone]
  rfl

/-- A response of MEXC that is read says whether it is a success, and holds an order. -/
theorem Mexc.OrderResponse.fields_of_read {value : Json} {fields : List (String × Json)}
    {parsed : OrderResponse} (hread : OrderResponse.read value = some parsed)
    (hrecord : value.record ["success", "code", "message", "data"] = some fields) :
    Json.required fields "success" Json.asBool = some parsed.success ∧
      Json.required fields "data" OrderData.read = some parsed.data := by
  rw [OrderResponse.read, hrecord] at hread
  simp only [bind, Option.bind_eq_some_iff, pure, Option.some.injEq] at hread
  obtain ⟨_, rfl, success, hsuccess, code, -, message, -, data, hdata, rfl⟩ := hread
  exact ⟨hsuccess, hdata⟩

/-- A field that is missing or null holds nothing that can be read. -/
theorem Mexc.required_ne_of_optional {fields : List (String × Json)} {data : OrderData}
    (h : Json.optional fields "data" OrderData.read = some none) :
    Json.required fields "data" OrderData.read ≠ some data := by
  unfold Json.optional at h
  unfold Json.required
  split at h
  · next hmissing => simp [hmissing]
  · next hnull =>
    rw [hnull]
    exact nofun
  · next value _ _ =>
    cases hread : OrderData.read value with
    | none => simp [hread] at h
    | some data => simp [hread] at h

theorem Mexc.ensureSuccess_refused (code : Int64) (message : Option String) :
    ∃ e, ensureSuccess false code message = .error e ∧ e.kind = .exchangeReject := by
  refine ⟨MarketError.withVenue { kind := .exchangeReject
                                  message := message.getD "mexc request rejected" }
    .mexc .linearUsdt, ?_, rfl⟩
  simp [ensureSuccess]

/-- MEXC: a refusal that comes with an order is a rejection, and an answer without one cannot be
decoded. -/
theorem orderOfAnswer_mexc {catalog : InstrumentCatalog} {nowMs : TimestampMs}
    {operation : String} {response : HttpResponse} (h : MeansNoSuchOrder .mexc response) :
    ∃ e, orderOfAnswer .mexc catalog nowMs operation response = .error (.error e) ∧
      e.kind = if (response.body.value?.bind Mexc.OrderResponse.read).isNone then .decodeError
        else .exchangeReject := by
  obtain ⟨hok, value, hvalue, fields, hrecord, hsays⟩ := h
  have hanswer : orderOfAnswer .mexc catalog nowMs operation response =
      Mexc.parseOrderSnapshot catalog response.body nowMs := by
    simp only [orderOfAnswer, responseText, hok, if_true]
  rw [hanswer, Mexc.parseOrderSnapshot]
  cases hread : response.body.value?.bind Mexc.OrderResponse.read with
  | none => exact ⟨_, rfl, rfl⟩
  | some parsed =>
    rw [hvalue, Option.bind_some] at hread
    obtain ⟨hsuccess, hdata⟩ := Mexc.OrderResponse.fields_of_read hread hrecord
    -- a response that holds an order is no success without one, so it is the refusal
    have hrefused : parsed.success = false := by
      rcases hsays with ⟨hfalse, -⟩ | ⟨-, -, hnone⟩
      · exact Option.some.inj (hsuccess.symm.trans hfalse)
      · exact absurd hdata (Mexc.required_ne_of_optional hnone)
    obtain ⟨e, he, hkind⟩ := Mexc.ensureSuccess_refused parsed.code parsed.message
    refine ⟨e, ?_, hkind⟩
    simp only [hrefused, he]
    rfl

end BatMarkets
