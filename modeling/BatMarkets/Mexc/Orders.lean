import BatMarkets.Core.Command
import BatMarkets.Mexc.Values
import BatMarkets.Runtime.Call

/-!
# Orders of MEXC on the wire

The runtime writes an order as a JSON object (`build_mexc_create_order_object` of `runtime.rs`); the
adapter reads the records of orders and executions (`order_from_data` and `execution_from_data` of
the MEXC adapter).  One code of the record packs the direction of an order and whether it opens or
closes a position, another its type, its time in force and whether it is post-only.

`Mexc.OrderData.Echoes` and `Mexc.ExecutionData.Echoes` tell when a record repeats what a body says;
`MexcOrderSurvives` says that all such records decode to what was requested.

## Main results

* `mexc_order_survives_iff` : the records that echo a body decode to the requested order and side
  exactly when the request is `MexcEncodable`; a reduce-only request never is.
* `mexc_reduce_only_flips_side` : the records of a reduce-only order to sell decode to an order to
  buy.
-/

namespace BatMarkets

open Wire

/-! ### Requests of the runtime -/

/-- The specification of an instrument in the catalog. -/
def InstrumentCatalog.requireSpec (catalog : InstrumentCatalog) (context : LiveContext)
    (instrumentId : InstrumentId) : Except MarketError InstrumentSpec :=
  match catalog.get instrumentId with
  | some spec => .ok spec
  | none =>
    .error (MarketError.withVenue
      { kind := .unsupported, message := "unknown instrument " ++ instrumentId.asStr }
      context.venue context.product)

/-- A price as it is written on the wire, without zeros at its end. -/
def formatPrice (price : Price) : String := price.value.normalize.display

/-- A quantity as it is written on the wire, without zeros at its end. -/
def formatQuantity (quantity : Quantity) : String := quantity.value.normalize.display

/-- The symbol as it is written on the wire. -/
def mexcWireSymbol (spec : InstrumentSpec) : String := spec.base.asStr ++ "_" ++ spec.quote.asStr

/-- The code of a side, which tells as well whether a position is opened or closed. -/
def mexcOrderSide (side : Side) (reduceOnly : Bool) : Int64 :=
  match side, reduceOnly with
  | .buy, false => 1
  | .buy, true => 2
  | .sell, false => 3
  | .sell, true => 4

/-- The code of a type, into which time in force and post-only go; there is none for conditional
orders. -/
def mexcOrderType (orderType : OrderType) (timeInForce : Option TimeInForce) (postOnly : Bool) :
    Except MarketError Int64 :=
  if postOnly || timeInForce == some .postOnly then .ok 2
  else match orderType, timeInForce with
    | .market, _ => .ok 5
    | .limit, some .ioc => .ok 3
    | .limit, some .fok => .ok 4
    | .limit, _ => .ok 1
    | _, _ => .error {
        kind := .unsupported
        message := "mexc regular order submit supports only market and limit orders" }

/-- The margin mode of the cached position decides; without one it is cross. -/
def mexcOpenTypeForOrder (positions : List Position) (instrumentId : InstrumentId) : Int64 :=
  match positions.find? fun position => position.instrumentId == instrumentId with
  | some position => match position.marginMode with
    | .isolated => 1
    | .cross => 2
  | none => 2

/-- The mode of the cached position. -/
def mexcCachedPositionMode (positions : List Position) (instrumentId : InstrumentId) :
    Option PositionMode :=
  (positions.find? fun position => position.instrumentId == instrumentId).map (·.positionMode)

/-- The codes of the position modes. -/
def mexcPositionMode : PositionMode → Int64
  | .hedge => 1
  | .oneWay => 2

/-- The order types that need a trigger. -/
def OrderType.isConditional : OrderType → Bool
  | .stopMarket | .stopLimit | .takeProfitMarket | .takeProfitLimit => true
  | .market | .limit => false

/-- The fields of the body, once the codes are known. -/
def mexcCreateOrderFields (spec : InstrumentSpec) (positions : List Position)
    (request : CreateOrderRequest) (orderType : Int64) : List (String × Json) :=
  [("symbol", .string (mexcWireSymbol spec))] ++
  (request.price.map fun price => ("price", Json.string (formatPrice price))).toList ++
  [("vol", .string (formatQuantity request.quantity)),
    ("side", .integer (mexcOrderSide request.side request.reduceOnly).toInt),
    ("type", .integer orderType.toInt),
    ("openType", .integer (mexcOpenTypeForOrder positions request.instrumentId).toInt)] ++
  (request.clientOrderId.map fun id => ("externalOid", Json.string id.asStr)).toList ++
  (if request.reduceOnly then [("reduceOnly", .bool true)] else []) ++
  ((mexcCachedPositionMode positions request.instrumentId).map fun mode =>
    ("positionMode", Json.integer (mexcPositionMode mode).toInt)).toList

/-- The body for a known instrument. -/
def mexcCreateOrderObject (context : LiveContext) (spec : InstrumentSpec)
    (positions : List Position) (request : CreateOrderRequest) : Except MarketError Json := do
  if request.triggerPrice.isSome || request.orderType.isConditional then
    throw (MarketError.withVenue
      { kind := .unsupported
        message := "mexc regular order submit does not cover unified trigger orders; " ++
          "official plan-order endpoints are separate and marked under maintenance" }
      context.venue context.product)
  if request.price.isNone && request.orderType != .market then
    throw (MarketError.withVenue
      { kind := .configError, message := "mexc limit orders require price" }
      context.venue context.product)
  let orderType ← mexcOrderType request.orderType request.timeInForce request.postOnly
  return .object (mexcCreateOrderFields spec positions request orderType)

/-- An order for MEXC. -/
def buildMexcCreateOrderObject (context : LiveContext) (catalog : InstrumentCatalog)
    (positions : List Position) (request : CreateOrderRequest) : Except MarketError Json := do
  let spec ← catalog.requireSpec context request.instrumentId
  mexcCreateOrderObject context spec positions request

/-! ### Records of the adapter -/

namespace Mexc

/-- The side in the code of an order. -/
def parseOrderSide (value : Int64) : Side := if value = 1 ∨ value = 4 then .buy else .sell

/-- The type in the code of an order. -/
def parseOrderType (value : Int64) : OrderType :=
  if value = 5 ∨ value = 6 then .market else .limit

/-- The time in force in the code of an order. -/
def parseTimeInForce (value : Option Int64) : TimeInForce :=
  if value = some 2 then .postOnly
  else if value = some 3 then .ioc
  else if value = some 4 then .fok
  else .gtc

/-- The states of an order by their codes. -/
def parseOrderStatus (value : Int64) : OrderStatus :=
  if value = 1 ∨ value = 2 then .new
  else if value = 3 then .filled
  else if value = 4 then .canceled
  else if value = 5 then .rejected
  else .expired

/-- An order, in a message or in a reply. -/
structure OrderData where
  orderId : Json
  symbol : String
  side : Int64
  orderType : Option Int64
  category : Option Int64
  state : Int64
  price : Json
  vol : Json
  dealVol : Option Json
  dealAvgPrice : Option Json
  externalOid : Option String
  reduceOnly : Option Bool
  createTime : Option TimestampMs
  updateTime : Option TimestampMs

/-- An execution, in a message or in a reply. -/
structure ExecutionData where
  id : Json
  orderId : Json
  symbol : String
  side : Int64
  vol : Json
  price : Json
  fee : Option Json
  feeCurrency : Option String
  isTaker : Option Bool
  timestamp : Option Json

/-- An order of MEXC as the runtime knows it. -/
def orderFromData (catalog : InstrumentCatalog) (order : OrderData) (observedAt : TimestampMs) :
    Except Failure Order := do
  let spec ← requireNativeSymbol catalog order.symbol
  let code := order.orderType.or order.category
  let price ← decimalFromValue order.price
  let quantity ← decimalFromValue order.vol
  let filledQuantity ← decimalFromOptionalValue order.dealVol
  let averageFillPrice ← okOrNone (decimalFromOptionalValue order.dealAvgPrice)
  return {
    orderId := ⟨valueToIdString order.orderId⟩
    clientOrderId := (order.externalOid.filter fun value => !value.isEmpty).map StringId.mk
    instrumentId := spec.instrumentId
    side := parseOrderSide order.side
    orderType := parseOrderType (code.getD 1)
    timeInForce := some (parseTimeInForce code)
    status := parseOrderStatus order.state
    price := some ⟨price⟩
    quantity := ⟨quantity⟩
    filledQuantity := ⟨filledQuantity⟩
    averageFillPrice := (averageFillPrice.filter fun value => !value.isZero).map DecimalValue.mk
    reduceOnly := order.reduceOnly.getD (order.side == 2 || order.side == 4)
    postOnly := code == some 2
    createdAt := order.createTime.getD observedAt
    updatedAt := order.updateTime.getD observedAt
    venueStatus := some (toString order.state.toInt) }

/-- An execution of MEXC as the runtime knows it. -/
def executionFromData (catalog : InstrumentCatalog) (execution : ExecutionData)
    (nowMs : TimestampMs) : Except Failure Execution := do
  let spec ← requireNativeSymbol catalog execution.symbol
  let quantity ← decimalFromValue execution.vol
  let price ← decimalFromValue execution.price
  let fee ← execution.fee.mapM decimalFromValue
  return {
    executionId := ⟨valueToIdString execution.id⟩
    orderId := ⟨valueToIdString execution.orderId⟩
    clientOrderId := none
    instrumentId := spec.instrumentId
    side := parseOrderSide execution.side
    quantity := ⟨quantity⟩
    price := ⟨price⟩
    fee := fee.map DecimalValue.mk
    feeAsset := execution.feeCurrency.map StringId.mk
    liquidity := execution.isTaker.map fun isTaker => if isTaker then .taker else .maker
    executedAt := (execution.timestamp.bind valueToI64).getD nowMs }

/-! ### Records that echo a body -/

/-- The decimals of the record can be read, except perhaps its average price. -/
structure OrderData.Readable (r : OrderData) : Prop where
  price : ∃ d, decimalFromValue r.price = .ok d
  vol : ∃ d, decimalFromValue r.vol = .ok d
  dealVol : ∃ d, decimalFromOptionalValue r.dealVol = .ok d
  dealAvgPrice : ∃ d, okOrNone (decimalFromOptionalValue r.dealAvgPrice) = .ok d

/-- The record repeats what the body says, and its other fields are those of a record. -/
structure OrderData.Echoes (r : OrderData) (body : Json) : Prop where
  readable : r.Readable
  symbol : body.get? "symbol" = some (.string r.symbol)
  side : body.get? "side" = some (.integer r.side.toInt)
  orderType : body.get? "type" = r.orderType.map fun t => .integer t.toInt
  vol : ∃ text, body.get? "vol" = some (.string text) ∧ Spells r.vol text
  price : ∀ text, body.get? "price" = some (.string text) → Spells r.price text
  externalOid : body.get? "externalOid" = r.externalOid.map Json.string
  reduceOnly : body.get? "reduceOnly" = some (.bool true) ∧ r.reduceOnly = some true ∨
    body.get? "reduceOnly" = none ∧ r.reduceOnly ≠ some true

/-- The decimals of the record can be read. -/
structure ExecutionData.Readable (r : ExecutionData) : Prop where
  vol : ∃ d, decimalFromValue r.vol = .ok d
  price : ∃ d, decimalFromValue r.price = .ok d
  fee : ∃ d, r.fee.mapM decimalFromValue = .ok d

/-- The execution is one of the order of the body. -/
structure ExecutionData.Echoes (r : ExecutionData) (body : Json) : Prop where
  readable : r.Readable
  symbol : body.get? "symbol" = some (.string r.symbol)
  side : body.get? "side" = some (.integer r.side.toInt)

/-! ### What a body says -/

section Body

variable {context : LiveContext} {catalog : InstrumentCatalog} {spec : InstrumentSpec}
  {positions : List Position} {request : CreateOrderRequest} {t : Int64}

/-- The fields of a body that a record echoes. -/
theorem get?_mexcCreateOrderFields (spec : InstrumentSpec) (positions : List Position)
    (request : CreateOrderRequest) (t : Int64) :
    let body := Json.object (mexcCreateOrderFields spec positions request t)
    body.get? "symbol" = some (.string (mexcWireSymbol spec)) ∧
    body.get? "price" = request.price.map (fun p => .string (formatPrice p)) ∧
    body.get? "vol" = some (.string (formatQuantity request.quantity)) ∧
    body.get? "side" = some (.integer (mexcOrderSide request.side request.reduceOnly).toInt) ∧
    body.get? "type" = some (.integer t.toInt) ∧
    body.get? "externalOid" = request.clientOrderId.map (fun id => .string id.asStr) ∧
    body.get? "reduceOnly" = if request.reduceOnly then some (.bool true) else none := by
  have hreduce : ∀ key, (Json.object (if request.reduceOnly then [("reduceOnly", .bool true)]
      else [])).get? key =
        if request.reduceOnly then (Json.object [("reduceOnly", .bool true)]).get? key
        else none := by
    intro key
    cases request.reduceOnly <;> simp
  simp only [mexcCreateOrderFields, Json.get?_object_append, hreduce, Json.get?_object_toList,
    Json.get?_object_cons, Json.get?_object_nil]
  simp

/-- A body is built for an order without a trigger, and for an order type that has a code. -/
theorem mexcCreateOrderObject_eq_ok {body : Json}
    (h : mexcCreateOrderObject context spec positions request = .ok body) :
    ∃ t, mexcOrderType request.orderType request.timeInForce request.postOnly = .ok t ∧
      request.orderType.isConditional = false ∧ request.triggerPrice = none ∧
      body = .object (mexcCreateOrderFields spec positions request t) := by
  unfold mexcCreateOrderObject at h
  by_cases hcond : (request.triggerPrice.isSome || request.orderType.isConditional) = true
  · rw [if_pos hcond] at h
    cases h
  by_cases hprice : (request.price.isNone && request.orderType != .market) = true
  · rw [if_neg hcond, if_pos hprice] at h
    cases h
  rw [if_neg hcond, if_neg hprice] at h
  obtain ⟨t, ht, h⟩ := except_bind_eq_ok.1 h
  obtain ⟨htrigger, hplain⟩ : request.triggerPrice = none ∧
      request.orderType.isConditional = false := by
    simpa using hcond
  exact ⟨t, ht, hplain, htrigger, (Except.ok.inj h).symm⟩

/-- A body is built for an instrument of the catalog. -/
theorem build_eq_ok {body : Json}
    (h : buildMexcCreateOrderObject context catalog positions request = .ok body) :
    ∃ spec t, catalog.get request.instrumentId = some spec ∧
      mexcOrderType request.orderType request.timeInForce request.postOnly = .ok t ∧
      request.orderType.isConditional = false ∧
      body = .object (mexcCreateOrderFields spec positions request t) := by
  obtain ⟨spec, hspec, h⟩ := except_bind_eq_ok.1 h
  have hget : catalog.get request.instrumentId = some spec := by
    unfold InstrumentCatalog.requireSpec at hspec
    split at hspec
    · next found hfound =>
      rw [hfound]
      exact congrArg some (Except.ok.inj hspec)
    · cases hspec
  obtain ⟨t, ht, hplain, -, hbody⟩ := mexcCreateOrderObject_eq_ok h
  exact ⟨spec, t, hget, ht, hplain, hbody⟩

/-- The record that says nothing but what the body says. -/
def echoOf (spec : InstrumentSpec) (request : CreateOrderRequest) (t : Int64) : OrderData where
  orderId := .null
  symbol := mexcWireSymbol spec
  side := mexcOrderSide request.side request.reduceOnly
  orderType := some t
  category := none
  state := 2
  price := (request.price.map fun p => Json.string (formatPrice p)).getD .null
  vol := .string (formatQuantity request.quantity)
  dealVol := none
  dealAvgPrice := none
  externalOid := request.clientOrderId.map (·.asStr)
  reduceOnly := if request.reduceOnly then some true else none
  createTime := none
  updateTime := none

theorem decimalFromValue_formatPrice (p : Price) :
    decimalFromValue (.string (formatPrice p)) = .ok p.value.normalize :=
  decimalFromValue_of_spells (.inl rfl)

theorem echoOf_echoes (spec : InstrumentSpec) (positions : List Position)
    (request : CreateOrderRequest) (t : Int64) :
    (echoOf spec request t).Echoes
      (.object (mexcCreateOrderFields spec positions request t)) := by
  obtain ⟨hsymbol, hprice, hvol, hside, htype, hoid, hreduce⟩ :=
    get?_mexcCreateOrderFields spec positions request t
  refine ⟨⟨?_, ?_, ⟨0, rfl⟩, ⟨some 0, rfl⟩⟩, hsymbol, hside, htype, ⟨_, hvol, .inl rfl⟩, ?_, ?_, ?_⟩
  · cases hp : request.price with
    | none =>
      exact ⟨0, by simp only [echoOf, hp]; rfl⟩
    | some p =>
      exact ⟨p.value.normalize, by
        simp only [echoOf, hp]
        exact decimalFromValue_formatPrice p⟩
  · exact ⟨request.quantity.value.normalize, decimalFromValue_of_spells (.inl rfl)⟩
  · intro text htext
    rw [hprice] at htext
    cases hp : request.price with
    | none => simp [hp] at htext
    | some p =>
      rw [hp] at htext
      left
      simp only [echoOf, hp]
      exact Option.some.inj htext
  · rw [hoid, echoOf]
    cases request.clientOrderId <;> rfl
  · cases hr : request.reduceOnly with
    | false =>
      right
      simp [hreduce, hr, echoOf]
    | true =>
      left
      simp [hreduce, hr, echoOf]

end Body

/-! ### What the adapter reads -/

/-- A readable record of a known symbol is decoded field by field. -/
theorem orderFromData_of_readable {catalog : InstrumentCatalog} {spec : InstrumentSpec}
    {r : OrderData} (h : r.Readable) (hspec : requireNativeSymbol catalog r.symbol = .ok spec)
    (observedAt : TimestampMs) :
    ∃ order, orderFromData catalog r observedAt = .ok order ∧
      order.side = parseOrderSide r.side ∧
      order.orderType = parseOrderType ((r.orderType.or r.category).getD 1) ∧
      order.timeInForce = some (parseTimeInForce (r.orderType.or r.category)) ∧
      order.postOnly = (r.orderType.or r.category == some 2) ∧
      order.clientOrderId =
        (r.externalOid.filter fun value => !value.isEmpty).map StringId.mk ∧
      order.reduceOnly = r.reduceOnly.getD (r.side == 2 || r.side == 4) ∧
      decimalFromValue r.vol = .ok order.quantity.value ∧
      ∃ q, order.price = some q ∧ decimalFromValue r.price = .ok q.value := by
  obtain ⟨⟨price, hprice⟩, ⟨vol, hvol⟩, ⟨dealVol, hdealVol⟩, ⟨avg, havg⟩⟩ := h
  simp only [orderFromData, hspec, hprice, hvol, hdealVol, havg]
  exact ⟨_, rfl, rfl, rfl, rfl, rfl, rfl, rfl, rfl, ⟨price⟩, rfl, rfl⟩

theorem executionFromData_of_readable {catalog : InstrumentCatalog} {spec : InstrumentSpec}
    {r : ExecutionData} (h : r.Readable) (hspec : requireNativeSymbol catalog r.symbol = .ok spec)
    (nowMs : TimestampMs) :
    ∃ execution, executionFromData catalog r nowMs = .ok execution ∧
      execution.side = parseOrderSide r.side := by
  obtain ⟨⟨vol, hvol⟩, ⟨price, hprice⟩, ⟨fee, hfee⟩⟩ := h
  simp only [executionFromData, hspec, hvol, hprice, hfee]
  exact ⟨_, rfl, rfl⟩

/-- The side of an order comes back unless the order is reduce-only. -/
theorem parseOrderSide_mexcOrderSide (side : Side) (reduceOnly : Bool) :
    parseOrderSide (mexcOrderSide side reduceOnly) = side ↔ reduceOnly = false := by
  cases side <;> cases reduceOnly <;> decide

/-- The code of a plain order type carries the type and the time in force, unless they are ones
that share a code. -/
theorem parse_mexcOrderType {orderType : OrderType} {timeInForce : Option TimeInForce}
    {postOnly : Bool} {t : Int64} (h : mexcOrderType orderType timeInForce postOnly = .ok t)
    (hplain : orderType.isConditional = false) :
    let asks := postOnly || timeInForce == some .postOnly
    (parseOrderType t = orderType ∧ (some t == some (2 : Int64)) = asks ∧
        (parseTimeInForce (some t) = .postOnly ↔ asks = true) ∧
        (timeInForce = some .ioc → parseTimeInForce (some t) = .ioc) ∧
        (timeInForce = some .fok → parseTimeInForce (some t) = .fok)) ↔
      (asks = true → orderType = .limit) ∧
        (timeInForce = some .ioc ∨ timeInForce = some .fok →
          orderType = .limit ∧ postOnly = false) := by
  revert h
  rcases orderType with _ | _ | _ | _ | _ | _
  case stopMarket | stopLimit | takeProfitMarket | takeProfitLimit => cases hplain
  all_goals
    rcases timeInForce with _ | _ | _ | _ | _ <;> cases postOnly <;> intro h <;>
      obtain rfl := Except.ok.inj h <;> decide

end Mexc

/-! ### The round trip -/

section RoundTrip

open Mexc

variable {context : LiveContext} {catalog : InstrumentCatalog} {positions : List Position}
  {request : CreateOrderRequest} {body : Json}

/-- Every record that echoes the body decodes to the requested order, or to an execution on the
requested side. -/
def MexcOrderSurvives (catalog : InstrumentCatalog) (request : CreateOrderRequest) (body : Json) :
    Prop :=
  (∀ (r : OrderData) (observedAt : TimestampMs), r.Echoes body →
    ∃ order, orderFromData catalog r observedAt = .ok order ∧ request.Describes order) ∧
  ∀ (r : ExecutionData) (nowMs : TimestampMs), r.Echoes body →
    ∃ execution, executionFromData catalog r nowMs = .ok execution ∧
      execution.side = request.side

/-- The codes of MEXC can express the request, and its adapter can name the instrument and the
client order id. -/
structure MexcEncodable (catalog : InstrumentCatalog) (request : CreateOrderRequest) : Prop where
  opens : request.reduceOnly = false
  symbol : ∀ spec, catalog.get request.instrumentId = some spec →
    (resolveNativeSymbol .mexc catalog (mexcWireSymbol spec)).isSome = true
  clientOrderId : request.clientOrderId ≠ some ⟨""⟩
  postOnly : request.asksPostOnly = true → request.orderType = .limit
  immediate : request.timeInForce = some .ioc ∨ request.timeInForce = some .fok →
    request.orderType = .limit ∧ request.postOnly = false

/-- A client order id comes back unless it is empty. -/
theorem clientOrderId_survives_iff (id : Option ClientOrderId) :
    ((id.map (·.asStr)).filter fun value => !value.isEmpty).map StringId.mk = id ↔
      id ≠ some ⟨""⟩ := by
  cases id with
  | none => simp
  | some id =>
    obtain ⟨text⟩ := id
    by_cases h : text = ""
    · simp [h]
    · simp [h]

theorem requireNativeSymbol_eq_ok {symbol : String} {spec : InstrumentSpec} :
    Mexc.requireNativeSymbol catalog symbol = .ok spec ↔
      resolveNativeSymbol .mexc catalog symbol = some spec := by
  unfold Mexc.requireNativeSymbol BatMarkets.requireNativeSymbol
  cases h : resolveNativeSymbol .mexc catalog symbol with
  | none => simp [Except.mapError]
  | some found => simp [Except.mapError]

/-- An order whose codes, symbol and client order id are expressible is decoded as requested. -/
theorem mexc_order_survives (h : MexcEncodable catalog request)
    (hbody : buildMexcCreateOrderObject context catalog positions request = .ok body) :
    MexcOrderSurvives catalog request body := by
  obtain ⟨spec, t, hget, ht, hplain, rfl⟩ := build_eq_ok hbody
  obtain ⟨hsymbol, hprice, hvol, hside, htype, hoid, hreduce⟩ :=
    get?_mexcCreateOrderFields spec positions request t
  obtain ⟨found, hfound⟩ := Option.isSome_iff_exists.1 (h.symbol spec hget)
  have hsideback := (parseOrderSide_mexcOrderSide request.side request.reduceOnly).2 h.opens
  obtain ⟨htypeback, hpost, htif, hioc, hfok⟩ :=
    (parse_mexcOrderType ht hplain).2 ⟨h.postOnly, h.immediate⟩
  constructor
  · intro r observedAt hr
    -- the record repeats what has been written
    have hrsymbol : r.symbol = mexcWireSymbol spec :=
      Json.string.inj (Option.some.inj (hr.symbol.symm.trans hsymbol))
    have hrside : r.side = mexcOrderSide request.side request.reduceOnly := by
      have := hr.side.symm.trans hside
      simpa [Int64.toInt_inj] using this
    have hrtype : r.orderType = some t := by
      have := hr.orderType.symm.trans htype
      cases hrt : r.orderType with
      | none => simp [hrt] at this
      | some code => simpa [hrt, Int64.toInt_inj] using this
    have hroid : r.externalOid = request.clientOrderId.map (·.asStr) := by
      have := hr.externalOid.symm.trans hoid
      cases hro : r.externalOid <;> cases hrc : request.clientOrderId <;> simp_all
    obtain ⟨order, hok, hs, hot, htf, hpo, hcid, hro, hq, price, hp, hpv⟩ :=
      orderFromData_of_readable hr.readable
        (requireNativeSymbol_eq_ok.2 (hrsymbol ▸ hfound)) observedAt
    rw [hrtype, Option.some_or] at hot htf hpo
    refine ⟨order, hok, ?_⟩
    exact {
      side := by rw [hs, hrside, hsideback]
      orderType := hot.trans htypeback
      quantity := by
        obtain ⟨text, htext, hspells⟩ := hr.vol
        obtain rfl : formatQuantity request.quantity = text := by
          simpa using hvol.symm.trans htext
        have hread := decimalFromValue_of_spells hspells
        rw [← Except.ok.inj (hread.symm.trans hq), Decimal.toRat_normalize]
      clientOrderId := by
        rw [hcid, hroid]
        exact (clientOrderId_survives_iff _).2 h.clientOrderId
      reduceOnly := by
        -- an order that opens is not written as reduce-only
        have hne : r.reduceOnly ≠ some true := by
          rcases hr.reduceOnly with ⟨hget, -⟩ | ⟨-, hne⟩
          · simp [hreduce, h.opens] at hget
          · exact hne
        rw [hro, hrside, h.opens]
        cases hrr : r.reduceOnly with
        | none => cases request.side <;> rfl
        | some b =>
          cases b with
          | false => rfl
          | true => exact absurd hrr hne
      price := by
        intro p hpreq
        have hspells := hr.price (formatPrice p) (by rw [hprice, hpreq]; rfl)
        have hread := decimalFromValue_of_spells hspells
        exact ⟨price, hp, by
          rw [← Except.ok.inj (hread.symm.trans hpv), Decimal.toRat_normalize]⟩
      postOnly := hpo.trans hpost
      timeInForce := by
        rw [htf]
        simpa [CreateOrderRequest.asksPostOnly] using htif
      ioc := fun hi => htf.trans (congrArg some (hioc hi))
      fok := fun hi => htf.trans (congrArg some (hfok hi)) }
  · intro r nowMs hr
    have hrsymbol : r.symbol = mexcWireSymbol spec :=
      Json.string.inj (Option.some.inj (hr.symbol.symm.trans hsymbol))
    have hrside : r.side = mexcOrderSide request.side request.reduceOnly := by
      have := hr.side.symm.trans hside
      simpa [Int64.toInt_inj] using this
    obtain ⟨execution, hok, hs⟩ := executionFromData_of_readable hr.readable
      (requireNativeSymbol_eq_ok.2 (hrsymbol ▸ hfound)) nowMs
    exact ⟨execution, hok, by rw [hs, hrside, hsideback]⟩

/-- **The round trip, exactly.** -/
theorem mexc_order_survives_iff
    (hbody : buildMexcCreateOrderObject context catalog positions request = .ok body) :
    MexcOrderSurvives catalog request body ↔ MexcEncodable catalog request := by
  refine ⟨fun h => ?_, fun h => mexc_order_survives h hbody⟩
  obtain ⟨spec, t, hget, ht, hplain, rfl⟩ := build_eq_ok hbody
  -- the record that echoes the body and nothing else shows what is lost
  have hecho := echoOf_echoes spec positions request t
  obtain ⟨order, hok, horder⟩ := h.1 _ 0 hecho
  obtain ⟨found, hfound, -⟩ := except_bind_eq_ok.1 hok
  obtain ⟨order', hok', hs, hot, htf, hpo, hcid, hro, -, -⟩ :=
    orderFromData_of_readable hecho.readable hfound 0
  obtain rfl : order' = order := Except.ok.inj (hok'.symm.trans hok)
  have hcodes := (parse_mexcOrderType ht hplain).1 ⟨hot.symm.trans horder.orderType,
    hpo.symm.trans horder.postOnly, by
      have := horder.timeInForce
      rw [htf] at this
      simpa [CreateOrderRequest.asksPostOnly, echoOf] using this,
    fun hi => Option.some.inj (htf.symm.trans (horder.ioc hi)),
    fun hi => Option.some.inj (htf.symm.trans (horder.fok hi))⟩
  exact {
    opens := (parseOrderSide_mexcOrderSide _ _).1 (hs.symm.trans horder.side)
    symbol := by
      intro spec' hget'
      obtain rfl : spec = spec' := Option.some.inj (hget.symm.trans hget')
      rw [Option.isSome_iff_exists]
      exact ⟨found, requireNativeSymbol_eq_ok.1 hfound⟩
    clientOrderId := (clientOrderId_survives_iff _).1 (hcid.symm.trans horder.clientOrderId)
    postOnly := hcodes.1
    immediate := hcodes.2 }

/-- BTC as the adapter knows it. -/
def mexcBtc : InstrumentSpec :=
  { InstrumentSpec.active .mexc "BTC/USDT:USDT" "BTCUSDT" 2 0 with base := ⟨"BTC"⟩ }

/-- A post-only order to sell three contracts of BTC at 65000. -/
def sellBtc (reduceOnly : Bool) : CreateOrderRequest where
  requestId := none
  instrumentId := ⟨"BTC/USDT:USDT"⟩
  clientOrderId := some ⟨"cid-mexc-1"⟩
  side := .sell
  orderType := .limit
  timeInForce := some .postOnly
  quantity := ⟨.ofNat 3⟩
  price := some ⟨.ofNat 65000⟩
  triggerPrice := none
  triggerType := none
  reduceOnly := reduceOnly
  postOnly := true

/-- The body of an order of BTC, when no position is known. -/
theorem build_sellBtc (reduceOnly : Bool) :
    buildMexcCreateOrderObject ⟨.mexc, .linearUsdt, 5000⟩ (.new [mexcBtc]) [] (sellBtc reduceOnly) =
      .ok (.object (mexcCreateOrderFields mexcBtc [] (sellBtc reduceOnly) 2)) := by
  cases reduceOnly <;> rfl

/-- The record of a reduce-only order to sell is read as an order to buy. -/
theorem mexc_reduce_only_flips_side :
    ¬ ∀ (context : LiveContext) (catalog : InstrumentCatalog) (positions : List Position)
      (request : CreateOrderRequest) (body : Json),
      buildMexcCreateOrderObject context catalog positions request = .ok body →
      MexcOrderSurvives catalog request body := by
  intro h
  obtain ⟨order, hok, horder⟩ :=
    (h _ _ _ _ _ (build_sellBtc true)).1 _ 0 (echoOf_echoes mexcBtc [] (sellBtc true) 2)
  have hread : (orderFromData (.new [mexcBtc]) (echoOf mexcBtc (sellBtc true) 2) 0).map (·.side) =
      .ok .buy := by decide
  rw [hok] at hread
  exact absurd (horder.side.symm.trans (Except.ok.inj hread)) (by decide)

/-- The same order comes back when it opens a position. -/
theorem mexc_order_survives_iff_opening :
    MexcEncodable (.new [mexcBtc]) (sellBtc false) ∧
      MexcOrderSurvives (.new [mexcBtc]) (sellBtc false)
        (.object (mexcCreateOrderFields mexcBtc [] (sellBtc false) 2)) := by
  have hsymbol : resolveNativeSymbol .mexc (.new [mexcBtc]) (mexcWireSymbol mexcBtc) =
      some mexcBtc := by decide
  have hget : InstrumentCatalog.get (.new [mexcBtc]) ⟨"BTC/USDT:USDT"⟩ = some mexcBtc := by decide
  have hencodable : MexcEncodable (.new [mexcBtc]) (sellBtc false) := {
    opens := rfl
    symbol := by
      intro spec hspec
      obtain rfl : mexcBtc = spec := Option.some.inj (hget.symm.trans hspec)
      rw [hsymbol]
      rfl
    clientOrderId := by decide
    postOnly := by decide
    immediate := by decide }
  exact ⟨hencodable, (mexc_order_survives_iff (build_sellBtc false)).2 hencodable⟩

end RoundTrip

end BatMarkets
