import BatMarkets.Mexc.Orders
import BatMarkets.Core.Command

/-!
# Orders on the wire

How the runtime writes an order for each venue (`runtime.rs`): the fields of a new order, of a new
conditional order, of an order in a batch, and of the order that closes a position.  The encoders of
one venue differ in the names of a few fields, so each is an instance of one list of fields.

The order that closes a position has no trigger and is reduce-only.  On Binance its fields are
therefore those of any new order; on Bybit they lack the trigger fields, which a new order always
has.
-/

namespace BatMarkets

open Wire

/-! ### Binance -/

/-- The words of Binance for the sides. -/
def binanceSide : Side → String
  | .buy => "BUY"
  | .sell => "SELL"

/-- The words of Binance for the types of an order. -/
def binanceOrderType : OrderType → String
  | .market => "MARKET"
  | .limit => "LIMIT"
  | .stopMarket => "STOP_MARKET"
  | .stopLimit => "STOP"
  | .takeProfitMarket => "TAKE_PROFIT_MARKET"
  | .takeProfitLimit => "TAKE_PROFIT"

/-- The words of Binance for the price of a trigger; it has none for the index. -/
def binanceTriggerType : TriggerType → String
  | .lastPrice => "CONTRACT_PRICE"
  | .markPrice => "MARK_PRICE"
  | .indexPrice => "MARK_PRICE"

/-- The words of Binance for the times in force; post-only is one of them. -/
def binanceTimeInForce (timeInForce : TimeInForce) (postOnly : Bool) : String :=
  if postOnly then "GTX"
  else match timeInForce with
    | .gtc => "GTC"
    | .ioc => "IOC"
    | .fok => "FOK"
    | .postOnly => "GTX"

/-- The fields of an order, with the names of the fields for its client id and its trigger. -/
def binanceOrderFields (clientKey triggerKey nativeSymbol : String) (request : CreateOrderRequest) :
    List (String × Json) :=
  [("symbol", .string nativeSymbol),
    ("side", .string (binanceSide request.side)),
    ("type", .string (binanceOrderType request.orderType)),
    ("quantity", .string (formatQuantity request.quantity))] ++
  (request.clientOrderId.map fun id => (clientKey, Json.string id.asStr)).toList ++
  (request.price.map fun price => ("price", Json.string (formatPrice price))).toList ++
  (request.triggerPrice.map fun price => (triggerKey, Json.string (formatPrice price))).toList ++
  (request.triggerType.map fun triggerType =>
    ("workingType", Json.string (binanceTriggerType triggerType))).toList ++
  (request.timeInForce.map fun timeInForce =>
    ("timeInForce", Json.string (binanceTimeInForce timeInForce request.postOnly))).toList ++
  (if request.reduceOnly then [("reduceOnly", .string "true")] else [])

/-- A new order, alone or to close a position. -/
def buildBinanceCreatePairs (nativeSymbol : String) (request : CreateOrderRequest) : Json :=
  .object (binanceOrderFields "newClientOrderId" "stopPrice" nativeSymbol request)

/-- A conditional order for Binance. -/
def buildBinanceAlgoCreatePairs (nativeSymbol : String) (request : CreateOrderRequest) : Json :=
  .object (("algoType", .string "CONDITIONAL") ::
    binanceOrderFields "clientAlgoId" "triggerPrice" nativeSymbol request)

/-- An order for the batch request of Binance. -/
def buildBinanceBatchCreateObject (nativeSymbol : String) (request : CreateOrderRequest) : Json :=
  .object (binanceOrderFields "newClientOrderId" "stopPrice" nativeSymbol request)

/-! ### Bybit -/

/-- The words of Bybit for the sides. -/
def bybitSide : Side → String
  | .buy => "Buy"
  | .sell => "Sell"

/-- The words of Bybit for the types of an order. -/
def bybitOrderType : OrderType → String
  | .market => "Market"
  | .limit => "Limit"
  | .stopMarket => "StopMarket"
  | .stopLimit => "Stop"
  | .takeProfitMarket => "TakeProfitMarket"
  | .takeProfitLimit => "TakeProfit"

/-- The words of Bybit for the price of a trigger. -/
def bybitTriggerType : TriggerType → String
  | .lastPrice => "LastPrice"
  | .markPrice => "MarkPrice"
  | .indexPrice => "IndexPrice"

/-- The words of Bybit for the times in force; post-only is one of them. -/
def bybitTimeInForce (timeInForce : TimeInForce) (postOnly : Bool) : String :=
  if postOnly then "PostOnly"
  else match timeInForce with
    | .gtc => "GTC"
    | .ioc => "IOC"
    | .fok => "FOK"
    | .postOnly => "PostOnly"

/-- The text, or null. -/
def textOrNull (text : Option String) : Json := (text.map Json.string).getD .null

/-- The fields of an order, with those of its trigger given. -/
def bybitOrderFields (nativeSymbol : String) (request : CreateOrderRequest)
    (trigger : List (String × Json)) : List (String × Json) :=
  [("symbol", .string nativeSymbol),
    ("side", .string (bybitSide request.side)),
    ("orderType", .string (bybitOrderType request.orderType)),
    ("qty", .string (formatQuantity request.quantity)),
    ("price", textOrNull (request.price.map formatPrice))] ++ trigger ++
  [("timeInForce",
      textOrNull (request.timeInForce.map (bybitTimeInForce · request.postOnly))),
    ("orderLinkId", textOrNull (request.clientOrderId.map (·.asStr))),
    ("reduceOnly", .bool request.reduceOnly)]

/-- The fields of Bybit for a trigger, which are null for an order without one. -/
def bybitTriggerFields (request : CreateOrderRequest) : List (String × Json) :=
  [("triggerPrice", textOrNull (request.triggerPrice.map formatPrice)),
    ("triggerBy", textOrNull (request.triggerType.map bybitTriggerType))]

/-- An order for Bybit. -/
def buildBybitCreateObject (nativeSymbol : String) (request : CreateOrderRequest) : Json :=
  .object (("category", .string "linear") ::
    bybitOrderFields nativeSymbol request (bybitTriggerFields request))

/-- An order for the batch request of Bybit. -/
def buildBybitBatchCreateObject (nativeSymbol : String) (request : CreateOrderRequest) : Json :=
  .object (bybitOrderFields nativeSymbol request (bybitTriggerFields request))

/-- The order for Bybit that closes a position. -/
def buildBybitCloseObject (nativeSymbol : String) (request : CreateOrderRequest) : Json :=
  .object (("category", .string "linear") :: bybitOrderFields nativeSymbol request [])

/-! ### MEXC -/

/-- The order, as one of a batch. -/
def withStpMode : Json → Json
  | .object fields => .object (fields ++ [("stpMode", .integer 0)])
  | other => other

/-- An order for the batch request of MEXC. -/
def buildMexcBatchCreateOrderObject (context : LiveContext) (spec : InstrumentSpec)
    (positions : List Position) (request : CreateOrderRequest) : Except MarketError Json :=
  withStpMode <$> mexcCreateOrderObject context spec positions request

/-! ### What an order on the wire says -/

/-- The client order id of an order. -/
def wireClientOrderId (venue : Venue) (order : Json) : Option String :=
  (match venue with
    | .binance => (order.get? "newClientOrderId").or (order.get? "clientAlgoId")
    | .bybit => order.get? "orderLinkId"
    | .mexc => order.get? "externalOid").bind Json.asStr

/-- The venue keeps the order from taking liquidity. -/
def wirePostOnly (venue : Venue) (order : Json) : Prop :=
  match venue with
  | .binance => order.get? "timeInForce" = some (.string "GTX")
  | .bybit => order.get? "timeInForce" = some (.string "PostOnly")
  | .mexc => order.get? "type" = some (.integer 2)

/-- The type the venue gives the order. -/
def wireOrderType (venue : Venue) (order : Json) : Option OrderType :=
  match venue with
  | .binance => match (order.get? "type").bind Json.asStr with
    | some "MARKET" => some .market
    | some "LIMIT" => some .limit
    | some "STOP_MARKET" => some .stopMarket
    | some "STOP" => some .stopLimit
    | some "TAKE_PROFIT_MARKET" => some .takeProfitMarket
    | some "TAKE_PROFIT" => some .takeProfitLimit
    | _ => none
  | .bybit => match (order.get? "orderType").bind Json.asStr with
    | some "Market" => some .market
    | some "Limit" => some .limit
    | some "StopMarket" => some .stopMarket
    | some "Stop" => some .stopLimit
    | some "TakeProfitMarket" => some .takeProfitMarket
    | some "TakeProfit" => some .takeProfitLimit
    | _ => none
  | .mexc => match (order.get? "type").bind Json.asI64 with
    | some 5 => some .market
    | some 1 | some 2 | some 3 | some 4 => some .limit
    | _ => none

/-- The order is post-only and has the requested type. -/
def KeepsPostOnly (venue : Venue) (request : CreateOrderRequest) (order : Json) : Prop :=
  wirePostOnly venue order ∧ wireOrderType venue order = some request.orderType

/-- The encoders of the venue keep a request to be post-only.  Those of Binance and Bybit write it
into the time in force, if there is one; those of MEXC write it in place of the order type, and
write no order with a trigger. -/
def PostOnlyEncodable (venue : Venue) (request : CreateOrderRequest) : Prop :=
  match venue with
  | .binance | .bybit => request.timeInForce.isSome = true
  | .mexc => request.orderType = .market → request.triggerPrice.isSome = true

/-- The order is what an encoder of the venue makes of the request. -/
structure Encodes (venue : Venue) (request : CreateOrderRequest) (order : Json) : Prop where
  clientOrderId : wireClientOrderId venue order = request.clientOrderId.map (·.asStr)
  postOnly : request.asksPostOnly = true →
    (KeepsPostOnly venue request order ↔ PostOnlyEncodable venue request)

/-! ### The encoders -/

section Encoders

variable {nativeSymbol : String} {request : CreateOrderRequest}

@[simp] theorem bind_asStr_map {α : Type} (o : Option α) (f : α → String) :
    (o.map fun a => Json.string (f a)).bind Json.asStr = o.map f := by
  cases o <;> rfl

variable (nativeSymbol request) in
/-- What the venue reads from the fields of a Binance order. -/
theorem get?_binanceOrderFields {clientKey triggerKey : String}
    (hkeys : (clientKey, triggerKey) = ("newClientOrderId", "stopPrice") ∨
      (clientKey, triggerKey) = ("clientAlgoId", "triggerPrice"))
    {fields : List (String × Json)}
    (hfields : fields = [] ∨ fields = [("algoType", .string "CONDITIONAL")]) :
    let order :=
      Json.object (fields ++ binanceOrderFields clientKey triggerKey nativeSymbol request)
    wireClientOrderId .binance order = request.clientOrderId.map (·.asStr) ∧
      order.get? "type" = some (.string (binanceOrderType request.orderType)) ∧
      order.get? "timeInForce" = request.timeInForce.map fun timeInForce =>
        .string (binanceTimeInForce timeInForce request.postOnly) := by
  have hreduce : ∀ key, key ≠ "reduceOnly" → Json.get? key
      (.object (if request.reduceOnly then [("reduceOnly", .string "true")] else [])) = none := by
    intro key hkey
    split
    · simp [Ne.symm hkey]
    · rfl
  rcases hkeys with hkeys | hkeys <;> obtain ⟨rfl, rfl⟩ := Prod.mk.inj hkeys <;>
    rcases hfields with rfl | rfl <;>
    simp [binanceOrderFields, Json.get?_object_append, wireClientOrderId, hreduce]

theorem binanceTimeInForce_eq_GTX {timeInForce : TimeInForce}
    (h : request.asksPostOnly = true) (ht : request.timeInForce = some timeInForce) :
    binanceTimeInForce timeInForce request.postOnly = "GTX" := by
  rw [CreateOrderRequest.asksPostOnly, ht] at h
  cases hp : request.postOnly with
  | true => rfl
  | false =>
    obtain rfl : timeInForce = .postOnly := by simpa [hp] using h
    rfl

theorem bybitTimeInForce_eq_PostOnly {timeInForce : TimeInForce}
    (h : request.asksPostOnly = true) (ht : request.timeInForce = some timeInForce) :
    bybitTimeInForce timeInForce request.postOnly = "PostOnly" := by
  rw [CreateOrderRequest.asksPostOnly, ht] at h
  cases hp : request.postOnly with
  | true => rfl
  | false =>
    obtain rfl : timeInForce = .postOnly := by simpa [hp] using h
    rfl

/-- All encoders of Binance leave the time in force out when the request names none. -/
theorem encodes_binanceOrderFields {clientKey triggerKey : String}
    (hkeys : (clientKey, triggerKey) = ("newClientOrderId", "stopPrice") ∨
      (clientKey, triggerKey) = ("clientAlgoId", "triggerPrice"))
    {fields : List (String × Json)}
    (hfields : fields = [] ∨ fields = [("algoType", .string "CONDITIONAL")]) :
    Encodes .binance request
      (.object (fields ++ binanceOrderFields clientKey triggerKey nativeSymbol request)) := by
  obtain ⟨hclient, htype, htif⟩ :=
    get?_binanceOrderFields nativeSymbol request hkeys hfields
  refine ⟨hclient, fun hasks => ?_⟩
  have horderType : wireOrderType .binance
      (.object (fields ++ binanceOrderFields clientKey triggerKey nativeSymbol request)) =
        some request.orderType := by
    rw [wireOrderType, htype]
    cases request.orderType <;> rfl
  rw [KeepsPostOnly, wirePostOnly, htif, PostOnlyEncodable]
  cases ht : request.timeInForce with
  | none => simp
  | some timeInForce => simp [horderType, binanceTimeInForce_eq_GTX hasks ht]

theorem encodes_buildBinanceCreatePairs :
    Encodes .binance request (buildBinanceCreatePairs nativeSymbol request) :=
  encodes_binanceOrderFields (.inl rfl) (.inl rfl)

theorem encodes_buildBinanceAlgoCreatePairs :
    Encodes .binance request (buildBinanceAlgoCreatePairs nativeSymbol request) :=
  encodes_binanceOrderFields (.inr rfl) (.inr rfl)

theorem encodes_buildBinanceBatchCreateObject :
    Encodes .binance request (buildBinanceBatchCreateObject nativeSymbol request) :=
  encodes_binanceOrderFields (.inl rfl) (.inl rfl)

/-- All encoders of Bybit write a null time in force when the request names none. -/
theorem encodes_bybitOrderFields {fields trigger : List (String × Json)}
    (hfields : fields = [] ∨ fields = [("category", .string "linear")])
    (htrigger : trigger = [] ∨ trigger = bybitTriggerFields request) :
    Encodes .bybit request
      (.object (fields ++ bybitOrderFields nativeSymbol request trigger)) := by
  have hget : let order := Json.object (fields ++ bybitOrderFields nativeSymbol request trigger)
      order.get? "orderType" = some (.string (bybitOrderType request.orderType)) ∧
      order.get? "timeInForce" =
        some (textOrNull (request.timeInForce.map (bybitTimeInForce · request.postOnly))) ∧
      order.get? "orderLinkId" = some (textOrNull (request.clientOrderId.map (·.asStr))) := by
    rcases hfields with rfl | rfl <;> rcases htrigger with rfl | rfl <;>
      simp [bybitOrderFields, bybitTriggerFields]
  obtain ⟨htype, htif, hclient⟩ := hget
  refine ⟨?_, fun hasks => ?_⟩
  · rw [wireClientOrderId, hclient]
    cases request.clientOrderId <;> rfl
  have horderType : wireOrderType .bybit
      (.object (fields ++ bybitOrderFields nativeSymbol request trigger)) =
        some request.orderType := by
    rw [wireOrderType, htype]
    cases request.orderType <;> rfl
  rw [KeepsPostOnly, wirePostOnly, htif, PostOnlyEncodable]
  cases ht : request.timeInForce with
  | none => simp [textOrNull]
  | some timeInForce =>
    simp [horderType, textOrNull, bybitTimeInForce_eq_PostOnly hasks ht]

theorem encodes_buildBybitCreateObject :
    Encodes .bybit request (buildBybitCreateObject nativeSymbol request) :=
  encodes_bybitOrderFields (.inr rfl) (.inr rfl)

theorem encodes_buildBybitBatchCreateObject :
    Encodes .bybit request (buildBybitBatchCreateObject nativeSymbol request) :=
  encodes_bybitOrderFields (.inl rfl) (.inr rfl)

theorem encodes_buildBybitCloseObject :
    Encodes .bybit request (buildBybitCloseObject nativeSymbol request) :=
  encodes_bybitOrderFields (.inr rfl) (.inl rfl)

/-- The encoder of MEXC writes a post-only order as a limit order. -/
theorem encodes_mexcCreateOrderObject {context : LiveContext} {spec : InstrumentSpec}
    {positions : List Position} {order : Json}
    (h : mexcCreateOrderObject context spec positions request = .ok order) :
    Encodes .mexc request order := by
  obtain ⟨t, ht, hplain, htrigger, rfl⟩ := Mexc.mexcCreateOrderObject_eq_ok h
  obtain ⟨-, -, -, -, htype, hclient, -⟩ :=
    Mexc.get?_mexcCreateOrderFields spec positions request t
  refine ⟨?_, fun hasks => ?_⟩
  · rw [wireClientOrderId, hclient, bind_asStr_map]
  obtain rfl : 2 = t := by
    unfold CreateOrderRequest.asksPostOnly at hasks
    unfold mexcOrderType at ht
    rw [if_pos hasks] at ht
    exact Except.ok.inj ht
  have horderType : wireOrderType .mexc (.object (mexcCreateOrderFields spec positions request 2)) =
      some .limit := by
    rw [wireOrderType, htype]
    rfl
  have hpost : wirePostOnly .mexc (.object (mexcCreateOrderFields spec positions request 2)) :=
    htype
  rw [KeepsPostOnly, horderType, PostOnlyEncodable, htrigger]
  cases hr : request.orderType <;> simp_all [OrderType.isConditional]

theorem encodes_withStpMode {order : Json} (h : Encodes .mexc request order) :
    Encodes .mexc request (withStpMode order) := by
  have hget : ∀ key, key ≠ "stpMode" → (withStpMode order).get? key = order.get? key := by
    intro key hkey
    cases order with
    | object fields => simp [withStpMode, Json.get?_object_append, Ne.symm hkey]
    | null | bool b | number n | string s | array items => rfl
  obtain ⟨hclient, hpost⟩ := h
  refine ⟨?_, fun hasks => ?_⟩
  · rw [wireClientOrderId, hget _ (by decide)]
    exact hclient
  · have hkept := hpost hasks
    rw [KeepsPostOnly, wirePostOnly, wireOrderType, hget _ (by decide)]
    exact hkept

theorem encodes_buildMexcBatchCreateOrderObject {context : LiveContext} {spec : InstrumentSpec}
    {positions : List Position} {order : Json}
    (h : buildMexcBatchCreateOrderObject context spec positions request = .ok order) :
    Encodes .mexc request order := by
  unfold buildMexcBatchCreateOrderObject at h
  cases hbody : mexcCreateOrderObject context spec positions request with
  | error e =>
    rw [hbody] at h
    cases h
  | ok body =>
    rw [hbody] at h
    obtain rfl : withStpMode body = order := Except.ok.inj h
    exact encodes_withStpMode (encodes_mexcCreateOrderObject hbody)

end Encoders

end BatMarkets
