import BatMarkets.Adapter.OrderSnapshot

/-!
# The two records of a Binance order

The answer to a request for an order and the update of it on the private stream are decoded apart
from each other (`order_from_snapshot` and `parse_private`), and both go under the order id into the
same map.  `OrderState` is the order as the venue has it, and the records are written from it: the
words for the enumerations, and for each number any text that reads as it.

The decoders disagree on two points.  Only the first one marks an order with the time in force `GTX`
as post-only, and only the first one takes an average price written as `0` for no average price.

## Main results

* `Binance.decoders_agree_iff` : when the two decoders give the same order.
-/

namespace BatMarkets

/-- What an order says, but for the status by the words of the venue and the time of creation;
numbers are compared as numbers. -/
structure OrderFacts where
  orderId : OrderId
  clientOrderId : Option ClientOrderId
  instrumentId : InstrumentId
  side : Side
  orderType : OrderType
  timeInForce : Option TimeInForce
  status : OrderStatus
  price : Option ℚ
  quantity : ℚ
  filledQuantity : ℚ
  averageFillPrice : Option ℚ
  reduceOnly : Bool
  postOnly : Bool
  updatedAt : TimestampMs

/-- What an order says, without the two fields that records spell differently. -/
def Order.facts (o : Order) : OrderFacts where
  orderId := o.orderId
  clientOrderId := o.clientOrderId
  instrumentId := o.instrumentId
  side := o.side
  orderType := o.orderType
  timeInForce := o.timeInForce
  status := o.status
  price := o.price.map (·.value.toRat)
  quantity := o.quantity.value.toRat
  filledQuantity := o.filledQuantity.value.toRat
  averageFillPrice := o.averageFillPrice.map (·.value.toRat)
  reduceOnly := o.reduceOnly
  postOnly := o.postOnly
  updatedAt := o.updatedAt

namespace Binance

/-- An order as the venue has it. -/
structure OrderState where
  symbol : String
  orderId : Int64
  clientOrderId : String
  side : Side
  orderType : OrderType
  timeInForce : TimeInForce
  status : OrderStatus
  price : ℚ
  quantity : ℚ
  filledQuantity : ℚ
  averagePrice : ℚ
  reduceOnly : Bool
  updateTime : TimestampMs

/-- The text reads as the number. -/
def Spells (raw : String) (q : ℚ) : Prop := ∃ d, parseDecimal raw = .ok d ∧ d.toRat = q

/-- The answer to a request for the order. -/
structure OrderSnapshot.Records (r : OrderSnapshot) (s : OrderState) : Prop where
  symbol : r.symbol = s.symbol
  orderId : r.orderId = s.orderId
  clientOrderId : r.clientOrderId = s.clientOrderId
  side : parseSide r.side = .ok s.side
  orderType : parseOrderType r.orderType = .ok s.orderType
  timeInForce : parseTimeInForce r.timeInForce = .ok s.timeInForce
  status : parseOrderStatus r.status = .ok s.status
  price : Spells r.price s.price
  originalQuantity : Spells r.originalQuantity s.quantity
  executedQuantity : Spells r.executedQuantity s.filledQuantity
  averagePrice : Spells r.averagePrice s.averagePrice
  reduceOnly : r.reduceOnly = s.reduceOnly
  updateTime : r.updateTime = s.updateTime

/-- The update of the order on the private stream.  The average price is there, or it is zero, and
what the update says about the last fill is readable. -/
structure OrderTradeData.Records (r : OrderTradeData) (s : OrderState) : Prop where
  symbol : r.symbol = s.symbol
  orderId : r.orderId = s.orderId
  clientOrderId : r.clientOrderId = s.clientOrderId
  side : parseSide r.side = .ok s.side
  orderType : parseOrderType r.orderType = .ok s.orderType
  timeInForce : parseTimeInForce r.timeInForce = .ok s.timeInForce
  status : parseOrderStatus r.orderStatus = .ok s.status
  price : Spells r.price s.price
  originalQuantity : Spells r.originalQuantity s.quantity
  cumulativeFilledQty : Spells r.cumulativeFilledQty s.filledQuantity
  averagePrice : ∀ raw, r.averagePrice = some raw → Spells raw s.averagePrice
  noAveragePrice : r.averagePrice = none → s.averagePrice = 0
  reduceOnly : r.reduceOnly = s.reduceOnly
  tradeTime : r.tradeTime = s.updateTime
  lastFilledQty : ∃ d, parseDecimal r.lastFilledQty = .ok d
  lastFilledPrice : ∃ d, parseDecimal r.lastFilledPrice = .ok d
  commission : ∃ d, parseOptionalDecimal r.commission = .ok d

/-- The two decoders refuse the order, or give the same order. -/
def DecodersAgree (rest : Except MarketError Order)
    (stream : Except MarketError (List PrivateLaneEvent)) : Prop :=
  match rest, stream with
  | .ok a, .ok (.order b :: _) => a.facts = b.facts
  | .error _, .error _ => True
  | _, _ => False

theorem parseTimeInForce_eq_postOnly_iff {raw : String} {timeInForce : TimeInForce}
    (h : parseTimeInForce raw = .ok timeInForce) :
    timeInForce = .postOnly ↔ raw = "GTX" := by
  unfold parseTimeInForce at h
  split at h
  · cases h
    decide
  · cases h
    decide
  · cases h
    decide
  · cases h
    decide
  · cases h

section Decoders

variable {catalog : InstrumentCatalog} {spec : InstrumentSpec} {s : OrderState}

/-- What both decodings of the order say, up to the average price and the mark of a post-only
order. -/
def OrderState.facts (s : OrderState) (spec : InstrumentSpec) (averageFillPrice : Option ℚ)
    (postOnly : Bool) : OrderFacts where
  orderId := ⟨toString s.orderId⟩
  clientOrderId := some ⟨s.clientOrderId⟩
  instrumentId := spec.instrumentId
  side := s.side
  orderType := s.orderType
  timeInForce := some s.timeInForce
  status := s.status
  price := some s.price
  quantity := s.quantity
  filledQuantity := s.filledQuantity
  averageFillPrice := averageFillPrice
  reduceOnly := s.reduceOnly
  postOnly := postOnly
  updatedAt := s.updateTime

/-- What the answer to a request is decoded into. -/
theorem orderFromSnapshot_of_records {r : OrderSnapshot} (observedAt : TimestampMs)
    (h : r.Records s) (hspec : requireNativeSymbol .binance catalog s.symbol = .ok spec) :
    ∃ a, orderFromSnapshot catalog r observedAt = .ok a ∧
      a.facts = s.facts spec (if r.averagePrice = "0" then none else some s.averagePrice)
        (decide (s.timeInForce = .postOnly)) := by
  obtain ⟨price, hprice, hprice'⟩ := h.price
  obtain ⟨quantity, hquantity, hquantity'⟩ := h.originalQuantity
  obtain ⟨filled, hfilled, hfilled'⟩ := h.executedQuantity
  obtain ⟨average, haverage, haverage'⟩ := h.averagePrice
  have hpost : (r.timeInForce == "GTX") = decide (s.timeInForce = .postOnly) := by
    rw [beq_eq_decide]
    exact decide_eq_decide.2 (parseTimeInForce_eq_postOnly_iff h.timeInForce).symm
  have hspec' : requireNativeSymbol .binance catalog r.symbol = .ok spec := by rw [h.symbol, hspec]
  unfold orderFromSnapshot
  rw [hspec', h.side, h.orderType, h.timeInForce, h.status, hprice, hquantity, hfilled, haverage]
  by_cases hzero : r.averagePrice = "0"
  · refine ⟨_, by simp only [if_pos hzero]; rfl, ?_⟩
    simp [Order.facts, OrderState.facts, h.orderId, h.clientOrderId, h.reduceOnly, h.updateTime,
      hpost, hprice', hquantity', hfilled', hzero]
  · refine ⟨_, by simp only [if_neg hzero]; rfl, ?_⟩
    simp [Order.facts, OrderState.facts, h.orderId, h.clientOrderId, h.reduceOnly, h.updateTime,
      hpost, hprice', hquantity', hfilled', haverage', hzero]

/-- What the update of an order is decoded into. -/
theorem orderFromUpdate_of_records {r : OrderTradeData} (h : r.Records s)
    (hspec : requireNativeSymbol .binance catalog s.symbol = .ok spec) :
    ∃ a, orderFromUpdate catalog r = .ok a ∧
      a.facts = s.facts spec (r.averagePrice.map fun _ => s.averagePrice) false := by
  obtain ⟨price, hprice, hprice'⟩ := h.price
  obtain ⟨quantity, hquantity, hquantity'⟩ := h.originalQuantity
  obtain ⟨filled, hfilled, hfilled'⟩ := h.cumulativeFilledQty
  have hspec' : requireNativeSymbol .binance catalog r.symbol = .ok spec := by rw [h.symbol, hspec]
  unfold orderFromUpdate
  rw [hspec', h.side, h.orderType, h.timeInForce, h.status, hprice, hquantity, hfilled]
  cases haverage : r.averagePrice with
  | none =>
    refine ⟨_, rfl, ?_⟩
    simp [Order.facts, OrderState.facts, h.orderId, h.clientOrderId, h.reduceOnly, h.tradeTime,
      hprice', hquantity', hfilled']
  | some raw =>
    obtain ⟨average, hraw, haverage'⟩ := h.averagePrice raw haverage
    refine ⟨_, by rw [parseOptionalDecimal, Option.mapM_some, hraw]; rfl, ?_⟩
    simp [Order.facts, OrderState.facts, h.orderId, h.clientOrderId, h.reduceOnly, h.tradeTime,
      hprice', hquantity', hfilled', haverage']

/-- The last fill does not keep an update from being decoded. -/
theorem executionFromUpdate_of_records {r : OrderTradeData} (h : r.Records s) (unified : Order) :
    ∃ execution, executionFromUpdate r unified = .ok execution := by
  obtain ⟨last, hlast⟩ := h.lastFilledQty
  obtain ⟨price, hprice⟩ := h.lastFilledPrice
  obtain ⟨fee, hfee⟩ := h.commission
  unfold executionFromUpdate
  rw [hlast, h.side, hprice, hfee]
  by_cases hpos : Decimal.lt 0 last = true
  · exact ⟨_, if_pos hpos⟩
  · exact ⟨none, if_neg hpos⟩

/-- What the message about the update is decoded into. -/
theorem parsePrivate_of_records {payload : Payload} {r : OrderTradeData}
    (hpayload : parseNativePrivate payload = .ok (.orderTradeUpdate r)) (h : r.Records s)
    (hspec : requireNativeSymbol .binance catalog s.symbol = .ok spec) :
    ∃ a rest, parsePrivate catalog payload = .ok (.order a :: rest) ∧
      a.facts = s.facts spec (r.averagePrice.map fun _ => s.averagePrice) false := by
  obtain ⟨a, ha, hfacts⟩ := orderFromUpdate_of_records h hspec
  obtain ⟨execution, hexecution⟩ := executionFromUpdate_of_records h a
  refine ⟨a, (execution.map .execution).toList, ?_, hfacts⟩
  unfold parsePrivate
  rw [hpayload]
  show (do
    let unified ← orderFromUpdate catalog r
    let execution ← executionFromUpdate r unified
    return PrivateLaneEvent.order unified ::
      (execution.map PrivateLaneEvent.execution).toList) = _
  rw [ha]
  show (do
    let execution ← executionFromUpdate r a
    return PrivateLaneEvent.order a :: (execution.map PrivateLaneEvent.execution).toList) = _
  rw [hexecution]
  rfl

/-- **When the two decoders agree.**  The answer to a request for an order and the update of it on
the stream give the same order exactly when it is not post-only and the answer writes the average
price as `0` when the update has none, and only then; of an unknown symbol they both refuse it. -/
theorem decoders_agree_iff {payload : Payload} {snapshot : OrderSnapshot} {update : OrderTradeData}
    {observedAt : TimestampMs} (hsnapshot : snapshot.Records s)
    (hpayload : parseNativePrivate payload = .ok (.orderTradeUpdate update))
    (hupdate : update.Records s) :
    DecodersAgree (orderFromSnapshot catalog snapshot observedAt) (parsePrivate catalog payload) ↔
      ((requireNativeSymbol .binance catalog s.symbol).isOk = true →
        s.timeInForce ≠ .postOnly ∧
          (snapshot.averagePrice = "0" ↔ update.averagePrice = none)) := by
  cases hspec : requireNativeSymbol .binance catalog s.symbol with
  | error e =>
    have hrest : orderFromSnapshot catalog snapshot observedAt = .error e := by
      unfold orderFromSnapshot
      rw [hsnapshot.symbol, hspec]
      rfl
    have hstream : parsePrivate catalog payload = .error e := by
      unfold parsePrivate
      rw [hpayload]
      show (orderFromUpdate catalog update >>= _) = _
      unfold orderFromUpdate
      rw [hupdate.symbol, hspec]
      rfl
    rw [hrest, hstream]
    exact iff_of_true trivial fun h => by cases h
  | ok spec =>
    obtain ⟨a, ha, hfacts⟩ := orderFromSnapshot_of_records observedAt hsnapshot hspec
    obtain ⟨b, rest, hb, hfacts'⟩ := parsePrivate_of_records hpayload hupdate hspec
    have hfactsIff : a.facts = b.facts ↔ s.timeInForce ≠ .postOnly ∧
        (snapshot.averagePrice = "0" ↔ update.averagePrice = none) := by
      rw [hfacts, hfacts']
      simp only [OrderState.facts, OrderFacts.mk.injEq, true_and, and_true, decide_eq_false_iff_not]
      rw [and_comm]
      refine and_congr_right' ?_
      cases update.averagePrice with
      | none => simp
      | some raw => simp
    rw [ha, hb]
    exact hfactsIff.trans ⟨fun h _ => h, fun h => h rfl⟩

end Decoders

/-! ### An order to buy BTC -/

/-- The order is new, at a price of 65000, and nothing of it is filled. -/
def buyOrder (timeInForce : TimeInForce) : OrderState where
  symbol := "BTCUSDT"
  orderId := 7
  clientOrderId := "c"
  side := .buy
  orderType := .limit
  timeInForce := timeInForce
  status := .new
  price := 65000
  quantity := 1
  filledQuantity := 0
  averagePrice := 0
  reduceOnly := false
  updateTime := 5

/-- The answer to a request for the order. -/
def buySnapshot (timeInForce averagePrice : String) : OrderSnapshot where
  symbol := "BTCUSDT"
  orderId := 7
  clientOrderId := "c"
  side := "BUY"
  orderType := "LIMIT"
  timeInForce := timeInForce
  status := "NEW"
  price := "65000"
  originalQuantity := "1"
  executedQuantity := "0"
  averagePrice := averagePrice
  reduceOnly := false
  updateTime := 5
  createdTime := some 4

/-- The update of the order. -/
def buyUpdate (timeInForce averagePrice : String) : OrderTradeData where
  symbol := "BTCUSDT"
  clientOrderId := "c"
  side := "BUY"
  orderType := "LIMIT"
  timeInForce := timeInForce
  originalQuantity := "1"
  price := "65000"
  averagePrice := some averagePrice
  executionType := "NEW"
  orderStatus := "NEW"
  orderId := 7
  lastFilledQty := "0"
  cumulativeFilledQty := "0"
  lastFilledPrice := "0"
  commission := none
  commissionAsset := none
  tradeTime := 5
  tradeId := none
  reduceOnly := false
  orderTradeTime := none

/-- The message about the update. -/
def buyMessage (timeInForce averagePrice : String) : Payload :=
  .json (.object [("e", .string "ORDER_TRADE_UPDATE"), ("o", .object [("s", .string "BTCUSDT"),
    ("c", .string "c"), ("S", .string "BUY"), ("o", .string "LIMIT"), ("f", .string timeInForce),
    ("q", .string "1"), ("p", .string "65000"), ("ap", .string averagePrice),
    ("x", .string "NEW"), ("X", .string "NEW"), ("i", .integer 7), ("l", .string "0"),
    ("z", .string "0"), ("L", .string "0"), ("T", .integer 5), ("R", .bool false)])])

theorem parseNativePrivate_buyMessage (timeInForce averagePrice : String) :
    parseNativePrivate (buyMessage timeInForce averagePrice) =
      .ok (.orderTradeUpdate (buyUpdate timeInForce averagePrice)) := rfl

/-- A text that is read as a whole number spells it. -/
theorem spells_of_fromStr {raw : String} {d : Decimal} (h : Decimal.fromStr raw = .ok d) :
    Spells raw d.toRat := ⟨d, by rw [parseDecimal, parseDecimalOf, h]; rfl, rfl⟩

theorem spells_zero : Spells "0" 0 := by
  have h : Decimal.fromStr "0" = .ok (.ofNat 0) := by decide +kernel
  simpa [Decimal.toRat, Decimal.ofNat] using spells_of_fromStr h

theorem spells_one : Spells "1" 1 := by
  have h : Decimal.fromStr "1" = .ok (.ofNat 1) := by decide +kernel
  simpa [Decimal.toRat, Decimal.ofNat] using spells_of_fromStr h

theorem spells_price : Spells "65000" 65000 := by
  have h : Decimal.fromStr "65000" = .ok (.ofNat 65000) := by decide +kernel
  simpa [Decimal.toRat, Decimal.ofNat] using spells_of_fromStr h

theorem buySnapshot_records {raw averagePrice : String} {timeInForce : TimeInForce}
    (htime : parseTimeInForce raw = .ok timeInForce) (haverage : Spells averagePrice 0) :
    (buySnapshot raw averagePrice).Records (buyOrder timeInForce) where
  symbol := rfl
  orderId := rfl
  clientOrderId := rfl
  side := rfl
  orderType := rfl
  timeInForce := htime
  status := rfl
  price := spells_price
  originalQuantity := spells_one
  executedQuantity := spells_zero
  averagePrice := haverage
  reduceOnly := rfl
  updateTime := rfl

theorem buyUpdate_records {raw averagePrice : String} {timeInForce : TimeInForce}
    (htime : parseTimeInForce raw = .ok timeInForce) (haverage : Spells averagePrice 0) :
    (buyUpdate raw averagePrice).Records (buyOrder timeInForce) where
  symbol := rfl
  orderId := rfl
  clientOrderId := rfl
  side := rfl
  orderType := rfl
  timeInForce := htime
  status := rfl
  price := spells_price
  originalQuantity := spells_one
  cumulativeFilledQty := spells_zero
  averagePrice := fun _ h => Option.some.inj h ▸ haverage
  noAveragePrice := fun h => by cases h
  reduceOnly := rfl
  tradeTime := rfl
  lastFilledQty := spells_zero.imp fun _ h => h.1
  lastFilledPrice := spells_zero.imp fun _ h => h.1
  commission := ⟨none, rfl⟩

/-- An order that is good till canceled, with an average price of `0.0`. -/
theorem decoders_agree_iff_gtc :
    DecodersAgree
      (orderFromSnapshot (.new [.active .binance "BTC/USDT:USDT" "BTCUSDT" 2 3])
        (buySnapshot "GTC" "0.0") 9)
      (parsePrivate (.new [.active .binance "BTC/USDT:USDT" "BTCUSDT" 2 3])
        (buyMessage "GTC" "0.0")) := by
  have hread : Decimal.fromStr "0.0" = .ok ⟨0, 1, by decide, by decide⟩ := by decide +kernel
  have hzero : Spells "0.0" 0 := by
    simpa [Decimal.toRat] using spells_of_fromStr hread
  exact (decoders_agree_iff (s := buyOrder .gtc) (buySnapshot_records rfl hzero)
    (parseNativePrivate_buyMessage "GTC" "0.0") (buyUpdate_records rfl hzero)).2 fun _ => by decide

/-- The mark of a post-only order is lost on the stream. -/
theorem post_only_lost_on_stream :
    ¬ ∀ (catalog : InstrumentCatalog) (s : OrderState) (payload : Payload)
      (snapshot : OrderSnapshot) (update : OrderTradeData) (observedAt : TimestampMs),
      snapshot.Records s → parseNativePrivate payload = .ok (.orderTradeUpdate update) →
      update.Records s → DecodersAgree (orderFromSnapshot catalog snapshot observedAt)
        (parsePrivate catalog payload) := by
  intro h
  have hagree := h (.new [.active .binance "BTC/USDT:USDT" "BTCUSDT" 2 3]) (buyOrder .postOnly)
    (buyMessage "GTX" "0") (buySnapshot "GTX" "0") (buyUpdate "GTX" "0") 9
    (buySnapshot_records rfl spells_zero) (parseNativePrivate_buyMessage "GTX" "0")
    (buyUpdate_records rfl spells_zero)
  have hpost := congrArg OrderFacts.postOnly hagree
  cases hpost

end Binance

end BatMarkets
