import BatMarkets.Adapter.PublicTrades
import BatMarkets.Runtime.Shared

/-!
# The public stream of Binance

The messages of the public websocket (`native.rs` of the Binance adapter) and the events they are
parsed into (`parse_public`).  The field `e` of a message names its kind.  A message is first read
as the open interest of an instrument, whatever its kind.

The adapter and the engine have tables of instruments of their own.  A message about a symbol that
the adapter does not know is refused; what is accepted is about an instrument of its table, so an
engine that has the instruments of the adapter applies it.

## Main results

* `Binance.resolves_of_parsePublic` : a message that is parsed names no unknown instrument.
* `Binance.applies_parsePublic` : what is parsed is applied as a whole and published, unless a value
  cannot be converted.
-/

namespace BatMarkets

open Ordered Wire

namespace Binance

/-! ### Messages -/

/-- The reply about open interest, which has no kind. -/
structure OpenInterestSnapshot where
  symbol : String
  openInterest : String
  time : TimestampMs

/-- A ticker of the last day. -/
structure TickerEvent where
  eventTime : TimestampMs
  symbol : String
  lastPrice : String
  volume24h : String
  quoteVolume24h : String

/-- The best bid and ask. -/
structure BookTickerEvent where
  transactionTime : TimestampMs
  symbol : String
  bestBidPrice : String
  bestBidQty : String
  bestAskPrice : String
  bestAskQty : String

/-- A change of the book, with the ids of its first and last update. -/
structure DepthEvent where
  eventTime : TimestampMs
  symbol : String
  firstUpdateId : Int64
  finalUpdateId : Int64
  previousFinalUpdateId : Option Int64
  bids : List (String × String)
  asks : List (String × String)

/-- The candle in a message. -/
structure KlineData where
  interval : String
  openTime : TimestampMs
  closeTime : TimestampMs
  openPrice : String
  high : String
  low : String
  close : String
  volume : String
  closed : Bool

/-- A message about a candle. -/
structure KlineEvent where
  eventTime : TimestampMs
  symbol : String
  kline : KlineData

/-- A mark price, with the funding rate. -/
structure MarkPriceEvent where
  eventTime : TimestampMs
  symbol : String
  markPrice : String
  fundingRate : String

/-- A forced order. -/
structure ForceOrderData where
  symbol : String
  side : String
  quantity : String
  price : String
  averagePrice : String
  cumulativeFilledQty : String
  tradeTime : TimestampMs

/-- A message about a forced order. -/
structure ForceOrderEvent where
  eventTime : TimestampMs
  order : ForceOrderData

/-- A message of the public streams. -/
inductive PublicMessage
  | ticker (event : TickerEvent)
  | aggTrade (event : AggTradeEvent)
  | bookTicker (event : BookTickerEvent)
  | depth (event : DepthEvent)
  | kline (event : KlineEvent)
  | markPrice (event : MarkPriceEvent)
  | forceOrder (event : ForceOrderEvent)

/-- All fields of the open interest are required. -/
def OpenInterestSnapshot.read (value : Json) : Option OpenInterestSnapshot := do
  let fields ← value.record ["symbol", "openInterest", "time"]
  return {
    symbol := ← Json.required fields "symbol" Json.asStr
    openInterest := ← Json.required fields "openInterest" Json.asStr
    time := ← Json.required fields "time" Json.asInt64 }

/-- All fields of a ticker are required. -/
def TickerEvent.read (value : Json) : Option TickerEvent := do
  let fields ← value.record ["E", "s", "c", "v", "q"]
  return {
    eventTime := ← Json.required fields "E" Json.asInt64
    symbol := ← Json.required fields "s" Json.asStr
    lastPrice := ← Json.required fields "c" Json.asStr
    volume24h := ← Json.required fields "v" Json.asStr
    quoteVolume24h := ← Json.required fields "q" Json.asStr }

/-- All fields of the best bid and ask are required. -/
def BookTickerEvent.read (value : Json) : Option BookTickerEvent := do
  let fields ← value.record ["T", "s", "b", "B", "a", "A"]
  return {
    transactionTime := ← Json.required fields "T" Json.asInt64
    symbol := ← Json.required fields "s" Json.asStr
    bestBidPrice := ← Json.required fields "b" Json.asStr
    bestBidQty := ← Json.required fields "B" Json.asStr
    bestAskPrice := ← Json.required fields "a" Json.asStr
    bestAskQty := ← Json.required fields "A" Json.asStr }

/-- Only the id of the update before may be missing. -/
def DepthEvent.read (value : Json) : Option DepthEvent := do
  let fields ← value.record ["E", "s", "U", "u", "pu", "b", "a"]
  return {
    eventTime := ← Json.required fields "E" Json.asInt64
    symbol := ← Json.required fields "s" Json.asStr
    firstUpdateId := ← Json.required fields "U" Json.asInt64
    finalUpdateId := ← Json.required fields "u" Json.asInt64
    previousFinalUpdateId := ← Json.optional fields "pu" Json.asInt64
    bids := ← Json.required fields "b" (Json.each Json.asPair)
    asks := ← Json.required fields "a" (Json.each Json.asPair) }

/-- All fields of a candle are required. -/
def KlineData.read (value : Json) : Option KlineData := do
  let fields ← value.record ["i", "t", "T", "o", "h", "l", "c", "v", "x"]
  return {
    interval := ← Json.required fields "i" Json.asStr
    openTime := ← Json.required fields "t" Json.asInt64
    closeTime := ← Json.required fields "T" Json.asInt64
    openPrice := ← Json.required fields "o" Json.asStr
    high := ← Json.required fields "h" Json.asStr
    low := ← Json.required fields "l" Json.asStr
    close := ← Json.required fields "c" Json.asStr
    volume := ← Json.required fields "v" Json.asStr
    closed := ← Json.required fields "x" Json.asBool }

/-- The candle is below the key `k`. -/
def KlineEvent.read (value : Json) : Option KlineEvent := do
  let fields ← value.record ["E", "s", "k"]
  return {
    eventTime := ← Json.required fields "E" Json.asInt64
    symbol := ← Json.required fields "s" Json.asStr
    kline := ← Json.required fields "k" KlineData.read }

/-- All fields of a mark price are required. -/
def MarkPriceEvent.read (value : Json) : Option MarkPriceEvent := do
  let fields ← value.record ["E", "s", "p", "r"]
  return {
    eventTime := ← Json.required fields "E" Json.asInt64
    symbol := ← Json.required fields "s" Json.asStr
    markPrice := ← Json.required fields "p" Json.asStr
    fundingRate := ← Json.required fields "r" Json.asStr }

/-- All fields of a forced order are required. -/
def ForceOrderData.read (value : Json) : Option ForceOrderData := do
  let fields ← value.record ["s", "S", "q", "p", "ap", "z", "T"]
  return {
    symbol := ← Json.required fields "s" Json.asStr
    side := ← Json.required fields "S" Json.asStr
    quantity := ← Json.required fields "q" Json.asStr
    price := ← Json.required fields "p" Json.asStr
    averagePrice := ← Json.required fields "ap" Json.asStr
    cumulativeFilledQty := ← Json.required fields "z" Json.asStr
    tradeTime := ← Json.required fields "T" Json.asInt64 }

/-- The forced order is below the key `o`. -/
def ForceOrderEvent.read (value : Json) : Option ForceOrderEvent := do
  let fields ← value.record ["E", "o"]
  return {
    eventTime := ← Json.required fields "E" Json.asInt64
    order := ← Json.required fields "o" ForceOrderData.read }

/-- The field `e` names the kind of a message; other kinds cannot be read. -/
def PublicMessage.read (value : Json) : Option PublicMessage := do
  let (tag, rest) ← value.tagged "e"
  match tag with
  | "24hrTicker" => .ticker <$> TickerEvent.read rest
  | "aggTrade" => .aggTrade <$> AggTradeEvent.read rest
  | "bookTicker" => .bookTicker <$> BookTickerEvent.read rest
  | "depthUpdate" => .depth <$> DepthEvent.read rest
  | "kline" => .kline <$> KlineEvent.read rest
  | "markPriceUpdate" => .markPrice <$> MarkPriceEvent.read rest
  | "forceOrder" => .forceOrder <$> ForceOrderEvent.read rest
  | _ => none

/-- The message, or an error that names the venue. -/
def parseNativePublic (payload : Payload) : Except MarketError PublicMessage :=
  match payload.value?.bind PublicMessage.read with
  | some message => .ok message
  | none => .error <| ((decodeFailure "failed to parse binance public payload").withVenue
      .binance .linearUsdt).withOperation "binance.parse_native_public"

/-! ### Events -/

/-- A price in the units of the instrument. -/
def quantizePrice (spec : InstrumentSpec) (raw : String) : Except MarketError FastPrice := do
  (⟨← parseDecimal raw⟩ : Price).quantize spec.priceScale

/-- A quantity in the units of the instrument. -/
def quantizeQuantity (spec : InstrumentSpec) (raw : String) : Except MarketError FastQuantity := do
  (⟨← parseDecimal raw⟩ : Quantity).quantize spec.qtyScale

/-- A notional in the units of the quote asset, and none if it does not fit. -/
def quantizeOptionalNotional (value : Decimal) (scale : ℕ) : Option FastNotional :=
  ((⟨value⟩ : Notional).quantize scale).toOption

/-- Open interest keeps its decimal. -/
def openInterestEvent (catalog : InstrumentCatalog) (snapshot : OpenInterestSnapshot) :
    Except MarketError OpenInterest := do
  let spec ← requireNativeSymbol .binance catalog snapshot.symbol
  let value ← parseDecimal snapshot.openInterest
  return { instrumentId := spec.instrumentId, value := ⟨value⟩, eventTime := snapshot.time }

/-- A ticker in the units of the instrument; a turnover that does not fit is dropped. -/
def fastTicker (catalog : InstrumentCatalog) (event : TickerEvent) :
    Except MarketError FastTicker := do
  let spec ← requireNativeSymbol .binance catalog event.symbol
  let lastPrice ← quantizePrice spec event.lastPrice
  let volume24h ← quantizeQuantity spec event.volume24h
  let quoteVolume24h ← parseDecimal event.quoteVolume24h
  return {
    instrumentId := spec.instrumentId, lastPrice
    markPrice := none
    indexPrice := none
    volume24h := some volume24h
    turnover24h := quantizeOptionalNotional quoteVolume24h spec.quoteScale
    eventTime := event.eventTime }

/-- The best bid and ask in the units of the instrument. -/
def fastBookTop (catalog : InstrumentCatalog) (event : BookTickerEvent) :
    Except MarketError FastBookTop := do
  let spec ← requireNativeSymbol .binance catalog event.symbol
  let bidPrice ← quantizePrice spec event.bestBidPrice
  let bidQuantity ← quantizeQuantity spec event.bestBidQty
  let askPrice ← quantizePrice spec event.bestAskPrice
  let askQuantity ← quantizeQuantity spec event.bestAskQty
  return {
    instrumentId := spec.instrumentId, bidPrice, bidQuantity, askPrice, askQuantity
    eventTime := event.transactionTime }

/-- A level of the book in the units of the instrument. -/
def fastLevel (spec : InstrumentSpec) (level : String × String) :
    Except MarketError (FastPrice × FastQuantity) := do
  return (← quantizePrice spec level.1, ← quantizeQuantity spec level.2)

/-- The first level of a side. -/
def firstLevel (side : String) : List (String × String) → Except MarketError (String × String)
  | level :: _ => .ok level
  | [] => .error (decodeFailure ("missing binance best " ++ side))

/-- A change of the book is two events: its first levels are the best ones. -/
def depthEvents (catalog : InstrumentCatalog) (event : DepthEvent) :
    Except MarketError (List PublicLaneEvent) := do
  let spec ← requireNativeSymbol .binance catalog event.symbol
  let bestBid ← firstLevel "bid" event.bids
  let bestAsk ← firstLevel "ask" event.asks
  let (bidPrice, bidQuantity) ← fastLevel spec bestBid
  let (askPrice, askQuantity) ← fastLevel spec bestAsk
  let bids ← event.bids.mapM (fastLevel spec)
  let asks ← event.asks.mapM (fastLevel spec)
  return [.bookTop {
      instrumentId := spec.instrumentId, bidPrice, bidQuantity, askPrice, askQuantity
      eventTime := event.eventTime },
    .orderBookDelta {
      instrumentId := spec.instrumentId, bids, asks, eventTime := event.eventTime }]

/-- A candle in the units of the instrument. -/
def fastKline (catalog : InstrumentCatalog) (event : KlineEvent) :
    Except MarketError FastKline := do
  let spec ← requireNativeSymbol .binance catalog event.symbol
  let openPrice ← quantizePrice spec event.kline.openPrice
  let high ← quantizePrice spec event.kline.high
  let low ← quantizePrice spec event.kline.low
  let close ← quantizePrice spec event.kline.close
  let volume ← quantizeQuantity spec event.kline.volume
  return {
    instrumentId := spec.instrumentId, interval := event.kline.interval, openPrice, high, low,
    close, volume, openTime := event.kline.openTime, closeTime := event.kline.closeTime
    closed := event.kline.closed }

/-- A mark price is two events, the second for the funding rate. -/
def markPriceEvents (catalog : InstrumentCatalog) (event : MarkPriceEvent) :
    Except MarketError (List PublicLaneEvent) := do
  let spec ← requireNativeSymbol .binance catalog event.symbol
  let price ← quantizePrice spec event.markPrice
  let fundingRate ← parseDecimal event.fundingRate
  let markPrice ← parseDecimal event.markPrice
  return [.markPrice {
      instrumentId := spec.instrumentId, price, fundingRate := some ⟨fundingRate⟩
      eventTime := event.eventTime },
    .fundingRate {
      instrumentId := spec.instrumentId, value := ⟨fundingRate⟩, markPrice := some ⟨markPrice⟩
      eventTime := event.eventTime }]

/-- A forced order in the units of the instrument; it prefers what has been executed of it. -/
def fastLiquidation (catalog : InstrumentCatalog) (event : ForceOrderEvent) :
    Except MarketError FastLiquidation := do
  let spec ← requireNativeSymbol .binance catalog event.order.symbol
  let quantityRaw := if event.order.cumulativeFilledQty.isEmpty then event.order.quantity
    else event.order.cumulativeFilledQty
  let priceRaw := if event.order.averagePrice == "0" then event.order.price
    else event.order.averagePrice
  let side ← parseSide event.order.side
  let price ← quantizePrice spec priceRaw
  let quantity ← quantizeQuantity spec quantityRaw
  return {
    instrumentId := spec.instrumentId, side, price, quantity
    eventTime := max event.order.tradeTime event.eventTime }

/-- The events in a message of the public streams. -/
def parsePublic (catalog : InstrumentCatalog) (payload : Payload) :
    Except MarketError (List PublicLaneEvent) :=
  match payload.value?.bind OpenInterestSnapshot.read with
  | some snapshot => do return [.openInterest (← openInterestEvent catalog snapshot)]
  | none => do
    match ← parseNativePublic payload with
    | .ticker event => return [.ticker (← fastTicker catalog event)]
    | .aggTrade event => return [.trade (← fastTrade catalog event)]
    | .bookTicker event => return [.bookTop (← fastBookTop catalog event)]
    | .depth event => depthEvents catalog event
    | .kline event => return [.kline (← fastKline catalog event)]
    | .markPrice event => markPriceEvents catalog event
    | .forceOrder event => return [.liquidation (← fastLiquidation catalog event)]

/-! ### What is parsed -/

section Parsed

variable {catalog : InstrumentCatalog}

/-- A decoder that asks for the symbol first goes on with a listed specification. -/
theorem listed_of_require {α : Type} {symbol : String} {f : InstrumentSpec → Except MarketError α}
    {a : α} (h : (requireNativeSymbol .binance catalog symbol >>= f) = .ok a) :
    ∃ spec, (catalog.get spec.instrumentId).isSome ∧ f spec = .ok a := by
  obtain ⟨spec, hspec, ha⟩ := except_bind_eq_ok.1 h
  have hget := get_of_resolveNativeSymbol (resolves_of_requireNativeSymbol hspec)
  exact ⟨spec, by rw [hget]; rfl, ha⟩

theorem listed_fastTicker {event : TickerEvent} {ticker : FastTicker}
    (h : fastTicker catalog event = .ok ticker) : (catalog.get ticker.instrumentId).isSome := by
  obtain ⟨spec, hlisted, h⟩ := listed_of_require h
  simp only [except_bind_eq_ok] at h
  obtain ⟨_, -, _, -, _, -, h⟩ := h
  cases h
  exact hlisted

theorem listed_fastTrade {event : AggTradeEvent} {trade : FastTrade}
    (h : fastTrade catalog event = .ok trade) : (catalog.get trade.instrumentId).isSome := by
  obtain ⟨spec, hlisted, h⟩ := listed_of_require h
  simp only [except_bind_eq_ok] at h
  obtain ⟨_, -, _, -, _, -, _, -, h⟩ := h
  cases h
  exact hlisted

theorem listed_fastBookTop {event : BookTickerEvent} {bookTop : FastBookTop}
    (h : fastBookTop catalog event = .ok bookTop) :
    (catalog.get bookTop.instrumentId).isSome := by
  obtain ⟨spec, hlisted, h⟩ := listed_of_require h
  simp only [except_bind_eq_ok] at h
  obtain ⟨_, -, _, -, _, -, _, -, h⟩ := h
  cases h
  exact hlisted

theorem listed_fastKline {event : KlineEvent} {kline : FastKline}
    (h : fastKline catalog event = .ok kline) : (catalog.get kline.instrumentId).isSome := by
  obtain ⟨spec, hlisted, h⟩ := listed_of_require h
  simp only [except_bind_eq_ok] at h
  obtain ⟨_, -, _, -, _, -, _, -, _, -, h⟩ := h
  cases h
  exact hlisted

theorem listed_fastLiquidation {event : ForceOrderEvent} {liquidation : FastLiquidation}
    (h : fastLiquidation catalog event = .ok liquidation) :
    (catalog.get liquidation.instrumentId).isSome := by
  obtain ⟨spec, hlisted, h⟩ := listed_of_require h
  simp only [except_bind_eq_ok] at h
  obtain ⟨_, -, _, -, _, -, h⟩ := h
  cases h
  exact hlisted

/-- All events of a message are about listed instruments, as far as it matters. -/
def Listed (catalog : InstrumentCatalog) (events : List PublicLaneEvent) : Prop :=
  ∀ event ∈ events, ∀ id, falliblePublicEventInstrumentId event = some id → (catalog.get id).isSome

theorem listed_singleton {event : PublicLaneEvent} {id : InstrumentId}
    (hid : falliblePublicEventInstrumentId event = some id) (hlisted : (catalog.get id).isSome) :
    Listed catalog [event] := by
  refine List.forall_mem_singleton.2 fun id' hid' => ?_
  rwa [← Option.some.inj (hid.symm.trans hid')]

/-- The first of two events decides when the second cannot be refused. -/
theorem listed_pair {event other : PublicLaneEvent} {id : InstrumentId}
    (hid : falliblePublicEventInstrumentId event = some id) (hlisted : (catalog.get id).isSome)
    (hother : falliblePublicEventInstrumentId other = none) : Listed catalog [event, other] := by
  refine List.forall_mem_cons.2 ⟨listed_singleton hid hlisted event (List.mem_singleton_self _), ?_⟩
  refine List.forall_mem_singleton.2 fun id' hid' => ?_
  rw [hother] at hid'
  cases hid'

theorem listed_depthEvents {event : DepthEvent} {events : List PublicLaneEvent}
    (h : depthEvents catalog event = .ok events) : Listed catalog events := by
  obtain ⟨spec, hlisted, h⟩ := listed_of_require h
  simp only [except_bind_eq_ok] at h
  obtain ⟨_, -, _, -, _, -, _, -, _, -, _, -, h⟩ := h
  cases h
  exact listed_pair rfl hlisted rfl

theorem listed_markPriceEvents {event : MarkPriceEvent} {events : List PublicLaneEvent}
    (h : markPriceEvents catalog event = .ok events) : Listed catalog events := by
  obtain ⟨spec, hlisted, h⟩ := listed_of_require h
  simp only [except_bind_eq_ok] at h
  obtain ⟨_, -, _, -, _, -, h⟩ := h
  cases h
  exact listed_pair rfl hlisted rfl

/-- **A message that is parsed names no unknown instrument.** -/
theorem resolves_of_parsePublic {payload : Payload} {events : List PublicLaneEvent}
    (h : parsePublic catalog payload = .ok events) : Listed catalog events := by
  unfold parsePublic at h
  split at h
  · -- the open interest is stored for any instrument
    obtain ⟨_, -, h⟩ := except_bind_eq_ok.1 h
    cases h
    exact List.forall_mem_singleton.2 nofun
  · obtain ⟨message, -, h⟩ := except_bind_eq_ok.1 h
    cases message with
    | ticker event =>
      obtain ⟨ticker, hticker, h⟩ := except_bind_eq_ok.1 h
      cases h
      exact listed_singleton rfl (listed_fastTicker hticker)
    | aggTrade event =>
      obtain ⟨trade, htrade, h⟩ := except_bind_eq_ok.1 h
      cases h
      exact listed_singleton rfl (listed_fastTrade htrade)
    | bookTicker event =>
      obtain ⟨bookTop, hbookTop, h⟩ := except_bind_eq_ok.1 h
      cases h
      exact listed_singleton rfl (listed_fastBookTop hbookTop)
    | depth event => exact listed_depthEvents h
    | kline event =>
      obtain ⟨kline, hkline, h⟩ := except_bind_eq_ok.1 h
      cases h
      exact listed_singleton rfl (listed_fastKline hkline)
    | markPrice event => exact listed_markPriceEvents h
    | forceOrder event =>
      obtain ⟨liquidation, hliquidation, h⟩ := except_bind_eq_ok.1 h
      cases h
      exact listed_singleton rfl (listed_fastLiquidation hliquidation)

/-- **What is parsed is applied.**  An engine that has the instruments of the adapter never returns
an error for the events of a message: it applies them one after the other, and exactly they are
published, unless a value cannot be converted and the call panics. -/
theorem applies_parsePublic {payload : Payload} {events : List PublicLaneEvent} {w : SharedState}
    (hinstruments : ∀ id, (catalog.get id).isSome → id ∈ w.state.instruments)
    (hparse : parsePublic catalog payload = .ok events) :
    let fold := (forM events EngineState.applyPublicEvent).run w.state
    let out := (applyPublicEvents events).exec SharedState.reply w
    (out.1 = .ok () ∨ out.1 = .error .panic) ∧ out.1 = resultOf fold ∧
      out.2.state = stateAfter fold ∧
        out.2.publicEvents = w.publicEvents ++ if out.1 = .ok () then events else [] := by
  have hknown : ∀ event ∈ events, ¬ event.NamesUnknown w.state := by
    intro event hevent hunknown
    obtain ⟨id, hid, hmissing⟩ := namesUnknown_iff_fallible.1 hunknown
    exact hmissing (hinstruments id (resolves_of_parsePublic hparse event hevent id hid))
  have hrun := exec_applyPublicEvents_of_known hknown
  refine ⟨?_, hrun⟩
  have hpanics := onlyPanics_forM_applyPublicEvent hknown
  rw [hrun.1]
  cases hfold : resultOf ((forM events EngineState.applyPublicEvent).run w.state) with
  | ok u => exact .inl rfl
  | error failure =>
    cases failure with
    | panic => exact .inr rfl
    | error e => exact absurd hfold (hpanics e)

end Parsed

/-- A ticker message. -/
def tickerMessage : Payload :=
  .json (.object [("e", .string "24hrTicker"), ("E", .integer 5), ("s", .string "BTCUSDT"),
    ("c", .string "70000.5"), ("v", .string "12.25"), ("q", .string "857506.125")])

/-- BTC at Binance. -/
def btcusdt : InstrumentSpec := .active .binance "BTC/USDT:USDT" "BTCUSDT" 1 2

/-- An engine with the instrument of the adapter. -/
def listedEngine : SharedState where
  state := .new .binance .linearUsdt ⟨16, 16⟩ [btcusdt]
  healthWatch := (EngineState.new .binance .linearUsdt ⟨16, 16⟩ [btcusdt]).health

theorem applies_parsePublic_ticker :
    ∃ events, parsePublic (.new [btcusdt]) tickerMessage = .ok events ∧ events.length = 1 ∧
      ((applyPublicEvents events).exec SharedState.reply listedEngine).2.publicEvents = events := by
  have hparsed : (parsePublic (.new [btcusdt]) tickerMessage).toOption.any (fun events =>
      events.length == 1 &&
        ((applyPublicEvents events).exec SharedState.reply listedEngine).1.isOk) = true := by
    decide +kernel
  cases hparse : parsePublic (.new [btcusdt]) tickerMessage with
  | error e =>
    rw [hparse] at hparsed
    cases hparsed
  | ok events =>
    rw [hparse] at hparsed
    obtain ⟨hlength, hok⟩ := Bool.and_eq_true_iff.1 hparsed
    refine ⟨events, rfl, by simpa using hlength, ?_⟩
    have hinstruments : ∀ id, ((InstrumentCatalog.new [btcusdt]).get id).isSome →
        id ∈ listedEngine.state.instruments :=
      fun id hid => Index.mem_iff.2 (Option.isSome_iff_exists.1 hid)
    obtain ⟨hresult, -, -, hpublished⟩ := applies_parsePublic hinstruments hparse
    rw [hpublished, if_pos]
    · rfl
    · refine hresult.resolve_right fun hpanic => ?_
      rw [hpanic] at hok
      cases hok

end Binance

end BatMarkets
