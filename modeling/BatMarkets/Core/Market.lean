import BatMarkets.Core.Numeric
import BatMarkets.Ordered.Map

/-!
# Instruments and market data

The instrument table (`instrument.rs`) and the market events of the public lane (`market.rs`,
`execution.rs`).  A fast event carries its prices and quantities as numbers of units; its
`toUnified` looks the size of the unit up in the specification it is given.  `Decimal.new` panics
for a scale above 28, and so does every `toUnified`.
-/

namespace BatMarkets

/-! ### Instruments -/

/-- Lifecycle status for the instrument. -/
inductive InstrumentStatus
  | active
  | halted
  | settled
  deriving DecidableEq, Repr

/-- Coarse support flags for a single instrument. -/
structure InstrumentSupport where
  publicStreams : Bool
  privateTrading : Bool
  leverageSet : Bool
  marginModeSet : Bool
  fundingRate : Bool
  openInterest : Bool
  deriving DecidableEq, Repr

/-- Canonical specification used by normalization and validation. -/
structure InstrumentSpec where
  venue : Venue
  product : Product
  marketType : MarketType
  instrumentId : InstrumentId
  canonicalSymbol : String
  nativeSymbol : String
  base : AssetCode
  quote : AssetCode
  settle : AssetCode
  contractSize : Quantity
  tickSize : Price
  stepSize : Quantity
  minQty : Quantity
  minNotional : Notional
  priceScale : Nat
  qtyScale : Nat
  quoteScale : Nat
  maxLeverage : Option Leverage
  support : InstrumentSupport
  status : InstrumentStatus
  deriving DecidableEq, Repr

/-- An active instrument with the given scales.  Concrete runs are about instruments of this
kind. -/
def InstrumentSpec.active (venue : Venue) (instrumentId nativeSymbol : String)
    (priceScale qtyScale : Nat) : InstrumentSpec where
  venue := venue
  product := .linearUsdt
  marketType := .linearPerpetual
  instrumentId := ⟨instrumentId⟩
  canonicalSymbol := instrumentId
  nativeSymbol := nativeSymbol
  base := ⟨"BASE"⟩
  quote := ⟨"USDT"⟩
  settle := ⟨"USDT"⟩
  contractSize := ⟨.ofNat 1 Decimal.one_fits⟩
  tickSize := ⟨.ofNat 1 Decimal.one_fits⟩
  stepSize := ⟨.ofNat 1 Decimal.one_fits⟩
  minQty := ⟨.ofNat 1 Decimal.one_fits⟩
  minNotional := ⟨.ofNat 1 Decimal.one_fits⟩
  priceScale := priceScale
  qtyScale := qtyScale
  quoteScale := 2
  maxLeverage := none
  support := ⟨true, true, true, true, true, true⟩
  status := .active

/-- A price at the scale of the instrument. -/
def InstrumentSpec.priceFromFast (spec : InstrumentSpec) (value : FastPrice) :
    Except Failure Price :=
  value.toPrice spec.priceScale

/-- A quantity at the scale of the instrument. -/
def InstrumentSpec.quantityFromFast (spec : InstrumentSpec) (value : FastQuantity) :
    Except Failure Quantity :=
  value.toQuantity spec.qtyScale

/-! ### Fast events -/

/-- Fast normalized ticker snapshot. -/
structure FastTicker where
  instrumentId : InstrumentId
  lastPrice : FastPrice
  markPrice : Option FastPrice
  indexPrice : Option FastPrice
  volume24h : Option FastQuantity
  turnover24h : Option FastNotional
  eventTime : TimestampMs
  deriving DecidableEq, Repr

/-- Fast normalized trade snapshot. -/
structure FastTrade where
  instrumentId : InstrumentId
  tradeId : TradeId
  price : FastPrice
  quantity : FastQuantity
  aggressorSide : AggressorSide
  eventTime : TimestampMs
  deriving DecidableEq, Repr

/-- Fast normalized top-of-book snapshot. -/
structure FastBookTop where
  instrumentId : InstrumentId
  bidPrice : FastPrice
  bidQuantity : FastQuantity
  askPrice : FastPrice
  askQuantity : FastQuantity
  eventTime : TimestampMs
  deriving DecidableEq, Repr

/-- Fast normalized order-book delta. -/
structure FastOrderBookDelta where
  instrumentId : InstrumentId
  bids : List (FastPrice × FastQuantity)
  asks : List (FastPrice × FastQuantity)
  eventTime : TimestampMs
  deriving DecidableEq, Repr

/-- Fast normalized kline snapshot. -/
structure FastKline where
  instrumentId : InstrumentId
  interval : String
  openPrice : FastPrice
  high : FastPrice
  low : FastPrice
  close : FastPrice
  volume : FastQuantity
  openTime : TimestampMs
  closeTime : TimestampMs
  closed : Bool
  deriving DecidableEq, Repr

/-- Fast normalized mark-price snapshot. -/
structure FastMarkPrice where
  instrumentId : InstrumentId
  price : FastPrice
  fundingRate : Option Rate
  eventTime : TimestampMs
  deriving DecidableEq, Repr

/-- Fast normalized liquidation snapshot. -/
structure FastLiquidation where
  instrumentId : InstrumentId
  side : Side
  price : FastPrice
  quantity : FastQuantity
  eventTime : TimestampMs
  deriving DecidableEq, Repr

/-! ### Unified values -/

/-- Unified ticker snapshot. -/
structure Ticker where
  instrumentId : InstrumentId
  lastPrice : Price
  markPrice : Option Price
  indexPrice : Option Price
  volume24h : Option Quantity
  turnover24h : Option Notional
  eventTime : TimestampMs
  deriving DecidableEq, Repr

/-- Unified trade tick. -/
structure TradeTick where
  instrumentId : InstrumentId
  tradeId : TradeId
  price : Price
  quantity : Quantity
  aggressorSide : AggressorSide
  eventTime : TimestampMs
  deriving DecidableEq, Repr

/-- Single book level used by unified deltas. -/
structure BookLevel where
  price : Price
  quantity : Quantity
  deriving DecidableEq, Repr

/-- Single level inside a unified order-book snapshot or delta. -/
structure OrderBookLevel where
  price : Price
  quantity : Quantity
  deriving DecidableEq, Repr

/-- Unified top-of-book snapshot. -/
structure BookTop where
  instrumentId : InstrumentId
  bid : BookLevel
  ask : BookLevel
  eventTime : TimestampMs
  deriving DecidableEq, Repr

/-- Unified order-book delta event. -/
structure OrderBookDelta where
  instrumentId : InstrumentId
  bids : List OrderBookLevel
  asks : List OrderBookLevel
  eventTime : TimestampMs
  deriving DecidableEq, Repr

/-- Unified candlestick snapshot. -/
structure Kline where
  instrumentId : InstrumentId
  interval : String
  openPrice : Price
  high : Price
  low : Price
  close : Price
  volume : Quantity
  openTime : TimestampMs
  closeTime : TimestampMs
  closed : Bool
  deriving DecidableEq, Repr

/-- Unified mark-price snapshot. -/
structure MarkPrice where
  instrumentId : InstrumentId
  price : Price
  fundingRate : Option Rate
  eventTime : TimestampMs
  deriving DecidableEq, Repr

/-- Unified liquidation snapshot. -/
structure Liquidation where
  instrumentId : InstrumentId
  side : Side
  price : Price
  quantity : Quantity
  eventTime : TimestampMs
  deriving DecidableEq, Repr

/-- Unified funding-rate snapshot. -/
structure FundingRate where
  instrumentId : InstrumentId
  value : Rate
  markPrice : Option Price
  eventTime : TimestampMs
  deriving DecidableEq, Repr

/-- Unified open-interest snapshot. -/
structure OpenInterest where
  instrumentId : InstrumentId
  value : Quantity
  eventTime : TimestampMs
  deriving DecidableEq, Repr

/-! ### Reading fast events -/

/-- An optional value, read when it is there. -/
def mapOption {α β : Type} (f : α → Except Failure β) : Option α → Except Failure (Option β)
  | none => .ok none
  | some a => some <$> f a

/-- The ticker in decimals; its turnover is at the scale of the quote asset. -/
def FastTicker.toUnified (ticker : FastTicker) (spec : InstrumentSpec) :
    Except Failure Ticker := do
  let lastPrice ← spec.priceFromFast ticker.lastPrice
  let markPrice ← mapOption spec.priceFromFast ticker.markPrice
  let indexPrice ← mapOption spec.priceFromFast ticker.indexPrice
  let volume24h ← mapOption spec.quantityFromFast ticker.volume24h
  let turnover24h ← mapOption (·.toNotional spec.quoteScale) ticker.turnover24h
  return {
    instrumentId := ticker.instrumentId, lastPrice, markPrice, indexPrice, volume24h,
    turnover24h, eventTime := ticker.eventTime }

/-- The trade in decimals. -/
def FastTrade.toUnified (trade : FastTrade) (spec : InstrumentSpec) :
    Except Failure TradeTick := do
  let price ← spec.priceFromFast trade.price
  let quantity ← spec.quantityFromFast trade.quantity
  return {
    instrumentId := trade.instrumentId, tradeId := trade.tradeId, price, quantity,
    aggressorSide := trade.aggressorSide, eventTime := trade.eventTime }

/-- The best bid and ask in decimals. -/
def FastBookTop.toUnified (bookTop : FastBookTop) (spec : InstrumentSpec) :
    Except Failure BookTop := do
  let bidPrice ← spec.priceFromFast bookTop.bidPrice
  let bidQuantity ← spec.quantityFromFast bookTop.bidQuantity
  let askPrice ← spec.priceFromFast bookTop.askPrice
  let askQuantity ← spec.quantityFromFast bookTop.askQuantity
  return {
    instrumentId := bookTop.instrumentId, bid := ⟨bidPrice, bidQuantity⟩,
    ask := ⟨askPrice, askQuantity⟩, eventTime := bookTop.eventTime }

/-- One level of an order-book delta. -/
def InstrumentSpec.levelFromFast (spec : InstrumentSpec) (level : FastPrice × FastQuantity) :
    Except Failure OrderBookLevel := do
  let price ← spec.priceFromFast level.1
  let quantity ← spec.quantityFromFast level.2
  return ⟨price, quantity⟩

/-- The change of the book in decimals. -/
def FastOrderBookDelta.toUnified (delta : FastOrderBookDelta) (spec : InstrumentSpec) :
    Except Failure OrderBookDelta := do
  let bids ← delta.bids.mapM spec.levelFromFast
  let asks ← delta.asks.mapM spec.levelFromFast
  return { instrumentId := delta.instrumentId, bids, asks, eventTime := delta.eventTime }

/-- The candle in decimals. -/
def FastKline.toUnified (kline : FastKline) (spec : InstrumentSpec) : Except Failure Kline := do
  let openPrice ← spec.priceFromFast kline.openPrice
  let high ← spec.priceFromFast kline.high
  let low ← spec.priceFromFast kline.low
  let close ← spec.priceFromFast kline.close
  let volume ← spec.quantityFromFast kline.volume
  return {
    instrumentId := kline.instrumentId, interval := kline.interval, openPrice, high, low, close,
    volume, openTime := kline.openTime, closeTime := kline.closeTime, closed := kline.closed }

/-- The mark price in decimals. -/
def FastMarkPrice.toUnified (markPrice : FastMarkPrice) (spec : InstrumentSpec) :
    Except Failure MarkPrice := do
  let price ← spec.priceFromFast markPrice.price
  return {
    instrumentId := markPrice.instrumentId, price, fundingRate := markPrice.fundingRate,
    eventTime := markPrice.eventTime }

/-- The forced order in decimals. -/
def FastLiquidation.toUnified (liquidation : FastLiquidation) (spec : InstrumentSpec) :
    Except Failure Liquidation := do
  let price ← spec.priceFromFast liquidation.price
  let quantity ← spec.quantityFromFast liquidation.quantity
  return {
    instrumentId := liquidation.instrumentId, side := liquidation.side, price, quantity,
    eventTime := liquidation.eventTime }

/-! ### Reading panics or succeeds -/

section OnlyPanics

variable {α β : Type}

/-- The computation does not return an error: it gives a value or panics. -/
def OnlyPanics (x : Except Failure α) : Prop := ∀ e, x ≠ .error (.error e)

theorem onlyPanics_ok (a : α) : OnlyPanics (.ok a : Except Failure α) := fun _ h => nomatch h

theorem OnlyPanics.map {x : Except Failure α} (hx : OnlyPanics x) (f : α → β) :
    OnlyPanics (f <$> x) := by
  cases x with
  | ok a => exact onlyPanics_ok (f a)
  | error e =>
    intro e' h
    injection h with h
    exact hx e' (congrArg Except.error h)

theorem OnlyPanics.bind {x : Except Failure α} {f : α → Except Failure β} (hx : OnlyPanics x)
    (hf : ∀ a, OnlyPanics (f a)) : OnlyPanics (x >>= f) := by
  cases x with
  | ok a => exact hf a
  | error e =>
    intro e' h
    injection h with h
    exact hx e' (congrArg Except.error h)

theorem FastValue.onlyPanics_toDecimal {k : ValueKind} (value : FastValue k) (scale : Nat) :
    OnlyPanics (value.toDecimal scale) := by
  refine OnlyPanics.map ?_ _
  unfold Decimal.new
  split
  · exact onlyPanics_ok _
  · intro e h
    cases h

theorem onlyPanics_mapOption {f : α → Except Failure β} (hf : ∀ a, OnlyPanics (f a))
    (x : Option α) : OnlyPanics (mapOption f x) := by
  cases x with
  | none => exact onlyPanics_ok _
  | some a => exact (hf a).map _

theorem FastTicker.onlyPanics_toUnified (ticker : FastTicker) (spec : InstrumentSpec) :
    OnlyPanics (ticker.toUnified spec) :=
  (FastValue.onlyPanics_toDecimal _ _).bind fun _ =>
  (onlyPanics_mapOption (fun _ => FastValue.onlyPanics_toDecimal _ _) _).bind fun _ =>
  (onlyPanics_mapOption (fun _ => FastValue.onlyPanics_toDecimal _ _) _).bind fun _ =>
  (onlyPanics_mapOption (fun _ => FastValue.onlyPanics_toDecimal _ _) _).bind fun _ =>
  (onlyPanics_mapOption (fun _ => FastValue.onlyPanics_toDecimal _ _) _).bind fun _ =>
  onlyPanics_ok _

theorem FastTrade.onlyPanics_toUnified (trade : FastTrade) (spec : InstrumentSpec) :
    OnlyPanics (trade.toUnified spec) :=
  (FastValue.onlyPanics_toDecimal _ _).bind fun _ =>
  (FastValue.onlyPanics_toDecimal _ _).bind fun _ => onlyPanics_ok _

theorem FastBookTop.onlyPanics_toUnified (bookTop : FastBookTop) (spec : InstrumentSpec) :
    OnlyPanics (bookTop.toUnified spec) :=
  (FastValue.onlyPanics_toDecimal _ _).bind fun _ =>
  (FastValue.onlyPanics_toDecimal _ _).bind fun _ =>
  (FastValue.onlyPanics_toDecimal _ _).bind fun _ =>
  (FastValue.onlyPanics_toDecimal _ _).bind fun _ => onlyPanics_ok _

theorem FastKline.onlyPanics_toUnified (kline : FastKline) (spec : InstrumentSpec) :
    OnlyPanics (kline.toUnified spec) :=
  (FastValue.onlyPanics_toDecimal _ _).bind fun _ =>
  (FastValue.onlyPanics_toDecimal _ _).bind fun _ =>
  (FastValue.onlyPanics_toDecimal _ _).bind fun _ =>
  (FastValue.onlyPanics_toDecimal _ _).bind fun _ =>
  (FastValue.onlyPanics_toDecimal _ _).bind fun _ => onlyPanics_ok _

theorem FastMarkPrice.onlyPanics_toUnified (markPrice : FastMarkPrice) (spec : InstrumentSpec) :
    OnlyPanics (markPrice.toUnified spec) :=
  (FastValue.onlyPanics_toDecimal _ _).bind fun _ => onlyPanics_ok _

theorem FastLiquidation.onlyPanics_toUnified (liquidation : FastLiquidation)
    (spec : InstrumentSpec) : OnlyPanics (liquidation.toUnified spec) :=
  (FastValue.onlyPanics_toDecimal _ _).bind fun _ =>
  (FastValue.onlyPanics_toDecimal _ _).bind fun _ => onlyPanics_ok _

end OnlyPanics

/-! ### Candles -/

/-- Canonical kline intervals shared by venue adapters. -/
inductive KlineInterval
  | minute1
  | minute3
  | minute5
  | minute15
  | minute30
  | hour1
  | hour2
  | hour4
  | hour6
  | hour12
  | day1
  | day3
  | week1
  | month1
  deriving DecidableEq, Repr

/-- The spellings of the intervals that are understood. -/
def KlineInterval.parse (raw : String) : Option KlineInterval :=
  match raw with
  | "1" | "1m" => some .minute1
  | "3" | "3m" => some .minute3
  | "5" | "5m" => some .minute5
  | "15" | "15m" => some .minute15
  | "30" | "30m" => some .minute30
  | "60" | "1h" => some .hour1
  | "120" | "2h" => some .hour2
  | "240" | "4h" => some .hour4
  | "360" | "6h" => some .hour6
  | "720" | "12h" => some .hour12
  | "D" | "1d" => some .day1
  | "3d" => some .day3
  | "W" | "1w" => some .week1
  | "M" | "1M" => some .month1
  | _ => none

/-- The most instruments of one request for candles. -/
def fetchOhlcvMaxInstrumentsPerCall : ℕ := 30

/-- Request for candles of some instruments. -/
structure FetchOhlcvRequest where
  instrumentIds : List InstrumentId
  interval : String
  startTime : Option TimestampMs
  endTime : Option TimestampMs
  limit : Option ℕ
  deriving DecidableEq, Repr

namespace FetchOhlcvRequest

/-- The instruments of a request, if there are some and not too many. -/
def validInstrumentIds (request : FetchOhlcvRequest) : Except MarketError (List InstrumentId) :=
  if request.instrumentIds = [] then
    .error { kind := .configError, message := "fetch_ohlcv requires at least one instrument" }
  else if fetchOhlcvMaxInstrumentsPerCall < request.instrumentIds.length then
    .error {
      kind := .unsupported
      message := "fetch_ohlcv supports at most " ++ toString fetchOhlcvMaxInstrumentsPerCall ++
        " instruments per call" }
  else .ok request.instrumentIds

/-- The instrument of a request for one. -/
def singleInstrumentId (request : FetchOhlcvRequest) : Except MarketError InstrumentId := do
  match ← request.validInstrumentIds with
  | [instrumentId] => return instrumentId
  | _ => throw {
      kind := .unsupported
      message := "single-instrument OHLCV parsing requires exactly one instrument_id" }

end FetchOhlcvRequest

/-! ### The public lane -/

/-- Divergence marker surfaced by live transport or reconciliation paths. -/
inductive DivergenceEvent
  | reconcileRequired
  | stateDivergence
  | sequenceGap (at' : Option SequenceNumber)
  deriving DecidableEq, Repr

/-- Public market-data lane output. -/
inductive PublicLaneEvent
  | ticker (ticker : FastTicker)
  | trade (trade : FastTrade)
  | bookTop (bookTop : FastBookTop)
  | orderBookDelta (delta : FastOrderBookDelta)
  | kline (kline : FastKline)
  | markPrice (markPrice : FastMarkPrice)
  | fundingRate (fundingRate : FundingRate)
  | openInterest (openInterest : OpenInterest)
  | liquidation (liquidation : FastLiquidation)
  | divergence (divergence : DivergenceEvent)
  deriving DecidableEq, Repr

end BatMarkets
