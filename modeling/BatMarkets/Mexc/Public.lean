import BatMarkets.Mexc.Snapshots

/-!
# The public stream of MEXC

The messages of the public websocket (`native.rs` of the MEXC adapter) and the events they are
parsed into (`parse_public`).  The decimals of a message are quantized at the scales of the
instrument.  `clock i` is what the clock shows for the `i`-th record of a message, the two times that
it is read.
-/

namespace BatMarkets

open Wire

namespace Mexc

/-! ### Records -/

/-- The candle in a message. -/
structure KlineData where
  symbol : Option String
  interval : Option String
  openPrice : Json
  high : Json
  low : Json
  close : Json
  amount : Option Json
  quantity : Option Json
  time : Option Int64

/-- The prices of a candle are required. -/
def KlineData.read (value : Json) : Option KlineData := do
  let fields ← value.record ["symbol", "interval", "o", "h", "l", "c", "a", "q", "t"]
  return {
    symbol := ← Json.optional fields "symbol" Json.asStr
    interval := ← Json.optional fields "interval" Json.asStr
    openPrice := ← Json.required fields "o" some
    high := ← Json.required fields "h" some
    low := ← Json.required fields "l" some
    close := ← Json.required fields "c" some
    amount := ← Json.optional fields "a" some
    quantity := ← Json.optional fields "q" some
    time := ← Json.optional fields "t" Json.asInt64 }

/-- A decimal, quantized. -/
def fastDecimal {k : ValueKind} (scale : ℕ) (value : Json) : Except Failure (FastValue k) := do
  let d ← decimalFromValue value
  ((⟨d⟩ : DecimalValue k).quantize scale).mapError .error

/-- A turnover that does not fit is left out. -/
def fastTicker (ticker : TickerData) (spec : InstrumentSpec) (nowMs : TimestampMs) :
    Except Failure FastTicker := do
  let lastPrice ← fastDecimal spec.priceScale ticker.lastPrice
  let markPrice ← ticker.fairPrice.mapM (fastDecimal spec.priceScale)
  let indexPrice ← ticker.indexPrice.mapM (fastDecimal spec.priceScale)
  let volume24h ← ticker.volume24.mapM (fastDecimal spec.qtyScale)
  let turnover24h ← ticker.amount24.mapM decimalFromValue
  return {
    instrumentId := spec.instrumentId
    lastPrice, markPrice, indexPrice, volume24h
    turnover24h := turnover24h.bind fun d =>
      ((⟨d⟩ : Notional).quantize spec.quoteScale).toOption
    eventTime := ticker.timestamp.getD nowMs }

/-- The interval of a candle. -/
def fastInterval (raw : Option String) : Except MarketError KlineInterval :=
  match raw.bind mexcIntervalToCore with
  | some interval => .ok interval
  | none => .error (decodeMessage
      ("unsupported or missing mexc kline interval '" ++ raw.getD "<missing>" ++ "'"))

/-- When the candle opens, in seconds. -/
def KlineData.openSeconds (kline : KlineData) (nowMs : TimestampMs) : ℤ :=
  kline.time.elim (nowMs.toInt.tdiv 1000) Int64.toInt

/-- A candle in the units of the instrument. -/
def fastKline (kline : KlineData) (spec : InstrumentSpec) (nowMs : TimestampMs) :
    Except Failure FastKline := do
  let interval ← (fastInterval kline.interval).mapError .error
  let openTime ← checkedI64 (kline.openSeconds nowMs * 1000)
  let openPrice ← fastDecimal spec.priceScale kline.openPrice
  let high ← fastDecimal spec.priceScale kline.high
  let low ← fastDecimal spec.priceScale kline.low
  let close ← fastDecimal spec.priceScale kline.close
  let volume ← decimalFromOptionalValue (kline.amount.or kline.quantity)
  let volume ← ((⟨volume⟩ : Quantity).quantize spec.qtyScale).mapError .error
  let closeTime ← interval.closeTimeMs openTime
  return {
    instrumentId := spec.instrumentId
    interval := interval.asIntervalStr
    openPrice, high, low, close, volume, openTime
    closeTime := closeTime.getD openTime
    closed := false }

/-- A level of the book in the units of the instrument. -/
def fastBookTuple (spec : InstrumentSpec) (level : List Json) :
    Except Failure (FastPrice × FastQuantity) := do
  let level ← levelToBookLevel level
  let price ← (level.price.quantize spec.priceScale).mapError .error
  let quantity ← (level.quantity.quantize spec.qtyScale).mapError .error
  return (price, quantity)

/-! ### Messages -/

/-- The symbol of a message of a kind. -/
def messageSymbol (what : String) (symbol : Option String) : Except MarketError String :=
  match symbol with
  | some symbol => .ok symbol
  | none => .error (decodeMessage ("mexc " ++ what ++ " websocket payload missing symbol"))

/-- The kinds of public messages. -/
inductive PublicChannel
  | ticker
  | tickers
  | deal
  | depth
  | kline
  /-- An acknowledgement, without a record. -/
  | ack
  deriving DecidableEq, Repr

/-- The kind of a channel. -/
def PublicChannel.of (channel : String) : Except MarketError PublicChannel :=
  match channel with
  | "push.ticker" => .ok .ticker
  | "push.tickers" => .ok .tickers
  | "push.deal" => .ok .deal
  | "push.depth" | "push.depth.full" => .ok .depth
  | "push.kline" => .ok .kline
  | "pong" | "rs.sub.ticker" | "rs.sub.tickers" | "rs.sub.deal" | "rs.sub.depth"
  | "rs.sub.kline" => .ok .ack
  | other => .error (MarketError.withVenue
      { kind := .unsupported, message := "unsupported mexc public channel '" ++ other ++ "'" }
      .mexc .linearUsdt)

section Messages

variable (catalog : InstrumentCatalog) (clock : ℕ → TimestampMs × TimestampMs)

/-- The event of a ticker, whose instrument is looked up by its symbol. -/
def tickerEvent (ticker : TickerData) (index : ℕ) : Except Failure PublicLaneEvent := do
  let spec ← requireNativeSymbol catalog ticker.symbol
  .ticker <$> fastTicker ticker spec (clock index).1

/-- A message with one ticker. -/
def parseTickerMessage (envelope : PublicEnvelope) : Except Failure (List PublicLaneEvent) := do
  let ticker ← fromValue TickerData.read "ticker" envelope.data
  List.singleton <$> tickerEvent catalog clock ticker 0

/-- A message with several tickers. -/
def parseTickersMessage (envelope : PublicEnvelope) : Except Failure (List PublicLaneEvent) := do
  let tickers ← fromValue (Json.each TickerData.read) "tickers" envelope.data
  tickers.zipIdx.mapM fun x => tickerEvent catalog clock x.1 x.2

/-- A message with the deals of a symbol. -/
def parseDealMessage (envelope : PublicEnvelope) : Except Failure (List PublicLaneEvent) := do
  let symbol ← (messageSymbol "deal" envelope.symbol).mapError .error
  let spec ← requireNativeSymbol catalog symbol
  let deals ← (decodeMexcWsDeals envelope.data).mapError .error
  deals.zipIdx.mapM fun x => .trade <$> fastTrade x.1 spec x.2 (clock x.2)

/-- A message with a change of the book: its first levels are the best ones. -/
def parseDepthMessage (envelope : PublicEnvelope) : Except Failure (List PublicLaneEvent) := do
  let depth ← fromValue DepthData.read "depth" envelope.data
  let symbol ← (messageSymbol "depth" envelope.symbol).mapError .error
  let spec ← requireNativeSymbol catalog symbol
  let bids ← depth.bids.mapM (fastBookTuple spec)
  let asks ← depth.asks.mapM (fastBookTuple spec)
  return [.orderBookDelta {
    instrumentId := spec.instrumentId, bids, asks
    eventTime := (depth.timestamp.or envelope.ts).getD (clock 0).1 }]

/-- A message with a candle. -/
def parseKlineMessage (envelope : PublicEnvelope) : Except Failure (List PublicLaneEvent) := do
  let kline ← fromValue KlineData.read "kline" envelope.data
  let symbol ← (messageSymbol "kline" (kline.symbol.or envelope.symbol)).mapError .error
  let spec ← requireNativeSymbol catalog symbol
  return [.kline (← fastKline kline spec (clock 0).1)]

/-- The events in a message of the public stream. -/
def parsePublic (payload : Payload) : Except Failure (List PublicLaneEvent) := do
  let envelope ← parseNativePublic payload
  match ← (PublicChannel.of envelope.channel).mapError .error with
  | .ticker => parseTickerMessage catalog clock envelope
  | .tickers => parseTickersMessage catalog clock envelope
  | .deal => parseDealMessage catalog clock envelope
  | .depth => parseDepthMessage catalog clock envelope
  | .kline => parseKlineMessage catalog clock envelope
  | .ack => return []

end Messages

end Mexc

end BatMarkets
