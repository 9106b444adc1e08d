import BatMarkets.Core.Interval
import BatMarkets.Mexc.Symbols

/-!
# Fetching historical candles

`fetch_ohlcv` of `runtime.rs` asks the venue once for each instrument.  `fetch_ohlcv_window` of
`facade.rs` asks for pages of all instruments until a window of time is read: on Binance and MEXC
from its start on, on Bybit back from its end.  One cursor serves all instruments, and after a page
it is past every candle of the page.

The rows of a reply are taken with their prices and volume decoded and at the scale of the
instrument.  What the calls note about the health of the connection is left out.
-/

namespace BatMarkets

open Ordered

/-- A row of a list of candles. -/
structure KlineRow where
  /-- The open time: in seconds on MEXC, in milliseconds on the other venues. -/
  time : Int64
  /-- The close time, which only Binance lists. -/
  closeTime : TimestampMs
  openPrice : Price
  high : Price
  low : Price
  close : Price
  volume : Quantity
  /-- The clock was past the close time when the row was parsed. -/
  elapsed : Bool
  deriving DecidableEq, Repr

/-- A request for candles.  On MEXC the symbol is in the path and the times are in seconds. -/
structure KlineQuery where
  symbol : String
  interval : String
  limit : Option ℕ
  startTime : Option Int64
  endTime : Option Int64
  deriving DecidableEq, Repr

/-- What candles are fetched with: the instruments of the adapter, and the requests that the venue
answers. -/
structure OhlcvClient where
  context : CommandContext
  resolveInstrument : InstrumentId → Option InstrumentSpec
  publicGet : KlineQuery → Except Failure (List KlineRow)

/-! ### One request -/

/-- The candle of a row with the times given. -/
def KlineRow.candle (row : KlineRow) (interval : KlineInterval) (instrumentId : InstrumentId)
    (openTime closeTime : TimestampMs) (closed : Bool) : Kline where
  instrumentId := instrumentId
  interval := interval.asIntervalStr
  openPrice := row.openPrice
  high := row.high
  low := row.low
  close := row.close
  volume := row.volume
  openTime := openTime
  closeTime := closeTime
  closed := closed

/-- The candle that the adapter makes of a row. -/
def parseKlineRow (venue : Venue) (interval : KlineInterval) (instrumentId : InstrumentId)
    (row : KlineRow) : Except Failure Kline := do
  match venue with
  | .binance => return row.candle interval instrumentId row.time row.closeTime row.elapsed
  | .bybit =>
    match ← interval.closeTimeMs row.time with
    | some closeTime => return row.candle interval instrumentId row.time closeTime row.elapsed
    | none => throw (.error (MarketError.withVenue
        { kind := .decodeError
          message := "failed to derive bybit kline close time for interval '" ++
            interval.asIntervalStr ++ "'" }
        .bybit .linearUsdt))
  | .mexc =>
    let openTime ← checkedI64 (row.time.toInt * 1000)
    let closeTime := (← interval.closeTimeMs openTime).getD openTime
    return row.candle interval instrumentId openTime closeTime true

/-- The adapters of Binance and Bybit sort the candles, that of MEXC leaves them in the order of the
reply. -/
def parseOhlcvSnapshot (venue : Venue) (interval : KlineInterval) (instrumentId : InstrumentId)
    (rows : List KlineRow) : Except Failure (List Kline) := do
  let klines ← rows.mapM (parseKlineRow venue interval instrumentId)
  match venue with
  | .binance | .bybit => return klines.mergeSort fun a b => a.openTime ≤ b.openTime
  | .mexc => return klines

/-- The query for the candles of an instrument, in the words of the venue. -/
def klineQuery (venue : Venue) (spec : InstrumentSpec) (interval : KlineInterval)
    (request : FetchOhlcvRequest) : Except MarketError KlineQuery :=
  match venue with
  | .binance => .ok {
      symbol := spec.nativeSymbol
      interval := interval.asBinanceStr
      limit := request.limit
      startTime := request.startTime
      endTime := request.endTime }
  | .bybit => .ok {
      symbol := spec.nativeSymbol
      interval := interval.asBybitStr
      limit := request.limit
      startTime := request.startTime
      endTime := request.endTime }
  | .mexc => do
    let interval ← mexcIntervalStr interval
    return {
      symbol := mexcWireSymbol spec
      interval := interval
      limit := none
      startTime := request.startTime.map (· / 1000)
      endTime := request.endTime.map (· / 1000) }

namespace OhlcvClient

variable (client : OhlcvClient)

/-- The instrument with this id, or an error. -/
def requireSpec (instrumentId : InstrumentId) : Except MarketError InstrumentSpec :=
  match client.resolveInstrument instrumentId with
  | some spec => .ok spec
  | none => .error (MarketError.withVenue
      { kind := .unsupported, message := "unknown instrument " ++ instrumentId.asStr }
      client.context.venue client.context.product)

/-- The parser looks the instrument and the interval up once more, as they are looked up here. -/
def fetchOhlcvSingle (request : FetchOhlcvRequest) : Except Failure (List Kline) := do
  let instrumentId ← request.singleInstrumentId.mapError .error
  let spec ← (client.requireSpec instrumentId).mapError .error
  let interval ←
    (parseKlineInterval client.context request.interval "fetch_ohlcv.interval").mapError .error
  let query ← (klineQuery client.context.venue spec interval request).mapError .error
  let rows ← client.publicGet query
  parseOhlcvSnapshot client.context.venue interval instrumentId rows

/-- `fetch_ohlcv` of `runtime.rs`. -/
def fetchOhlcvPage (request : FetchOhlcvRequest) : Except Failure (List Kline) := do
  let instrumentIds ← request.validInstrumentIds.mapError .error
  if instrumentIds.length = 1 then
    client.fetchOhlcvSingle request
  else
    let klines ← instrumentIds.mapM fun instrumentId =>
      client.fetchOhlcvSingle { request with instrumentIds := [instrumentId] }
    return klines.flatten

/-! ### A window of time -/

/-- The candles of each instrument. -/
abbrev CandlesByInstrument := BTreeMap InstrumentId (List Kline)

/-- What is known after a part of a page. -/
structure PageState where
  candlesByInstrument : CandlesByInstrument
  maxOpenTime : TimestampMs
  minOpenTime : TimestampMs

/-- What is known between two pages. -/
structure WindowState where
  candlesByInstrument : CandlesByInstrument
  nextStart : TimestampMs
  nextEnd : TimestampMs

/-- A candle of a page.  Candles outside the window are dropped. -/
def takeCandle (startTime endTime : TimestampMs) (page : PageState) (candle : Kline) :
    Except Failure PageState :=
  if candle.openTime < startTime ∨ endTime < candle.openTime then .ok page
  else match page.candlesByInstrument[candle.instrumentId]? with
    | none => .error (.error {
        kind := .transportError
        message := "fetch_ohlcv returned unexpected instrument " ++ candle.instrumentId.asStr })
    | some candles => .ok {
        candlesByInstrument :=
          page.candlesByInstrument.insert candle.instrumentId (candles ++ [candle])
        maxOpenTime := max page.maxOpenTime candle.openTime
        minOpenTime := min page.minOpenTime candle.openTime }

/-- Where the window goes on after a page, and whether it does. -/
def advanceWindow (request : FetchOhlcvRequest) (interval : KlineInterval)
    (startTime endTime : TimestampMs) (w : WindowState) (read : PageState) :
    Except Failure (WindowState × Bool) := do
  let w := { w with candlesByInstrument := read.candlesByInstrument }
  match client.context.venue with
  | .binance | .mexc =>
    match ← interval.closeTimeMs read.maxOpenTime with
    | none => throw (.error {
        kind := .decodeError
        message := "failed to derive OHLCV close time for interval '" ++ request.interval ++ "'" })
    | some maxCloseTime =>
      if endTime ≤ maxCloseTime then
        return (w, false)
      return ({ w with nextStart := maxCloseTime + 1 }, true)
  | .bybit =>
    if read.minOpenTime ≤ startTime ∨ read.minOpenTime = Int64.maxValue then
      return (w, false)
    return ({ w with nextEnd := read.minOpenTime - 1 }, true)

/-- One turn of the loop, and whether it goes on. -/
def windowStep (request : FetchOhlcvRequest) (interval : KlineInterval)
    (startTime endTime : TimestampMs) (w : WindowState) : Except Failure (WindowState × Bool) := do
  let page ← client.fetchOhlcvPage
    { request with startTime := some w.nextStart, endTime := some w.nextEnd }
  if page = [] then
    return (w, false)
  let read ← page.foldlM (takeCandle startTime endTime)
    ⟨w.candlesByInstrument, w.nextStart, Int64.maxValue⟩
  client.advanceWindow request interval startTime endTime w read

/-- The loop, for at most so many turns. -/
def windowLoop (request : FetchOhlcvRequest) (interval : KlineInterval)
    (startTime endTime : TimestampMs) :
    ℕ → WindowState → Option (Except Failure CandlesByInstrument)
  | 0, _ => none
  | turns + 1, w =>
    match client.windowStep request interval startTime endTime w with
    | .error e => some (.error e)
    | .ok (w, true) => windowLoop request interval startTime endTime turns w
    | .ok (w, false) => some (.ok w.candlesByInstrument)

/-- Each instrument's candles in the order of time, those of one open time once. -/
def flattenCandles : CandlesByInstrument → List InstrumentId → Except Failure (List Kline)
  | _, [] => .ok []
  | candlesByInstrument, instrumentId :: instrumentIds =>
    match candlesByInstrument[instrumentId]? with
    | none => .error .panic
    | some candles => do
      let sorted := candles.mergeSort fun a b => a.openTime ≤ b.openTime
      let flattened ← flattenCandles (candlesByInstrument.erase instrumentId) instrumentIds
      return sorted.destutter (fun a b => a.openTime ≠ b.openTime) ++ flattened

/-- The candles of a window, if they are read within so many pages. -/
def fetchOhlcvWindow (request : FetchOhlcvRequest) (turns : ℕ) :
    Option (Except Failure (List Kline)) :=
  match request.validInstrumentIds with
  | .error e => some (.error (.error e))
  | .ok instrumentIds =>
    match request.startTime with
    | none => some (.error (.error {
        kind := .configError, message := "fetch_ohlcv requires request.start_time" }))
    | some startTime =>
      match request.endTime with
      | none => some (.error (.error {
          kind := .configError, message := "fetch_ohlcv requires request.end_time" }))
      | some endTime =>
        if endTime < startTime then some (.error (.error {
          kind := .configError, message := "fetch_ohlcv requires end_time >= start_time" }))
        else match KlineInterval.parse request.interval with
          | none => some (.error (.error {
              kind := .unsupported
              message := "unsupported OHLCV interval '" ++ request.interval ++ "'" }))
          | some interval =>
            let candlesByInstrument := instrumentIds.foldl (fun m i => m.insert i []) ∅
            (client.windowLoop request interval startTime endTime turns
              ⟨candlesByInstrument, startTime, endTime⟩).map fun candles => do
                flattenCandles (← candles) instrumentIds

/-- `fetch_ohlcv` of `facade.rs`. -/
def fetchOhlcv (request : FetchOhlcvRequest) (turns : ℕ) :
    Option (Except Failure (List Kline)) :=
  match request.startTime, request.endTime with
  | some _, some _ => client.fetchOhlcvWindow request turns
  | _, _ => some (client.fetchOhlcvPage request)

end OhlcvClient

end BatMarkets
