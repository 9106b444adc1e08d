import BatMarkets.Core.Interval
import BatMarkets.Core.Products
import BatMarkets.Mexc.Contracts
import BatMarkets.Adapter.PublicTrades

/-!
# The replies of MEXC

The bodies of the replies to requests over HTTP (`native.rs` of the MEXC adapter) and what the
adapter makes of them (`parse_ticker_snapshot` and the other functions of this kind).  A reply says
whether the request was successful, and has its data in a field.

The clock is read for a record without a time of its own: `clock i` is what it shows for the `i`-th
record, and `nowMs` what it shows where there is one record.
-/

namespace BatMarkets

open Wire

/-- Unified order book snapshot. -/
structure OrderBookSnapshot where
  instrumentId : InstrumentId
  bids : List OrderBookLevel
  asks : List OrderBookLevel
  eventTime : TimestampMs

theorem mapError_eq_ok {ε ε' α : Type} {f : ε → ε'} {x : Except ε α} {a : α} :
    x.mapError f = .ok a ↔ x = .ok a := by
  cases x <;> simp [Except.mapError]

namespace Mexc

/-! ### Replies -/

/-- A reply of MEXC with data of some kind. -/
structure RestResponse (α : Type) where
  success : Bool
  code : Int64
  message : Option String
  data : α

/-- A reply must have its data; its code and its message may be missing. -/
def RestResponse.read {α : Type} (readData : Json → Option α) (value : Json) :
    Option (RestResponse α) := do
  let fields ← value.record ["success", "code", "message", "data"]
  return {
    success := ← Json.required fields "success" Json.asBool
    code := ← Json.defaulted fields "code" Json.asInt64 0
    message := ← Json.optional fields "message" Json.asStr
    data := ← Json.required fields "data" readData }

/-- The data of a reply, if the request was successful. -/
def responseData {α : Type} (readData : Json → Option α) (what : String) (payload : Payload) :
    Except Failure α :=
  match payload.value?.bind (RestResponse.read readData) with
  | none => .error (.error (decodeMessage ("failed to parse mexc " ++ what)))
  | some response => do
    (ensureSuccess response.success response.code response.message).mapError .error
    return response.data

/-- The record of a kind in a value. -/
def decodeRecord {α : Type} (read : Json → Option α) (what : String) (value : Json) :
    Except Failure α :=
  match read value with
  | some a => .ok a
  | none => .error (.error (decodeMessage ("failed to decode mexc " ++ what)))

/-! ### Tickers -/

/-- A ticker, in a message or in a reply. -/
structure TickerData where
  symbol : String
  lastPrice : Json
  fairPrice : Option Json
  indexPrice : Option Json
  volume24 : Option Json
  amount24 : Option Json
  holdVol : Option Json
  timestamp : Option TimestampMs

/-- A ticker needs its symbol and its last price. -/
def TickerData.read (value : Json) : Option TickerData := do
  let fields ← value.record ["symbol", "lastPrice", "fairPrice", "indexPrice", "volume24",
    "amount24", "holdVol", "maxBidPrice", "minAskPrice", "timestamp"]
  return {
    symbol := ← Json.required fields "symbol" Json.asStr
    lastPrice := ← Json.required fields "lastPrice" some
    fairPrice := ← Json.optional fields "fairPrice" some
    indexPrice := ← Json.optional fields "indexPrice" some
    volume24 := ← Json.optional fields "volume24" some
    amount24 := ← Json.optional fields "amount24" some
    holdVol := ← Json.optional fields "holdVol" some
    timestamp := ← Json.optional fields "timestamp" Json.asInt64 }

/-- The record of a symbol in a list of them, or the only one. -/
def findSymbolObject (data : Json) (nativeSymbol : String) : Except MarketError Json :=
  match data with
  | .array items =>
    match items.find? fun item => (item.get? "symbol").bind Json.asStr == some nativeSymbol with
    | some item => .ok item
    | none => .error (decodeMessage ("mexc ticker response missing " ++ nativeSymbol))
  | data => .ok data

/-- The ticker of a reply, in decimals. -/
def tickerToUnified (ticker : TickerData) (spec : InstrumentSpec) (nowMs : TimestampMs) :
    Except Failure Ticker := do
  let lastPrice ← decimalFromValue ticker.lastPrice
  let markPrice ← ticker.fairPrice.mapM decimalFromValue
  let indexPrice ← ticker.indexPrice.mapM decimalFromValue
  let volume24h ← ticker.volume24.mapM decimalFromValue
  let turnover24h ← ticker.amount24.mapM decimalFromValue
  return {
    instrumentId := spec.instrumentId
    lastPrice := ⟨lastPrice⟩
    markPrice := markPrice.map DecimalValue.mk
    indexPrice := indexPrice.map DecimalValue.mk
    volume24h := volume24h.map DecimalValue.mk
    turnover24h := turnover24h.map DecimalValue.mk
    eventTime := ticker.timestamp.getD nowMs }

/-- The ticker of the instrument in a reply, which may be a list. -/
def parseTickerSnapshot (spec : InstrumentSpec) (nowMs : TimestampMs) (payload : Payload) :
    Except Failure Ticker := do
  let data ← responseData some "ticker" payload
  let data ← (findSymbolObject data (mexcWireSymbol spec)).mapError .error
  let ticker ← decodeRecord TickerData.read "ticker data" data
  tickerToUnified ticker spec nowMs

/-- The records of a list of tickers: none, one, or many. -/
def tickerItems : Json → List Json
  | .array items => items
  | .object fields => [.object fields]
  | _ => []

/-- The ticker in a record and the first specification with its symbol. -/
def tickerWithSpec (specs : List InstrumentSpec) (item : Json) :
    Option (TickerData × InstrumentSpec) := do
  let ticker ← TickerData.read item
  let spec ← specs.find? fun spec => spec.nativeSymbol == mexcCanonicalNativeSymbol ticker.symbol
  return (ticker, spec)

/-- Records that are not tickers, or of no instrument in the list, are skipped. -/
def parseTickersSnapshot (specs : List InstrumentSpec) (clock : ℕ → TimestampMs)
    (payload : Payload) : Except Failure (List Ticker) := do
  let data ← responseData some "tickers" payload
  let tickers := (tickerItems data).filterMap (tickerWithSpec specs)
  tickers.zipIdx.mapM fun x => tickerToUnified x.1.1 x.1.2 (clock x.2)

/-! ### Trades and order books -/

/-- The trades in a reply. -/
def parseTradesSnapshot (spec : InstrumentSpec) (clock : ℕ → TimestampMs × TimestampMs)
    (payload : Payload) : Except Failure (List TradeTick) := do
  let deals ← responseData (Json.each DealData.read) "deals response" payload
  deals.zipIdx.mapM fun x => tradeToUnified x.1 spec x.2 (clock x.2)

/-- A book, in a message or in a reply. -/
structure DepthData where
  asks : List (List Json)
  bids : List (List Json)
  version : Option Int64
  timestamp : Option TimestampMs

/-- A book may lack either side. -/
def DepthData.read (value : Json) : Option DepthData := do
  let fields ← value.record ["asks", "bids", "version", "timestamp"]
  return {
    asks := ← Json.defaulted fields "asks" (Json.each (Json.each some)) []
    bids := ← Json.defaulted fields "bids" (Json.each (Json.each some)) []
    version := ← Json.optional fields "version" Json.asInt64
    timestamp := ← Json.optional fields "timestamp" Json.asInt64 }

/-- A level of the book; entries after the first two are not looked at. -/
def levelToBookLevel (level : List Json) : Except Failure OrderBookLevel :=
  match level with
  | price :: quantity :: _ => do
    let price ← decimalFromValue price
    let quantity ← decimalFromValue quantity
    return { price := ⟨price⟩, quantity := ⟨quantity⟩ }
  | _ => .error (.error (decodeMessage "mexc depth level has fewer than two fields"))

/-- The book in a reply. -/
def parseOrderBookSnapshot (spec : InstrumentSpec) (nowMs : TimestampMs) (payload : Payload) :
    Except Failure OrderBookSnapshot := do
  let depth ← responseData DepthData.read "order book response" payload
  let bids ← depth.bids.mapM levelToBookLevel
  let asks ← depth.asks.mapM levelToBookLevel
  return { instrumentId := spec.instrumentId, bids, asks, eventTime := depth.timestamp.getD nowMs }

/-! ### Candles -/

/-- The candles of a reply, column by column. -/
structure KlineRestData where
  time : List Int64
  openPrice : List Json
  close : List Json
  high : List Json
  low : List Json
  vol : List Json

/-- A column that is missing is empty; the amounts are not used. -/
def KlineRestData.read (value : Json) : Option KlineRestData := do
  let fields ← value.record ["time", "open", "close", "high", "low", "vol", "amount"]
  let _ ← Json.defaulted fields "amount" (Json.each some) []
  return {
    time := ← Json.defaulted fields "time" (Json.each Json.asInt64) []
    openPrice := ← Json.defaulted fields "open" (Json.each some) []
    close := ← Json.defaulted fields "close" (Json.each some) []
    high := ← Json.defaulted fields "high" (Json.each some) []
    low := ← Json.defaulted fields "low" (Json.each some) []
    vol := ← Json.defaulted fields "vol" (Json.each some) [] }

/-- The intervals in the words of MEXC. -/
def mexcIntervalToCore (raw : String) : Option KlineInterval :=
  match raw with
  | "Min1" => some .minute1
  | "Min5" => some .minute5
  | "Min15" => some .minute15
  | "Min30" => some .minute30
  | "Min60" => some .hour1
  | "Hour4" => some .hour4
  | "Day1" => some .day1
  | "Week1" => some .week1
  | "Month1" => some .month1
  | _ => none

/-- An interval as the adapters or as MEXC spell it. -/
def klineInterval? (raw : String) : Option KlineInterval :=
  (KlineInterval.parse raw).or (mexcIntervalToCore raw)

/-- An interval in the words of MEXC or of the client. -/
def parseKlineInterval (raw : String) : Except MarketError KlineInterval :=
  match klineInterval? raw with
  | some interval => .ok interval
  | none => .error { kind := .unsupported, message := "unsupported mexc interval '" ++ raw ++ "'" }

/-- The entries of the arrays at one index. -/
structure KlineEntry where
  time : Int64
  openPrice : Json
  high : Json
  low : Json
  close : Json
  vol : Json

/-- The entries at all indices, for arrays of one length. -/
def KlineRestData.entries (data : KlineRestData) : List KlineEntry :=
  (data.time.zip (data.openPrice.zip (data.high.zip (data.low.zip (data.close.zip data.vol))))).map
    fun x => ⟨x.1, x.2.1, x.2.2.1, x.2.2.2.1, x.2.2.2.2.1, x.2.2.2.2.2⟩

/-- All arrays have as many entries as there are times. -/
def KlineRestData.consistent (data : KlineRestData) : Bool :=
  [data.openPrice, data.close, data.high, data.low, data.vol].all fun column =>
    column.length == data.time.length

/-- The candle of a row, which is closed. -/
def klineFromEntry (instrumentId : InstrumentId) (interval : KlineInterval) (entry : KlineEntry) :
    Except Failure Kline := do
  let openTime ← checkedI64 (entry.time.toInt * 1000)
  let openPrice ← decimalFromValue entry.openPrice
  let high ← decimalFromValue entry.high
  let low ← decimalFromValue entry.low
  let close ← decimalFromValue entry.close
  let volume ← decimalFromValue entry.vol
  let closeTime ← interval.closeTimeMs openTime
  return {
    instrumentId
    interval := interval.asIntervalStr
    openPrice := ⟨openPrice⟩
    high := ⟨high⟩
    low := ⟨low⟩
    close := ⟨close⟩
    volume := ⟨volume⟩
    openTime
    closeTime := closeTime.getD openTime
    closed := true }

/-- The candles in a reply, if the instrument is known and all columns have the same length. -/
def parseOhlcvSnapshot (catalog : InstrumentCatalog) (request : FetchOhlcvRequest)
    (payload : Payload) : Except Failure (List Kline) := do
  let instrumentId ← request.singleInstrumentId.mapError .error
  if (catalog.get instrumentId).isNone then
    throw (.error {
      kind := .unsupported, message := "unknown mexc instrument " ++ instrumentId.asStr })
  let interval ← (parseKlineInterval request.interval).mapError .error
  let data ← responseData KlineRestData.read "kline response" payload
  if !data.consistent then
    throw (.error (decodeMessage "mexc kline arrays have inconsistent lengths"))
  data.entries.mapM (klineFromEntry instrumentId interval)

/-! ### Funding and open interest -/

/-- The funding rate in a reply. -/
structure FundingRateData where
  symbol : String
  fundingRate : Json
  nextSettleTime : Option TimestampMs
  timestamp : Option TimestampMs

/-- A funding rate needs its symbol and its rate. -/
def FundingRateData.read (value : Json) : Option FundingRateData := do
  let fields ← value.record ["symbol", "fundingRate", "nextSettleTime", "timestamp"]
  return {
    symbol := ← Json.required fields "symbol" Json.asStr
    fundingRate := ← Json.required fields "fundingRate" some
    nextSettleTime := ← Json.optional fields "nextSettleTime" Json.asInt64
    timestamp := ← Json.optional fields "timestamp" Json.asInt64 }

/-- The funding rate of the instrument in a reply. -/
def parseFundingRateSnapshot (spec : InstrumentSpec) (nowMs : TimestampMs) (payload : Payload) :
    Except Failure FundingRate := do
  let data ← responseData FundingRateData.read "funding rate" payload
  let value ← decimalFromValue data.fundingRate
  return {
    instrumentId := spec.instrumentId, value := ⟨value⟩, markPrice := none
    eventTime := data.timestamp.getD nowMs }

/-- The open interest of the instrument, which is part of its ticker. -/
def parseOpenInterestSnapshot (spec : InstrumentSpec) (nowMs : TimestampMs) (payload : Payload) :
    Except Failure OpenInterest := do
  let data ← responseData some "open interest ticker" payload
  let data ← (findSymbolObject data (mexcWireSymbol spec)).mapError .error
  let ticker ← decodeRecord TickerData.read "open interest ticker data" data
  let value ← ticker.holdVol.mapM decimalFromValue
  return {
    instrumentId := spec.instrumentId, value := (value.map DecimalValue.mk).getD ⟨0⟩
    eventTime := ticker.timestamp.getD nowMs }

/-! ### The account -/

/-- An asset of the account, with its unrealized profit. -/
structure AccountAsset extends AssetData where
  unrealizedPnl : Option Json

/-- An asset in a reply, which says what is unrealized in one of two spellings. -/
def AccountAsset.read (value : Json) : Option AccountAsset := do
  let asset ← AssetData.read value
  let fields ← value.record ["currency", "availableBalance", "available", "walletBalance",
    "equity", "unrealized"]
  return { toAssetData := asset, unrealizedPnl := ← Json.optional fields "unrealized" some }

/-- The sums over the assets so far. -/
structure AccountTotals where
  wallet : Decimal
  available : Decimal
  unrealized : Decimal

/-- The balance of an asset, and the sums with it. -/
def balanceOfAsset (observedAt : TimestampMs) (totals : AccountTotals) (asset : AccountAsset) :
    Except Failure (AccountTotals × Balance) := do
  let wallet ← decimalFromOptionalValue (asset.walletBalance.or asset.equity)
  let available ← decimalFromOptionalValue (asset.availableBalance.or asset.available)
  let unrealized ← decimalFromOptionalValue asset.unrealizedPnl
  let totalWallet ← totals.wallet.add wallet
  let totalAvailable ← totals.available.add available
  let totalUnrealized ← totals.unrealized.add unrealized
  return (⟨totalWallet, totalAvailable, totalUnrealized⟩, {
    asset := ⟨asset.currency⟩
    walletBalance := ⟨wallet⟩
    availableBalance := ⟨available⟩
    updatedAt := observedAt })

/-- The balances of the assets, one after the other, and their sums. -/
def balancesOfAssets (observedAt : TimestampMs) (totals : AccountTotals) :
    List AccountAsset → Except Failure (AccountTotals × List Balance)
  | [] => .ok (totals, [])
  | asset :: assets => do
    let (totals, balance) ← balanceOfAsset observedAt totals asset
    let (totals, balances) ← balancesOfAssets observedAt totals assets
    return (totals, balance :: balances)

/-- The balances in a reply and their totals. -/
def parseAccountSnapshot (observedAt : TimestampMs) (payload : Payload) :
    Except Failure AccountSnapshot := do
  let assets ← responseData (Json.each AccountAsset.read) "account assets" payload
  let (totals, balances) ← balancesOfAssets observedAt ⟨0, 0, 0⟩ assets
  return {
    balances
    summary := some {
      totalWalletBalance := ⟨totals.wallet⟩
      totalAvailableBalance := ⟨totals.available⟩
      totalUnrealizedPnl := ⟨totals.unrealized⟩
      updatedAt := observedAt } }

/-! ### Positions, orders and executions -/

/-- The position of a record, unless its size is zero. -/
def openPosition (catalog : InstrumentCatalog) (observedAt : TimestampMs)
    (position : PositionData) : Except Failure (Option Position) := do
  let size ← decimalFromOptionalValue position.holdVol
  if size.isZero then return none
  return some (← positionFromData catalog position observedAt size)

/-- The positions in a reply that are not of size zero. -/
def parsePositionsSnapshot (catalog : InstrumentCatalog) (observedAt : TimestampMs)
    (payload : Payload) : Except Failure (List Position) := do
  let positions ← responseData (Json.each PositionData.read) "positions" payload
  return (← positions.mapM (openPosition catalog observedAt)).reduceOption

/-- The orders on a page. -/
def readOrderPage (value : Json) : Option (List OrderData) := do
  let fields ← value.record ["result_list"]
  Json.defaulted fields "result_list" (Json.each OrderData.read) []

/-- The orders in a reply, which lists them or has a page of them. -/
def parseOrderListPayload (payload : Payload) : Except Failure (List OrderData) := do
  let data ← responseData some "order list" payload
  match data with
  | .array items => decodeRecord (Json.each OrderData.read) "order list" (.array items)
  | data => decodeRecord readOrderPage "order page" data

/-- The open orders in a reply. -/
def parseOpenOrdersSnapshot (catalog : InstrumentCatalog) (observedAt : TimestampMs)
    (payload : Payload) : Except Failure (List Order) := do
  let orders ← parseOrderListPayload payload
  orders.mapM fun order => orderFromData catalog order observedAt

/-- The executions in a reply; the clock is read for each of them. -/
def parseExecutionsSnapshot (catalog : InstrumentCatalog) (clock : ℕ → TimestampMs)
    (payload : Payload) : Except Failure (List Execution) := do
  let executions ← responseData (Json.each ExecutionData.read) "executions" payload
  executions.zipIdx.mapM fun x => executionFromData catalog x.1 (clock x.2)

end Mexc

end BatMarkets
