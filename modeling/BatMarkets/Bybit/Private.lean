import BatMarkets.Adapter.Values

/-!
# The private stream of Bybit

The messages of the private websocket (`native.rs` of the Bybit adapter) and the events they are
parsed into (`parse_private`).  A message has a topic and a list of records; one record that cannot
be decoded makes the whole message fail.
-/

namespace BatMarkets

open Wire

namespace Bybit

/-! ### Messages -/

/-- A message of the private stream; the topic says what its data are. -/
structure PrivateEnvelope where
  topic : String
  creationTime : TimestampMs
  data : Json

/-- A coin of the wallet. -/
structure WalletCoin where
  coin : String
  walletBalance : String
  availableToWithdraw : String

/-- A position, in a message or in a reply. -/
structure PositionData where
  symbol : String
  side : String
  size : String
  entryPrice : String
  unrealisedPnl : String
  tradeMode : UInt8
  positionIdx : UInt8
  leverage : Option String
  seq : Option Int64

/-- An order, in a message or in a reply. -/
structure OrderData where
  symbol : String
  orderId : String
  orderLinkId : Option String
  side : String
  orderType : String
  price : String
  quantity : String
  orderStatus : String
  cumulativeExecQty : String
  averagePrice : Option String
  timeInForce : String
  reduceOnly : Bool
  createdTime : TimestampMs
  updatedTime : TimestampMs

/-- An execution, in a message or in a reply. -/
structure ExecutionData where
  symbol : String
  execId : String
  orderId : String
  orderLinkId : Option String
  side : String
  execQty : String
  execPrice : String
  execFee : String
  feeCurrency : Option String
  execTime : TimestampMs
  seq : Option Int64

/-- A message may lack the time of its creation, which is then 0. -/
def PrivateEnvelope.read (value : Json) : Option PrivateEnvelope := do
  let fields ← value.recordOf ["topic", "creationTime", "data"] 3
  return {
    topic := ← Json.required fields "topic" Json.asStr
    creationTime := ← Json.defaulted fields "creationTime" Json.asInt64 0
    data := ← Json.required fields "data" some }

/-- All three fields of a coin are required. -/
def WalletCoin.read (value : Json) : Option WalletCoin := do
  let fields ← value.record ["coin", "walletBalance", "availableToWithdraw"]
  return {
    coin := ← Json.required fields "coin" Json.asStr
    walletBalance := ← Json.required fields "walletBalance" Json.asStr
    availableToWithdraw := ← Json.required fields "availableToWithdraw" Json.asStr }

/-- The coins of a wallet. -/
def readWallet (value : Json) : Option (List WalletCoin) := do
  let fields ← value.record ["accountType", "coin"]
  let _ ← Json.required fields "accountType" Json.asStr
  Json.required fields "coin" (Json.each WalletCoin.read)

/-- Only the leverage and the sequence number of a position may be missing. -/
def PositionData.read (value : Json) : Option PositionData := do
  let fields ← value.recordOf ["symbol", "side", "size", "entryPrice", "unrealisedPnl",
    "tradeMode", "positionIdx", "leverage", "seq"] 8
  return {
    symbol := ← Json.required fields "symbol" Json.asStr
    side := ← Json.required fields "side" Json.asStr
    size := ← Json.required fields "size" Json.asStr
    entryPrice := ← Json.required fields "entryPrice" Json.asStr
    unrealisedPnl := ← Json.required fields "unrealisedPnl" Json.asStr
    tradeMode := ← Json.required fields "tradeMode" Json.asU8
    positionIdx := ← Json.required fields "positionIdx" Json.asU8
    leverage := ← Json.optional fields "leverage" Json.asStr
    seq := ← Json.optional fields "seq" i64FromValue }

/-- The client id and the average price of an order may be missing. -/
def OrderData.read (value : Json) : Option OrderData := do
  let fields ← value.record ["symbol", "orderId", "orderLinkId", "side", "orderType", "price",
    "qty", "orderStatus", "cumExecQty", "avgPrice", "timeInForce", "reduceOnly", "createdTime",
    "updatedTime"]
  return {
    symbol := ← Json.required fields "symbol" Json.asStr
    orderId := ← Json.required fields "orderId" Json.asStr
    orderLinkId := ← Json.optional fields "orderLinkId" Json.asStr
    side := ← Json.required fields "side" Json.asStr
    orderType := ← Json.required fields "orderType" Json.asStr
    price := ← Json.required fields "price" Json.asStr
    quantity := ← Json.required fields "qty" Json.asStr
    orderStatus := ← Json.required fields "orderStatus" Json.asStr
    cumulativeExecQty := ← Json.required fields "cumExecQty" Json.asStr
    averagePrice := ← Json.optional fields "avgPrice" Json.asStr
    timeInForce := ← Json.required fields "timeInForce" Json.asStr
    reduceOnly := ← Json.required fields "reduceOnly" Json.asBool
    createdTime := ← Json.required fields "createdTime" i64FromString
    updatedTime := ← Json.required fields "updatedTime" i64FromString }

/-- The client id, the asset of the fee and the sequence number of an execution may be missing. -/
def ExecutionData.read (value : Json) : Option ExecutionData := do
  let fields ← value.recordOf ["symbol", "execId", "orderId", "orderLinkId", "side", "execQty",
    "execPrice", "execFee", "feeCurrency", "execTime", "seq"] 10
  return {
    symbol := ← Json.required fields "symbol" Json.asStr
    execId := ← Json.required fields "execId" Json.asStr
    orderId := ← Json.required fields "orderId" Json.asStr
    orderLinkId := ← Json.optional fields "orderLinkId" Json.asStr
    side := ← Json.required fields "side" Json.asStr
    execQty := ← Json.required fields "execQty" Json.asStr
    execPrice := ← Json.required fields "execPrice" Json.asStr
    execFee := ← Json.required fields "execFee" Json.asStr
    feeCurrency := ← Json.optional fields "feeCurrency" Json.asStr
    execTime := ← Json.required fields "execTime" i64FromString
    seq := ← Json.optional fields "seq" i64FromValue }

/-- The message, or an error that names the venue. -/
def parseNativePrivate (payload : Payload) : Except MarketError PrivateEnvelope :=
  match payload.value?.bind PrivateEnvelope.read with
  | some envelope => .ok envelope
  | none => .error <| ((decodeFailure "failed to parse bybit private payload").withVenue
      .bybit .linearUsdt).withOperation "bybit.parse_native_private"

/-! ### Values -/

/-- The error for data that are not what the topic says. -/
def decodeError : MarketError :=
  (decodeFailure "failed to decode bybit topic payload").withVenue .bybit .linearUsdt

/-- The data of a topic, by the reader of its records. -/
def fromValue {α : Type} (read : Json → Option α) (data : Json) : Except MarketError α :=
  match read data with
  | some a => .ok a
  | none => .error decodeError

/-- A decimal, with an error of Bybit if it is none. -/
def parseDecimal (raw : String) : Except MarketError Decimal := parseDecimalOf .bybit raw

/-- A decimal, or nothing but blanks if there is none. -/
def parseOptionalDecimalStr (raw : String) : Except MarketError (Option Decimal) :=
  let raw := trim raw
  if raw.isEmpty then .ok none else some <$> parseDecimal raw

/-- A decimal that may be missing or blank. -/
def parseOptionalDecimal (raw : Option String) : Except MarketError (Option Decimal) :=
  ((raw.map trim).filter fun raw => !raw.isEmpty).mapM parseDecimal

/-- A decimal for which blanks mean 0. -/
def parseDecimalOrZeroOnEmpty (raw : String) : Except MarketError Decimal :=
  (·.getD 0) <$> parseOptionalDecimalStr raw

/-- The error for a word that is not one of a kind. -/
def unsupportedWord (kind raw : String) : MarketError :=
  decodeFailure ("unsupported bybit " ++ kind ++ " '" ++ raw ++ "'")

/-- The two sides in the words of Bybit. -/
def parseSide (raw : String) : Except MarketError Side :=
  match raw with
  | "Buy" => .ok .buy
  | "Sell" => .ok .sell
  | other => .error (unsupportedWord "side" other)

/-- The types of an order in the words of Bybit. -/
def parseOrderType (raw : String) : Except MarketError OrderType :=
  match raw with
  | "Market" => .ok .market
  | "Limit" => .ok .limit
  | "Stop" => .ok .stopLimit
  | "StopMarket" => .ok .stopMarket
  | "TakeProfit" => .ok .takeProfitLimit
  | "TakeProfitMarket" => .ok .takeProfitMarket
  | other => .error (unsupportedWord "order type" other)

/-- The times in force in the words of Bybit. -/
def parseTimeInForce (raw : String) : Except MarketError TimeInForce :=
  match raw with
  | "GTC" => .ok .gtc
  | "IOC" => .ok .ioc
  | "FOK" => .ok .fok
  | "PostOnly" => .ok .postOnly
  | other => .error (unsupportedWord "time in force" other)

/-- The states of an order in the words of Bybit. -/
def parseOrderStatus (raw : String) : Except MarketError OrderStatus :=
  match raw with
  | "New" => .ok .new
  | "PartiallyFilled" => .ok .partiallyFilled
  | "Filled" => .ok .filled
  | "Cancelled" | "Canceled" => .ok .canceled
  | "Rejected" | "Deactivated" => .ok .rejected
  | other => .error (unsupportedWord "order status" other)

/-- Bybit numbers the margin modes; 1 is isolated. -/
def parseTradeMode (mode : UInt8) : MarginMode := if mode = 1 then .isolated else .cross

/-- A position without an index is in one-way mode. -/
def parsePositionMode (index : UInt8) : PositionMode := if index = 0 then .oneWay else .hedge

/-! ### Events -/

/-- The balance of a coin; what can be withdrawn may be blank. -/
def balanceFromCoin (creationTime : TimestampMs) (coin : WalletCoin) :
    Except MarketError Balance := do
  let walletBalance ← parseDecimal coin.walletBalance
  let availableBalance ← parseDecimalOrZeroOnEmpty coin.availableToWithdraw
  return {
    asset := ⟨coin.coin⟩
    walletBalance := ⟨walletBalance⟩
    availableBalance := ⟨availableBalance⟩
    updatedAt := creationTime }

/-- The position of a record; the stream and the snapshots of positions decode it alike. -/
def positionFromSnapshot (catalog : InstrumentCatalog) (position : PositionData)
    (observedAt : TimestampMs) : Except MarketError Position := do
  let spec ← requireNativeSymbol .bybit catalog position.symbol
  let side ← parseSide position.side
  let size ← parseDecimal position.size
  let entryPrice ← parseOptionalDecimalStr position.entryPrice
  let unrealizedPnl ← parseOptionalDecimalStr position.unrealisedPnl
  let leverage ← parseOptionalDecimal position.leverage
  return {
    positionId := ⟨"bybit:" ++ position.symbol ++ ":" ++ toString position.positionIdx⟩
    instrumentId := spec.instrumentId
    direction := match side with
      | .buy => .long
      | .sell => .short
    size := ⟨size⟩
    entryPrice := entryPrice.map DecimalValue.mk
    markPrice := none
    unrealizedPnl := unrealizedPnl.map DecimalValue.mk
    leverage := leverage.map DecimalValue.mk
    marginMode := parseTradeMode position.tradeMode
    positionMode := parsePositionMode position.positionIdx
    updatedAt := observedAt }

/-- An order of Bybit as the runtime knows it. -/
def orderFromSnapshot (catalog : InstrumentCatalog) (order : OrderData)
    (observedAt : TimestampMs) : Except MarketError Order := do
  let spec ← requireNativeSymbol .bybit catalog order.symbol
  let side ← parseSide order.side
  let orderType ← parseOrderType order.orderType
  let timeInForce ← parseTimeInForce order.timeInForce
  let status ← parseOrderStatus order.orderStatus
  let price ← parseOptionalDecimalStr order.price
  let quantity ← parseDecimal order.quantity
  let filledQuantity ← parseDecimal order.cumulativeExecQty
  let averageFillPrice ← parseOptionalDecimal order.averagePrice
  return {
    orderId := ⟨order.orderId⟩
    clientOrderId := order.orderLinkId.map StringId.mk
    instrumentId := spec.instrumentId
    side, orderType, status
    timeInForce := some timeInForce
    price := price.map DecimalValue.mk
    quantity := ⟨quantity⟩
    filledQuantity := ⟨filledQuantity⟩
    averageFillPrice := averageFillPrice.map DecimalValue.mk
    reduceOnly := order.reduceOnly
    postOnly := order.timeInForce == "PostOnly"
    createdAt := if 0 < order.createdTime then order.createdTime else observedAt
    updatedAt := if 0 < order.updatedTime then order.updatedTime else observedAt
    venueStatus := some order.orderStatus }

/-- An execution of Bybit as the runtime knows it. -/
def executionFromSnapshot (catalog : InstrumentCatalog) (execution : ExecutionData) :
    Except MarketError Execution := do
  let spec ← requireNativeSymbol .bybit catalog execution.symbol
  let side ← parseSide execution.side
  let quantity ← parseDecimal execution.execQty
  let price ← parseDecimal execution.execPrice
  let fee ← parseDecimal execution.execFee
  return {
    executionId := ⟨execution.execId⟩
    orderId := ⟨execution.orderId⟩
    clientOrderId := execution.orderLinkId.map StringId.mk
    instrumentId := spec.instrumentId
    side
    quantity := ⟨quantity⟩
    price := ⟨price⟩
    fee := some ⟨fee⟩
    feeAsset := execution.feeCurrency.map StringId.mk
    liquidity := none
    executedAt := execution.execTime }

/-- Positions whose size is written as `0` are skipped. -/
def PositionData.skipped (position : PositionData) : Bool := position.size == "0"

/-- The events in a message of the private stream, by its topic. -/
def parsePrivate (catalog : InstrumentCatalog) (payload : Payload) :
    Except MarketError (List PrivateLaneEvent) := do
  let envelope ← parseNativePrivate payload
  match envelope.topic with
  | "wallet" =>
    let wallets ← fromValue (Json.each readWallet) envelope.data
    wallets.flatten.mapM fun coin => .balance <$> balanceFromCoin envelope.creationTime coin
  | "position" =>
    let positions ← fromValue (Json.each PositionData.read) envelope.data
    (positions.filter (!·.skipped)).mapM fun position =>
      .position <$> positionFromSnapshot catalog position envelope.creationTime
  | "order" =>
    let orders ← fromValue (Json.each OrderData.read) envelope.data
    orders.mapM fun order => .order <$> orderFromSnapshot catalog order envelope.creationTime
  | "execution" =>
    let executions ← fromValue (Json.each ExecutionData.read) envelope.data
    executions.mapM fun execution => .execution <$> executionFromSnapshot catalog execution
  | topic => .error {
      kind := .unsupported
      message := "unsupported bybit private topic '" ++ topic ++ "'" }

/-! ### Positions -/

/-- The record can be decoded. -/
def PositionData.readable (catalog : InstrumentCatalog) (position : PositionData) : Bool :=
  (requireNativeSymbol .bybit catalog position.symbol).isOk && ((parseSide position.side).isOk &&
    ((parseDecimal position.size).isOk && ((parseOptionalDecimalStr position.entryPrice).isOk &&
      ((parseOptionalDecimalStr position.unrealisedPnl).isOk &&
        (parseOptionalDecimal position.leverage).isOk))))

/-- What a position message says, before it is decoded. -/
def PositionData.report (catalog : InstrumentCatalog) (position : PositionData) :
    PositionReport where
  instrumentId := (resolveNativeSymbol .bybit catalog position.symbol).map (·.instrumentId)
  size := (Decimal.fromStr position.size).toOption
  skipped := position.skipped
  readable := position.readable catalog

/-- What a message says about positions. -/
def positionMessage (catalog : InstrumentCatalog) (payload : Payload) : PositionMessage :=
  match payload.value?.bind PrivateEnvelope.read with
  | none => .silent
  | some envelope =>
    if envelope.topic = "position" then
      ⟨((Json.each PositionData.read envelope.data).getD []).map (·.report catalog), true⟩
    else .silent

theorem isOk_positionFromSnapshot (catalog : InstrumentCatalog) (position : PositionData)
    (observedAt : TimestampMs) :
    (positionFromSnapshot catalog position observedAt).isOk = position.readable catalog := by
  have h : (positionFromSnapshot catalog position observedAt).isOk = _ :=
    isOk_bind_of fun _ => isOk_bind_of fun _ => isOk_bind_of fun _ => isOk_bind_of fun _ =>
      isOk_bind_of fun _ => isOk_bind_of fun _ => rfl
  simpa [PositionData.readable] using h

theorem storedAs_of_positionFromSnapshot {catalog : InstrumentCatalog} {position : PositionData}
    {observedAt : TimestampMs} {p : Position}
    (h : positionFromSnapshot catalog position observedAt = .ok p) :
    (position.report catalog).StoredAs p := by
  obtain ⟨spec, hspec, h⟩ := except_bind_eq_ok.1 h
  obtain ⟨side, -, h⟩ := except_bind_eq_ok.1 h
  obtain ⟨size, hsize, h⟩ := except_bind_eq_ok.1 h
  obtain ⟨entryPrice, -, h⟩ := except_bind_eq_ok.1 h
  obtain ⟨unrealizedPnl, -, h⟩ := except_bind_eq_ok.1 h
  obtain ⟨leverage, -, h⟩ := except_bind_eq_ok.1 h
  obtain rfl := Except.ok.inj h
  constructor
  · simp [PositionData.report, resolves_of_requireNativeSymbol hspec]
  · simp [PositionReport.closes, PositionData.report, fromStr_of_parseDecimalOf hsize,
      Except.toOption]

/-- The records of the other topics do not store positions. -/
theorem decodedAs_records {α β δ : Type} {f : β → PrivateLaneEvent} (read : Json → Option α)
    (data : Json) (records : α → List δ) (decode : δ → Except MarketError β)
    (hf : ∀ b, (f b).position? = none) :
    PositionMessage.silent.DecodedAs
      (fromValue read data >>= fun a => (records a).mapM fun d => f <$> decode d) := by
  cases fromValue read data with
  | error e => exact .nil
  | ok a =>
    show PositionMessage.silent.DecodedAs ((records a).mapM fun d => f <$> decode d)
    rw [mapM_map]
    exact PositionMessage.decodedAs_silent _ hf

/-- The positions of a message are those of its records, but for the skipped ones. -/
theorem decodedAs_parsePrivate (catalog : InstrumentCatalog) (payload : Payload) :
    (positionMessage catalog payload).DecodedAs (parsePrivate catalog payload) := by
  unfold positionMessage parsePrivate parseNativePrivate
  cases payload.value?.bind PrivateEnvelope.read with
  | none => exact .nil
  | some envelope =>
    obtain ⟨topic, creationTime, data⟩ := envelope
    by_cases hposition : topic = "position"
    · subst hposition
      show PositionMessage.DecodedAs
        ⟨((Json.each PositionData.read data).getD []).map (·.report catalog), true⟩
        (fromValue (Json.each PositionData.read) data >>= _)
      unfold fromValue
      cases Json.each PositionData.read data with
      | none => exact .nil
      | some positions =>
        exact PositionMessage.decodedAs_mapM
          (fun d => isOk_positionFromSnapshot catalog d creationTime)
          (fun d p => storedAs_of_positionFromSnapshot) positions
    · show PositionMessage.DecodedAs (if topic = "position" then _ else _) (match topic with
        | "wallet" => _ | "position" => _ | "order" => _ | "execution" => _ | _ => _)
      rw [if_neg hposition]
      split
      · exact decodedAs_records _ data List.flatten _ fun _ => rfl
      · exact absurd rfl hposition
      · exact decodedAs_records _ data id _ fun _ => rfl
      · exact decodedAs_records _ data id _ fun _ => rfl
      · exact .nil

end Bybit

end BatMarkets
