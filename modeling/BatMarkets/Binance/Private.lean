import BatMarkets.Adapter.Values

/-!
# The private stream of Binance

The messages of the user data stream (`native.rs` of the Binance adapter) and the events they are
parsed into (`parse_private`).  The field `e` of a message names its kind; a message of another kind
is one that cannot be decoded.
-/

namespace BatMarkets

open Wire

namespace Binance

/-! ### Messages -/

/-- A balance in an account update. -/
structure AccountBalance where
  asset : String
  walletBalance : String
  crossWalletBalance : String

/-- A position in an account update. -/
structure AccountPosition where
  symbol : String
  positionAmount : String
  entryPrice : Option String
  unrealizedPnl : String
  marginType : String
  positionSide : String

/-- An account update: balances and positions that have changed. -/
structure AccountUpdateEvent where
  eventTime : TimestampMs
  transactionTime : TimestampMs
  balances : List AccountBalance
  positions : List AccountPosition

/-- An order update, with the fill that it is about, if any. -/
structure OrderTradeData where
  symbol : String
  clientOrderId : String
  side : String
  orderType : String
  timeInForce : String
  originalQuantity : String
  price : String
  averagePrice : Option String
  executionType : String
  orderStatus : String
  orderId : Int64
  lastFilledQty : String
  cumulativeFilledQty : String
  lastFilledPrice : String
  commission : Option String
  commissionAsset : Option String
  tradeTime : TimestampMs
  tradeId : Option Int64
  reduceOnly : Bool
  orderTradeTime : Option TimestampMs

/-- The short message about a fill. -/
structure TradeLiteEvent where
  eventTime : TimestampMs
  tradeTime : TimestampMs
  symbol : String
  isMaker : Bool
  clientOrderId : String
  side : String
  lastFilledPrice : String
  lastFilledQty : String
  tradeId : Int64
  orderId : Int64

/-- An update of a conditional order. -/
structure AlgoOrderUpdateEvent where
  eventTime : TimestampMs
  transactionTime : TimestampMs
  clientAlgoId : String
  algoId : Int64
  orderType : String
  symbol : String
  side : String
  timeInForce : Option String
  quantity : String
  algoStatus : String
  averagePrice : Option String
  executedQuantity : Option String
  price : Option String
  reduceOnly : Bool
  triggerTime : Option TimestampMs

/-- A message of the user data stream. -/
inductive PrivateMessage
  | accountUpdate (event : AccountUpdateEvent)
  | orderTradeUpdate (order : OrderTradeData)
  | tradeLite (event : TradeLiteEvent)
  | algoUpdate (event : AlgoOrderUpdateEvent)

/-- All fields of a balance are required. -/
def AccountBalance.read (value : Json) : Option AccountBalance := do
  let fields ← value.record ["a", "wb", "cw"]
  return {
    asset := ← Json.required fields "a" Json.asStr
    walletBalance := ← Json.required fields "wb" Json.asStr
    crossWalletBalance := ← Json.required fields "cw" Json.asStr }

/-- Only the entry price of a position may be missing. -/
def AccountPosition.read (value : Json) : Option AccountPosition := do
  let fields ← value.record ["s", "pa", "ep", "up", "mt", "ps"]
  return {
    symbol := ← Json.required fields "s" Json.asStr
    positionAmount := ← Json.required fields "pa" Json.asStr
    entryPrice := ← Json.optional fields "ep" Json.asStr
    unrealizedPnl := ← Json.required fields "up" Json.asStr
    marginType := ← Json.required fields "mt" Json.asStr
    positionSide := ← Json.required fields "ps" Json.asStr }

/-- The balances and positions are below the key `a`. -/
def AccountUpdateEvent.read (value : Json) : Option AccountUpdateEvent := do
  let fields ← value.record ["E", "T", "a"]
  let eventTime ← Json.required fields "E" Json.asInt64
  let transactionTime ← Json.required fields "T" Json.asInt64
  let account ← Json.required fields "a" some
  let fields ← account.record ["B", "P"]
  let balances ← Json.required fields "B" (Json.each AccountBalance.read)
  let positions ← Json.required fields "P" (Json.each AccountPosition.read)
  return { eventTime, transactionTime, balances, positions }

/-- The fields of an order update, of which those about a fill may be missing. -/
def OrderTradeData.read (value : Json) : Option OrderTradeData := do
  let fields ← value.recordOf ["s", "c", "S", "o", "f", "q", "p", "ap", "x", "X", "i", "l", "z",
    "L", "n", "N", "T", "t", "R", "O"] 20
  return {
    symbol := ← Json.required fields "s" Json.asStr
    clientOrderId := ← Json.required fields "c" Json.asStr
    side := ← Json.required fields "S" Json.asStr
    orderType := ← Json.required fields "o" Json.asStr
    timeInForce := ← Json.required fields "f" Json.asStr
    originalQuantity := ← Json.required fields "q" Json.asStr
    price := ← Json.required fields "p" Json.asStr
    averagePrice := ← Json.optional fields "ap" Json.asStr
    executionType := ← Json.required fields "x" Json.asStr
    orderStatus := ← Json.required fields "X" Json.asStr
    orderId := ← Json.required fields "i" Json.asInt64
    lastFilledQty := ← Json.required fields "l" Json.asStr
    cumulativeFilledQty := ← Json.required fields "z" Json.asStr
    lastFilledPrice := ← Json.required fields "L" Json.asStr
    commission := ← Json.optional fields "n" Json.asStr
    commissionAsset := ← Json.optional fields "N" Json.asStr
    tradeTime := ← Json.required fields "T" Json.asInt64
    tradeId := ← Json.optional fields "t" Json.asInt64
    reduceOnly := ← Json.required fields "R" Json.asBool
    orderTradeTime := ← Json.optional fields "O" Json.asInt64 }

/-- The texts under `q` and `p` are required, but nothing reads them. -/
def TradeLiteEvent.read (value : Json) : Option TradeLiteEvent := do
  let fields ← value.record ["E", "T", "s", "q", "p", "m", "c", "S", "L", "l", "t", "i"]
  let _ ← ["q", "p"].mapM fun key => Json.required fields key Json.asStr
  return {
    eventTime := ← Json.required fields "E" Json.asInt64
    tradeTime := ← Json.required fields "T" Json.asInt64
    symbol := ← Json.required fields "s" Json.asStr
    isMaker := ← Json.required fields "m" Json.asBool
    clientOrderId := ← Json.required fields "c" Json.asStr
    side := ← Json.required fields "S" Json.asStr
    lastFilledPrice := ← Json.required fields "L" Json.asStr
    lastFilledQty := ← Json.required fields "l" Json.asStr
    tradeId := ← Json.required fields "t" Json.asInt64
    orderId := ← Json.required fields "i" Json.asInt64 }

/-- The fields of a conditional order are below the key `o`. -/
def AlgoOrderUpdateEvent.read (value : Json) : Option AlgoOrderUpdateEvent := do
  let fields ← value.record ["E", "T", "o"]
  let eventTime ← Json.required fields "E" Json.asInt64
  let transactionTime ← Json.required fields "T" Json.asInt64
  let order ← Json.required fields "o" some
  let fields ← order.recordOf ["caid", "aid", "o", "s", "S", "ps", "f", "q", "X", "ai", "ap",
    "aq", "p", "tp", "wt", "cp", "pP", "R", "tt", "rm"] 18
  let _ ← ["ps", "tp"].mapM fun key => Json.required fields key Json.asStr
  let _ ← ["cp", "pP"].mapM fun key => Json.required fields key Json.asBool
  let _ ← ["ai", "wt", "rm"].mapM fun key => Json.optional fields key Json.asStr
  return {
    eventTime, transactionTime
    clientAlgoId := ← Json.required fields "caid" Json.asStr
    algoId := ← Json.required fields "aid" Json.asInt64
    orderType := ← Json.required fields "o" Json.asStr
    symbol := ← Json.required fields "s" Json.asStr
    side := ← Json.required fields "S" Json.asStr
    timeInForce := ← Json.optional fields "f" Json.asStr
    quantity := ← Json.required fields "q" Json.asStr
    algoStatus := ← Json.required fields "X" Json.asStr
    averagePrice := ← Json.optional fields "ap" Json.asStr
    executedQuantity := ← Json.optional fields "aq" Json.asStr
    price := ← Json.optional fields "p" Json.asStr
    reduceOnly := ← Json.required fields "R" Json.asBool
    triggerTime := ← Json.optional fields "tt" Json.asInt64 }

/-- The field `e` names the kind of a message; other kinds cannot be read. -/
def PrivateMessage.read (value : Json) : Option PrivateMessage := do
  let (tag, rest) ← value.tagged "e"
  match tag with
  | "ACCOUNT_UPDATE" => .accountUpdate <$> AccountUpdateEvent.read rest
  | "ORDER_TRADE_UPDATE" =>
    let fields ← rest.record ["o"]
    .orderTradeUpdate <$> Json.required fields "o" OrderTradeData.read
  | "TRADE_LITE" => .tradeLite <$> TradeLiteEvent.read rest
  | "ALGO_UPDATE" => .algoUpdate <$> AlgoOrderUpdateEvent.read rest
  | _ => none

/-- The message, or an error that names the venue. -/
def parseNativePrivate (payload : Payload) : Except MarketError PrivateMessage :=
  match payload.value?.bind PrivateMessage.read with
  | some message => .ok message
  | none => .error <| ((decodeFailure "failed to parse binance private payload").withVenue
      .binance .linearUsdt).withOperation "binance.parse_native_private"

/-! ### Values -/

/-- A decimal, with an error of Binance if it is none. -/
def parseDecimal (raw : String) : Except MarketError Decimal := parseDecimalOf .binance raw

/-- A decimal that may be missing. -/
def parseOptionalDecimal (raw : Option String) : Except MarketError (Option Decimal) :=
  raw.mapM parseDecimal

/-- A decimal that may be missing or empty. -/
def parseOptionalDecimalOrEmpty (raw : Option String) : Except MarketError (Option Decimal) :=
  (raw.filter fun raw => !raw.isEmpty).mapM parseDecimal

/-- A price that may be missing, empty or zero, all of which mean that there is none. -/
def parseOptionalPriceOrEmpty (raw : Option String) : Except MarketError (Option Price) :=
  (fun value => (value.filter fun price => !price.isZero).map DecimalValue.mk) <$>
    parseOptionalDecimalOrEmpty raw

/-- An amount of an asset. -/
def balanceAmount (raw : String) : Except MarketError Amount := DecimalValue.mk <$> parseDecimal raw

/-- The error for a word that is not one of a kind. -/
def unsupportedWord (kind raw : String) : MarketError :=
  decodeFailure ("unsupported binance " ++ kind ++ " '" ++ raw ++ "'")

/-- The two sides in the words of Binance. -/
def parseSide (raw : String) : Except MarketError Side :=
  match raw with
  | "BUY" => .ok .buy
  | "SELL" => .ok .sell
  | other => .error (unsupportedWord "side" other)

/-- The types of an order in the words of Binance. -/
def parseOrderType (raw : String) : Except MarketError OrderType :=
  match raw with
  | "MARKET" => .ok .market
  | "LIMIT" => .ok .limit
  | "STOP_MARKET" => .ok .stopMarket
  | "STOP" => .ok .stopLimit
  | "TAKE_PROFIT_MARKET" => .ok .takeProfitMarket
  | "TAKE_PROFIT" => .ok .takeProfitLimit
  | other => .error (unsupportedWord "order type" other)

/-- The times in force in the words of Binance. -/
def parseTimeInForce (raw : String) : Except MarketError TimeInForce :=
  match raw with
  | "GTC" => .ok .gtc
  | "IOC" => .ok .ioc
  | "FOK" => .ok .fok
  | "GTX" => .ok .postOnly
  | other => .error (unsupportedWord "time in force" other)

/-- A time in force that may be missing or empty. -/
def parseOptionalTimeInForce (raw : Option String) : Except MarketError (Option TimeInForce) :=
  (raw.filter fun raw => !raw.isEmpty).mapM parseTimeInForce

/-- The states of an order in the words of Binance. -/
def parseOrderStatus (raw : String) : Except MarketError OrderStatus :=
  match raw with
  | "NEW" => .ok .new
  | "PARTIALLY_FILLED" => .ok .partiallyFilled
  | "FILLED" => .ok .filled
  | "CANCELED" => .ok .canceled
  | "REJECTED" => .ok .rejected
  | "EXPIRED" => .ok .expired
  | "PENDING_CANCEL" => .ok .pendingCancel
  | other => .error (unsupportedWord "order status" other)

/-- The state of a conditional order: once it is triggered, what is filled decides. -/
def parseAlgoOrderStatus (raw : String) (filledQuantity : Decimal) : OrderStatus :=
  match raw with
  | "NEW" => .new
  | "CANCELED" => .canceled
  | "TRIGGERING" | "TRIGGERED" => if Decimal.lt 0 filledQuantity then .partiallyFilled else .new
  | "FINISHED" => if Decimal.lt 0 filledQuantity then .filled else .canceled
  | "REJECTED" => .rejected
  | "EXPIRED" => .expired
  | _ => .new

/-- The margin modes, in all the spellings that Binance uses. -/
def parseMarginMode (raw : String) : Except MarketError MarginMode :=
  match raw with
  | "isolated" | "ISOLATED" => .ok .isolated
  | "cross" | "crossed" | "CROSSED" => .ok .cross
  | other => .error (unsupportedWord "margin type" other)

/-- A side of a position that is named means hedge mode. -/
def parsePositionMode (raw : String) : PositionMode :=
  match raw with
  | "LONG" | "SHORT" => .hedge
  | _ => .oneWay

/-- The direction of a position, by the sign of its amount. -/
def decimalDirection (value : Decimal) : PositionDirection :=
  if Decimal.lt 0 value then .long else if value.lt 0 then .short else .flat

/-! ### Events -/

/-- The balance of an account update. -/
def balanceFromUpdate (transactionTime : TimestampMs) (balance : AccountBalance) :
    Except MarketError Balance := do
  let walletBalance ← balanceAmount balance.walletBalance
  let availableBalance ← balanceAmount balance.crossWalletBalance
  return { asset := ⟨balance.asset⟩, walletBalance, availableBalance, updatedAt := transactionTime }

/-- The position of an account update. -/
def positionFromUpdate (catalog : InstrumentCatalog) (eventTime : TimestampMs)
    (position : AccountPosition) : Except MarketError Position := do
  let spec ← requireNativeSymbol .binance catalog position.symbol
  let size ← parseDecimal position.positionAmount
  let entryPrice ← parseOptionalDecimal position.entryPrice
  let unrealizedPnl ← balanceAmount position.unrealizedPnl
  let marginMode ← parseMarginMode position.marginType
  return {
    positionId := ⟨"binance:" ++ position.symbol ++ ":" ++ position.positionSide⟩
    instrumentId := spec.instrumentId
    direction := decimalDirection size
    size := ⟨size.abs⟩
    entryPrice := entryPrice.map DecimalValue.mk
    markPrice := none
    unrealizedPnl := some unrealizedPnl
    leverage := none
    marginMode
    positionMode := parsePositionMode position.positionSide
    updatedAt := eventTime }

/-- An order update as the runtime knows the order. -/
def orderFromUpdate (catalog : InstrumentCatalog) (order : OrderTradeData) :
    Except MarketError Order := do
  let spec ← requireNativeSymbol .binance catalog order.symbol
  let averageFillPrice ← parseOptionalDecimal order.averagePrice
  let side ← parseSide order.side
  let orderType ← parseOrderType order.orderType
  let timeInForce ← parseTimeInForce order.timeInForce
  let status ← parseOrderStatus order.orderStatus
  let price ← parseDecimal order.price
  let quantity ← parseDecimal order.originalQuantity
  let filledQuantity ← parseDecimal order.cumulativeFilledQty
  return {
    orderId := ⟨toString order.orderId⟩
    clientOrderId := some ⟨order.clientOrderId⟩
    instrumentId := spec.instrumentId
    side, orderType, status
    timeInForce := some timeInForce
    price := some ⟨price⟩
    quantity := ⟨quantity⟩
    filledQuantity := ⟨filledQuantity⟩
    averageFillPrice := averageFillPrice.map DecimalValue.mk
    reduceOnly := order.reduceOnly
    postOnly := false
    createdAt := order.orderTradeTime.getD order.tradeTime
    updatedAt := order.tradeTime
    venueStatus := some order.executionType }

/-- The execution an order update reports, if something was filled. -/
def executionFromUpdate (order : OrderTradeData) (unified : Order) :
    Except MarketError (Option Execution) := do
  let lastFilledQty ← parseDecimal order.lastFilledQty
  if Decimal.lt 0 lastFilledQty then
    let side ← parseSide order.side
    let price ← parseDecimal order.lastFilledPrice
    let fee ← parseOptionalDecimal order.commission
    return some {
      executionId := ⟨toString (order.tradeId.getD order.tradeTime)⟩
      orderId := unified.orderId
      clientOrderId := unified.clientOrderId
      instrumentId := unified.instrumentId
      side
      quantity := ⟨lastFilledQty⟩
      price := ⟨price⟩
      fee := fee.map DecimalValue.mk
      feeAsset := order.commissionAsset.map StringId.mk
      liquidity := none
      executedAt := order.tradeTime }
  else return none

/-- The execution in a short message about a fill. -/
def executionFromTradeLite (catalog : InstrumentCatalog) (event : TradeLiteEvent) :
    Except MarketError Execution := do
  let spec ← requireNativeSymbol .binance catalog event.symbol
  let side ← parseSide event.side
  let quantity ← parseDecimal event.lastFilledQty
  let price ← parseDecimal event.lastFilledPrice
  return {
    executionId := ⟨toString event.tradeId⟩
    orderId := ⟨toString event.orderId⟩
    clientOrderId := some ⟨event.clientOrderId⟩
    instrumentId := spec.instrumentId
    side
    quantity := ⟨quantity⟩
    price := ⟨price⟩
    fee := none
    feeAsset := none
    liquidity := some (if event.isMaker then .maker else .taker)
    executedAt := max event.tradeTime event.eventTime }

/-- A conditional order as the runtime knows it; the filled quantity may be missing. -/
def algoOrderFromUpdateEvent (catalog : InstrumentCatalog) (event : AlgoOrderUpdateEvent) :
    Except MarketError Order := do
  let spec ← requireNativeSymbol .binance catalog event.symbol
  let filledQuantity := (← parseOptionalDecimalOrEmpty event.executedQuantity).getD 0
  let side ← parseSide event.side
  let orderType ← parseOrderType event.orderType
  let timeInForce ← parseOptionalTimeInForce event.timeInForce
  let price ← parseOptionalPriceOrEmpty event.price
  let quantity ← parseDecimal event.quantity
  let averageFillPrice ← parseOptionalPriceOrEmpty event.averagePrice
  return {
    orderId := algoOrderId event.algoId.toInt
    clientOrderId := some ⟨event.clientAlgoId⟩
    instrumentId := spec.instrumentId
    side, orderType, timeInForce, price, averageFillPrice
    status := parseAlgoOrderStatus event.algoStatus filledQuantity
    quantity := ⟨quantity⟩
    filledQuantity := ⟨filledQuantity⟩
    reduceOnly := event.reduceOnly
    postOnly := event.timeInForce == some "GTX"
    createdAt := (event.triggerTime.filter (0 < ·)).getD event.transactionTime
    updatedAt := max event.eventTime event.transactionTime
    venueStatus := some event.algoStatus }

/-- The events in a message of the user data stream. -/
def parsePrivate (catalog : InstrumentCatalog) (payload : Payload) :
    Except MarketError (List PrivateLaneEvent) := do
  match ← parseNativePrivate payload with
  | .accountUpdate event =>
    let balances ← event.balances.mapM (balanceFromUpdate event.transactionTime)
    let positions ← event.positions.mapM (positionFromUpdate catalog event.eventTime)
    return balances.map .balance ++ positions.map .position
  | .orderTradeUpdate order =>
    let unified ← orderFromUpdate catalog order
    let execution ← executionFromUpdate order unified
    return .order unified :: (execution.map .execution).toList
  | .tradeLite event => return [.execution (← executionFromTradeLite catalog event)]
  | .algoUpdate event => return [.order (← algoOrderFromUpdateEvent catalog event)]

/-! ### Positions -/

/-- The record can be decoded. -/
def AccountBalance.readable (balance : AccountBalance) : Bool :=
  (balanceAmount balance.walletBalance).isOk && (balanceAmount balance.crossWalletBalance).isOk

/-- The record can be decoded. -/
def AccountPosition.readable (catalog : InstrumentCatalog) (position : AccountPosition) : Bool :=
  (requireNativeSymbol .binance catalog position.symbol).isOk &&
    ((parseDecimal position.positionAmount).isOk &&
      ((parseOptionalDecimal position.entryPrice).isOk &&
        ((balanceAmount position.unrealizedPnl).isOk &&
          (parseMarginMode position.marginType).isOk)))

/-- What an account update says of a position, before it is decoded. -/
def AccountPosition.report (catalog : InstrumentCatalog) (position : AccountPosition) :
    PositionReport where
  instrumentId := (resolveNativeSymbol .binance catalog position.symbol).map (·.instrumentId)
  size := (Decimal.fromStr position.positionAmount).toOption
  skipped := false
  readable := position.readable catalog

/-- What a message says about positions. -/
def positionMessage (catalog : InstrumentCatalog) (payload : Payload) : PositionMessage :=
  match payload.value?.bind PrivateMessage.read with
  | some (.accountUpdate event) =>
    ⟨event.positions.map (·.report catalog), event.balances.all (·.readable)⟩
  | _ => .silent

theorem isOk_balanceFromUpdate (transactionTime : TimestampMs) (balance : AccountBalance) :
    (balanceFromUpdate transactionTime balance).isOk = balance.readable := by
  have h : (balanceFromUpdate transactionTime balance).isOk = _ :=
    isOk_bind_of fun _ => isOk_bind_of fun _ => rfl
  simpa [AccountBalance.readable] using h

theorem isOk_positionFromUpdate (catalog : InstrumentCatalog) (eventTime : TimestampMs)
    (position : AccountPosition) :
    (positionFromUpdate catalog eventTime position).isOk = position.readable catalog := by
  have h : (positionFromUpdate catalog eventTime position).isOk = _ :=
    isOk_bind_of fun _ => isOk_bind_of fun _ => isOk_bind_of fun _ => isOk_bind_of fun _ =>
      isOk_bind_of fun _ => rfl
  simpa [AccountPosition.readable] using h

theorem storedAs_of_positionFromUpdate {catalog : InstrumentCatalog} {eventTime : TimestampMs}
    {position : AccountPosition} {p : Position}
    (h : positionFromUpdate catalog eventTime position = .ok p) :
    (position.report catalog).StoredAs p := by
  obtain ⟨spec, hspec, h⟩ := except_bind_eq_ok.1 h
  obtain ⟨size, hsize, h⟩ := except_bind_eq_ok.1 h
  obtain ⟨entryPrice, -, h⟩ := except_bind_eq_ok.1 h
  obtain ⟨unrealizedPnl, -, h⟩ := except_bind_eq_ok.1 h
  obtain ⟨marginMode, -, h⟩ := except_bind_eq_ok.1 h
  obtain rfl := Except.ok.inj h
  constructor
  · simp [AccountPosition.report, resolves_of_requireNativeSymbol hspec]
  · simp [PositionReport.closes, AccountPosition.report, fromStr_of_parseDecimalOf hsize,
      Except.toOption]

/-- No record of an account update is skipped. -/
theorem forall₂_stored_positions (catalog : InstrumentCatalog) (eventTime : TimestampMs)
    (positions : List AccountPosition) :
    List.Forall₂ PositionReport.StoredAs
      (PositionMessage.stored ⟨positions.map (·.report catalog), true⟩)
      ((positions.mapM (positionFromUpdate catalog eventTime)).toOption.getD []) := by
  have hkept : positions.filter (fun d => !(d.report catalog).skipped) = positions :=
    List.filter_eq_self.2 fun _ _ => rfl
  have h := PositionMessage.forall₂_stored
    (fun d => isOk_positionFromUpdate catalog eventTime d)
    (fun d p => storedAs_of_positionFromUpdate) positions
  rw [hkept] at h
  exact h

/-- The positions of a message are those of its records. -/
theorem decodedAs_parsePrivate (catalog : InstrumentCatalog) (payload : Payload) :
    (positionMessage catalog payload).DecodedAs (parsePrivate catalog payload) := by
  unfold positionMessage parsePrivate parseNativePrivate
  cases payload.value?.bind PrivateMessage.read with
  | none => exact .nil
  | some message =>
    cases message with
    | accountUpdate event =>
      have hbalances : event.balances.all (·.readable) =
          (event.balances.mapM (balanceFromUpdate event.transactionTime)).isOk := by
        rw [isOk_mapM]
        simp only [isOk_balanceFromUpdate]
      show PositionMessage.DecodedAs
        ⟨event.positions.map (·.report catalog), event.balances.all (·.readable)⟩
        (event.balances.mapM (balanceFromUpdate event.transactionTime) >>= fun balances =>
          event.positions.mapM (positionFromUpdate catalog event.eventTime) >>= fun positions =>
            pure (balances.map .balance ++ positions.map .position))
      rw [hbalances]
      cases event.balances.mapM (balanceFromUpdate event.transactionTime) with
      | error e => exact .nil
      | ok balances =>
        have h := forall₂_stored_positions catalog event.eventTime event.positions
        cases hps : event.positions.mapM (positionFromUpdate catalog event.eventTime) with
        | error e =>
          rw [hps] at h
          exact h
        | ok positions =>
          rw [hps] at h
          show List.Forall₂ _ _ ((balances.map PrivateLaneEvent.balance ++
            positions.map PrivateLaneEvent.position).filterMap PrivateLaneEvent.position?)
          rw [List.filterMap_append,
            PositionMessage.filterMap_position?_eq_nil balances fun _ => rfl,
            PositionMessage.filterMap_position?_position]
          exact h
    | orderTradeUpdate order =>
      refine PositionMessage.decodedAs_silent_bind (orderFromUpdate catalog order) ?_
      intro unified
      refine PositionMessage.decodedAs_silent_bind (executionFromUpdate order unified) ?_
      intro execution
      cases execution <;> exact .nil
    | tradeLite event =>
      exact PositionMessage.decodedAs_silent_bind (executionFromTradeLite catalog event)
        fun _ => .nil
    | algoUpdate event =>
      exact PositionMessage.decodedAs_silent_bind (algoOrderFromUpdateEvent catalog event)
        fun _ => .nil

end Binance

end BatMarkets
