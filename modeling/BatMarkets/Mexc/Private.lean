import BatMarkets.Adapter.Values
import BatMarkets.Mexc.Orders

/-!
# The private stream of MEXC

The messages of the private websocket (`native.rs` of the MEXC adapter) and the events they are
parsed into (`parse_private`).  A message has a channel and one record.  The clock is read for a
message without a time of its own.
-/

namespace BatMarkets

open Wire

namespace Mexc

/-! ### Messages -/

/-- The envelope of the public and of the private channels. -/
structure PublicEnvelope where
  channel : String
  symbol : Option String
  data : Json
  ts : Option TimestampMs

/-- An asset, in a message or in a reply. -/
structure AssetData where
  currency : String
  availableBalance : Option Json
  available : Option Json
  walletBalance : Option Json
  equity : Option Json

/-- A position, in a message or in a reply. -/
structure PositionData where
  positionId : Json
  symbol : String
  positionType : Int64
  holdVol : Option Json
  openAvgPrice : Option Json
  markPrice : Option Json
  unrealised : Option Json
  unrealized : Option Json
  leverage : Option Json
  openType : Option Int64
  positionMode : Option Int64
  updateTime : Option TimestampMs
  createTime : Option TimestampMs

/-- A message may lack its symbol, its data and its time. -/
def PublicEnvelope.read (value : Json) : Option PublicEnvelope := do
  let fields ← value.record ["channel", "symbol", "data", "ts"]
  return {
    channel := ← Json.required fields "channel" Json.asStr
    symbol := ← Json.optional fields "symbol" Json.asStr
    data := ← Json.defaulted fields "data" some .null
    ts := ← Json.optional fields "ts" Json.asInt64 }

/-- An asset needs only its currency. -/
def AssetData.read (value : Json) : Option AssetData := do
  let fields ← value.record ["currency", "availableBalance", "available", "walletBalance",
    "equity", "unrealized"]
  return {
    currency := ← Json.required fields "currency" Json.asStr
    availableBalance := ← Json.optional fields "availableBalance" some
    available := ← Json.optional fields "available" some
    walletBalance := ← Json.optional fields "walletBalance" some
    equity := ← Json.optional fields "equity" some }

/-- A position needs its id, its symbol and its type. -/
def PositionData.read (value : Json) : Option PositionData := do
  let fields ← value.record ["positionId", "symbol", "positionType", "holdVol", "openAvgPrice",
    "markPrice", "unrealised", "unrealized", "leverage", "openType", "positionMode", "updateTime",
    "createTime"]
  return {
    positionId := ← Json.required fields "positionId" some
    symbol := ← Json.required fields "symbol" Json.asStr
    positionType := ← Json.required fields "positionType" Json.asInt64
    holdVol := ← Json.optional fields "holdVol" some
    openAvgPrice := ← Json.optional fields "openAvgPrice" some
    markPrice := ← Json.optional fields "markPrice" some
    unrealised := ← Json.optional fields "unrealised" some
    unrealized := ← Json.optional fields "unrealized" some
    leverage := ← Json.optional fields "leverage" some
    openType := ← Json.optional fields "openType" Json.asInt64
    positionMode := ← Json.optional fields "positionMode" Json.asInt64
    updateTime := ← Json.optional fields "updateTime" Json.asInt64
    createTime := ← Json.optional fields "createTime" Json.asInt64 }

/-- The fields of an order, of which those about fills and times may be missing. -/
def OrderData.read (value : Json) : Option OrderData := do
  let fields ← value.record ["orderId", "symbol", "side", "orderType", "category", "state",
    "price", "vol", "dealVol", "dealAvgPrice", "externalOid", "reduceOnly", "createTime",
    "updateTime"]
  return {
    orderId := ← Json.required fields "orderId" some
    symbol := ← Json.required fields "symbol" Json.asStr
    side := ← Json.required fields "side" Json.asInt64
    orderType := ← Json.optional fields "orderType" Json.asInt64
    category := ← Json.optional fields "category" Json.asInt64
    state := ← Json.required fields "state" Json.asInt64
    price := ← Json.required fields "price" some
    vol := ← Json.required fields "vol" some
    dealVol := ← Json.optional fields "dealVol" some
    dealAvgPrice := ← Json.optional fields "dealAvgPrice" some
    externalOid := ← Json.optional fields "externalOid" Json.asStr
    reduceOnly := ← Json.optional fields "reduceOnly" Json.asBool
    createTime := ← Json.optional fields "createTime" Json.asInt64
    updateTime := ← Json.optional fields "updateTime" Json.asInt64 }

/-- The fields of an execution, of which the fee and the time may be missing. -/
def ExecutionData.read (value : Json) : Option ExecutionData := do
  let fields ← value.record ["id", "orderId", "symbol", "side", "vol", "price", "fee",
    "feeCurrency", "isTaker", "timestamp"]
  return {
    id := ← Json.required fields "id" some
    orderId := ← Json.required fields "orderId" some
    symbol := ← Json.required fields "symbol" Json.asStr
    side := ← Json.required fields "side" Json.asInt64
    vol := ← Json.required fields "vol" some
    price := ← Json.required fields "price" some
    fee := ← Json.optional fields "fee" some
    feeCurrency := ← Json.optional fields "feeCurrency" Json.asStr
    isTaker := ← Json.optional fields "isTaker" Json.asBool
    timestamp := ← Json.optional fields "timestamp" some }

/-- The message, or an error. -/
def parseNativePublic (payload : Payload) : Except Failure PublicEnvelope :=
  match payload.value?.bind PublicEnvelope.read with
  | some envelope => .ok envelope
  | none => .error (.error (decodeMessage "failed to parse mexc public payload"))

/-- The data of a channel, by the reader of its record. -/
def fromValue {α : Type} (read : Json → Option α) (what : String) (data : Json) :
    Except Failure α :=
  match read data with
  | some a => .ok a
  | none => .error (.error (decodeMessage ("failed to decode mexc " ++ what ++ " ws")))

/-! ### Values -/

/-- The directions of a position by their codes. -/
def parsePositionDirection (value : Int64) : PositionDirection :=
  if value = 1 then .long else if value = 2 then .short else .flat

/-- The margin modes by their codes; anything but 1 is cross. -/
def parseMarginMode (value : Option Int64) : MarginMode :=
  if value = some 1 then .isolated else .cross

/-- The position modes by their codes; anything but 1 is one-way. -/
def parsePositionMode (value : Option Int64) : PositionMode :=
  if value = some 1 then .hedge else .oneWay

/-! ### Events -/

/-- A position of MEXC as the runtime knows it; numbers that cannot be read are left out. -/
def positionFromData (catalog : InstrumentCatalog) (position : PositionData)
    (observedAt : TimestampMs) (size : Decimal) : Except Failure Position := do
  let spec ← requireNativeSymbol catalog position.symbol
  let entryPrice ← okOrNone (decimalFromOptionalValue position.openAvgPrice)
  let markPrice ← okOrNone (decimalFromOptionalValue position.markPrice)
  let unrealizedPnl ← okOrNone
    (decimalFromOptionalValue (position.unrealized.or position.unrealised))
  let leverage ← okOrNone (decimalFromOptionalValue position.leverage)
  return {
    positionId := ⟨valueToIdString position.positionId⟩
    instrumentId := spec.instrumentId
    direction := parsePositionDirection position.positionType
    size := ⟨size⟩
    entryPrice := (entryPrice.filter fun value => !value.isZero).map DecimalValue.mk
    markPrice := markPrice.map DecimalValue.mk
    unrealizedPnl := unrealizedPnl.map DecimalValue.mk
    leverage := leverage.map DecimalValue.mk
    marginMode := parseMarginMode position.openType
    positionMode := parsePositionMode position.positionMode
    updatedAt := (position.updateTime.or position.createTime).getD observedAt }

/-- The events in a message of the private stream, by its channel. -/
def parsePrivate (catalog : InstrumentCatalog) (nowMs : TimestampMs) (payload : Payload) :
    Except Failure (List PrivateLaneEvent) := do
  let envelope ← parseNativePublic payload
  let observedAt := envelope.ts.getD nowMs
  match envelope.channel with
  | "push.personal.asset" =>
    let asset ← fromValue AssetData.read "asset" envelope.data
    let walletBalance ← decimalFromOptionalValue (asset.walletBalance.or asset.equity)
    let availableBalance ← decimalFromOptionalValue (asset.availableBalance.or asset.available)
    return [.balance {
      asset := ⟨asset.currency⟩
      walletBalance := ⟨walletBalance⟩
      availableBalance := ⟨availableBalance⟩
      updatedAt := observedAt }]
  | "push.personal.position" =>
    let position ← fromValue PositionData.read "position" envelope.data
    let size ← decimalFromOptionalValue position.holdVol
    return [.position (← positionFromData catalog position observedAt size)]
  | "push.personal.order" =>
    let order ← fromValue OrderData.read "order" envelope.data
    return [.order (← orderFromData catalog order observedAt)]
  | "push.personal.order.deal" =>
    let execution ← fromValue ExecutionData.read "execution" envelope.data
    return [.execution (← executionFromData catalog execution nowMs)]
  | "rs.login" | "pong" => return []
  | other => throw (.error (MarketError.withVenue
      { kind := .unsupported, message := "unsupported mexc private channel '" ++ other ++ "'" }
      .mexc .linearUsdt))

/-! ### Positions -/

/-- The record can be decoded, and its optional decimals do not panic. -/
def PositionData.readable (catalog : InstrumentCatalog) (position : PositionData) : Bool :=
  (decimalFromOptionalValue position.holdVol).isOk &&
    ((requireNativeSymbol catalog position.symbol).isOk &&
      ((okOrNone (decimalFromOptionalValue position.openAvgPrice)).isOk &&
        ((okOrNone (decimalFromOptionalValue position.markPrice)).isOk &&
          ((okOrNone (decimalFromOptionalValue
              (position.unrealized.or position.unrealised))).isOk &&
            (okOrNone (decimalFromOptionalValue position.leverage)).isOk))))

/-- What a position message says, before it is decoded. -/
def PositionData.report (catalog : InstrumentCatalog) (position : PositionData) :
    PositionReport where
  instrumentId := (resolveNativeSymbol .mexc catalog position.symbol).map (·.instrumentId)
  size := (decimalFromOptionalValue position.holdVol).toOption
  skipped := false
  readable := position.readable catalog

/-- What a message says about positions. -/
def positionMessage (catalog : InstrumentCatalog) (payload : Payload) : PositionMessage :=
  match payload.value?.bind PublicEnvelope.read with
  | none => .silent
  | some envelope =>
    if envelope.channel = "push.personal.position" then
      ⟨((PositionData.read envelope.data).map (·.report catalog)).toList, true⟩
    else .silent

/-- The position of a record. -/
def decodePosition (catalog : InstrumentCatalog) (observedAt : TimestampMs)
    (position : PositionData) : Except Failure Position := do
  let size ← decimalFromOptionalValue position.holdVol
  positionFromData catalog position observedAt size

theorem isOk_decodePosition (catalog : InstrumentCatalog) (observedAt : TimestampMs)
    (position : PositionData) :
    (decodePosition catalog observedAt position).isOk = position.readable catalog := by
  have h : (decodePosition catalog observedAt position).isOk = _ :=
    isOk_bind_of fun _ => isOk_bind_of fun _ => isOk_bind_of fun _ => isOk_bind_of fun _ =>
      isOk_bind_of fun _ => isOk_bind_of fun _ => rfl
  simpa [PositionData.readable] using h

theorem storedAs_of_decodePosition {catalog : InstrumentCatalog} {observedAt : TimestampMs}
    {position : PositionData} {p : Position}
    (h : decodePosition catalog observedAt position = .ok p) :
    (position.report catalog).StoredAs p := by
  obtain ⟨size, hsize, h⟩ := except_bind_eq_ok.1 h
  obtain ⟨spec, hspec, h⟩ := except_bind_eq_ok.1 h
  obtain ⟨entryPrice, -, h⟩ := except_bind_eq_ok.1 h
  obtain ⟨markPrice, -, h⟩ := except_bind_eq_ok.1 h
  obtain ⟨unrealizedPnl, -, h⟩ := except_bind_eq_ok.1 h
  obtain ⟨leverage, -, h⟩ := except_bind_eq_ok.1 h
  obtain rfl := Except.ok.inj h
  constructor
  · simp [PositionData.report, requireNativeSymbol_eq_ok.1 hspec]
  · simp [PositionReport.closes, PositionData.report, hsize, Except.toOption]

/-- The position of a message is the one of its record. -/
theorem decodedAs_parsePrivate (catalog : InstrumentCatalog) (nowMs : TimestampMs)
    (payload : Payload) :
    (positionMessage catalog payload).DecodedAs (parsePrivate catalog nowMs payload) := by
  unfold positionMessage parsePrivate parseNativePublic
  cases payload.value?.bind PublicEnvelope.read with
  | none => exact .nil
  | some envelope =>
    obtain ⟨channel, symbol, data, ts⟩ := envelope
    by_cases hposition : channel = "push.personal.position"
    · subst hposition
      show PositionMessage.DecodedAs
        ⟨((PositionData.read data).map (·.report catalog)).toList, true⟩
        (fromValue PositionData.read "position" data >>= fun position =>
          decimalFromOptionalValue position.holdVol >>= fun size =>
            positionFromData catalog position (ts.getD nowMs) size >>= fun p =>
              pure [.position p])
      unfold fromValue
      cases PositionData.read data with
      | none => exact .nil
      | some position =>
        have hreadable : ∀ d : PositionData, (decodePosition catalog (ts.getD nowMs) d).isOk =
            (d.report catalog).readable := isOk_decodePosition catalog (ts.getD nowMs)
        have hstored : ∀ (d : PositionData) (p : Position),
            decodePosition catalog (ts.getD nowMs) d = .ok p → (d.report catalog).StoredAs p :=
          fun d p => storedAs_of_decodePosition
        have h := PositionMessage.decodedAs_single hreadable hstored (d := position) rfl
        rw [decodePosition, bind_assoc] at h
        exact h
    · show PositionMessage.DecodedAs (if channel = "push.personal.position" then _ else _)
        (match channel with
        | "push.personal.asset" => _ | "push.personal.position" => _ | "push.personal.order" => _
        | "push.personal.order.deal" => _ | "rs.login" | "pong" => _ | _ => _)
      rw [if_neg hposition]
      split
      · refine PositionMessage.decodedAs_silent_bind (fromValue AssetData.read "asset" data) ?_
        intro asset
        refine PositionMessage.decodedAs_silent_bind _ fun walletBalance => ?_
        exact PositionMessage.decodedAs_silent_bind _ fun availableBalance => .nil
      · exact absurd rfl hposition
      · refine PositionMessage.decodedAs_silent_bind (fromValue OrderData.read "order" data) ?_
        intro order
        exact PositionMessage.decodedAs_silent_bind _ fun _ => .nil
      · refine PositionMessage.decodedAs_silent_bind
          (fromValue ExecutionData.read "execution" data) ?_
        intro execution
        exact PositionMessage.decodedAs_silent_bind _ fun _ => .nil
      · exact .nil
      · exact .nil
      · exact .nil

end Mexc

end BatMarkets
