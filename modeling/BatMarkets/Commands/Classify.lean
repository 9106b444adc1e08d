import BatMarkets.Core.Command
import BatMarkets.Mexc.Values
import BatMarkets.Wire.Json

/-!
# The replies to commands

How the adapters classify the reply to a command (`classify_command` of the three adapters).  A
reply is a JSON value, or a text that is not JSON; a command whose reply did not arrive has none.

The result is a receipt, or an error when the reply cannot be decoded.  The details that the JSON
library adds to the message of such an error are left out.
-/

namespace BatMarkets

open Wire

/-- The body of a reply. -/
inductive Payload
  | json (value : Json)
  /-- A text that is not JSON. -/
  | text (text : String)

/-- The JSON value of the reply. -/
def Payload.value? : Payload → Option Json
  | .json value => some value
  | .text _ => none

/-- A receipt that says nothing but the status. -/
def CommandReceipt.plain (venue : Venue) (operation : CommandOperation) (status : CommandStatus)
    (requestId : Option RequestId) (message nativeCode : Option String) (retriable : Bool) :
    CommandReceipt where
  operation := operation
  status := status
  venue := venue
  product := .linearUsdt
  instrumentId := none
  orderId := none
  clientOrderId := none
  requestId := requestId
  message := message
  nativeCode := nativeCode
  retriable := retriable

/-- The receipt of a command whose reply did not arrive. -/
def unknownExecution (venue : Venue) (operation : CommandOperation) (requestId : Option RequestId) :
    CommandReceipt :=
  .plain venue operation .unknownExecution requestId (some "command outcome requires reconcile")
    none true

/-! ### Binance -/

namespace Binance

/-- The code and the message of an error. -/
def errorResponse (value : Json) : Option (Int × String) := do
  let fields ← value.record ["code", "msg"]
  return (← Json.required fields "code" Json.asI64, ← Json.required fields "msg" Json.asStr)

/-- The symbol, order id and client order id of an order. -/
def orderResponse (value : Json) : Option (String × Int × String) := do
  let fields ← value.record ["symbol", "orderId", "clientOrderId"]
  return (← Json.required fields "symbol" Json.asStr, ← Json.required fields "orderId" Json.asI64,
    ← Json.required fields "clientOrderId" Json.asStr)

/-- The symbol, id and client id of a conditional order. -/
def algoOrderSnapshot (value : Json) : Option (String × Int × String) := do
  let fields ← value.record ["algoId", "clientAlgoId", "orderType", "symbol", "side",
    "positionSide", "timeInForce", "quantity", "algoStatus", "actualOrderId", "actualPrice",
    "triggerPrice", "price", "workingType", "closePosition", "priceProtect", "reduceOnly",
    "createTime", "updateTime", "triggerTime"]
  let algoId ← Json.required fields "algoId" Json.asI64
  let clientAlgoId ← Json.required fields "clientAlgoId" Json.asStr
  let symbol ← Json.required fields "symbol" Json.asStr
  let _ ← ["orderType", "side", "quantity", "algoStatus"].mapM fun key =>
    Json.required fields key Json.asStr
  let _ ← ["createTime", "updateTime"].mapM fun key => Json.required fields key Json.asI64
  let _ ← ["positionSide", "timeInForce", "actualOrderId", "actualPrice", "triggerPrice", "price",
    "workingType"].mapM fun key => Json.optional fields key Json.asStr
  let _ ← ["closePosition", "priceProtect", "reduceOnly"].mapM fun key =>
    Json.optional fields key Json.asBool
  let _ ← Json.optional fields "triggerTime" Json.asI64
  return (symbol, algoId, clientAlgoId)

/-- The id and client id of a conditional order that has been cancelled. -/
def cancelAlgoOrderResponse (value : Json) : Option (Int × String) := do
  let fields ← value.record ["algoId", "clientAlgoId", "code", "msg"]
  let algoId ← Json.required fields "algoId" Json.asI64
  let clientAlgoId ← Json.required fields "clientAlgoId" Json.asStr
  let _ ← Json.optional fields "msg" Json.asStr
  return (algoId, clientAlgoId)

/-- The order id under which the runtime knows a conditional order of Binance. -/
def algoOrderId (algoId : Int) : OrderId := ⟨"binance-algo:" ++ toString algoId⟩

/-- What an accepted command says about its order: symbol, order id and client order id. -/
def commandIdentity (value : Json) : Option (Option String × OrderId × ClientOrderId) :=
  let plain := match value.get? "result" with
    | some result => orderResponse result
    | none => orderResponse value
  match plain, algoOrderSnapshot value, cancelAlgoOrderResponse value with
  | some (symbol, orderId, clientOrderId), _, _ =>
    some (some symbol, ⟨toString orderId⟩, ⟨clientOrderId⟩)
  | none, some (symbol, algoId, clientAlgoId), _ =>
    some (some symbol, algoOrderId algoId, ⟨clientAlgoId⟩)
  | none, none, some (algoId, clientAlgoId) => some (none, algoOrderId algoId, ⟨clientAlgoId⟩)
  | none, none, none => none

/-- The error a reply reports, under `error` or at the top. -/
def reportedError (value : Json) : Option (Int × String) :=
  ((value.get? "error").bind errorResponse).or (errorResponse value)

/-- An error for a reply that cannot be decoded. -/
def undecodable (message : String) : MarketError where
  kind := .decodeError
  message := message

/-- The instrument of a symbol, when the reply names one. -/
def instrumentOf (catalog : InstrumentCatalog) (symbol : Option String) :
    Except MarketError (Option InstrumentId) :=
  symbol.mapM fun symbol =>
    (·.instrumentId) <$> BatMarkets.requireNativeSymbol .binance catalog symbol

/-- The receipt for a reply of Binance: an error if it can be read as one, else a success. -/
def classifyReply (catalog : InstrumentCatalog) (operation : CommandOperation) (payload : Payload)
    (requestId : Option RequestId) : Except MarketError CommandReceipt :=
  match payload.value?.bind reportedError with
  | some (code, message) =>
    .ok (.plain .binance operation .rejected requestId (some message) (some (toString code)) false)
  | none =>
    let accepted :=
      CommandReceipt.plain .binance operation .accepted requestId (some "accepted") none false
    match operation with
    | .createOrder | .amendOrder | .cancelOrder | .closePosition | .getOrder =>
      match payload.value?.bind commandIdentity with
      | none => .error
          { undecodable "failed to classify binance order response" with
            context := { venue := some .binance, product := some .linearUsdt
                         operation := some "binance.classify_command" } }
      | some (symbol, orderId, clientOrderId) => do
        let instrumentId ← instrumentOf catalog symbol
        return { accepted with instrumentId, orderId, clientOrderId }
    | .createOrders | .amendOrders | .cancelOrders | .cancelAllOrders | .validateOrder
    | .setPositionMode => .ok accepted
    | .setLeverage =>
      match payload.value?.bind fun value => do
        let fields ← value.record ["symbol", "leverage"]
        return (← Json.required fields "symbol" Json.asStr,
          ← Json.required fields "leverage" Json.asI64) with
      | none => .error (undecodable "failed to classify binance leverage response")
      | some (symbol, leverage) => do
        let instrumentId ← instrumentOf catalog (some symbol)
        return { accepted with
          instrumentId
          message := some ("leverage set to " ++ toString leverage) }
    | .setMarginMode =>
      match payload.value?.bind fun value => do
        let fields ← value.record ["code", "msg"]
        return (← Json.optional fields "code" Json.asI64,
          ← Json.required fields "msg" Json.asStr) with
      | none => .error (undecodable "failed to classify binance margin-mode response")
      | some (code, message) =>
        .ok { accepted with message := some message, nativeCode := code.map toString }

end Binance

/-! ### Bybit -/

namespace Bybit

/-- An integer, or a text that is one. -/
def asCode (value : Json) : Option Int :=
  value.asI64.or
    (value.asStr.bind fun raw => (Text.parseInt (-2 ^ 63) (2 ^ 63 - 1) raw.toList).toOption)

/-- The symbol, order id and client order id of a result; none of them if it is not a record of
them. -/
def orderResult (result : Json) : Option String × Option String × Option String :=
  (do
    let fields ← result.record ["symbol", "orderId", "orderLinkId"]
    return (← Json.optional fields "symbol" Json.asStr,
      ← Json.optional fields "orderId" Json.asStr,
      ← Json.optional fields "orderLinkId" Json.asStr) : Option _).getD (none, none, none)

/-- The receipt for a reply of Bybit, by its code. -/
def classifyReply (catalog : InstrumentCatalog) (operation : CommandOperation) (payload : Payload)
    (requestId : Option RequestId) : Except MarketError CommandReceipt :=
  match payload with
  | .text _ => .error
      { kind := .decodeError, message := "failed to classify bybit command response" }
  | .json value =>
    let retCode := ((value.get? "retCode").bind asCode).getD 0
    let retMsg := ((value.get? "retMsg").bind Json.asStr).getD ""
    let result := ((value.get? "result").or (value.get? "data")).getD .null
    if retCode ≠ 0 then
      .ok (.plain .bybit operation .rejected requestId (some retMsg) (some (toString retCode)) false)
    else
      let accepted := CommandReceipt.plain .bybit operation .accepted requestId (some retMsg)
        (some (toString retCode)) false
      match operation with
      | .createOrder | .amendOrder | .cancelOrder | .closePosition | .getOrder =>
        let (symbol, orderId, orderLinkId) := orderResult result
        .ok { accepted with
          instrumentId :=
            (symbol.bind (resolveNativeSymbol .bybit catalog)).map (·.instrumentId)
          orderId := orderId.map StringId.mk
          clientOrderId := orderLinkId.map StringId.mk }
      | _ => .ok accepted

end Bybit

/-! ### MEXC -/

namespace Mexc

/-- The order id in the data of a reply. -/
def commandOrderId (data : Option Json) : Option OrderId := do
  let value ← match ← data with
    | .array items => (← items.head?).get? "orderId"
    | .object fields => ((Json.object fields).get? "orderId").or ((Json.object fields).get? "order_id")
    | value => some value
  let id := valueToIdString value
  if id ≠ "" ∧ id ≠ "null" then some ⟨id⟩ else none

/-- The error of the first item in the data of a reply. -/
def commandItemError (data : Option Json) : Option (Int64 × Option String) := do
  let item ← match ← data with
    | .array items => items.head?
    | .object fields => some (.object fields)
    | _ => none
  let errorCode ← ((item.get? "errorCode").or (item.get? "error_code")).bind valueToI64
  if errorCode = 0 then none
  else some (errorCode, ((item.get? "errorMsg").or (item.get? "error_msg")).bind Json.asStr)

/-- The receipt for a reply of MEXC, by its flag and its code. -/
def classifyReply (operation : CommandOperation) (payload : Payload)
    (requestId : Option RequestId) : Except MarketError CommandReceipt :=
  match payload with
  | .text _ => .error (decodeMessage "failed to parse mexc command payload")
  | .json value =>
    let success := ((value.get? "success").bind Json.asBool).getD false
    let code := ((value.get? "code").bind valueToI64).getD 0
    let message := ((value.get? "message").bind Json.asStr).or ((value.get? "msg").bind Json.asStr)
    let itemError := commandItemError (value.get? "data")
    let itemErrorCode := (itemError.map (·.1)).getD code
    let status := if success && code == 0 && itemError.isNone then .accepted else .rejected
    .ok { CommandReceipt.plain .mexc operation status requestId
        (((itemError.bind (·.2)).or message).or (some (if success then "accepted" else "rejected")))
        (some (toString itemErrorCode.toInt))
        (itemErrorCode ∈ [500, 501, 510, 603, 2037]) with
      orderId := commandOrderId (value.get? "data") }

end Mexc

/-- The receipt of a command, by the adapter of the venue. -/
def classifyCommand (venue : Venue) (catalog : InstrumentCatalog) (operation : CommandOperation)
    (payload : Option Payload) (requestId : Option RequestId) : Except MarketError CommandReceipt :=
  match payload with
  | none => .ok (unknownExecution venue operation requestId)
  | some payload => match venue with
    | .binance => Binance.classifyReply catalog operation payload requestId
    | .bybit => Bybit.classifyReply catalog operation payload requestId
    | .mexc => Mexc.classifyReply operation payload requestId

/-! ### What a reply shows -/

/-- The command was accepted or rejected. -/
def CommandReceipt.Decided (receipt : CommandReceipt) : Prop :=
  receipt.status = .accepted ∨ receipt.status = .rejected

theorem Binance.decided_classifyReply {catalog : InstrumentCatalog} {operation : CommandOperation}
    {payload : Payload} {requestId : Option RequestId} {receipt : CommandReceipt}
    (h : Binance.classifyReply catalog operation payload requestId = .ok receipt) :
    receipt.Decided := by
  unfold Binance.classifyReply at h
  split at h
  · obtain rfl := Except.ok.inj h
    exact .inr rfl
  cases operation <;> dsimp only at h
  case createOrders | amendOrders | cancelOrders | cancelAllOrders | validateOrder |
      setPositionMode =>
    obtain rfl := Except.ok.inj h
    exact .inl rfl
  -- the other replies are decoded, and may name an instrument
  all_goals split at h
  all_goals first
    | cases h
      done
    | obtain ⟨_, _, hr⟩ := except_bind_eq_ok.1 h
      obtain rfl := Except.ok.inj hr
      exact .inl rfl
    | obtain rfl := Except.ok.inj h
      exact .inl rfl

theorem Bybit.decided_classifyReply {catalog : InstrumentCatalog} {operation : CommandOperation}
    {payload : Payload} {requestId : Option RequestId} {receipt : CommandReceipt}
    (h : Bybit.classifyReply catalog operation payload requestId = .ok receipt) :
    receipt.Decided := by
  unfold Bybit.classifyReply at h
  split at h
  · cases h
  · dsimp only at h
    split at h
    · obtain rfl := Except.ok.inj h
      exact .inr rfl
    · cases operation <;> obtain rfl := Except.ok.inj h <;> exact .inl rfl

theorem Mexc.decided_classifyReply {operation : CommandOperation} {payload : Payload}
    {requestId : Option RequestId} {receipt : CommandReceipt}
    (h : Mexc.classifyReply operation payload requestId = .ok receipt) : receipt.Decided := by
  unfold Mexc.classifyReply at h
  split at h
  · cases h
  · obtain rfl := Except.ok.inj h
    unfold CommandReceipt.Decided
    dsimp only
    split
    · exact .inl rfl
    · exact .inr rfl

/-- A reply that can be decoded leaves no doubt about the command. -/
theorem decided_classifyCommand {venue : Venue} {catalog : InstrumentCatalog}
    {operation : CommandOperation} {payload : Payload} {requestId : Option RequestId}
    {receipt : CommandReceipt}
    (h : classifyCommand venue catalog operation (some payload) requestId = .ok receipt) :
    receipt.Decided := by
  cases venue with
  | binance => exact Binance.decided_classifyReply h
  | bybit => exact Bybit.decided_classifyReply h
  | mexc => exact Mexc.decided_classifyReply h

end BatMarkets
