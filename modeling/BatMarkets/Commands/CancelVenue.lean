import BatMarkets.Adapter.Values
import BatMarkets.Commands.Addressing
import BatMarkets.Interleaving.Alone

/-!
# A venue that answers cancellations

A venue is told which orders to cancel by the names in a request, and says of each of them what has
become of it, or nothing if the reply is lost.  A request for one order and a request for many get
the same answers, each in the form the venue has for it: Binance an item or a list of items, Bybit
its codes and results at the top or in two lists, MEXC a list in both cases.

## Main results

* `succeeds_sendRest_iff`, `sent_sendRest`, `sent_sendWebSocket` : a request ends with the receipt
  of the answers to the names in it.
* `cancelsAlone_of_succeeds` : the cancellation of one order sends its name to the venue once, and
  acknowledges the answer to it.
-/

namespace BatMarkets

open CommandM Interleaving Prog Wire

/-! ### Names in cancellations -/

/-- What a request to cancel an order names it by: a text under a key, beside the symbol if the
request has one. -/
structure CancelName where
  symbol : Option String
  key : String
  id : String
  deriving DecidableEq

/-- The keys under which a request names an order. -/
def orderKeys : List String :=
  ["orderId", "origClientOrderId", "algoId", "clientAlgoId", "orderLinkId", "externalOid"]

/-- The symbol that a request or an item of it names. -/
def symbolIn (value : Json) : Option String := (value.get? "symbol").bind Json.asStr

/-- The orders that an object names. -/
def cancelNames (value : Json) : List CancelName :=
  (fieldsOf value).filterMap fun (key, field) =>
    if key ∈ orderKeys then field.asStr.map fun id => ⟨symbolIn value, key, id⟩ else none

/-- The items of a list that may be missing. -/
def itemsOf (value : Option Json) : List Json := (value.bind Json.asArray).getD []

/-- The orders in the two lists of a batch on Binance. -/
def listedCancels (body : Json) : List CancelName :=
  ((((body.get? "orderIdList").bind Json.asStr).map listedIds).getD []).map
      (⟨symbolIn body, "orderId", ·⟩) ++
    ((itemsOf (body.get? "origClientOrderIdList")).filterMap Json.asStr).map
      (⟨symbolIn body, "origClientOrderId", ·⟩)

/-- The orders that a REST request cancels. -/
def RestCommand.cancels (request : RestCommand) : List CancelName :=
  if request.method = .delete then
    if request.path = "/fapi/v1/order" ∨ request.path = "/fapi/v1/algoOrder" then
      cancelNames request.body
    else if request.path = "/fapi/v1/batchOrders" then listedCancels request.body
    else []
  else if request.path = "/v5/order/cancel" then cancelNames request.body
  else if request.path = "/v5/order/cancel-batch" then
    (itemsOf (request.body.get? "request")).flatMap cancelNames
  else if request.path = "/api/v1/private/order/cancel" then
    (itemsOf (request.body.get? "orderIds")).map fun id =>
      ⟨none, "orderId", Mexc.valueToIdString id⟩
  else if request.path = "/api/v1/private/order/batch_cancel_with_external" then
    (itemsOf (some request.body)).flatMap cancelNames
  else []

/-- The orders that a request over the websocket cancels. -/
def WsCommand.cancels (frame : WsCommand) : List CancelName :=
  if frame.method = "order.cancel" then
    match frame.params with
    | .array args => args.flatMap cancelNames
    | params => cancelNames params
  else if frame.method = "order.cancel-batch" then
    (itemsOf (some frame.params)).flatMap fun batch =>
      (itemsOf (batch.get? "request")).flatMap cancelNames
  else []

/-- The request cancels orders in a batch. -/
def RestCommand.isBatch (request : RestCommand) : Bool :=
  request.path = "/fapi/v1/batchOrders" || request.path = "/v5/order/cancel-batch"

/-- The frame cancels orders in a batch. -/
def WsCommand.isBatch (frame : WsCommand) : Bool := frame.method = "order.cancel-batch"

/-! ### Answers -/

/-- What Bybit says about the cancellation of an order. -/
structure BybitCancel where
  code : Int64
  message : String
  symbol : Option String
  orderId : Option String
  orderLinkId : Option String

/-- The item with the names of the order. -/
def BybitCancel.item (answer : BybitCancel) : Json :=
  .object ((answer.symbol.map fun text => ("symbol", Json.string text)).toList ++
    (answer.orderId.map fun text => ("orderId", Json.string text)).toList ++
    (answer.orderLinkId.map fun text => ("orderLinkId", Json.string text)).toList)

/-- The item with the code, in the list beside it. -/
def BybitCancel.extItem (answer : BybitCancel) : Json :=
  .object [("code", .integer answer.code.toInt), ("msg", .string answer.message)]

/-- The reply to a request for this order alone. -/
def BybitCancel.reply (answer : BybitCancel) : Json :=
  .object [("retCode", .integer answer.code.toInt), ("retMsg", .string answer.message),
    ("result", answer.item)]

/-- A venue, and what the runtime and its adapter know there. -/
structure CancelVenue where
  /-- What calls that cancel nothing return. -/
  base : (q : CommandCall) → CommandReply q
  /-- The instruments the adapter knows. -/
  catalog : InstrumentCatalog
  /-- The websocket session is there. -/
  session : Bool
  /-- What is said about each order, unless the reply is lost: a result or an error on Binance, -/
  binance : CancelName → Option Json
  /-- a result with a code on Bybit, -/
  bybit : CancelName → Option BybitCancel
  /-- an item of a list on MEXC. -/
  mexc : CancelName → Option Json

namespace CancelVenue

variable (venue : CancelVenue)

/-- The reply to a request for some orders is lost if that for one of them is. -/
def payload (v : Venue) (batch : Bool) (names : List CancelName) : Option Payload :=
  match v with
  | .binance => (names.mapM venue.binance).map fun items =>
    .json (if batch then .array items else items.head?.getD .null)
  | .bybit => (names.mapM venue.bybit).map fun answers =>
    .json (if batch then .object [("retCode", .integer 0), ("retMsg", .string "OK"),
        ("result", .object [("list", .array (answers.map (·.item)))]),
        ("retExtInfo", .object [("list", .array (answers.map (·.extItem)))])]
      else (answers.head?.map (·.reply)).getD .null)
  | .mexc => (names.mapM venue.mexc).map fun items =>
    .json (.object [("success", .bool true), ("code", .integer 0), ("data", .array items)])

/-- The key for a client order id. -/
def clientKey : Venue → String
  | .binance => "origClientOrderId"
  | .bybit => "orderLinkId"
  | .mexc => "externalOid"

/-- The name by which a target is cancelled alone. -/
def cancelName (v : Venue) (spec : InstrumentSpec) (target : OrderTarget) : Option CancelName :=
  match target.orderId, target.clientOrderId with
  | some id, _ => match v with
    | .binance => match binanceAlgoOrderIdValue id with
      | some algoId => some ⟨none, "algoId", algoId⟩
      | none => some ⟨some spec.nativeSymbol, "orderId", id.asStr⟩
    | .bybit => some ⟨some spec.nativeSymbol, "orderId", id.asStr⟩
    | .mexc => some ⟨none, "orderId", Mexc.valueToIdString (idValue id.asStr)⟩
  | none, some id => some ⟨some spec.nativeSymbol, clientKey v, id.asStr⟩
  | none, none => none

/-- Binance wraps what it says over the websocket. -/
def framed (v : Venue) (payload : Payload) : Payload :=
  match v, payload with
  | .binance, .json item => .json (.object
      [(if (Binance.reportedError item).isSome then "error" else "result", item)])
  | _, payload => payload

/-- The error when a reply does not arrive. -/
def lostReply : MarketError where
  kind := .timeout
  message := "no reply"

/-- The error when there is no session of the command websocket. -/
def noSession : MarketError where
  kind := .temporaryUnavailable
  message := "no session"

/-- What the calls of a command return at the venue. -/
def answer (v : Venue) : (q : CommandCall) → CommandReply q
  | .rest request =>
    if request.cancels = [] then venue.base (.rest request)
    else match venue.payload v request.isBatch request.cancels with
      | some payload => (.ok payload, venue.catalog)
      | none => (.error lostReply, venue.catalog)
  | .ws frame =>
    if frame.cancels = [] then venue.base (.ws frame)
    else if venue.session then
      match venue.payload v frame.isBatch frame.cancels with
      | some payload => (.ok (framed v payload), venue.catalog)
      | none => (.error (.uncertain lostReply), venue.catalog)
    else (.error (.unavailable noSession), venue.catalog)
  | q => venue.base q

/-- The venue as an environment. -/
def reply (v : Venue) (q : CommandCall) (_ : Unit) : CommandReply q × Unit := (venue.answer v q, ())

/-- The orders that the venue is told to cancel by a call. -/
def receives : CommandCall → List CancelName
  | .rest request => request.cancels
  | .ws frame => if venue.session then frame.cancels else []
  | _ => []

/-- The orders that the venue is told to cancel by a command. -/
def received {α : Type} (v : Venue) (x : CommandE α) : List CancelName :=
  (calls (venue.reply v) x.run).flatMap venue.receives

/-- The specification of an instrument. -/
def resolves (instrumentId : InstrumentId) : Option InstrumentSpec :=
  venue.base (.runtime (.resolveInstrument instrumentId))

/-- The name of a target whose instrument is known. -/
def nameOf (v : Venue) (target : OrderTarget) : Option CancelName :=
  (venue.resolves target.instrumentId).bind (cancelName v · target)

/-- The time at which the venue answers. -/
def now : TimestampMs := venue.base (.runtime .timestampNowMs)

/-- The way in which requests go that are for the websocket if it can take orders. -/
def route (context : CommandContext) : Option CommandTransport :=
  if context.wsOrderEntry && venue.session then some .webSocket
  else if context.websocketOnly then none
  else some .rest

/-! ### Requests -/

section Requests

variable {venue} {context : CommandContext} {α β : Type} {x : CommandE α} {f : α → CommandE β}
  {a : α} {v : Venue}

theorem received_attempt (hx : Succeeds (venue.reply v) x a) :
    venue.received v (x >>= f) = venue.received v x ++ venue.received v (f a) := by
  unfold received
  rw [calls_attempt hx, List.flatMap_append]

theorem received_of_local (h : x.run.Always fun _ q => q.Local) : venue.received v x = [] := by
  refine List.flatMap_eq_nil_iff.2 fun q hq => ?_
  have hlocal := Always.of_mem_calls h hq
  cases q with
  | rest request => exact hlocal.elim
  | ws frame => exact hlocal.elim
  | _ => rfl

theorem succeeds_ofExcept_iff {r : Except MarketError α} :
    Succeeds (venue.reply v) (ofExcept r) a ↔ r = .ok a := by
  cases r with
  | ok b => exact succeeds_pure_iff.trans (by simp [eq_comm])
  | error e => exact ⟨fun h => (nomatch h), fun h => (nomatch h)⟩

theorem succeeds_commandSpec_iff {instrumentId : InstrumentId} {spec : InstrumentSpec} :
    Succeeds (venue.reply v) (commandSpec context instrumentId) spec ↔
      venue.resolves instrumentId = some spec := by
  have hpure : Succeeds (venue.reply v) (commandSpec context instrumentId >>= pure) spec ↔
      Succeeds (venue.reply v) (commandSpec context instrumentId) spec := by
    rw [succeeds_bind_iff]
    simp only [succeeds_pure_iff, exists_eq_right']
  have hreply : (venue.reply v (.runtime (.resolveInstrument instrumentId)) ()).1 =
      venue.resolves instrumentId := rfl
  rw [← hpure]
  unfold Succeeds
  rw [run_commandSpec_bind, exec_call, hreply]
  cases venue.resolves instrumentId with
  | none => exact ⟨fun h => (nomatch h), fun h => (nomatch h)⟩
  | some found =>
    rw [Option.some.injEq]
    exact ⟨fun h => Except.ok.inj h, fun h => h ▸ rfl⟩

theorem received_commandSpec (instrumentId : InstrumentId) :
    venue.received v (commandSpec context instrumentId) = [] :=
  received_of_local (yields_commandSpec (fun _ _ h => h) instrumentId).always

theorem succeeds_applyCommandReceipt_iff {receipt : CommandReceipt} {transport : CommandTransport}
    {ack : CommandAck} :
    Succeeds (venue.reply v) (applyCommandReceipt receipt transport) ack ↔
      ack = ⟨receipt, transport, venue.now⟩ := by
  have h : Succeeds (venue.reply v) (applyCommandReceipt receipt transport)
      ⟨receipt, transport, venue.now⟩ := by
    unfold applyCommandReceipt
    by_cases hs : receipt.status = .unknownExecution
    · simp only [hs, if_true]
      rfl
    · simp only [hs, if_false]
      rfl
  exact ⟨fun hack => hack.unique h, fun hack => hack ▸ h⟩

theorem succeeds_cachePendingUnknown (receipt : CommandReceipt) (operation : CommandOperation)
    (instrumentId : InstrumentId) (orderId : Option OrderId)
    (clientOrderId : Option ClientOrderId) :
    Succeeds (venue.reply v)
      (cachePendingUnknown receipt operation instrumentId orderId clientOrderId) () := by
  unfold cachePendingUnknown
  split <;> rfl

/-! #### One receipt -/

variable {operation : CommandOperation} {requestId : Option RequestId} {request : RestCommand}
  {frame : WsCommand} {receipt : CommandReceipt} {transport : CommandTransport}
  {unsupported : String}

theorem succeeds_sendRest_iff (hv : context.venue = v) (hnames : request.cancels ≠ []) :
    Succeeds (venue.reply v) (sendRest context operation requestId request) receipt ↔
      classifyCommand v venue.catalog operation
        (venue.payload v request.isBatch request.cancels) requestId = .ok receipt := by
  subst hv
  unfold sendRest
  rw [succeeds_bind_iff]
  simp only [succeeds_perform_iff, exists_eq_left, reply, answer, hnames, if_false]
  cases venue.payload context.venue request.isBatch request.cancels with
  | some payload => exact succeeds_ofExcept_iff
  | none =>
    have hlost : isUncertainCommandError lostReply = true := by decide
    dsimp only
    rw [if_pos hlost]
    exact succeeds_ofExcept_iff

theorem received_classify {catalog : InstrumentCatalog} {payload : Option Payload} :
    venue.received v (classify context operation catalog payload requestId) = [] := by
  unfold received classify
  cases classifyCommand context.venue catalog operation payload requestId <;> rfl

theorem received_sendRest :
    venue.received v (sendRest context operation requestId request) = request.cancels := by
  unfold sendRest
  have hreply : Succeeds (venue.reply v) (CommandM.rest request)
      (venue.reply v (.rest request) ()).1 := succeeds_perform_iff.2 rfl
  rw [received_attempt hreply]
  have hrest : venue.received v (CommandM.rest request) = request.cancels := List.append_nil _
  rw [hrest]
  generalize (venue.reply v (.rest request) ()).1 = r
  obtain ⟨reply, catalog⟩ := r
  cases reply with
  | ok payload => exact (congrArg _ received_classify).trans (List.append_nil _)
  | error e =>
    dsimp only
    split
    · exact (congrArg _ received_classify).trans (List.append_nil _)
    · exact List.append_nil _

/-- A value and the transport it came by. -/
theorem succeeds_with_iff {c : α × CommandTransport} {t : CommandTransport} :
    Succeeds (venue.reply v) (do return (← x, t)) c ↔
      Succeeds (venue.reply v) x c.1 ∧ c.2 = t := by
  rw [succeeds_bind_iff]
  constructor
  · rintro ⟨a, ha, hc⟩
    obtain rfl := succeeds_pure_iff.1 hc
    exact ⟨ha, rfl⟩
  · rintro ⟨ha, ht⟩
    exact ⟨c.1, ha, succeeds_pure_iff.2 (Prod.ext rfl ht)⟩

theorem received_with (hx : Succeeds (venue.reply v) x a) (t : CommandTransport) :
    venue.received v (do return (← x, t)) = venue.received v x := by
  rw [received_attempt hx]
  exact List.append_nil _

/-- A request over REST takes the receipt of the answers. -/
theorem sent_sendRest (hv : context.venue = v) (hnames : request.cancels ≠ [])
    (h : Succeeds (venue.reply v)
      (do return (← sendRest context operation requestId request, CommandTransport.rest))
      (receipt, transport)) :
    classifyCommand v venue.catalog operation
        (venue.payload v request.isBatch request.cancels) requestId = .ok receipt ∧
      venue.received v (do
        return (← sendRest context operation requestId request, CommandTransport.rest)) =
          request.cancels ∧
      transport = .rest := by
  obtain ⟨hreceipt, htransport⟩ := succeeds_with_iff.1 h
  refine ⟨(succeeds_sendRest_iff hv hnames).1 hreceipt, ?_, htransport⟩
  rw [received_with hreceipt, received_sendRest]

/-- A request for one order takes the receipt of the answer for it. -/
theorem sent_name {name : CancelName} (hv : context.venue = v) (hcancels : request.cancels = [name])
    (hbatch : request.isBatch = false)
    (h : Succeeds (venue.reply v)
      (do return (← sendRest context operation requestId request, CommandTransport.rest))
      (receipt, transport)) :
    classifyCommand v venue.catalog operation (venue.payload v false [name]) requestId =
        .ok receipt ∧
      venue.received v (do
        return (← sendRest context operation requestId request, CommandTransport.rest)) =
          [name] := by
  obtain ⟨hreceipt, hsent, -⟩ := sent_sendRest hv (by simp [hcancels]) h
  rw [hcancels, hbatch] at hreceipt
  exact ⟨hreceipt, hsent.trans hcancels⟩

/-- So does one over the websocket of Bybit, if there is a session. -/
theorem sent_sendWebSocket (hv : context.venue = .bybit) (hw : context.wsOrderEntry = true)
    (hframe : frame.cancels = request.cancels) (hbatch : frame.isBatch = request.isBatch)
    (hnames : request.cancels ≠ [])
    (h : Succeeds (venue.reply .bybit)
      (sendWebSocket context true operation requestId frame request) (receipt, transport)) :
    classifyCommand .bybit venue.catalog operation
        (venue.payload .bybit request.isBatch request.cancels) requestId = .ok receipt ∧
      venue.received .bybit
        (sendWebSocket context true operation requestId frame request) = request.cancels ∧
      venue.route context = some transport := by
  have hreply : Succeeds (venue.reply .bybit) (CommandM.ws frame)
      (venue.reply .bybit (.ws frame) ()).1 := succeeds_perform_iff.2 rfl
  have hreceived : venue.received .bybit (CommandM.ws frame) =
      if venue.session then request.cancels else [] := by
    rw [← hframe]
    exact List.append_nil _
  have hdecided : ∀ {catalog : InstrumentCatalog} {payload : Option Payload},
      Succeeds (venue.reply .bybit) (do
        return (← classify context operation catalog payload requestId, CommandTransport.webSocket))
          (receipt, transport) →
      classifyCommand .bybit catalog operation payload requestId = .ok receipt ∧
        venue.received .bybit (do
          return (← classify context operation catalog payload requestId,
            CommandTransport.webSocket)) = [] ∧ transport = .webSocket := by
    intro catalog payload hsent
    obtain ⟨hreceipt, htransport⟩ := succeeds_with_iff.1 hsent
    refine ⟨hv ▸ succeeds_ofExcept_iff.1 hreceipt, ?_, htransport⟩
    rw [received_with hreceipt, received_classify]
  unfold sendWebSocket at h ⊢
  rw [succeeds_bind_iff] at h
  simp only [succeeds_perform_iff, exists_eq_left] at h
  rw [received_attempt hreply, hreceived]
  simp only [reply, answer, hframe, hnames, if_false, hbatch, framed] at h ⊢
  unfold route
  cases hsession : venue.session with
  | true =>
    simp only [hsession, if_true, hw, Bool.and_self] at h ⊢
    cases hpayload : venue.payload .bybit request.isBatch request.cancels with
    | some payload =>
      rw [hpayload] at h
      obtain ⟨hreceipt, hnone, rfl⟩ := hdecided h
      exact ⟨hreceipt, (congrArg _ hnone).trans (List.append_nil _), rfl⟩
    | none =>
      rw [hpayload] at h
      obtain ⟨hreceipt, hnone, rfl⟩ := hdecided h
      exact ⟨hreceipt, (congrArg _ hnone).trans (List.append_nil _), rfl⟩
  | false =>
    simp only [hsession, Bool.false_eq_true, if_false, Bool.true_and, Bool.and_false] at h ⊢
    by_cases ho : context.websocketOnly = true
    · rw [if_pos ho] at h
      exact absurd h (not_succeeds_throw _)
    · rw [if_neg ho] at h ⊢
      obtain ⟨hreceipt, hnames, rfl⟩ := sent_sendRest hv hnames h
      exact ⟨hreceipt, hnames, by rw [if_neg ho]⟩

/-- Where only the websocket is allowed, nothing is sent over REST. -/
theorem of_not_websocketOnly {e : Failure} (h : Succeeds (venue.reply v) (do
      if context.websocketOnly then throw e
      x) a) :
    Succeeds (venue.reply v) x a ∧ context.websocketOnly = false ∧
      venue.received v (do
        if context.websocketOnly then throw e
        x) = venue.received v x := by
  by_cases ho : context.websocketOnly = true
  · simp only [ho, if_true] at h
    obtain ⟨_, hthrow, -⟩ := succeeds_bind_iff.1 h
    exact absurd hthrow (not_succeeds_throw _)
  · simp only [ho] at h ⊢
    exact ⟨h, by simp, rfl⟩

end Requests

/-! ### One order -/

section Alone

variable {venue} {context : CommandContext} {requestId : Option RequestId} {target : OrderTarget}
  {spec : InstrumentSpec} {receipt : CommandReceipt} {transport : CommandTransport}

/-- Requests to cancel get to the venue. -/
def Reaches (venue : CancelVenue) (context : CommandContext) : Prop :=
  match context.venue with
  | .bybit => (venue.route context).isSome
  | _ => context.websocketOnly = false

theorem cancels_order {pairs : List (String × String)} (operation : String)
    (hquery : appendOrderIdentity [("symbol", spec.nativeSymbol)] target.orderId
      target.clientOrderId = .ok pairs)
    (halgo : ¬ isBinanceAlgoOrderId target.orderId = true) :
    ∃ name, cancelName .binance spec target = some name ∧
      RestCommand.cancels ⟨.delete, "/fapi/v1/order", bodyToObject pairs, operation⟩ = [name] := by
  obtain ⟨instrumentId, orderId, clientOrderId⟩ := target
  cases orderId with
  | some id =>
    cases hquery
    have hplain : binanceAlgoOrderIdValue id = none := by
      simpa [isBinanceAlgoOrderId] using halgo
    refine ⟨⟨some spec.nativeSymbol, "orderId", id.asStr⟩, by simp [cancelName, hplain], ?_⟩
    simp [RestCommand.cancels, cancelNames, bodyToObject, stringFields, fieldsOf, orderKeys,
      symbolIn, Json.asStr]
  | none =>
    cases clientOrderId with
    | some id =>
      cases hquery
      refine ⟨_, rfl, ?_⟩
      simp [RestCommand.cancels, cancelNames, bodyToObject, stringFields, fieldsOf, orderKeys,
        symbolIn, Json.asStr, clientKey]
    | none => cases hquery

theorem cancels_algoOrder {pairs : List (String × String)} (operation : String)
    (hquery : binanceAlgoIdentityQuery target.orderId target.clientOrderId = .ok pairs)
    (halgo : isBinanceAlgoOrderId target.orderId = true) :
    ∃ name, cancelName .binance spec target = some name ∧
      RestCommand.cancels ⟨.delete, "/fapi/v1/algoOrder", bodyToObject pairs, operation⟩ =
        [name] := by
  obtain ⟨instrumentId, orderId, clientOrderId⟩ := target
  cases orderId with
  | none => simp [isBinanceAlgoOrderId] at halgo
  | some id =>
    obtain ⟨algoId, hid⟩ := Option.isSome_iff_exists.1 (show (binanceAlgoOrderIdValue id).isSome by
      simpa [isBinanceAlgoOrderId] using halgo)
    simp only [binanceAlgoIdentityQuery, hid] at hquery
    cases hquery
    refine ⟨⟨none, "algoId", algoId⟩, by simp [cancelName, hid], ?_⟩
    simp [RestCommand.cancels, cancelNames, bodyToObject, stringFields, fieldsOf, orderKeys,
      symbolIn, Json.asStr]

/-- An order of Bybit in a request has the name of its target. -/
theorem cancelNames_bybit {pairs : List (String × String)} {start : List (String × String)}
    (hstart : start = [("symbol", spec.nativeSymbol)] ∨
      start = [("category", "linear"), ("symbol", spec.nativeSymbol)])
    (hbody : appendBybitOrderIdentity start target.orderId target.clientOrderId = .ok pairs) :
    ∃ name, cancelName .bybit spec target = some name ∧
      cancelNames (bodyToObject pairs) = [name] := by
  obtain ⟨instrumentId, orderId, clientOrderId⟩ := target
  cases orderId with
  | some id =>
    cases hbody
    refine ⟨_, rfl, ?_⟩
    rcases hstart with rfl | rfl <;>
      simp [cancelNames, bodyToObject, stringFields, fieldsOf, orderKeys, symbolIn, Json.asStr]
  | none =>
    cases clientOrderId with
    | some id =>
      cases hbody
      refine ⟨_, rfl, ?_⟩
      rcases hstart with rfl | rfl <;>
        simp [cancelNames, bodyToObject, stringFields, fieldsOf, orderKeys, symbolIn, Json.asStr,
          clientKey]
    | none => cases hbody

theorem cancels_mexc {path : String} {body : Json} (operation : String)
    (hbody : mexcCancelBody context spec (target.cancelRequest requestId) = .ok (path, body)) :
    ∃ name, cancelName .mexc spec target = some name ∧
      RestCommand.cancels ⟨.post, path, body, operation⟩ = [name] ∧
      RestCommand.isBatch ⟨.post, path, body, operation⟩ = false := by
  obtain ⟨instrumentId, orderId, clientOrderId⟩ := target
  cases orderId with
  | some id =>
    cases hbody
    refine ⟨_, rfl, ?_, by simp [RestCommand.isBatch]⟩
    simp [RestCommand.cancels, itemsOf, Json.asArray]
  | none =>
    cases clientOrderId with
    | some id =>
      cases hbody
      refine ⟨_, rfl, ?_, by simp [RestCommand.isBatch]⟩
      simp [RestCommand.cancels, itemsOf, Json.asArray, cancelNames, fieldsOf, orderKeys, symbolIn,
        Json.asStr, clientKey]
    | none => cases hbody

theorem received_ofExcept_attempt {α β : Type} {r : Except MarketError α} {f : α → CommandE β}
    {v : Venue} {a : α} (hr : r = .ok a) :
    venue.received v (ofExcept r >>= f) = venue.received v (f a) := by
  subst hr
  rfl

/-- What a cancellation sends, and the answer it takes. -/
theorem sent_sendCancelOrder {v : Venue} (hv : context.venue = v)
    (hws : v = .binance → context.wsOrderEntry = false)
    (h : Succeeds (venue.reply v)
      (sendCancelOrder context spec (target.cancelRequest requestId)) (receipt, transport)) :
    ∃ name, cancelName v spec target = some name ∧
      classifyCommand v venue.catalog .cancelOrder (venue.payload v false [name]) requestId =
        .ok receipt ∧
      venue.received v (sendCancelOrder context spec (target.cancelRequest requestId)) = [name] ∧
      venue.Reaches context := by
  unfold sendCancelOrder Reaches at *
  simp only [hv] at h ⊢
  cases v with
  | binance =>
    dsimp only at h ⊢
    -- conditional orders have an endpoint of their own
    by_cases halgo : isBinanceAlgoOrderId (target.cancelRequest requestId).orderId = true
    · rw [if_pos halgo] at h ⊢
      obtain ⟨h, ho, hreceived⟩ := of_not_websocketOnly h
      obtain ⟨pairs, hpairs, h⟩ := succeeds_bind_iff.1 h
      have hpairs := succeeds_ofExcept_iff.1 hpairs
      obtain ⟨name, hname, hcancels⟩ := cancels_algoOrder "binance.cancel_algo_order" hpairs halgo
      have hname : cancelName .binance spec target = some name := hname
      obtain ⟨hreceipt, hsent⟩ := sent_name hv hcancels (by simp [RestCommand.isBatch]) h
      refine ⟨name, hname, hreceipt, ?_, ho⟩
      rw [hreceived, received_ofExcept_attempt hpairs]
      exact hsent
    · rw [if_neg halgo] at h ⊢
      obtain ⟨pairs, hpairs, h⟩ := succeeds_bind_iff.1 h
      have hpairs := succeeds_ofExcept_iff.1 hpairs
      rw [received_ofExcept_attempt hpairs]
      unfold sendCommand sendRestOnly at *
      simp only [hws rfl, Bool.false_eq_true, if_false] at h ⊢
      obtain ⟨h, ho, hreceived⟩ := of_not_websocketOnly h
      obtain ⟨name, hname, hcancels⟩ := cancels_order "binance.cancel_order" hpairs halgo
      obtain ⟨hreceipt, hsent⟩ := sent_name hv hcancels (by simp [RestCommand.isBatch]) h
      refine ⟨name, hname, hreceipt, ?_, ho⟩
      rw [hreceived]
      exact hsent
  | bybit =>
    dsimp only at h ⊢
    obtain ⟨pairs, hpairs, h⟩ := succeeds_bind_iff.1 h
    have hpairs := succeeds_ofExcept_iff.1 hpairs
    rw [received_ofExcept_attempt hpairs]
    obtain ⟨name, hname, hcancels⟩ := cancelNames_bybit (.inr rfl) hpairs
    -- both transports carry the same name
    have hrest : RestCommand.cancels ⟨.post, "/v5/order/cancel", bodyToObject pairs,
        "bybit.cancel_order"⟩ = [name] := by
      rw [← hcancels]
      simp [RestCommand.cancels]
    have hframe : WsCommand.cancels ⟨"order.cancel", .array [bodyToObject pairs],
        "bybit.cancel_order_ws"⟩ = [name] := by
      rw [← hcancels]
      simp [WsCommand.cancels]
    unfold sendCommand at *
    by_cases hw : context.wsOrderEntry = true
    · rw [if_pos hw] at h ⊢
      obtain ⟨hreceipt, hsent, hroute⟩ := sent_sendWebSocket hv hw (hframe.trans hrest.symm)
        (by simp [RestCommand.isBatch, WsCommand.isBatch]) (by simp [hrest]) h
      rw [hrest, show RestCommand.isBatch ⟨.post, "/v5/order/cancel", bodyToObject pairs,
        "bybit.cancel_order"⟩ = false by simp [RestCommand.isBatch]] at hreceipt
      exact ⟨name, hname, hreceipt, hsent.trans hrest, by rw [hroute]; rfl⟩
    · rw [if_neg hw] at h ⊢
      unfold sendRestOnly at *
      obtain ⟨h, ho, hreceived⟩ := of_not_websocketOnly h
      obtain ⟨hreceipt, hsent⟩ := sent_name hv hrest (by simp [RestCommand.isBatch]) h
      refine ⟨name, hname, hreceipt, ?_, by simp [route, hw, ho]⟩
      rw [hreceived]
      exact hsent
  | mexc =>
    dsimp only at h ⊢
    obtain ⟨h, ho, hreceived⟩ := of_not_websocketOnly h
    obtain ⟨⟨path, body⟩, hbody, h⟩ := succeeds_bind_iff.1 h
    have hbody := succeeds_ofExcept_iff.1 hbody
    obtain ⟨name, hname, hcancels, hbatch⟩ := cancels_mexc "mexc.cancel_order" hbody
    obtain ⟨hreceipt, hsent⟩ := sent_name hv hcancels hbatch h
    refine ⟨name, hname, hreceipt, ?_, ho⟩
    rw [hreceived, received_ofExcept_attempt hbody]
    exact hsent

/-- The cancellation of one order sends its name to the venue once, and acknowledges the answer. -/
structure CancelsAlone (venue : CancelVenue) (context : CommandContext) (v : Venue)
    (requestId : Option RequestId) (target : OrderTarget) (name : CancelName)
    (receipt : CommandReceipt) : Prop where
  named : venue.nameOf v target = some name
  classified : classifyCommand v venue.catalog .cancelOrder (venue.payload v false [name])
    requestId = .ok receipt
  received : venue.received v (cancelOrder context (target.cancelRequest requestId)) = [name]
  acknowledged : ∃ transport, Succeeds (venue.reply v)
    (cancelOrder context (target.cancelRequest requestId))
    ⟨hydrateCancelReceipt receipt (target.cancelRequest requestId), transport, venue.now⟩
  reaches : venue.Reaches context

theorem cancelsAlone_of_succeeds {v : Venue} (hv : context.venue = v)
    (hws : v = .binance → context.wsOrderEntry = false) {ack : CommandAck}
    (h : Succeeds (venue.reply v) (cancelOrder context (target.cancelRequest requestId)) ack) :
    ∃ name receipt, CancelsAlone venue context v requestId target name receipt := by
  have hack := h
  unfold cancelOrder at h
  obtain ⟨spec, hspec, h⟩ := succeeds_bind_iff.1 h
  obtain ⟨⟨receipt, transport⟩, hsend, h⟩ := succeeds_bind_iff.1 h
  obtain ⟨name, hname, hclassified, hreceived, hreaches⟩ := sent_sendCancelOrder hv hws hsend
  obtain ⟨_, hcache, h⟩ := succeeds_bind_iff.1 h
  obtain rfl := succeeds_applyCommandReceipt_iff.1 h
  have hresolves : venue.resolves target.instrumentId = some spec :=
    succeeds_commandSpec_iff.1 hspec
  refine ⟨name, receipt, ?_, hclassified, ?_, ⟨transport, hack⟩, hreaches⟩
  · rw [nameOf, hresolves]
    exact hname
  · unfold cancelOrder
    rw [received_attempt hspec, received_commandSpec, received_attempt hsend, hreceived,
      received_attempt hcache]
    rw [received_of_local (yields_cachePendingUnknown (fun _ _ h => h) _ _ _ _ _).always,
      received_of_local (yields_applyCommandReceipt (fun _ _ h => h) _ _).always]
    rfl

end Alone

end CancelVenue

end BatMarkets
