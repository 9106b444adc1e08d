import BatMarkets.Commands.Call

/-!
# Batches of commands

How a batch is cut into chunks, how the reply to a chunk is classified item by item, and how the
receipts are passed on (`runtime.rs`).  An item of a batch goes back to its adapter as a JSON text
of its own; writing a value and reading it again is left out.
-/

namespace BatMarkets

open CommandM Interleaving Wire

/-! ### Chunks -/

/-- The list in pieces of at most `size`, in order. -/
def chunks {α : Type} (size : ℕ) (xs : List α) : List (List α) :=
  if xs = [] ∨ size = 0 then [] else xs.take size :: chunks size (xs.drop size)
termination_by xs.length
decreasing_by
  rename_i h
  rw [List.length_drop]
  have hpos := List.length_pos_of_ne_nil fun hnil => h (.inl hnil)
  have hsize : size ≠ 0 := fun hzero => h (.inr hzero)
  omega

theorem mem_of_mem_chunks {α : Type} {size : ℕ} {xs : List α} {chunk : List α} {a : α}
    (hchunk : chunk ∈ chunks size xs) (ha : a ∈ chunk) : a ∈ xs := by
  induction xs using chunks.induct size with
  | case1 xs hxs =>
    rw [chunks, if_pos hxs] at hchunk
    cases hchunk
  | case2 xs hxs ih =>
    rw [chunks, if_neg hxs] at hchunk
    rcases List.mem_cons.1 hchunk with rfl | hchunk
    · exact List.mem_of_mem_take ha
    · exact List.mem_of_mem_drop (ih hchunk)

theorem ne_nil_of_mem_chunks {α : Type} {size : ℕ} {xs : List α} {chunk : List α}
    (hchunk : chunk ∈ chunks size xs) : chunk ≠ [] := by
  induction xs using chunks.induct size with
  | case1 xs hxs =>
    rw [chunks, if_pos hxs] at hchunk
    cases hchunk
  | case2 xs hxs ih =>
    rw [chunks, if_neg hxs] at hchunk
    rcases List.mem_cons.1 hchunk with rfl | hchunk
    · intro hnil
      rcases List.take_eq_nil_iff.1 hnil with hsize | hxsnil
      · exact hxs (.inr hsize)
      · exact hxs (.inl hxsnil)
    · exact ih hchunk

theorem exists_mem_chunks {α : Type} {size : ℕ} (hsize : size ≠ 0) {xs : List α} {a : α}
    (ha : a ∈ xs) : ∃ chunk ∈ chunks size xs, a ∈ chunk := by
  induction xs using chunks.induct size with
  | case1 xs hxs =>
    rcases hxs with rfl | hzero
    · cases ha
    · exact absurd hzero hsize
  | case2 xs hxs ih =>
    rw [chunks, if_neg hxs]
    rw [← List.take_append_drop size xs, List.mem_append] at ha
    rcases ha with ha | ha
    · exact ⟨_, List.mem_cons_self, ha⟩
    · obtain ⟨chunk, hchunk, ha⟩ := ih ha
      exact ⟨chunk, List.mem_cons_of_mem _ hchunk, ha⟩

theorem flatten_chunks {α : Type} {size : ℕ} (hsize : size ≠ 0) (xs : List α) :
    (chunks size xs).flatten = xs := by
  induction xs using chunks.induct size with
  | case1 xs hxs =>
    rw [chunks, if_pos hxs]
    rcases hxs with rfl | hzero
    · rfl
    · exact absurd hzero hsize
  | case2 xs hxs ih => rw [chunks, if_neg hxs, List.flatten_cons, ih, List.take_append_drop]

/-! ### Replies -/

/-- What an item of a batch is identified by. -/
structure BatchIdentity where
  instrumentId : Option InstrumentId
  orderId : Option OrderId
  clientOrderId : Option ClientOrderId
  requestId : Option RequestId
  deriving DecidableEq

/-- The error for a batch reply that is not what it should be. -/
def batchDecodeError (message : String) : MarketError where
  kind := .decodeError
  message := message

/-- The error for a reply with a wrong number of items. -/
def batchCountError (what : String) (items requests : ℕ) : MarketError :=
  batchDecodeError (what ++ " " ++ toString items ++ " does not match request count " ++
    toString requests)

/-- The receipts in a batch reply of Binance: one for each item of the list, in its order. -/
def classifyBinanceBatchPayload (catalog : InstrumentCatalog) (operation : CommandOperation)
    (payload : Payload) (requestIds : List (Option RequestId)) :
    Except MarketError (List CommandReceipt) := do
  match payload.value?.bind Json.asArray with
  | none => throw (batchDecodeError "failed to parse binance batch payload")
  | some items =>
    if items.length ≠ requestIds.length then
      throw (batchCountError "binance batch payload item count" items.length requestIds.length)
    (items.zip requestIds).mapM fun (item, requestId) =>
      Binance.classifyReply catalog operation (.json item) requestId

/-- The items of a list in a field of a reply. -/
def listOf (value : Json) (key : String) : List Json :=
  (((value.get? key).bind (·.get? "list")).bind Json.asArray).getD []

/-- The receipt for an item of a batch, from its result and from what the venue says about it. -/
def bybitItemReceipt (context : LiveContext) (catalog : InstrumentCatalog)
    (operation : CommandOperation) (value : Json) (identity : BatchIdentity)
    (result extItem : Option Json) : CommandReceipt :=
  let nativeCode := ((extItem.bind (·.get? "code")).bind Bybit.asCode).getD 0
  let text (item : Option Json) (key : String) := (item.bind (·.get? key)).bind Json.asStr
  { operation
    status := if nativeCode = 0 then .accepted else .rejected
    venue := context.venue
    product := context.product
    instrumentId :=
      (((text result "symbol").bind (resolveNativeSymbol .bybit catalog)).map
        (·.instrumentId)).or identity.instrumentId
    orderId := ((text result "orderId").map StringId.mk).or identity.orderId
    clientOrderId := ((text result "orderLinkId").map StringId.mk).or identity.clientOrderId
    requestId := identity.requestId
    message := ((text extItem "msg").or (text (some value) "retMsg")).or (some "accepted")
    nativeCode := if nativeCode = 0 then none else some (toString nativeCode)
    retriable := false }

/-- The receipts in a batch reply of Bybit, from its list of results and its list of codes. -/
def classifyBybitBatchPayload (context : LiveContext) (catalog : InstrumentCatalog)
    (operation : CommandOperation) (payload : Payload) (identities : List BatchIdentity) :
    Except MarketError (List CommandReceipt) := do
  match payload with
  | .text _ => throw (batchDecodeError "failed to parse bybit batch payload")
  | .json value =>
    if ((value.get? "retCode").bind Bybit.asCode).getD 0 ≠ 0 then
      throw { kind := .exchangeReject
              message := ((value.get? "retMsg").bind Json.asStr).getD
                "bybit batch request rejected" }
    let results := listOf value "result"
    let ext := listOf value "retExtInfo"
    if results ≠ [] ∧ results.length ≠ identities.length then
      throw (batchCountError "bybit batch result count" results.length identities.length)
    return identities.mapIdx fun index identity =>
      bybitItemReceipt context catalog operation value identity results[index]? ext[index]?

/-- What an item of a MEXC batch becomes before it is classified. -/
def mexcItemPayload (success : Bool) (code : Int64) (item : Json) : Json :=
  let itemCode := (((item.get? "errorCode").or (item.get? "error_code")).bind
    Mexc.valueToI64).getD code
  .object [("success", .bool (success && code == 0 && itemCode == 0)),
    ("code", .integer (if itemCode = 0 then code else itemCode).toInt),
    ("message", ((((item.get? "errorMsg").or (item.get? "error_msg")).bind Json.asStr).map
      Json.string).getD .null),
    ("data", item)]

/-- The receipts in a batch reply of MEXC: one for each item of its data. -/
def classifyMexcBatchPayload (operation : CommandOperation) (payload : Payload)
    (requestIds : List (Option RequestId)) : Except MarketError (List CommandReceipt) := do
  match payload with
  | .text _ => throw (batchDecodeError "failed to parse mexc batch payload")
  | .json value =>
    let success := ((value.get? "success").bind Json.asBool).getD false
    let code := ((value.get? "code").bind Mexc.valueToI64).getD 0
    match (value.get? "data").bind Json.asArray with
    | none => throw (batchDecodeError "mexc batch command response missing data array")
    | some data =>
      if data.length ≠ requestIds.length then
        throw (batchCountError "mexc batch payload item count" data.length requestIds.length)
      (data.zip requestIds).mapM fun (item, requestId) =>
        Mexc.classifyReply operation (.json (mexcItemPayload success code item)) requestId

/-! ### Sending a chunk -/

variable (context : CommandContext)

/-- The receipt of an order whose outcome is open. -/
def unknownCommandReceipt (operation : CommandOperation) (identity : BatchIdentity) :
    CommandReceipt where
  operation := operation
  status := .unknownExecution
  venue := context.venue
  product := context.product
  instrumentId := identity.instrumentId
  orderId := identity.orderId
  clientOrderId := identity.clientOrderId
  requestId := identity.requestId
  message := some "command outcome requires reconcile"
  nativeCode := none
  retriable := true

/-- How a reply to a chunk is classified. -/
abbrev BatchClassifier := InstrumentCatalog → Payload → Except MarketError (List CommandReceipt)

/-- Send a chunk over REST; an outcome that is not certain is one to recover from. -/
def sendBatchRest (operation : CommandOperation) (identities : List BatchIdentity)
    (classifier : BatchClassifier) (request : RestCommand) : CommandE (List CommandReceipt) := do
  match ← rest request with
  | (.ok payload, catalog) => ofExcept (classifier catalog payload)
  | (.error e, _) =>
    if isUncertainCommandError e then
      return identities.map (unknownCommandReceipt context operation)
    else throw (.error e)

/-- Send a chunk over the websocket if the adapter can, and over REST otherwise. -/
def sendBatch (unsupported : String) (operation : CommandOperation)
    (identities : List BatchIdentity) (classifier : BatchClassifier) (frame : WsCommand)
    (request : RestCommand) : CommandE (List CommandReceipt × CommandTransport) := do
  if context.wsOrderEntry then
    match ← ws frame with
    | (.ok payload, catalog) => return (← ofExcept (classifier catalog payload), .webSocket)
    | (.error (.uncertain _), _) =>
      return (identities.map (unknownCommandReceipt context operation), .webSocket)
    | (.error (.unavailable e), _) =>
      if context.websocketOnly then throw (.error e)
      else return (← sendBatchRest context operation identities classifier request, .rest)
  else
    if context.websocketOnly then throw (.error (unsupportedWsCommand context unsupported))
    return (← sendBatchRest context operation identities classifier request, .rest)

/-- Each receipt of a batch is cached, if it is open, and acknowledged, in turn. -/
def cacheAndEmitBatchReceipts (receipts : List CommandReceipt) (identities : List BatchIdentity)
    (operation : CommandOperation) (transport : CommandTransport) : CommandE (List CommandAck) :=
  (receipts.zip identities).mapM fun (receipt, identity) => do
    match identity.instrumentId with
    | some instrumentId =>
      cachePendingUnknown receipt operation instrumentId identity.orderId identity.clientOrderId
    | none => pure ()
    applyCommandReceipt receipt transport

/-- What `cacheAndEmitBatchReceipts` does with one receipt. -/
def cacheAndEmitReceipt (operation : CommandOperation) (transport : CommandTransport)
    (item : CommandReceipt × BatchIdentity) : CommandE CommandAck := do
  match item.2.instrumentId with
  | some instrumentId =>
    cachePendingUnknown item.1 operation instrumentId item.2.orderId item.2.clientOrderId
  | none => pure ()
  applyCommandReceipt item.1 transport

theorem cacheAndEmitBatchReceipts_eq (receipts : List CommandReceipt)
    (identities : List BatchIdentity) (operation : CommandOperation)
    (transport : CommandTransport) :
    cacheAndEmitBatchReceipts receipts identities operation transport =
      (receipts.zip identities).mapM (cacheAndEmitReceipt operation transport) := rfl

/-- Pass the receipts of a chunk on, if there is one for each of its items. -/
def finishChunk (what : String) (receipts : List CommandReceipt) (identities : List BatchIdentity)
    (operation : CommandOperation) (transport : CommandTransport) :
    CommandE (List CommandAck) := do
  if receipts.length ≠ identities.length then
    throw (.error (batchDecodeError (what ++ " returned " ++ toString receipts.length ++
      " receipts for " ++ toString identities.length ++ " requests")))
  cacheAndEmitBatchReceipts receipts identities operation transport

/-! ### What a batch sends -/

section Yields

variable {context} {α : Type} {G : List (Event CommandCall CommandReply) → CommandCall → Prop}
  {operation : CommandOperation} {identities : List BatchIdentity} {classifier : BatchClassifier}
  {request : RestCommand} {frame : WsCommand} {unsupported : String}

theorem yields_sendBatchRest (h : ∀ τ, G τ (.rest request)) :
    Prog.Yields G (fun _ => True)
      (sendBatchRest context operation identities classifier request) := by
  unfold sendBatchRest
  refine (Prog.yields_perform h fun _ => trivial).attempt fun (reply, catalog) _ => ?_
  cases reply with
  | ok payload => exact yields_ofExcept fun _ _ => trivial
  | error e =>
    by_cases hu : isUncertainCommandError e = true
    · simp only [hu, if_true]
      exact Prog.yields_pure trivial
    · simp only [hu]
      exact Prog.yields_throw _

theorem yields_sendBatch (hws : ∀ τ, G τ (.ws frame)) (hrest : ∀ τ, G τ (.rest request)) :
    Prog.Yields G (fun _ => True)
      (sendBatch context unsupported operation identities classifier frame request) := by
  have hfallback : Prog.Yields G (fun _ => True) (do
      return (← sendBatchRest context operation identities classifier request,
        CommandTransport.rest)) :=
    (yields_sendBatchRest hrest).attempt fun _ _ => Prog.yields_pure trivial
  unfold sendBatch
  by_cases hw : context.wsOrderEntry = true
  · simp only [hw, if_true]
    refine (Prog.yields_perform hws fun _ => trivial).attempt fun (reply, catalog) _ => ?_
    cases reply with
    | ok payload => exact (yields_ofExcept fun _ _ => trivial).attempt fun _ _ =>
        Prog.yields_pure trivial
    | error e =>
      cases e with
      | uncertain e => exact Prog.yields_pure trivial
      | unavailable e =>
        by_cases ho : context.websocketOnly = true
        · simp only [ho, if_true]
          exact Prog.yields_throw _
        · simp only [ho]
          exact hfallback
  · by_cases ho : context.websocketOnly = true
    · simp only [hw, ho, if_true]
      exact (Prog.yields_throw (P := fun _ => True) _).attempt fun _ _ => hfallback
    · simp only [hw, ho]
      exact hfallback

/-- Passing receipts on writes nothing, and acknowledges these receipts. -/
theorem yields_acks (hG : ∀ τ q, q.Local → G τ q) (what : String)
    (receipts : List CommandReceipt) (transport : CommandTransport) :
    Prog.Yields G
      (List.Forall₂ (fun receipt ack => ack.receipt = receipt ∧ ack.transport = transport) receipts)
      (finishChunk what receipts identities operation transport) := by
  have hemit : Prog.Yields G
      (List.Forall₂ (fun item ack => ack.receipt = item.1 ∧ ack.transport = transport)
        (receipts.zip identities))
      (cacheAndEmitBatchReceipts receipts identities operation transport) := by
    unfold cacheAndEmitBatchReceipts
    refine Prog.Yields.mapM fun (receipt, identity) _ => ?_
    dsimp only
    split
    · exact (yields_cachePendingUnknown hG _ _ _ _ _).attempt fun _ _ => yields_ack hG _ _
    · exact yields_ack hG _ _
  unfold finishChunk
  by_cases hlen : receipts.length = identities.length
  · simp only [hlen, ne_eq, not_true_eq_false, if_false]
    refine hemit.mono fun acks hacks => ?_
    have hfst : (receipts.zip identities).map Prod.fst = receipts :=
      List.map_fst_zip hlen.le
    rw [← hfst, List.forall₂_map_left_iff]
    exact hacks
  · simp only [hlen, ne_eq, not_false_eq_true, if_true]
    exact Prog.yields_throw_bind _

theorem yields_finishChunk (hG : ∀ τ q, q.Local → G τ q) (what : String)
    (receipts : List CommandReceipt) (transport : CommandTransport) :
    Prog.Yields G (fun _ => True) (finishChunk what receipts identities operation transport) :=
  (yields_acks hG what receipts transport).mono fun _ _ => trivial

end Yields

end BatMarkets
