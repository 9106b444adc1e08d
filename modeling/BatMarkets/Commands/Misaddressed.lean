import BatMarkets.Commands.Addressing
import BatMarkets.Interleaving.Alone

/-!
# Orders of Binance that are looked for in the wrong place

In an environment in which every request times out, an operation goes through all the orders it
names.  What it asks for there shows which orders it addresses wrong.

## Main results

* `addressed_right_iff` : an operation is addressed right exactly when it is `Addressable`.
* `conditional_order_asked_for_as_plain` : a conditional order named by its client order id is
  asked for at the endpoint of plain orders.
-/

namespace BatMarkets

open CommandM Interleaving Ordered Prog Wire

/-! ### Runs without a reply -/

section Visits

/-- A configuration of Binance in which nothing is limited to the websocket. -/
def anyTransport (wsOrderEntry : Bool) : CommandContext :=
  { restContext .binance with wsOrderEntry }

/-- An environment in which every request ends with a timeout. -/
def timeoutReply : (q : CommandCall) → Unit → CommandReply q × Unit :=
  staticReply binanceListed (.error { kind := .timeout, message := "no reply" })

variable {created : OrderTarget → CreatedOrder} (wsOrderEntry : Bool)
  (requestId : Option RequestId) {target : OrderTarget}

theorem succeeds_commandSpec (instrumentId : InstrumentId) :
    Succeeds timeoutReply (commandSpec (anyTransport wsOrderEntry) instrumentId) binanceListed :=
  rfl

theorem succeeds_applyCommandReceipt (receipt : CommandReceipt) (transport : CommandTransport) :
    ∃ ack, Succeeds timeoutReply (applyCommandReceipt receipt transport) ack := by
  unfold applyCommandReceipt
  by_cases hs : receipt.status = .unknownExecution
  · simp only [hs, if_true]
    exact ⟨_, rfl⟩
  · simp only [hs, if_false]
    exact ⟨_, rfl⟩

theorem succeeds_cacheAndApply (cached : CommandOperation) (receipt : CommandReceipt)
    (instrumentId : InstrumentId) (orderId : Option OrderId)
    (clientOrderId : Option ClientOrderId) (transport : CommandTransport) :
    ∃ ack, Succeeds timeoutReply (do
      cachePendingUnknown receipt cached instrumentId orderId clientOrderId
      applyCommandReceipt receipt transport) ack := by
  have hcache : Succeeds timeoutReply
      (cachePendingUnknown receipt cached instrumentId orderId clientOrderId) () := by
    unfold cachePendingUnknown
    split <;> rfl
  obtain ⟨ack, hack⟩ := succeeds_applyCommandReceipt receipt transport
  exact ⟨ack, hcache.attempt hack⟩

theorem succeeds_sendCancelOrder (hnamed : target.orderId.isSome ∨ target.clientOrderId.isSome) :
    ∃ sent, Succeeds timeoutReply (sendCancelOrder (anyTransport wsOrderEntry) binanceListed
      (target.cancelRequest requestId)) sent := by
  unfold sendCancelOrder
  dsimp only [anyTransport, restContext]
  by_cases halgo : isBinanceAlgoOrderId (target.cancelRequest requestId).orderId = true
  · rw [if_pos halgo]
    have hquery : ∃ query, binanceAlgoIdentityQuery target.orderId target.clientOrderId =
        .ok query := by
      unfold isBinanceAlgoOrderId at halgo
      cases hid : target.orderId with
      | none => simp [OrderTarget.cancelRequest, hid] at halgo
      | some id =>
        obtain ⟨text, htext⟩ := Option.isSome_iff_exists.1 (by
          simpa [OrderTarget.cancelRequest, hid] using halgo)
        exact ⟨_, by simp only [binanceAlgoIdentityQuery, htext]; rfl⟩
    obtain ⟨query, hquery⟩ := hquery
    dsimp only [OrderTarget.cancelRequest]
    rw [hquery]
    exact ⟨_, rfl⟩
  · rw [if_neg halgo]
    have hquery : ∃ query, appendOrderIdentity [("symbol", binanceListed.nativeSymbol)]
        target.orderId target.clientOrderId = .ok query := by
      unfold appendOrderIdentity orderIdentity
      cases hid : target.orderId with
      | some id => exact ⟨_, rfl⟩
      | none =>
        cases hclient : target.clientOrderId with
        | some id => exact ⟨_, rfl⟩
        | none => simp [hid, hclient] at hnamed
    obtain ⟨query, hquery⟩ := hquery
    dsimp only [OrderTarget.cancelRequest]
    rw [hquery]
    cases wsOrderEntry
    · exact ⟨_, rfl⟩
    · exact ⟨_, rfl⟩

/-- The cancellation of one order ends with an acknowledgement. -/
theorem succeeds_cancelOrder (hnamed : target.orderId.isSome ∨ target.clientOrderId.isSome) :
    ∃ ack, Succeeds timeoutReply
      (cancelOrder (anyTransport wsOrderEntry) (target.cancelRequest requestId)) ack := by
  obtain ⟨⟨receipt, transport⟩, hsent⟩ := succeeds_sendCancelOrder wsOrderEntry requestId hnamed
  obtain ⟨ack, hack⟩ := succeeds_cacheAndApply .cancelOrder
    (hydrateCancelReceipt receipt (target.cancelRequest requestId)) target.instrumentId
    target.orderId target.clientOrderId transport
  refine ⟨ack, ?_⟩
  unfold cancelOrder
  exact (succeeds_commandSpec _ _).attempt (hsent.attempt hack)

/-- A cancellation that knows the client order id only is sent to the plain orders. -/
theorem visits_cancelOrder {id : ClientOrderId} (hid : target.orderId = none)
    (hclient : target.clientOrderId = some id) :
    ∃ q, (cancelOrder (anyTransport wsOrderEntry) (target.cancelRequest requestId)).run.Visits
      timeoutReply q ∧ ⟨.plain, .client id.asStr⟩ ∈ q.addresses := by
  obtain ⟨instrumentId, orderId, clientOrderId⟩ := target
  obtain rfl : orderId = none := hid
  obtain rfl : clientOrderId = some id := hclient
  have hnames : ⟨.plain, .client id.asStr⟩ ∈ namesIn .plain "orderId" "origClientOrderId"
      (stringFields [("symbol", binanceListed.nativeSymbol), ("origClientOrderId", id.asStr)]) := by
    simp [namesIn, stringFields, Json.asStr]
  unfold cancelOrder
  cases wsOrderEntry
  · refine ⟨.rest ⟨.delete, "/fapi/v1/order", bodyToObject
      [("symbol", binanceListed.nativeSymbol), ("origClientOrderId", id.asStr)],
      "binance.cancel_order"⟩, ?_, hnames⟩
    exact Visits.after (succeeds_commandSpec _ _) (Visits.step visits_call)
  · refine ⟨.ws ⟨"order.cancel", bodyToObject
      [("symbol", binanceListed.nativeSymbol), ("origClientOrderId", id.asStr)],
      "binance.cancel_order_ws"⟩, ?_, hnames⟩
    exact Visits.after (succeeds_commandSpec _ _) (Visits.step visits_call)

theorem visits_getOrder {request : GetOrderRequest} {id : ClientOrderId}
    (hid : request.orderId = none) (hclient : request.clientOrderId = some id) :
    ∃ q, (liftRuntime (getOrder (anyTransport wsOrderEntry).toLiveContext request)).run.Visits
      timeoutReply q ∧ ⟨.plain, .client id.asStr⟩ ∈ q.addresses := by
  obtain ⟨rid, instrumentId, orderId, clientOrderId⟩ := request
  obtain rfl : orderId = none := hid
  obtain rfl : clientOrderId = some id := hclient
  refine ⟨.runtime (.signedGet .order ⟨"/fapi/v1/order",
    [("symbol", binanceListed.nativeSymbol), ("origClientOrderId", id.asStr)],
    "binance.get_order"⟩), ⟨_, List.Mem.head _, rfl⟩, ?_⟩
  simp [CommandCall.addresses, SignedGet.addresses, namesIn, stringFields, Json.asStr]

theorem visits_lookupOrder {command : PendingUnknownCommand} {id : ClientOrderId}
    (hid : command.orderId = none) (hclient : command.clientOrderId = some id) :
    ∃ q, (liftRuntime (lookupOrder (anyTransport wsOrderEntry).toLiveContext command)).run.Visits
      timeoutReply q ∧ ⟨.plain, .client id.asStr⟩ ∈ q.addresses := by
  obtain ⟨operation, instrumentId, orderId, clientOrderId, recordedAt⟩ := command
  obtain rfl : orderId = none := hid
  obtain rfl : clientOrderId = some id := hclient
  refine ⟨.runtime (.signedGet .order ⟨"/fapi/v1/order",
    [("symbol", binanceListed.nativeSymbol), ("origClientOrderId", id.asStr)],
    "binance.get_order"⟩), ⟨_, List.Mem.head _, rfl⟩, ?_⟩
  simp [CommandCall.addresses, SignedGet.addresses, namesIn, stringFields, Json.asStr]

/-! #### Batches -/

variable {targets : List OrderTarget}
  (hall : ∀ t ∈ targets, t.orderId.isSome ∨ t.clientOrderId.isSome)

include hall

/-- Over the websocket, every target of a batch gets its own cancellation. -/
theorem visits_sendCancelOrders_ws {q : CommandCall} (hmem : target ∈ targets)
    (hq : (cancelOrder (anyTransport true) (target.cancelRequest requestId)).run.Visits
      timeoutReply q) :
    (sendCancelOrders (anyTransport true) requestId targets).run.Visits timeoutReply q := by
  have hprogs : ∀ chunk ∈ chunks 10 targets, ∀ u ∈ (chunk.map fun t =>
      cancelOrder (anyTransport true) (t.cancelRequest requestId)).map (fun c => c.run),
      ∃ ack, (exec timeoutReply u ()).1 = .ok ack := by
    intro chunk hchunk u hu
    obtain ⟨c, hc, rfl⟩ := List.mem_map.1 hu
    obtain ⟨t, ht, rfl⟩ := List.mem_map.1 hc
    exact succeeds_cancelOrder true requestId (hall t (mem_of_mem_chunks hchunk ht))
  obtain ⟨chunk, hchunk, htarget⟩ := exists_mem_chunks (show 10 ≠ 0 by decide) hmem
  have heach : (cancelEach (anyTransport true) requestId chunk).run.Visits timeoutReply q :=
    Visits.after (a := []) rfl (visits_tryJoin (hprogs chunk hchunk)
      (List.mem_map.2 ⟨_, List.mem_map.2 ⟨target, htarget, rfl⟩, rfl⟩) hq)
  exact Visits.step (visits_mapM (fun chunk hchunk => succeeds_inOrder (hprogs chunk hchunk))
    hchunk heach)

omit hall

theorem succeeds_finishChunk (what : String) (operation : CommandOperation)
    {receipts : List CommandReceipt} {identities : List BatchIdentity}
    (hlength : receipts.length = identities.length) :
    ∃ acks, Succeeds timeoutReply
      (finishChunk what receipts identities operation .rest) acks := by
  have hemit : ∀ x ∈ receipts.zip identities, ∃ ack,
      Succeeds timeoutReply (cacheAndEmitReceipt operation .rest x) ack := by
    rintro ⟨receipt, identity⟩ -
    unfold cacheAndEmitReceipt
    dsimp only
    cases identity.instrumentId with
    | some instrumentId => exact succeeds_cacheAndApply _ _ _ _ _ _
    | none => exact succeeds_applyCommandReceipt receipt .rest
  obtain ⟨acks, hacks, -⟩ := succeeds_mapM hemit
  refine ⟨acks, ?_⟩
  unfold finishChunk
  simp only [hlength, ne_eq, not_true_eq_false, if_false]
  exact hacks

/-- The request of a chunk ends with acknowledgements. -/
theorem succeeds_cancelChunkBinance (chunk : List (OrderTarget × ℕ)) :
    ∃ acks, Succeeds timeoutReply
      (cancelChunkBinance (anyTransport false) binanceListed chunk) acks := by
  let identities := (chunk.map (·.1)).map (·.identity none)
  let receipts := identities.map
    (unknownCommandReceipt (anyTransport false) .cancelOrder)
  obtain ⟨acks, hacks⟩ := succeeds_finishChunk "binance batch cancel" .cancelOrder
    (show receipts.length = identities.length by simp [receipts])
  refine ⟨(chunk.map (·.2)).zip acks, ?_⟩
  unfold cancelChunkBinance
  exact Succeeds.attempt (a := receipts) rfl (hacks.attempt (succeeds_pure _))

theorem visits_cancelChunkBinance (chunk : List (OrderTarget × ℕ)) :
    (cancelChunkBinance (anyTransport false) binanceListed chunk).run.Visits timeoutReply
      (.rest (binanceCancelBatch binanceListed (chunk.map (·.1)))) :=
  Visits.step visits_call

theorem succeeds_cancelGroupBinance (group : InstrumentId × List (OrderTarget × ℕ)) :
    ∃ acks, Succeeds timeoutReply (cancelGroupBinance (anyTransport false) group) acks := by
  have hchunks : ∀ chunk ∈ chunks 10 group.2, ∃ acks, Succeeds timeoutReply
      (cancelChunkBinance (anyTransport false) binanceListed chunk) acks :=
    fun chunk _ => succeeds_cancelChunkBinance chunk
  obtain ⟨acks, hacks, -⟩ := succeeds_mapM hchunks
  exact ⟨acks.flatten, (succeeds_commandSpec _ _).attempt (hacks.attempt (succeeds_pure _))⟩

/-- Over REST, the requests of a batch are for the chunks of its groups. -/
theorem visits_sendCancelOrders_rest {targets : List OrderTarget}
    {group : InstrumentId × List (OrderTarget × ℕ)} {chunk : List (OrderTarget × ℕ)}
    (hgroup : group ∈ cancelGroups targets) (hchunk : chunk ∈ chunks 10 group.2) :
    (sendCancelOrders (anyTransport false) requestId targets).run.Visits timeoutReply
      (.rest (binanceCancelBatch binanceListed (chunk.map (·.1)))) := by
  have hvisit : (cancelGroupBinance (anyTransport false) group).run.Visits timeoutReply
      (.rest (binanceCancelBatch binanceListed (chunk.map (·.1)))) :=
    Visits.after (succeeds_commandSpec _ _) (Visits.step (visits_mapM
      (fun chunk _ => succeeds_cancelChunkBinance chunk) hchunk (visits_cancelChunkBinance chunk)))
  have hgroups : (cancelGroupsBinance (anyTransport false) targets).run.Visits timeoutReply
      (.rest (binanceCancelBatch binanceListed (chunk.map (·.1)))) :=
    Visits.step (visits_mapM (fun group _ => succeeds_cancelGroupBinance group) hgroup hvisit)
  exact Visits.step hgroups

end Visits

/-! ### What the code cannot tell -/

section Converse

variable {created : OrderTarget → CreatedOrder} {wsOrderEntry : Bool}
  {operation : NamingOperation} {target : OrderTarget}

theorem validateCancelOrders_eq_ok {request : CancelOrdersRequest}
    (hall : ∀ t ∈ request.orders, t.orderId.isSome ∨ t.clientOrderId.isSome)
    (hmem : target ∈ request.orders) : validateCancelOrders request = .ok () := by
  have hnone : (request.orders.any fun target =>
      target.orderId.isNone && target.clientOrderId.isNone) = false := by
    rw [List.any_eq_false]
    intro t ht
    rcases hall t ht with h | h
    · simp [Option.isSome_iff_ne_none.1 h]
    · simp [Option.isSome_iff_ne_none.1 h]
  unfold validateCancelOrders
  rw [if_neg (List.ne_nil_of_mem hmem), hnone]
  rfl

/-- A batch of several targets is sent by `sendCancelOrders`. -/
theorem visits_cancelOrders {request : CancelOrdersRequest} {q : CommandCall}
    (hall : ∀ t ∈ request.orders, t.orderId.isSome ∨ t.clientOrderId.isSome)
    (hmem : target ∈ request.orders) (hbatch : ∀ single, request.orders ≠ [single])
    (hq : (sendCancelOrders (anyTransport wsOrderEntry) request.requestId
      request.orders).run.Visits timeoutReply q) :
    (cancelOrders (anyTransport wsOrderEntry) request).run.Visits timeoutReply q := by
  unfold cancelOrders
  rw [validateCancelOrders_eq_ok hall hmem]
  refine Visits.after (a := ()) rfl ?_
  split
  · next single heq => exact absurd heq (hbatch single)
  · exact hq

theorem visits_cancelOrders_single {request : CancelOrdersRequest} {q : CommandCall}
    (hall : ∀ t ∈ request.orders, t.orderId.isSome ∨ t.clientOrderId.isSome)
    (hsingle : request.orders = [target])
    (hq : (cancelOrder (anyTransport wsOrderEntry)
      (target.cancelRequest request.requestId)).run.Visits timeoutReply q) :
    (cancelOrders (anyTransport wsOrderEntry) request).run.Visits timeoutReply q := by
  have hmem : target ∈ request.orders := by simp [hsingle]
  unfold cancelOrders
  rw [validateCancelOrders_eq_ok hall hmem]
  refine Visits.after (a := ()) rfl ?_
  rw [hsingle]
  exact hq.step

/-- Over REST, a target of a batch is in a uniform chunk, whose request is sent. -/
theorem exists_chunk_of_mem {targets : List OrderTarget}
    (hnamed : ∀ t ∈ targets, (created t).NamedBy t) (hmem : target ∈ targets)
    (requestId : Option RequestId) :
    ∃ chunk, target ∈ chunk ∧ Uniform created chunk ∧
      (sendCancelOrders (anyTransport false) requestId targets).run.Visits timeoutReply
        (.rest (binanceCancelBatch binanceListed chunk)) := by
  have hgroups := groups_cancelGroups hnamed
  obtain ⟨group, hgroup, x, hx, rfl⟩ := hgroups.covered target hmem
  obtain ⟨chunk, hchunk, hxc⟩ := exists_mem_chunks (show 10 ≠ 0 by decide) hx
  refine ⟨chunk.map (·.1), List.mem_map.2 ⟨x, hxc, rfl⟩, ?_,
    visits_sendCancelOrders_rest requestId hgroup hchunk⟩
  refine (hgroups.uniform group hgroup).of_subset fun t ht => ?_
  obtain ⟨y, hy, rfl⟩ := List.mem_map.1 ht
  exact List.mem_map.2 ⟨y, mem_of_mem_chunks hchunk hy, rfl⟩

/-- An operation that names a conditional order by its client order id asks for it among the plain
orders. -/
theorem visits_client (wsOrderEntry : Bool)
    (hnamed : ∀ t ∈ operation.targets, (created t).NamedBy t)
    (hmem : target ∈ operation.targets) (hid : target.orderId = none) :
    ∃ q, (operation.run (anyTransport wsOrderEntry)).run.Visits timeoutReply q ∧
      ⟨.plain, .client (created target).clientOrderId.asStr⟩ ∈ q.addresses := by
  obtain ⟨id, hclient⟩ := Option.isSome_iff_exists.1
    ((hnamed target hmem).named.resolve_left (by simp [hid]))
  obtain rfl := (hnamed target hmem).clientOrderId id hclient
  cases operation with
  | getOrder request =>
    obtain rfl := List.mem_singleton.1 hmem
    obtain ⟨q, hq, ha⟩ := visits_getOrder wsOrderEntry hid hclient
    exact ⟨q, hq.step, ha⟩
  | lookupOrder command =>
    obtain rfl := List.mem_singleton.1 hmem
    obtain ⟨q, hq, ha⟩ := visits_lookupOrder wsOrderEntry hid hclient
    exact ⟨q, hq.step, ha⟩
  | cancelOrder request =>
    obtain rfl := List.mem_singleton.1 hmem
    obtain ⟨q, hq, ha⟩ := visits_cancelOrder wsOrderEntry request.requestId hid hclient
    exact ⟨q, Visits.step hq, ha⟩
  | cancelOrders request =>
    have hall : ∀ t ∈ request.orders, t.orderId.isSome ∨ t.clientOrderId.isSome :=
      fun t ht => (hnamed t ht).named
    obtain ⟨q, hq, ha⟩ := visits_cancelOrder wsOrderEntry request.requestId hid hclient
    by_cases hsingle : request.orders = [target]
    · exact ⟨q, Visits.step (visits_cancelOrders_single hall hsingle hq), ha⟩
    · have hbatch : ∀ single, request.orders ≠ [single] := by
        intro single heq
        have hmem : target ∈ request.orders := hmem
        rw [heq, List.mem_singleton] at hmem
        exact hsingle (hmem ▸ heq)
      cases wsOrderEntry with
      | true =>
        exact ⟨q, Visits.step (visits_cancelOrders hall hmem hbatch
          (visits_sendCancelOrders_ws request.requestId hall hmem hq)), ha⟩
      | false =>
        obtain ⟨chunk, htarget, huniform, hsent⟩ := exists_chunk_of_mem hnamed hmem
          request.requestId
        refine ⟨_, Visits.step (visits_cancelOrders hall hmem hbatch hsent), ?_⟩
        rcases huniform with hids | ⟨hids, hclients⟩
        · have hsome := hids target htarget
          rw [hid] at hsome
          cases hsome
        · rw [addresses_cancelBatch_clients hids hclients]
          exact List.mem_map.2 ⟨target, htarget, rfl⟩

/-- A batch over REST asks for all orders among the plain ones. -/
theorem visits_batch (hnamed : ∀ t ∈ operation.targets, (created t).NamedBy t)
    (hmem : target ∈ operation.targets) (hid : target.orderId.isSome) (hbatch : operation.IsBatch) :
    ∃ q, (operation.run (anyTransport false)).run.Visits timeoutReply q ∧
      ⟨.plain, .id (created target).orderId.asStr⟩ ∈ q.addresses := by
  cases operation with
  | getOrder request => exact hbatch.elim
  | lookupOrder command => exact hbatch.elim
  | cancelOrder request => exact hbatch.elim
  | cancelOrders request =>
    have hmany : ∀ single, request.orders ≠ [single] := by
      intro single heq
      have hlength : 1 < request.orders.length := hbatch
      rw [heq, List.length_singleton] at hlength
      omega
    obtain ⟨chunk, htarget, huniform, hsent⟩ := exists_chunk_of_mem hnamed hmem request.requestId
    refine ⟨_, Visits.step (visits_cancelOrders (fun t ht => (hnamed t ht).named) hmem hmany
      hsent), ?_⟩
    rcases huniform with hids | ⟨hids, -⟩
    · rw [addresses_cancelBatch_ids (List.ne_nil_of_mem htarget) hids]
      exact List.mem_map.2 ⟨target, htarget, rfl⟩
    · rw [hids target htarget] at hid
      cases hid

/-- **Where orders are addressed, exactly.**  An operation on Binance addresses the orders it names
where they were created, in every run and whatever the transport mode, exactly when each conditional
order among them is named by its id, and is not cancelled in a batch over REST. -/
theorem addressed_right_iff (hnamed : ∀ t ∈ operation.targets, (created t).NamedBy t) :
    AddressedRight wsOrderEntry created operation ↔
      Addressable wsOrderEntry created operation := by
  refine ⟨fun h target hmem hconditional => ?_, addressedRight_of_addressable hnamed⟩
  have hright := h (anyTransport wsOrderEntry) rfl rfl
  have hid : target.orderId.isSome := by
    by_contra hnone
    have hnone : target.orderId = none := by simpa using hnone
    obtain ⟨q, hq, ha⟩ := visits_client wsOrderEntry hnamed hmem hnone
    have hfamily := (Always.of_visits hright hq).client _ ha target hmem hnone rfl
    rw [hconditional] at hfamily
    cases hfamily
  refine ⟨hid, fun hbatch => ?_⟩
  by_contra hws
  obtain rfl : wsOrderEntry = false := by simpa using hws
  obtain ⟨q, hq, ha⟩ := visits_batch hnamed hmem hid hbatch
  -- the id with its prefix is not the id of any order at the venue
  obtain ⟨target', -, -, hname | hname⟩ := (Always.of_visits hright hq).named _ ha
  · rw [CreatedOrder.orderId_of_conditional hconditional] at hname
    have hsame : Binance.algoOrderId (created target).number =
        ⟨toString (created target').number⟩ := by
      simpa [Binance.algoOrderId] using hname
    have hvalue := binanceAlgoOrderIdValue_algoOrderId (created target).number
    rw [hsame, binanceAlgoOrderIdValue_toString] at hvalue
    cases hvalue
  · cases hname

end Converse

/-! ### A stop order -/

/-- A stop order on BTC, with the client order id `cid-stop` and the number 5. -/
def stopOrder : CreatedOrder where
  request := {
    requestId := none
    instrumentId := ⟨"BTC/USDT:USDT"⟩
    clientOrderId := some ⟨"cid-stop"⟩
    side := .sell
    orderType := .stopMarket
    timeInForce := none
    quantity := ⟨.ofNat 1 Decimal.one_fits⟩
    price := none
    triggerPrice := some ⟨.ofNat 60000⟩
    triggerType := none
    reduceOnly := false
    postOnly := false }
  number := 5
  clientOrderId := ⟨"cid-stop"⟩
  requested := by
    rintro id hid
    cases hid
    rfl

/-- A stop order is asked for among the plain orders when only its client order id is given. -/
theorem conditional_order_asked_for_as_plain :
    ¬ ∀ (wsOrderEntry : Bool) (created : OrderTarget → CreatedOrder) (operation : NamingOperation),
      (∀ t ∈ operation.targets, (created t).NamedBy t) →
        AddressedRight wsOrderEntry created operation := by
  intro h
  let request : GetOrderRequest := ⟨none, ⟨"BTC/USDT:USDT"⟩, none, some ⟨"cid-stop"⟩⟩
  have hnamed : ∀ t ∈ (NamingOperation.getOrder request).targets, stopOrder.NamedBy t := by
    intro t ht
    obtain rfl := List.mem_singleton.1 ht
    exact ⟨by simp [request], by simp [request, stopOrder], by simp [request]⟩
  obtain ⟨q, hq, ha⟩ := visits_getOrder false (show request.orderId = none from rfl) rfl
  have hright := h false (fun _ => stopOrder) (.getOrder request) hnamed (anyTransport false) rfl rfl
  have hfamily := (Always.of_visits hright hq.step).client _ ha _ (List.mem_singleton.2 rfl) rfl rfl
  cases hfamily

/-- A stop order is cancelled where it was created when its id is given. -/
theorem addressed_right_iff_by_id :
    AddressedRight true (fun _ => stopOrder)
      (.cancelOrder ⟨none, ⟨"BTC/USDT:USDT"⟩, some ⟨"binance-algo:5"⟩, some ⟨"cid-stop"⟩⟩) := by
  refine (addressed_right_iff fun t ht => ?_).2 fun t ht _ => ?_
  · obtain rfl := List.mem_singleton.1 ht
    refine ⟨fun id hid => ?_, fun id hid => ?_, .inl rfl⟩
    · cases hid
      decide
    · cases hid
      rfl
  · obtain rfl := List.mem_singleton.1 ht
    exact ⟨rfl, fun _ => rfl⟩

end BatMarkets
