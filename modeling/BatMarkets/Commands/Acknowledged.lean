import BatMarkets.Commands.Assembly

/-!
# How commands acknowledge

Single commands and batches are built alike: silent steps, then for each item a receipt that is
remembered if its execution is unknown and then acknowledged, one item after the other or side by
side.  `AckLogic` is the condition on a way of judging programs that what they are built of is judged
well; then so are the commands, which is said once here for every such judgement.

A judgement `J α acks items x` is about the program `x`, the acknowledgements that are in its value
and the orders it is for.

## Main results

* `AckLogic.finishChunk` : the receipts of a chunk.
* `AckLogic.createOrders`, `AckLogic.amendOrders`, `AckLogic.cancelOrders`,
  `AckLogic.closePosition` : the commands.
-/

namespace BatMarkets

open CommandM Interleaving Ordered Prog Wire

/-- What the receipt says about its order agrees with the target. -/
structure OrderTarget.Names (target : OrderTarget) (operation : CommandOperation)
    (receipt : CommandReceipt) : Prop where
  operation : receipt.operation = operation
  instrumentId : ∀ i ∈ receipt.instrumentId, i = target.instrumentId
  orderId : ∀ id ∈ receipt.orderId, target.orderId = some id
  clientOrderId : ∀ id ∈ receipt.clientOrderId, target.clientOrderId = some id

/-- Remember the receipt if its execution is unknown, and acknowledge it. -/
def cacheAndApply (operation : CommandOperation) (target : OrderTarget) (receipt : CommandReceipt)
    (transport : CommandTransport) : CommandE CommandAck := do
  cachePendingUnknown receipt operation target.instrumentId target.orderId target.clientOrderId
  applyCommandReceipt receipt transport

/-- The commands for orders are built of these. -/
structure AckLogic (operation : CommandOperation)
    (J : ∀ α : Type, (α → List CommandAck) → List OrderTarget → CommandE α → Prop) : Prop where
  fail : ∀ {α : Type} {acks : α → List CommandAck} {items : List OrderTarget} (e : Failure),
    J α acks items (throw e)
  silent : ∀ {α β : Type} {P : α → Prop} {x : CommandE α} {f : α → CommandE β}
    {acks : β → List CommandAck} {items : List OrderTarget}, Silently P x →
    (∀ a, P a → J β acks items (f a)) → J β acks items (x >>= f)
  single : ∀ (target : OrderTarget) (receipt : CommandReceipt) (transport : CommandTransport),
    (receipt.status = .unknownExecution → target.Names operation receipt) →
    J CommandAck (fun ack => [ack]) [target] (cacheAndApply operation target receipt transport)
  /-- One after the other. -/
  inRow : ∀ {α γ : Type} {acks : α → List CommandAck} {items : γ → List OrderTarget}
    {f : γ → CommandE α} (cs : List γ), (∀ c ∈ cs, J α acks (items c) (f c)) →
    J (List α) (fun as => as.flatMap acks) (cs.flatMap items) (cs.mapM f)
  sideBySide : ∀ {α γ : Type} {acks : α → List CommandAck} {items : γ → List OrderTarget}
    {f : γ → CommandE α} (cs : List γ), (∀ c ∈ cs, J α acks (items c) (f c)) →
    J (List α) (fun as => as.flatMap acks) (cs.flatMap items) (tryJoinAll (cs.map f))
  /-- A value is passed on with the same acknowledgements. -/
  value : ∀ {α β : Type} {P : α → Prop} {acks : α → List CommandAck} {acks' : β → List CommandAck}
    {items : List OrderTarget} {x : CommandE α} {g : α → Except MarketError β},
    J α acks items x → Yields (fun _ _ => True) P x →
    (∀ a b, P a → g a = .ok b → (acks' b).Perm (acks a)) →
    J β acks' items (x >>= fun a => ofExcept (g a))
  perm : ∀ {α : Type} {acks : α → List CommandAck} {items items' : List OrderTarget}
    {x : CommandE α}, items.Perm items' → J α acks items x → J α acks items' x

/-! ### Targets -/

/-- The target of an item of a batch, if its instrument is known. -/
def BatchIdentity.target? (identity : BatchIdentity) : Option OrderTarget :=
  identity.instrumentId.map fun instrumentId =>
    ⟨instrumentId, identity.orderId, identity.clientOrderId⟩

theorem BatchIdentity.target?_eq_some_iff {identity : BatchIdentity} {target : OrderTarget} :
    identity.target? = some target ↔ identity.instrumentId = some target.instrumentId ∧
      identity.orderId = target.orderId ∧ identity.clientOrderId = target.clientOrderId := by
  obtain ⟨instrumentId, orderId, clientOrderId, requestId⟩ := identity
  cases instrumentId with
  | none => simp [BatchIdentity.target?]
  | some i =>
    obtain ⟨instrumentId, orderId', clientOrderId'⟩ := target
    simp [BatchIdentity.target?]

/-- A receipt of unknown execution names the target it is completed with. -/
theorem names_hydrateReceipt {target : OrderTarget} {venue : Venue} {operation : CommandOperation}
    {requestId : Option RequestId} {receipt : CommandReceipt}
    (h : UnknownAs venue operation requestId receipt) :
    (hydrateReceipt receipt target.instrumentId target.orderId target.clientOrderId).status =
      .unknownExecution →
    target.Names operation
      (hydrateReceipt receipt target.instrumentId target.orderId target.clientOrderId) := by
  intro hunknown
  rw [h hunknown]
  constructor <;> simp [hydrateReceipt, unknownExecution, CommandReceipt.plain]

namespace AckLogic

variable {operation : CommandOperation}
  {J : ∀ α : Type, (α → List CommandAck) → List OrderTarget → CommandE α → Prop}
  {context : CommandContext}

/-! ### Chunks -/

/-- Batches may be put together of programs that are judged well. -/
theorem assembly (h : AckLogic operation J) : Assembly J where
  fail := h.fail
  prepare := fun hx hf => h.silent hx.silently hf
  inRow := fun cs _ => h.inRow cs
  sideBySide := fun cs _ => h.sideBySide cs
  value := fun {_ _ P _ _ _ _ g} hx hP hg => by
    refine h.value hx hP fun a b ha hb => ?_
    obtain ⟨b', hb', hperm⟩ := hg a ha
    obtain rfl := Except.ok.inj (hb'.symm.trans hb)
    exact hperm
  perm := h.perm

/-- Where the targets of a chunk are known, its receipts are passed on one by one. -/
theorem cacheAndEmit_eq {γ : Type} {identity : γ → BatchIdentity} {target : γ → OrderTarget}
    (transport : CommandTransport) (receipts : List CommandReceipt) {chunk : List γ}
    (htarget : ∀ c ∈ chunk, (identity c).target? = some (target c)) :
    cacheAndEmitBatchReceipts receipts (chunk.map identity) operation transport =
      (receipts.zip chunk).mapM fun p => cacheAndApply operation (target p.2) p.1 transport := by
  induction chunk generalizing receipts with
  | nil => simp [cacheAndEmitBatchReceipts]
  | cons c chunk ih =>
    cases receipts with
    | nil => simp [cacheAndEmitBatchReceipts]
    | cons receipt receipts =>
      have hrest := ih receipts fun d hd => htarget d (by simp [hd])
      obtain ⟨hinstrument, horder, hclient⟩ :=
        BatchIdentity.target?_eq_some_iff.1 (htarget c (by simp))
      unfold cacheAndEmitBatchReceipts at hrest ⊢
      rw [List.map_cons, List.zip_cons_cons, List.zip_cons_cons, List.mapM_cons, List.mapM_cons,
        hrest]
      simp only [hinstrument, horder, hclient, cacheAndApply]

/-- A receipt that is made up for an item names its target. -/
theorem names_unknownCommandReceipt {identity : BatchIdentity} {target : OrderTarget}
    (h : identity.target? = some target) :
    target.Names operation (unknownCommandReceipt context operation identity) := by
  obtain ⟨hinstrument, horder, hclient⟩ := BatchIdentity.target?_eq_some_iff.1 h
  constructor <;> simp [unknownCommandReceipt, hinstrument, horder, hclient]

/-- The receipts of a chunk are passed on. -/
theorem finishChunk (h : AckLogic operation J) {γ : Type} {chunk : List γ}
    {identity : γ → BatchIdentity} (target : γ → OrderTarget) (what : String)
    {receipts : List CommandReceipt} (transport : CommandTransport)
    (htarget : ∀ c ∈ chunk, (identity c).target? = some (target c))
    (hreceipts : AllOrNone context operation (chunk.map identity) receipts) :
    J _ id (chunk.map target)
      (BatMarkets.finishChunk what receipts (chunk.map identity) operation transport) := by
  unfold BatMarkets.finishChunk
  by_cases hlength : receipts.length = (chunk.map identity).length
  · rw [if_neg (not_not_intro hlength), cacheAndEmit_eq transport receipts htarget]
    have hrow := h.inRow (receipts.zip chunk) fun p hp =>
      h.single (target p.2) p.1 transport fun hunknown => ?_
    · have hacks : (fun acks : List CommandAck => acks.flatMap fun ack => [ack]) = id :=
        funext fun acks => List.flatMap_singleton' acks
      have hitems : (receipts.zip chunk).flatMap (fun p => [target p.2]) = chunk.map target := by
        have hsnd : (receipts.zip chunk).map Prod.snd = chunk :=
          List.map_snd_zip (by simpa using hlength.ge)
        rw [← List.map_eq_flatMap]
        conv_rhs => rw [← hsnd, List.map_map]
        rfl
      rwa [hacks, hitems] at hrow
    · rcases hreceipts with hdecided | rfl
      · exact absurd hunknown (hdecided _ (List.of_mem_zip hp).1)
      · have hzip : ((chunk.map identity).map (unknownCommandReceipt context operation)).zip chunk =
            chunk.map fun c => (unknownCommandReceipt context operation (identity c), c) := by
          have hboth := List.zip_map' (f := unknownCommandReceipt context operation ∘ identity)
            (g := id) (l := chunk)
          simpa using hboth
        rw [hzip] at hp
        obtain ⟨c, hc, rfl⟩ := List.mem_map.1 hp
        exact names_unknownCommandReceipt (htarget c hc)
  · rw [if_pos hlength]
    exact h.silent (P := fun _ => False) (yields_throw _) fun _ hfalse => hfalse.elim

/-! ### The commands -/

theorem createOrder (h : AckLogic .createOrder J) (request : CreateOrderRequest) :
    J _ (fun ack => [ack]) [request.target] (BatMarkets.createOrder context request) := by
  unfold BatMarkets.createOrder
  refine h.silent (preparing_validateCreateOrder request).silently fun _ _ => ?_
  refine h.silent (silently_sendCreateOrder request) fun (receipt, transport) hreceipt => ?_
  refine h.single request.target (hydrateCreateReceipt receipt request) transport fun hunknown => ?_
  -- the receipt says nothing that the request does not
  have hreceipt := hreceipt hunknown
  dsimp only at hreceipt
  rw [hreceipt]
  constructor <;>
    simp [hydrateCreateReceipt, unknownExecution, CommandReceipt.plain, CreateOrderRequest.target]

theorem createChunkBinance (h : AckLogic .createOrder J) (chunk : List CreateOrderRequest) :
    J _ id (chunk.map (·.target)) (BatMarkets.createChunkBinance context chunk) := by
  unfold BatMarkets.createChunkBinance
  refine h.silent (yields_each fun order _ =>
    (silently_commandSpec _).attempt fun _ _ => yields_pure trivial) fun orders _ => ?_
  refine h.silent (silently_sendBatchRest decides_binance) fun receipts hreceipts => ?_
  exact h.finishChunk (·.target) _ _ (fun _ _ => rfl) hreceipts

theorem createChunkBybit (h : AckLogic .createOrder J) (chunk : List CreateOrderRequest) :
    J _ id (chunk.map (·.target)) (BatMarkets.createChunkBybit context chunk) := by
  unfold BatMarkets.createChunkBybit
  refine h.silent (yields_each fun order _ =>
    (silently_commandSpec _).attempt fun _ _ => yields_pure trivial) fun orders _ => ?_
  refine h.silent (silently_sendBatch decides_bybit) fun (receipts, transport) hreceipts => ?_
  exact h.finishChunk (·.target) _ _ (fun _ _ => rfl) hreceipts

theorem createChunkMexc (h : AckLogic .createOrder J) (chunk : List CreateOrderRequest) :
    J _ id (chunk.map (·.target)) (BatMarkets.createChunkMexc context chunk) := by
  unfold BatMarkets.createChunkMexc
  refine h.silent (yields_each fun order _ =>
    (preparing_mexcCreateBody order).silently) fun orders _ => ?_
  refine h.silent (silently_sendBatchRest decides_mexc) fun receipts hreceipts => ?_
  exact h.finishChunk (·.target) _ _ (fun _ _ => rfl) hreceipts

theorem createOrders (h : AckLogic .createOrder J) (request : CreateOrdersRequest) :
    J _ id (request.orders.map (·.target)) (BatMarkets.createOrders context request) :=
  h.assembly.createOrders h.createOrder (fun _ chunk _ => h.createChunkBinance chunk)
    (fun _ chunk _ => h.createChunkBybit chunk) (fun _ chunk _ => h.createChunkMexc chunk) request

theorem amendOrder (h : AckLogic .amendOrder J) (request : AmendOrderRequest) :
    J _ (fun ack => [ack]) [request.target] (BatMarkets.amendOrder context request) := by
  unfold BatMarkets.amendOrder
  refine h.silent (preparing_validateAmendOrder request).silently fun _ _ => ?_
  refine h.silent (silently_sendAmendOrder request) fun (receipt, transport) hreceipt => ?_
  exact h.single request.target _ transport (names_hydrateReceipt hreceipt)

theorem amendChunkBinance (h : AckLogic .amendOrder J) (chunk : List AmendOrderRequest) :
    J _ id (chunk.map (·.target)) (BatMarkets.amendChunkBinance context chunk) := by
  unfold BatMarkets.amendChunkBinance
  refine h.silent (yields_each fun order _ =>
    (preparing_buildBinanceBatchAmendObject order).silently) fun orders _ => ?_
  refine h.silent (silently_sendBatchRest decides_binance) fun receipts hreceipts => ?_
  exact h.finishChunk (·.target) _ _ (fun _ _ => rfl) hreceipts

theorem amendChunkBybit (h : AckLogic .amendOrder J) (chunk : List AmendOrderRequest) :
    J _ id (chunk.map (·.target)) (BatMarkets.amendChunkBybit context chunk) := by
  unfold BatMarkets.amendChunkBybit
  refine h.silent (yields_each fun order _ =>
    (preparing_buildBybitBatchAmendObject order).silently) fun orders _ => ?_
  refine h.silent (silently_sendBatch decides_bybit) fun (receipts, transport) hreceipts => ?_
  exact h.finishChunk (·.target) _ _ (fun _ _ => rfl) hreceipts

theorem amendOrders (h : AckLogic .amendOrder J) (request : AmendOrdersRequest) :
    J _ id (request.orders.map (·.target)) (BatMarkets.amendOrders context request) :=
  h.assembly.amendOrders h.amendOrder (fun _ chunk _ => h.amendChunkBinance chunk)
    (fun _ chunk _ => h.amendChunkBybit chunk) request

theorem cancelOrder (h : AckLogic .cancelOrder J) (request : CancelOrderRequest) :
    J _ (fun ack => [ack]) [request.target] (BatMarkets.cancelOrder context request) := by
  unfold BatMarkets.cancelOrder
  refine h.silent (silently_commandSpec _) fun spec _ => ?_
  refine h.silent (silently_sendCancelOrder spec request) fun (receipt, transport) hreceipt => ?_
  exact h.single request.target _ transport (names_hydrateReceipt hreceipt)

theorem cancelChunkBybit (h : AckLogic .cancelOrder J) (chunk : List OrderTarget) :
    J _ id chunk (BatMarkets.cancelChunkBybit context chunk) := by
  unfold BatMarkets.cancelChunkBybit
  refine h.silent (yields_each fun target _ => ?_) fun orders _ => ?_
  · refine (silently_commandSpec _).attempt fun spec _ => ?_
    refine Yields.attempt (P := fun _ => True) (yields_ofExcept fun _ _ => trivial) fun _ _ => ?_
    exact yields_pure trivial
  · refine h.silent (silently_sendBatch decides_bybit) fun (receipts, transport) hreceipts => ?_
    have hfinish := h.finishChunk id "bybit batch cancel" transport
      (fun _ _ => rfl) hreceipts
    rwa [List.map_id] at hfinish

theorem cancelChunkMexc (h : AckLogic .cancelOrder J) (requestId : Option RequestId)
    (byOrderId : Bool) (chunk : List OrderTarget) :
    J _ id chunk (BatMarkets.cancelChunkMexc context requestId byOrderId chunk) := by
  unfold BatMarkets.cancelChunkMexc
  refine h.silent (preparing_mexcCancelChunkBody byOrderId chunk).silently fun (path, body) _ => ?_
  refine h.silent (silently_sendBatchRest decides_mexc) fun receipts hreceipts => ?_
  have hfinish := h.finishChunk id "mexc batch cancel" .rest
    (fun _ _ => rfl) hreceipts
  rwa [List.map_id] at hfinish

theorem cancelChunkBinance (h : AckLogic .cancelOrder J) (context : CommandContext)
    (spec : InstrumentSpec) (chunk : List (OrderTarget × ℕ)) :
    J _ (fun pairs => pairs.map (·.2)) (chunk.map (·.1))
      (BatMarkets.cancelChunkBinance context spec chunk) := by
  unfold BatMarkets.cancelChunkBinance
  refine h.silent (silently_sendBatchRest decides_binance) fun receipts hreceipts => ?_
  have hfinish := h.finishChunk id "binance batch cancel" .rest
    (fun _ _ => rfl) hreceipts
  rw [List.map_id] at hfinish
  refine h.value (g := fun acks => .ok ((chunk.map (·.2)).zip acks)) hfinish
    yields_finishChunk_length fun acks pairs hlength hpairs => ?_
  obtain rfl := Except.ok.inj hpairs
  rw [List.map_snd_zip (by simpa using hlength.le)]
  rfl

theorem cancelOrders (h : AckLogic .cancelOrder J) (request : CancelOrdersRequest) :
    J _ id request.orders (BatMarkets.cancelOrders context request) :=
  h.assembly.cancelOrders (fun target => h.cancelOrder (target.cancelRequest request.requestId))
    (fun _ spec chunk _ => h.cancelChunkBinance context spec chunk)
    (fun _ chunk _ => h.cancelChunkBybit chunk)
    fun _ byOrderId chunk _ => h.cancelChunkMexc request.requestId byOrderId chunk

theorem closePosition (h : AckLogic .closePosition J) (request : ClosePositionRequest) :
    J _ (fun ack => [ack]) [request.target] (BatMarkets.closePosition context request) := by
  unfold BatMarkets.closePosition
  refine h.silent (preparing_resolveClosePosition request).silently fun position _ => ?_
  refine h.silent (yields_ofExcept fun order horder => horder) fun order horder => ?_
  refine h.silent (preparing_validateCreateOrder order).silently fun _ _ => ?_
  refine h.silent (silently_sendCloseOrder order) fun (receipt, transport) hreceipt => ?_
  -- the order that closes the position is for the instrument and the client id of the request
  obtain ⟨side, quantity, rfl⟩ := closeRequest_eq_ok horder
  refine h.single request.target _ transport fun hunknown => ?_
  have hreceipt := hreceipt hunknown
  dsimp only at hreceipt
  rw [hreceipt]
  constructor <;> simp [unknownExecution, CommandReceipt.plain]

end AckLogic

end BatMarkets
