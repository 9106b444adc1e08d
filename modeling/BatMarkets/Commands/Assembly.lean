import BatMarkets.Commands.CancelBatches
import BatMarkets.Commands.Silent

/-!
# How batches are assembled

A batch is cut into chunks.  The orders of a chunk are sent in one request, or by a command for
each of them, side by side; the chunks are sent one after the other.  `Assembly` is the condition on
a way of judging programs that a program is judged well if it is put together like this of programs
that are judged well; then so are the commands for batches, whose pieces are, which is said once
here for every such judgement.

A judgement `J α acks items x` is about the program `x`, the acknowledgements that are in its value
and the orders it is for.

## Main results

* `Assembly.createOrders`, `Assembly.amendOrders`, `Assembly.cancelOrders` : the commands.
-/

namespace BatMarkets

open CommandM Interleaving Ordered Prog Wire

/-! ### Targets -/

/-- The names of an order that is created. -/
def CreateOrderRequest.target (request : CreateOrderRequest) : OrderTarget where
  instrumentId := request.instrumentId
  orderId := none
  clientOrderId := request.clientOrderId

/-- The names of an order that is amended. -/
def AmendOrderRequest.target (request : AmendOrderRequest) : OrderTarget where
  instrumentId := request.instrumentId
  orderId := request.orderId
  clientOrderId := request.clientOrderId

/-- The names of an order that is cancelled. -/
def CancelOrderRequest.target (request : CancelOrderRequest) : OrderTarget where
  instrumentId := request.instrumentId
  orderId := request.orderId
  clientOrderId := request.clientOrderId

/-- The names of the order that closes a position. -/
def ClosePositionRequest.target (request : ClosePositionRequest) : OrderTarget where
  instrumentId := request.instrumentId
  orderId := none
  clientOrderId := request.clientOrderId

/-! ### Assemblies -/

/-- Batches are put together like this. -/
structure Assembly
    (J : ∀ α : Type, (α → List CommandAck) → List OrderTarget → CommandE α → Prop) : Prop where
  fail : ∀ {α : Type} {acks : α → List CommandAck} {items : List OrderTarget} (e : Failure),
    J α acks items (throw e)
  prepare : ∀ {α β : Type} {P : α → Prop} {x : CommandE α} {f : α → CommandE β}
    {acks : β → List CommandAck} {items : List OrderTarget}, Preparing P x →
    (∀ a, P a → J β acks items (f a)) → J β acks items (x >>= f)
  /-- One after the other. -/
  inRow : ∀ {α γ : Type} {acks : α → List CommandAck} {items : γ → List OrderTarget}
    {f : γ → CommandE α} (cs : List γ), (∀ c ∈ cs, items c ≠ []) →
    (∀ c ∈ cs, J α acks (items c) (f c)) →
    J (List α) (fun as => as.flatMap acks) (cs.flatMap items) (cs.mapM f)
  sideBySide : ∀ {α γ : Type} {acks : α → List CommandAck} {items : γ → List OrderTarget}
    {f : γ → CommandE α} (cs : List γ), (∀ c ∈ cs, items c ≠ []) →
    (∀ c ∈ cs, J α acks (items c) (f c)) →
    J (List α) (fun as => as.flatMap acks) (cs.flatMap items) (tryJoinAll (cs.map f))
  /-- A value is passed on with the same acknowledgements. -/
  value : ∀ {α β : Type} {P : α → Prop} {acks : α → List CommandAck} {acks' : β → List CommandAck}
    {items : List OrderTarget} {x : CommandE α} {g : α → Except MarketError β},
    J α acks items x → Yields (fun _ _ => True) P x →
    (∀ a, P a → ∃ b, g a = .ok b ∧ (acks' b).Perm (acks a)) →
    J β acks' items (x >>= fun a => ofExcept (g a))
  perm : ∀ {α : Type} {acks : α → List CommandAck} {items items' : List OrderTarget}
    {x : CommandE α}, items.Perm items' → J α acks items x → J α acks items' x

/-- The acknowledgements of a chunk with their places. -/
def placesOf (chunk : List (OrderTarget × ℕ)) (pairs : List (ℕ × CommandAck)) : Prop :=
  pairs.map (·.1) = chunk.map (·.2)

section Places

variable {context : CommandContext}

/-- There is an acknowledgement for each item of a chunk. -/
theorem yields_finishChunk_length {operation : CommandOperation} {what : String}
    {receipts : List CommandReceipt} {identities : List BatchIdentity}
    {transport : CommandTransport} :
    Yields (fun _ _ => True) (fun acks => acks.length = identities.length)
      (finishChunk what receipts identities operation transport) := by
  have hacks : Yields (fun _ _ => True) (List.Forall₂ _ receipts)
      (finishChunk what receipts identities operation transport) :=
    yields_acks (fun _ _ _ => trivial) what receipts transport
  unfold finishChunk at hacks ⊢
  by_cases hlength : receipts.length = identities.length
  · rw [if_neg (not_not_intro hlength)] at hacks ⊢
    exact hacks.mono fun acks hall => hall.length_eq.symm.trans hlength
  · rw [if_pos hlength]
    exact yields_throw_bind _

theorem placesOf_cancelChunkBinance (spec : InstrumentSpec) (chunk : List (OrderTarget × ℕ)) :
    Yields (fun _ _ => True) (placesOf chunk) (cancelChunkBinance context spec chunk) := by
  unfold cancelChunkBinance
  refine Yields.attempt (P := fun _ => True) (yields_sendBatchRest fun _ => trivial)
    fun receipts _ => ?_
  refine yields_finishChunk_length.attempt fun acks hlength => yields_pure ?_
  exact List.map_fst_zip (by simpa using hlength.ge)

theorem placesOf_cancelGroupBinance (group : InstrumentId × List (OrderTarget × ℕ)) :
    Yields (fun _ _ => True) (placesOf group.2) (cancelGroupBinance context group) := by
  unfold cancelGroupBinance
  refine (yields_commandSpec (fun _ _ _ => trivial) _).attempt fun spec _ => ?_
  refine (Yields.mapM fun chunk _ => placesOf_cancelChunkBinance spec chunk).attempt
    fun pairss hpairss => yields_pure ?_
  have hplaces : pairss.map (·.map (·.1)) = (chunks 10 group.2).map (·.map (·.2)) := by
    rw [← List.forall₂_eq_eq_eq, List.forall₂_map_left_iff, List.forall₂_map_right_iff]
    exact hpairss.flip
  rw [placesOf, List.map_flatten, hplaces, ← List.map_flatten, flatten_chunks (by decide)]

/-- The groups of a batch, each with its places. -/
theorem placesOf_cancelGroupsBinance (targets : List OrderTarget) :
    Yields (fun _ _ => True) (placesOf ((cancelGroups targets).flatMap (·.2)))
      (cancelGroupsBinance context targets) := by
  refine (Yields.mapM fun group _ => placesOf_cancelGroupBinance group).attempt
    fun pairss hpairss => yields_pure ?_
  have hplaces : pairss.map (·.map (·.1)) = (cancelGroups targets).map (·.2.map (·.2)) := by
    rw [← List.forall₂_eq_eq_eq, List.forall₂_map_left_iff, List.forall₂_map_right_iff]
    exact hpairss.flip
  rw [placesOf, List.map_flatten, hplaces, List.map_flatMap, List.flatMap_def]

/-- The acknowledgements that are collected by their places are those that have come. -/
theorem perm_of_collectBatchAcks {targets : ℕ} {pairs : List (ℕ × CommandAck)}
    {acks : List CommandAck} {name : String} (hplaces : (pairs.map (·.1)).Perm (List.range targets))
    (hacks : collectBatchAcks targets pairs name = .ok acks) : acks.Perm (pairs.map (·.2)) := by
  have hnodup : (pairs.map (·.1)).Nodup := hplaces.nodup_iff.2 List.nodup_range
  have hfound : (List.range targets).map (pairs.lookup ·) = acks.map some := by
    rw [← List.forall₂_eq_eq_eq, List.forall₂_map_left_iff, List.forall₂_map_right_iff]
    refine (mapM_eq_ok_iff.1 hacks).imp fun index ack hack => ?_
    split at hack
    · next ack' hlookup =>
      obtain rfl := Except.ok.inj hack
      exact hlookup
    · cases hack
  have hcome : (pairs.map (·.1)).map (pairs.lookup ·) = (pairs.map (·.2)).map some := by
    rw [List.map_map, List.map_map]
    exact List.map_congr_left fun pair hpair => lookup_of_mem hnodup hpair
  have hperm := (hplaces.map (pairs.lookup ·)).symm
  rw [hfound, hcome] at hperm
  simpa using hperm.filterMap id

/-- No acknowledgement is missing when the groups have been sent. -/
theorem collects_of_placesOf {targets : List OrderTarget} {pairs : List (ℕ × CommandAck)}
    (name : String) (hnamed : ∀ t ∈ targets, t.orderId.isSome ∨ t.clientOrderId.isSome)
    (hplaces : placesOf ((cancelGroups targets).flatMap (·.2)) pairs) :
    ∃ acks, collectBatchAcks targets.length pairs name = .ok acks ∧
      acks.Perm (pairs.map (·.2)) := by
  have hperm := CancelVenue.perm_cancelGroups hnamed
  have hforall : List.Forall₂ (fun p q => p.2 = q.1) ((cancelGroups targets).flatMap (·.2))
      pairs := by
    have heq := List.forall₂_eq_eq_eq.symm ▸ hplaces.symm
    rwa [List.forall₂_map_left_iff, List.forall₂_map_right_iff] at heq
  obtain ⟨acks, hacks, -⟩ := CancelVenue.collectBatchAcks_of_perm name hperm hforall
  refine ⟨acks, hacks, perm_of_collectBatchAcks ?_ hacks⟩
  rw [hplaces]
  refine (hperm.map Prod.snd).trans ?_
  rw [List.zipIdx_map_snd, List.range_eq_range']

end Places

namespace Assembly

variable {J : ∀ α : Type, (α → List CommandAck) → List OrderTarget → CommandE α → Prop}
  {context : CommandContext}

/-- A value is passed on with its acknowledgements in the same order. -/
theorem map (h : Assembly J) {α β : Type} {acks : α → List CommandAck}
    {acks' : β → List CommandAck} {items : List OrderTarget} {x : CommandE α} {g : α → β}
    (hx : J α acks items x) (hg : ∀ a, acks' (g a) = acks a) :
    J β acks' items (x >>= fun a => pure (g a)) := by
  refine h.value (P := fun _ => True) (g := fun a => .ok (g a)) hx (fun τ => ?_) fun a _ => ?_
  · exact ((spec_suffix x.run τ).mono (fun _ _ h => h) fun _ _ _ _ _ => trivial)
  · exact ⟨g a, rfl, by rw [hg a]⟩

/-- The chunks of a batch, each with a list of acknowledgements. -/
theorem chunked (h : Assembly J) {γ : Type} {cs : List γ} {size : ℕ} (hsize : size ≠ 0)
    (target : γ → OrderTarget) {f : List γ → CommandE (List CommandAck)}
    (hf : ∀ chunk ∈ chunks size cs, J _ id (chunk.map target) (f chunk)) :
    J _ id (cs.map target) (do return (← (chunks size cs).mapM f).flatten) := by
  have hrow := h.inRow _ (fun chunk hchunk => by simpa using ne_nil_of_mem_chunks hchunk) hf
  have hitems : (chunks size cs).flatMap (fun chunk => chunk.map target) = cs.map target := by
    rw [← List.flatMap_def.symm, ← List.map_flatten, flatten_chunks hsize]
  rw [hitems] at hrow
  exact h.map hrow fun ackss => List.flatMap_id.symm

/-- The acknowledgements of commands side by side. -/
theorem each (h : Assembly J) {γ : Type} {cs : List γ} (target : γ → OrderTarget)
    {f : γ → CommandE CommandAck} (hf : ∀ c ∈ cs, J _ (fun ack => [ack]) [target c] (f c)) :
    J _ id (cs.map target) (tryJoinAll (cs.map f)) := by
  have hall := h.sideBySide _ (fun _ _ => by simp) hf
  have hacks : (fun acks : List CommandAck => acks.flatMap fun ack => [ack]) = id :=
    funext fun acks => List.flatMap_singleton' acks
  have hitems : cs.flatMap (fun c => [target c]) = cs.map target := List.map_eq_flatMap.symm
  rwa [hacks, hitems] at hall

/-- The acknowledgement of one command, as a list. -/
theorem list (h : Assembly J) {items : List OrderTarget} {x : CommandE CommandAck}
    (hx : J _ (fun ack => [ack]) items x) : J _ id items (do return [← x]) :=
  h.map hx fun _ => rfl

/-- Nothing runs after a refusal. -/
theorem refuse (h : Assembly J) {β γ : Type} {acks : β → List CommandAck}
    {items : List OrderTarget} {e : Failure} {f : γ → CommandE β} :
    J _ acks items (throw e >>= f) :=
  h.prepare (P := fun _ => False) (yields_throw e) fun _ hfalse => hfalse.elim

/-! ### The commands -/

/-- Orders are placed by placing each alone, or a chunk of them in one request. -/
theorem createOrders (h : Assembly J)
    (halone : ∀ order, J _ (fun ack => [ack]) [order.target] (createOrder context order))
    (hbinance : context.venue = .binance → ∀ chunk, chunk ≠ [] →
      J _ id (chunk.map (·.target)) (createChunkBinance context chunk))
    (hbybit : context.venue = .bybit → ∀ chunk, chunk ≠ [] →
      J _ id (chunk.map (·.target)) (createChunkBybit context chunk))
    (hmexc : context.venue = .mexc → ∀ chunk, chunk ≠ [] →
      J _ id (chunk.map (·.target)) (createChunkMexc context chunk))
    (request : CreateOrdersRequest) :
    J _ id (request.orders.map (·.target)) (BatMarkets.createOrders context request) := by
  have hsend : ∀ orders : List CreateOrderRequest,
      J _ id (orders.map (·.target)) (sendCreateOrders context orders) := by
    intro orders
    unfold sendCreateOrders
    split
    · next hv =>
      split
      · exact h.chunked (by decide) _ fun chunk _ => h.each _ fun order _ => halone order
      · split
        · exact h.refuse
        · exact h.chunked (by decide) _ fun chunk hchunk =>
            hbinance hv chunk (ne_nil_of_mem_chunks hchunk)
    · next hv =>
      exact h.chunked (by decide) _ fun chunk hchunk =>
        hbybit hv chunk (ne_nil_of_mem_chunks hchunk)
    · next hv =>
      split
      · exact h.refuse
      · exact h.chunked (by decide) _ fun chunk hchunk =>
          hmexc hv chunk (ne_nil_of_mem_chunks hchunk)
  unfold BatMarkets.createOrders
  refine h.prepare (preparing_validateCreateOrders request) fun _ _ => ?_
  split
  -- a list of one order is created as such
  · next single hsingle =>
    rw [hsingle]
    exact h.list (halone (hydrateCreateRequestWithBatchId single request.requestId))
  · have horders := hsend (request.orders.map
      (hydrateCreateRequestWithBatchId · request.requestId))
    rwa [List.map_map] at horders

/-- Orders are amended alone, or a chunk of them in one request. -/
theorem amendOrders (h : Assembly J)
    (halone : ∀ order, J _ (fun ack => [ack]) [order.target] (amendOrder context order))
    (hbinance : context.venue = .binance → ∀ chunk, chunk ≠ [] →
      J _ id (chunk.map (·.target)) (amendChunkBinance context chunk))
    (hbybit : context.venue = .bybit → ∀ chunk, chunk ≠ [] →
      J _ id (chunk.map (·.target)) (amendChunkBybit context chunk))
    (request : AmendOrdersRequest) :
    J _ id (request.orders.map (·.target)) (BatMarkets.amendOrders context request) := by
  have hsend : ∀ orders : List AmendOrderRequest,
      J _ id (orders.map (·.target)) (sendAmendOrders context orders) := by
    intro orders
    unfold sendAmendOrders
    split
    · next hv =>
      split
      · exact h.chunked (by decide) _ fun chunk _ => h.each _ fun order _ => halone order
      · split
        · exact h.refuse
        · exact h.chunked (by decide) _ fun chunk hchunk =>
            hbinance hv chunk (ne_nil_of_mem_chunks hchunk)
    · next hv =>
      exact h.chunked (by decide) _ fun chunk hchunk =>
        hbybit hv chunk (ne_nil_of_mem_chunks hchunk)
    · exact h.fail _
  unfold BatMarkets.amendOrders
  refine h.prepare (preparing_validateAmendOrders request) fun _ _ => ?_
  split
  · next single hsingle =>
    rw [hsingle]
    exact h.list (halone (hydrateAmendRequestWithBatchId single request.requestId))
  · have horders := hsend (request.orders.map
      (hydrateAmendRequestWithBatchId · request.requestId))
    rwa [List.map_map] at horders

/-- The targets of one instrument are cancelled a chunk at a time. -/
theorem cancelGroupBinance (h : Assembly J)
    (hchunk : ∀ spec chunk, chunk ≠ [] → J _ (fun pairs => pairs.map (·.2)) (chunk.map (·.1))
      (cancelChunkBinance context spec chunk))
    (group : InstrumentId × List (OrderTarget × ℕ)) :
    J _ (fun pairs => pairs.map (·.2)) (group.2.map (·.1))
      (BatMarkets.cancelGroupBinance context group) := by
  unfold BatMarkets.cancelGroupBinance
  refine h.prepare (preparing_commandSpec _) fun spec _ => ?_
  have hrow := h.inRow (chunks 10 group.2)
    (fun chunk hmem => by simpa using ne_nil_of_mem_chunks hmem)
    fun chunk hmem => hchunk spec chunk (ne_nil_of_mem_chunks hmem)
  have hitems : (chunks 10 group.2).flatMap (fun chunk => chunk.map (·.1)) = group.2.map (·.1) := by
    rw [← List.flatMap_def.symm, ← List.map_flatten, flatten_chunks (by decide)]
  rw [hitems] at hrow
  exact h.map hrow fun pairss => by rw [List.map_flatten, List.flatMap_def]

theorem cancelGroupsBinance (h : Assembly J)
    (hchunk : ∀ spec chunk, chunk ≠ [] → J _ (fun pairs => pairs.map (·.2)) (chunk.map (·.1))
      (cancelChunkBinance context spec chunk)) {targets : List OrderTarget}
    (hnamed : ∀ t ∈ targets, t.orderId.isSome ∨ t.clientOrderId.isSome) :
    J _ (fun pairs => pairs.map (·.2)) targets
      (BatMarkets.cancelGroupsBinance context targets) := by
  have hne : ∀ group ∈ cancelGroups targets, group.2 ≠ [] := fun group hgroup =>
    (List.mem_append.1 hgroup).elim ne_nil_of_mem_groupBy ne_nil_of_mem_groupBy
  have hrow := h.inRow (cancelGroups targets) (fun group hgroup => by simpa using hne group hgroup)
    fun group _ => h.cancelGroupBinance hchunk group
  have hperm : ((cancelGroups targets).flatMap fun group => group.2.map (·.1)).Perm targets := by
    have hall := (CancelVenue.perm_cancelGroups hnamed).map Prod.fst
    rwa [List.map_flatMap, List.zipIdx_map_fst] at hall
  exact h.map (h.perm hperm hrow) fun pairss => by rw [List.map_flatten, List.flatMap_def]

/-- Orders are cancelled alone, or a chunk of them in one request. -/
theorem cancelOrders (h : Assembly J) {request : CancelOrdersRequest}
    (halone : ∀ target : OrderTarget, J _ (fun ack => [ack]) [target]
      (cancelOrder context (target.cancelRequest request.requestId)))
    (hbinance : context.venue = .binance → ∀ spec chunk, chunk ≠ [] →
      J _ (fun pairs => pairs.map (·.2)) (chunk.map (·.1)) (cancelChunkBinance context spec chunk))
    (hbybit : context.venue = .bybit → ∀ chunk, chunk ≠ [] →
      J _ id chunk (cancelChunkBybit context chunk))
    (hmexc : context.venue = .mexc → ∀ byOrderId chunk, chunk ≠ [] →
      J _ id chunk (cancelChunkMexc context request.requestId byOrderId chunk)) :
    J _ id request.orders (BatMarkets.cancelOrders context request) := by
  -- cancelled one by one
  have heach : ∀ targets : List OrderTarget,
      J _ id targets (cancelEach context request.requestId targets) := by
    intro targets
    have hall := h.each id (f := fun target : OrderTarget =>
      cancelOrder context (target.cancelRequest request.requestId))
      fun target (_ : target ∈ targets) => halone target
    rwa [List.map_id] at hall
  -- cancelled chunk by chunk
  have hchunked : ∀ {targets : List OrderTarget} {size : ℕ} (_ : size ≠ 0)
      {f : List OrderTarget → CommandE (List CommandAck)}
      (_ : ∀ chunk ∈ chunks size targets, J _ id chunk (f chunk)),
      J _ id targets (do return (← (chunks size targets).mapM f).flatten) := by
    intro targets size hsize f hf
    have hall := h.chunked hsize id fun chunk hchunk => by
      rw [List.map_id]
      exact hf chunk hchunk
    rwa [List.map_id] at hall
  have hsend : ∀ targets : List OrderTarget,
      (∀ t ∈ targets, t.orderId.isSome ∨ t.clientOrderId.isSome) →
      J _ id targets (sendCancelOrders context request.requestId targets) := by
    intro targets hnamed
    unfold sendCancelOrders
    split
    · next hv =>
      split
      · exact hchunked (by decide) fun chunk _ => heach chunk
      · split
        · exact h.refuse
        · exact h.value (h.cancelGroupsBinance (hbinance hv) hnamed)
            (placesOf_cancelGroupsBinance targets) fun pairs hplaces =>
              collects_of_placesOf "cancel_orders" hnamed hplaces
    · next hv =>
      exact hchunked (by decide) fun chunk hchunk => hbybit hv chunk (ne_nil_of_mem_chunks hchunk)
    · next hv =>
      split
      · exact h.refuse
      · dsimp only
        split
        · exact heach targets
        · exact hchunked (by decide) fun chunk hchunk =>
            hmexc hv _ chunk (ne_nil_of_mem_chunks hchunk)
  unfold BatMarkets.cancelOrders
  refine h.prepare (yields_ofExcept fun _ hvalid => hvalid) fun _ hvalid => ?_
  split
  -- a list of one order is cancelled as such
  · next single hsingle =>
    rw [hsingle]
    exact h.list (halone single)
  · exact hsend _ (of_validateCancelOrders hvalid).2

end Assembly

end BatMarkets
