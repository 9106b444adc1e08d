import BatMarkets.Commands.Create

/-!
# Post-only orders

An order placed by any of the commands is sent over REST or over the websocket, alone or in a batch.
`CommandCall.wireOrders` are the orders of a call, as the venue reads them.

## Main results

* `sends_createOrder`, `sends_sendCreateOrders`, `sends_closePosition` : in every run, the orders on the
  wire are encodings of the requested ones.
* `post_only_kept_iff` : a request to be post-only is kept on every path exactly when it is
  `PostOnlyEncodable`.
* `post_only_dropped` : a post-only order without a time in force goes to Binance without one.
-/

namespace BatMarkets

open CommandM Interleaving Wire

/-- The elements of a JSON array. -/
def jsonItems (value : Option Json) : List Json := (value.bind Json.asArray).getD []

/-- The orders that a call asks the venue to place. -/
def CommandCall.wireOrders (venue : Venue) : CommandCall → List Json
  | .rest request => match venue with
    | .binance =>
      if request.path = "/fapi/v1/batchOrders" then jsonItems (request.body.get? "batchOrders")
      else [request.body]
    | .bybit =>
      if request.path = "/v5/order/create-batch" then jsonItems (request.body.get? "request")
      else [request.body]
    | .mexc =>
      if request.path = "/api/v1/private/order/submit_batch" then
        jsonItems (request.body.get? "orders")
      else [request.body]
  | .ws frame => match venue with
    | .bybit =>
      if frame.method = "order.create-batch" then
        (jsonItems frame.params).flatMap fun body => jsonItems (body.get? "request")
      else jsonItems frame.params
    | .binance | .mexc => [frame.params]
  | _ => []

/-- What the call writes, if anything, are orders, each an encoding of a requested one. -/
def Sends (venue : Venue) (requested : CreateOrderRequest → Prop) (q : CommandCall) : Prop :=
  q.Writes → q.wireOrders venue ≠ [] ∧
    ∀ order ∈ q.wireOrders venue, ∃ r, requested r ∧ Encodes venue r order

theorem sends_of_encodes {venue : Venue} {requested : CreateOrderRequest → Prop} {q : CommandCall}
    {order : Json} {r : CreateOrderRequest} (hq : q.wireOrders venue = [order])
    (hr : requested r) (h : Encodes venue r order) : Sends venue requested q := by
  refine fun _ => ⟨by simp [hq], fun o ho => ?_⟩
  obtain rfl : o = order := by simpa [hq] using ho
  exact ⟨r, hr, h⟩

theorem exists_of_forall₂_mem {α β : Type} {R : α → β → Prop} {as : List α} {bs : List β}
    (h : List.Forall₂ R as bs) {b : β} (hb : b ∈ bs) : ∃ a ∈ as, R a b := by
  induction h with
  | nil => cases hb
  | cons hab _ ih =>
    rcases List.mem_cons.1 hb with rfl | hb
    · exact ⟨_, by simp, hab⟩
    · obtain ⟨a, ha, hr⟩ := ih hb
      exact ⟨a, by simp [ha], hr⟩

theorem sends_of_forall₂ {venue : Venue} {requested : CreateOrderRequest → Prop} {q : CommandCall}
    {orders : List Json} {rs : List CreateOrderRequest} (hq : q.wireOrders venue = orders)
    (hne : rs ≠ []) (hrs : ∀ r ∈ rs, requested r) (h : List.Forall₂ (Encodes venue) rs orders) :
    Sends venue requested q := by
  refine fun _ => ⟨?_, fun o ho => ?_⟩
  · rintro hnil
    rw [← hq, hnil, List.forall₂_nil_right_iff] at h
    exact hne h
  · rw [hq] at ho
    obtain ⟨r, hr, hencodes⟩ := exists_of_forall₂_mem h ho
    exact ⟨r, hrs r hr, hencodes⟩

/-! ### Checks -/

section Validate

variable {context : CommandContext}
  {G : List (Event CommandCall CommandReply) → CommandCall → Prop}
  (hG : ∀ τ q, q.Local → G τ q)

include hG

theorem yields_validateCreateOrder (r : CreateOrderRequest) :
    Prog.Yields G (fun _ => True) (validateCreateOrder context r) := by
  unfold validateCreateOrder
  refine (yields_commandSpec hG _).attempt fun spec _ => ?_
  exact fun τ a ha => trivial

/-- The checks of a batch tell its orders apart. -/
theorem yields_validateOrdersFrom (context : CommandContext) (batch : Bool) (index : ℕ)
    (seen : List (ClientOrderId × ℕ)) (orders : List CreateOrderRequest) :
    Prog.Yields G
      (fun _ => batch = true → (orders.map (·.clientOrderId)).Nodup ∧
        ∀ r ∈ orders, ∀ x ∈ seen, r.clientOrderId ≠ some x.1)
      (validateOrdersFrom context batch index seen orders) := by
  induction orders generalizing index seen with
  | nil =>
    rw [validateOrdersFrom]
    exact Prog.yields_pure fun _ => ⟨List.nodup_nil, fun r hr => by cases hr⟩
  | cons r orders ih =>
    unfold validateOrdersFrom
    refine (yields_validateCreateOrder hG r).attempt fun _ _ => ?_
    cases batch with
    | false => exact (ih _ _).mono fun _ _ => nofun
    | true =>
      rw [if_pos rfl]
      split
      · exact Prog.yields_throw _
      · next clientOrderId hid =>
        split
        · exact Prog.yields_throw _
        · next hseen =>
          refine (ih _ _).mono fun _ hrest _ => ?_
          obtain ⟨hnodup, hfresh⟩ := hrest rfl
          constructor
          · rw [List.map_cons, List.nodup_cons]
            refine ⟨fun hmem => ?_, hnodup⟩
            obtain ⟨r', hr', heq⟩ := List.mem_map.1 hmem
            exact hfresh r' hr' (clientOrderId, index) (by simp) (heq.trans hid)
          · intro r' hr' x hx
            rcases List.mem_cons.1 hr' with rfl | hr'
            · rintro heq
              have hnot := List.find?_eq_none.1 hseen x hx
              exact hnot (by simpa [hid, eq_comm] using heq)
            · exact hfresh r' hr' x (by simp [hx])

/-- A batch that passes the checks is one order, or orders with different client ids. -/
theorem yields_validateCreateOrders (request : CreateOrdersRequest) :
    Prog.Yields G
      (fun _ => request.orders.length ≤ 1 ∨ (request.orders.map (·.clientOrderId)).Nodup)
      (validateCreateOrders context request) := by
  have hfrom := (yields_validateOrdersFrom hG context (1 < request.orders.length) 0 []
    request.orders).mono fun _ hrest => show request.orders.length ≤ 1 ∨
      (request.orders.map (·.clientOrderId)).Nodup by
    by_cases hlength : 1 < request.orders.length
    · exact .inr (hrest (by simpa using hlength)).1
    · exact .inl (by omega)
  unfold validateCreateOrders
  split
  · exact (Prog.yields_throw (P := fun _ => True) _).attempt fun _ _ => hfrom
  · exact hfrom

end Validate

/-! ### What is sent -/

section Sends

variable {context : CommandContext} {requested : CreateOrderRequest → Prop}

theorem sends_of_not_writes {venue : Venue} (_τ : List (Event CommandCall CommandReply))
    (q : CommandCall) (hq : ¬ q.Writes) : Sends venue requested q :=
  fun h => absurd h hq

theorem sends_of_local {venue : Venue} (_τ : List (Event CommandCall CommandReply))
    (q : CommandCall) (hq : q.Local) : Sends venue requested q :=
  fun h => absurd h hq.not_writes

/-- The body of an order for MEXC encodes the order. -/
theorem yields_mexcCreateBody {build : LiveContext → InstrumentSpec → List Position →
      CreateOrderRequest → Except MarketError Json} {r : CreateOrderRequest}
    (hbuild : ∀ spec positions order, build context.toLiveContext spec positions r = .ok order →
      Encodes .mexc r order) :
    Prog.Yields (fun _ q => Sends .mexc requested q) (Encodes .mexc r)
      (mexcCreateBody context build r) := by
  unfold mexcCreateBody
  refine (yields_commandSpec sends_of_local _).attempt fun spec _ => ?_
  refine (yields_readState sends_of_local).attempt fun state _ => ?_
  exact yields_ofExcept (hbuild spec state.positions)

theorem sends_sendCreateOrder {r : CreateOrderRequest} (hr : requested r) :
    Prog.Yields (fun _ q => Sends context.venue requested q) (fun _ => True)
      (sendCreateOrder context r) := by
  unfold sendCreateOrder
  cases hv : context.venue with
  | binance =>
    dsimp only
    refine (yields_commandSpec sends_of_local _).attempt fun spec _ => ?_
    split
    · exact yields_sendRestOnly fun _ =>
        sends_of_encodes rfl hr encodes_buildBinanceAlgoCreatePairs
    · exact yields_sendCommand
        (fun _ => sends_of_encodes rfl hr encodes_buildBinanceCreatePairs)
        (fun _ => sends_of_encodes rfl hr encodes_buildBinanceCreatePairs)
  | bybit =>
    dsimp only
    refine (yields_commandSpec sends_of_local _).attempt fun spec _ => ?_
    exact yields_sendCommand
      (fun _ => sends_of_encodes rfl hr encodes_buildBybitCreateObject)
      (fun _ => sends_of_encodes rfl hr encodes_buildBybitCreateObject)
  | mexc =>
    have hsend : Prog.Yields (fun _ q => Sends .mexc requested q) (fun _ => True) (do
        let order ← mexcCreateBody context mexcCreateOrderObject r
        return (← sendRest context .createOrder r.requestId
          ⟨.post, "/api/v1/private/order/submit", order, "mexc.create_order"⟩,
          CommandTransport.rest)) := by
      refine (yields_mexcCreateBody fun _ _ _ => encodes_mexcCreateOrderObject).attempt
        fun order horder => ?_
      refine (yields_sendRest fun _ => sends_of_encodes rfl hr horder).attempt fun _ _ => ?_
      exact Prog.yields_pure trivial
    dsimp only
    split
    · exact (Prog.yields_throw (P := fun _ => True) _).attempt fun _ _ => hsend
    · exact hsend

theorem sends_createOrder {r : CreateOrderRequest} (hr : requested r) :
    Prog.Yields (fun _ q => Sends context.venue requested q) (fun _ => True)
      (createOrder context r) := by
  unfold createOrder
  refine (yields_validateCreateOrder sends_of_local r).attempt fun _ _ => ?_
  refine (sends_sendCreateOrder hr).attempt fun (receipt, transport) _ => ?_
  refine (yields_cachePendingUnknown sends_of_local _ _ _ _ _).attempt fun _ _ => ?_
  exact yields_applyCommandReceipt sends_of_local _ _

section Chunks

variable (context)

/-- The orders of a chunk are encoded one by one. -/
theorem sends_createChunkBinance {chunk : List CreateOrderRequest} (hne : chunk ≠ [])
    (hchunk : ∀ r ∈ chunk, requested r) :
    Prog.Yields (fun _ q => Sends .binance requested q) (fun _ => True)
      (createChunkBinance context chunk) := by
  unfold createChunkBinance
  have hencode : ∀ r ∈ chunk, Prog.Yields (fun _ q => Sends .binance requested q)
      (Encodes .binance r) (do
        let spec ← commandSpec context r.instrumentId
        return buildBinanceBatchCreateObject spec.nativeSymbol r) := fun r _ =>
    (yields_commandSpec sends_of_local _).attempt fun spec _ =>
      Prog.yields_pure encodes_buildBinanceBatchCreateObject
  refine (Prog.Yields.mapM hencode).attempt fun orders horders => ?_
  refine (yields_sendBatchRest fun _ => sends_of_forall₂ rfl hne hchunk horders).attempt
    fun receipts _ => ?_
  exact yields_finishChunk sends_of_local _ _ _

theorem sends_createChunkBybit {chunk : List CreateOrderRequest} (hne : chunk ≠ [])
    (hchunk : ∀ r ∈ chunk, requested r) :
    Prog.Yields (fun _ q => Sends .bybit requested q) (fun _ => True)
      (createChunkBybit context chunk) := by
  unfold createChunkBybit
  have hencode : ∀ r ∈ chunk, Prog.Yields (fun _ q => Sends .bybit requested q)
      (Encodes .bybit r) (do
        let spec ← commandSpec context r.instrumentId
        return buildBybitBatchCreateObject spec.nativeSymbol r) := fun r _ =>
    (yields_commandSpec sends_of_local _).attempt fun spec _ =>
      Prog.yields_pure encodes_buildBybitBatchCreateObject
  refine (Prog.Yields.mapM hencode).attempt fun orders horders => ?_
  have hws : (CommandCall.ws ⟨"order.create-batch",
      .array [.object [("category", .string "linear"), ("request", .array orders)]],
      "bybit.create_orders_ws"⟩).wireOrders .bybit = orders := by
    simp [CommandCall.wireOrders, jsonItems, Json.asArray]
  have hrest : (CommandCall.rest ⟨.post, "/v5/order/create-batch",
      .object [("category", .string "linear"), ("request", .array orders)],
      "bybit.create_orders"⟩).wireOrders .bybit = orders := by
    simp [CommandCall.wireOrders, jsonItems, Json.asArray]
  refine (yields_sendBatch (fun _ => sends_of_forall₂ hws hne hchunk horders)
    (fun _ => sends_of_forall₂ hrest hne hchunk horders)).attempt fun (receipts, transport) _ => ?_
  exact yields_finishChunk sends_of_local _ _ _

theorem sends_createChunkMexc {chunk : List CreateOrderRequest} (hne : chunk ≠ [])
    (hchunk : ∀ r ∈ chunk, requested r) :
    Prog.Yields (fun _ q => Sends .mexc requested q) (fun _ => True)
      (createChunkMexc context chunk) := by
  unfold createChunkMexc
  have hencode : ∀ r ∈ chunk, Prog.Yields (fun _ q => Sends .mexc requested q)
      (Encodes .mexc r) (mexcCreateBody context buildMexcBatchCreateOrderObject r) := fun r _ =>
    yields_mexcCreateBody fun _ _ _ => encodes_buildMexcBatchCreateOrderObject
  refine (Prog.Yields.mapM hencode).attempt fun orders horders => ?_
  refine (yields_sendBatchRest fun _ => sends_of_forall₂ rfl hne hchunk horders).attempt
    fun receipts _ => ?_
  exact yields_finishChunk sends_of_local _ _ _

end Chunks

/-- What every chunk sends, all chunks send. -/
theorem sends_chunks {venue : Venue} (size : ℕ) {orders : List CreateOrderRequest}
    {send : List CreateOrderRequest → CommandE (List CommandAck)}
    (horders : ∀ r ∈ orders, requested r)
    (hsend : ∀ chunk, chunk ≠ [] → (∀ r ∈ chunk, requested r) →
      Prog.Yields (fun _ q => Sends venue requested q) (fun _ => True) (send chunk)) :
    Prog.Yields (fun _ q => Sends venue requested q) (fun _ => True) (do
      return (← (chunks size orders).mapM send).flatten) := by
  refine (Prog.Yields.mapM (P := fun _ _ => True) fun chunk hchunk => ?_).attempt fun _ _ =>
    Prog.yields_pure trivial
  exact hsend chunk (ne_nil_of_mem_chunks hchunk) fun r hr =>
    horders r (mem_of_mem_chunks hchunk hr)

theorem sends_sendCreateOrders {orders : List CreateOrderRequest}
    (horders : ∀ r ∈ orders, requested r) :
    Prog.Yields (fun _ q => Sends context.venue requested q) (fun _ => True)
      (sendCreateOrders context orders) := by
  unfold sendCreateOrders
  cases hv : context.venue with
  | binance =>
    dsimp only
    split
    · refine sends_chunks 5 horders fun chunk _ hchunk => ?_
      refine yields_tryJoinAll sends_of_local (fun _ _ _ h => h) fun c hc => ?_
      obtain ⟨r, hr, rfl⟩ := List.mem_map.1 hc
      exact hv ▸ (sends_createOrder (hchunk r hr)).always
    · have hsend := sends_chunks 5 horders fun chunk => sends_createChunkBinance context
      split
      · exact (Prog.yields_throw (P := fun _ => True) _).attempt fun _ _ => hsend
      · exact hsend
  | bybit => exact sends_chunks 20 horders fun chunk => sends_createChunkBybit context
  | mexc =>
    have hsend := sends_chunks 20 horders fun chunk => sends_createChunkMexc context
    dsimp only
    split
    · exact (Prog.yields_throw (P := fun _ => True) _).attempt fun _ _ => hsend
    · exact hsend

/-- After its checks, a batch sends encodings of its orders, which are told apart. -/
theorem always_createOrders {request : CreateOrdersRequest} {K : CommandCall → Prop}
    (hK₀ : ∀ q, ¬ q.Writes → K q)
    (hK : request.orders.length ≤ 1 ∨ (request.orders.map (·.clientOrderId)).Nodup →
      ∀ q, Sends context.venue (fun r => ∃ o ∈ request.orders,
        r = hydrateCreateRequestWithBatchId o request.requestId) q → K q) :
    (createOrders context request).run.Always fun _ q => K q := by
  unfold createOrders
  refine ((yields_validateCreateOrders (fun _ q hq => hK₀ q hq.not_writes) request).attempt
    fun _ hdistinct => ?_).always (P := fun _ => True)
  have hsends : ∀ {α : Type} {x : CommandE α}, Prog.Yields (fun _ q => Sends context.venue
      (fun r => ∃ o ∈ request.orders, r = hydrateCreateRequestWithBatchId o request.requestId) q)
      (fun _ => True) x → Prog.Yields (fun _ q => K q) (fun _ => True) x :=
    fun h τ => (h τ).mono (fun _ q hq => hK hdistinct q hq) fun _ _ h => h
  split
  · next single heq =>
    refine (hsends (sends_createOrder ⟨single, by simp [heq], rfl⟩)).attempt fun _ _ => ?_
    exact Prog.yields_pure trivial
  · refine hsends (sends_sendCreateOrders fun r hr => ?_)
    obtain ⟨o, ho, rfl⟩ := List.mem_map.1 hr
    exact ⟨o, ho, rfl⟩

theorem sends_sendCloseOrder {r : CreateOrderRequest} (hr : requested r) :
    Prog.Yields (fun _ q => Sends context.venue requested q) (fun _ => True)
      (sendCloseOrder context r) := by
  unfold sendCloseOrder
  cases hv : context.venue with
  | binance =>
    dsimp only
    refine (yields_commandSpec sends_of_local _).attempt fun spec _ => ?_
    split
    · exact yields_sendWebSocket
        (fun _ => sends_of_encodes rfl hr encodes_buildBinanceCreatePairs)
        (fun _ => sends_of_encodes rfl hr encodes_buildBinanceCreatePairs)
    · refine (yields_sendRest fun _ =>
        sends_of_encodes rfl hr encodes_buildBinanceCreatePairs).attempt fun _ _ => ?_
      exact Prog.yields_pure trivial
  | bybit =>
    dsimp only
    refine (yields_commandSpec sends_of_local _).attempt fun spec _ => ?_
    split
    · exact yields_sendWebSocket
        (fun _ => sends_of_encodes rfl hr encodes_buildBybitCloseObject)
        (fun _ => sends_of_encodes rfl hr encodes_buildBybitCloseObject)
    · refine (yields_sendRest fun _ =>
        sends_of_encodes rfl hr encodes_buildBybitCloseObject).attempt fun _ _ => ?_
      exact Prog.yields_pure trivial
  | mexc =>
    have hsend : Prog.Yields (fun _ q => Sends .mexc requested q) (fun _ => True) (do
        let order ← mexcCreateBody context mexcCreateOrderObject r
        return (← sendRest context .closePosition r.requestId
          ⟨.post, "/api/v1/private/order/submit", order, "mexc.close_position"⟩,
          CommandTransport.rest)) := by
      refine (yields_mexcCreateBody fun _ _ _ => encodes_mexcCreateOrderObject).attempt
        fun order horder => ?_
      refine (yields_sendRest fun _ => sends_of_encodes rfl hr horder).attempt fun _ _ => ?_
      exact Prog.yields_pure trivial
    dsimp only
    split
    · exact (Prog.yields_throw (P := fun _ => True) _).attempt fun _ _ => hsend
    · exact hsend

theorem yields_resolveClosePosition
    {G : List (Event CommandCall CommandReply) → CommandCall → Prop}
    (hG : ∀ τ q, ¬ q.Writes → G τ q) (request : ClosePositionRequest) :
    Prog.Yields G (fun _ => True) (resolveClosePosition context request) := by
  unfold resolveClosePosition
  refine (yields_readState fun τ q hq => hG τ q hq.not_writes).attempt fun state _ => ?_
  split
  · exact Prog.yields_pure trivial
  · refine (Prog.Yields.of_always (always_liftRuntime hG _)).attempt fun refreshed _ => ?_
    split
    · exact Prog.yields_pure trivial
    · exact Prog.yields_throw _

/-- Whatever position it finds, `close_position` sends the order that closes it. -/
theorem sends_closePosition (request : ClosePositionRequest) :
    Prog.Yields (fun _ q => Sends context.venue
        (fun r => ∃ position, closeRequest request position = .ok r) q) (fun _ => True)
      (closePosition context request) := by
  unfold closePosition
  refine (yields_resolveClosePosition sends_of_not_writes request).attempt fun position _ => ?_
  refine (yields_ofExcept fun order horder => horder).attempt fun order horder => ?_
  refine (yields_validateCreateOrder sends_of_local order).attempt fun _ _ => ?_
  refine (sends_sendCloseOrder ⟨position, horder⟩).attempt fun (receipt, transport) _ => ?_
  refine (yields_cachePendingUnknown sends_of_local _ _ _ _ _).attempt fun _ _ => ?_
  exact yields_applyCommandReceipt sends_of_local _ _

end Sends

/-! ### Requests to be post-only -/

/-- The commands that place orders. -/
inductive PlaceCommand
  | create (request : CreateOrderRequest)
  | createBatch (request : CreateOrdersRequest)
  | close (request : ClosePositionRequest)

namespace PlaceCommand

/-- The program of the command, with an acknowledgement for each order. -/
def run (context : CommandContext) : PlaceCommand → CommandE (List CommandAck)
  | create request => do return [← createOrder context request]
  | createBatch request => createOrders context request
  | close request => do return [← closePosition context request]

/-- The command asks for the order. -/
def Requests : PlaceCommand → CreateOrderRequest → Prop
  | create request, r => r = request
  | createBatch request, r => r ∈ request.orders
  | close request, r => ∃ position, closeRequest request position = .ok r

end PlaceCommand

/-- The order on the wire has the client order id of the request. -/
def Identifies (venue : Venue) (request : CreateOrderRequest) (order : Json) : Prop :=
  wireClientOrderId venue order = request.clientOrderId.map (·.asStr)

/-- What the call writes, if anything, are orders that the command asks for, and the one that is
`s` is post-only and has its type. -/
def SendsKept (venue : Venue) (command : PlaceCommand) (s : CreateOrderRequest)
    (q : CommandCall) : Prop :=
  q.Writes → q.wireOrders venue ≠ [] ∧ ∀ order ∈ q.wireOrders venue,
    (∃ r, command.Requests r ∧ Identifies venue r order) ∧
      (Identifies venue s order → KeepsPostOnly venue s order)

/-- On every path the order takes to the venue, it is sent as a post-only order of its type, or not
at all. -/
def PathsKeepPostOnly (venue : Venue) (s : CreateOrderRequest) : Prop :=
  ∀ context : CommandContext, context.venue = venue → ∀ command : PlaceCommand,
    command.Requests s → (command.run context).run.Always fun _ q => SendsKept venue command s q

/-- The encoders cannot tell the orders apart, as far as a request to be post-only goes. -/
structure SamePlacement (r s : CreateOrderRequest) : Prop where
  asks : r.asksPostOnly = s.asksPostOnly
  timeInForce : r.timeInForce = s.timeInForce
  orderType : r.orderType = s.orderType
  triggerPrice : r.triggerPrice = s.triggerPrice

section Kept

variable {venue : Venue} {command : PlaceCommand} {s : CreateOrderRequest}
  {requested : CreateOrderRequest → Prop}

/-- Sending encodings of requested orders keeps `s` post-only, when `s` can be told from the others
by its client order id. -/
theorem sendsKept_of_sends (hasks : s.asksPostOnly = true) (hs : PostOnlyEncodable venue s)
    (hrequests : ∀ r, requested r →
      ∃ r', command.Requests r' ∧ r'.clientOrderId = r.clientOrderId)
    (hsame : ∀ r, requested r → r.clientOrderId = s.clientOrderId → SamePlacement r s)
    {q : CommandCall} (hq : Sends venue requested q) : SendsKept venue command s q := by
  intro hwrites
  obtain ⟨hne, horders⟩ := hq hwrites
  refine ⟨hne, fun order horder => ?_⟩
  obtain ⟨r, hr, hclient, hpost⟩ := horders order horder
  constructor
  · obtain ⟨r', hr', hid⟩ := hrequests r hr
    exact ⟨r', hr', by rw [Identifies, hclient, hid]⟩
  · intro hident
    have hid : r.clientOrderId = s.clientOrderId := by
      have heq := hclient.symm.trans hident
      refine Option.map_injective ?_ heq
      rintro ⟨a⟩ ⟨b⟩ (rfl : a = b)
      rfl
    obtain ⟨hra, hrt, hro, hrp⟩ := hsame r hr hid
    have hencodable : PostOnlyEncodable venue r := by
      cases venue <;> simpa only [PostOnlyEncodable, hrt, hro, hrp] using hs
    have hkept := (hpost (hra.trans hasks)).2 hencodable
    rwa [KeepsPostOnly, hro] at hkept

/-- The client order ids of a batch tell its orders apart. -/
theorem eq_of_mem_batch {orders : List CreateOrderRequest} {o : CreateOrderRequest}
    (hdistinct : orders.length ≤ 1 ∨ (orders.map (·.clientOrderId)).Nodup)
    (ho : o ∈ orders) (hso : s ∈ orders) (hid : o.clientOrderId = s.clientOrderId) : o = s := by
  rcases hdistinct with hlength | hnodup
  · obtain ⟨i, hi, rfl⟩ := List.mem_iff_getElem.1 ho
    obtain ⟨j, hj, rfl⟩ := List.mem_iff_getElem.1 hso
    obtain rfl : i = j := by omega
    rfl
  · exact List.inj_on_of_nodup_map hnodup ho hso hid

section Paths

variable {context : CommandContext} (hasks : s.asksPostOnly = true)
  (hs : PostOnlyEncodable context.venue s)

include hasks hs

theorem kept_createOrder :
    (createOrder context s).run.Always fun _ q =>
      SendsKept context.venue (.create s) s q := by
  have hsends : Prog.Yields (fun _ q => Sends context.venue (· = s) q) (fun _ => True)
      (createOrder context s) := sends_createOrder rfl
  refine hsends.always.mono fun _ q hq => sendsKept_of_sends hasks hs ?_ ?_ hq
  · rintro r rfl
    exact ⟨r, rfl, rfl⟩
  · rintro r rfl _
    exact ⟨rfl, rfl, rfl, rfl⟩

theorem kept_createOrders {request : CreateOrdersRequest} (hmem : s ∈ request.orders) :
    (createOrders context request).run.Always fun _ q =>
      SendsKept context.venue (.createBatch request) s q := by
  refine always_createOrders (fun q hq h => absurd h hq) fun hdistinct q hq => ?_
  refine sendsKept_of_sends hasks hs ?_ ?_ hq
  · rintro r ⟨o, ho, rfl⟩
    exact ⟨o, ho, rfl⟩
  · rintro r ⟨o, ho, rfl⟩ hid
    obtain rfl : o = s := eq_of_mem_batch hdistinct ho hmem hid
    exact ⟨rfl, rfl, rfl, rfl⟩

theorem kept_closePosition {request : ClosePositionRequest} {position : Position}
    (hclose : closeRequest request position = .ok s) :
    (closePosition context request).run.Always fun _ q =>
      SendsKept context.venue (.close request) s q := by
  refine (sends_closePosition request).always.mono fun _ q hq => sendsKept_of_sends hasks hs ?_ ?_ hq
  · exact fun r hr => ⟨r, hr, rfl⟩
  · rintro r ⟨position', hr⟩ _
    obtain ⟨_, _, rfl⟩ := closeRequest_eq_ok hr
    obtain ⟨_, _, rfl⟩ := closeRequest_eq_ok hclose
    exact ⟨rfl, rfl, rfl, rfl⟩

end Paths

/-- An encodable request is kept on every path. -/
theorem paths_keep_post_only (hasks : s.asksPostOnly = true) (hs : PostOnlyEncodable venue s) :
    PathsKeepPostOnly venue s := by
  rintro context rfl command hcommand
  cases command with
  | create request =>
    obtain rfl : s = request := hcommand
    exact Prog.Always.attempt (kept_createOrder hasks hs) fun _ _ => trivial
  | createBatch request => exact kept_createOrders hasks hs hcommand
  | close request =>
    obtain ⟨position, hclose⟩ := hcommand
    exact Prog.Always.attempt (kept_closePosition hasks hs hclose) fun _ _ => trivial

/-- An order that passes the checks is sent. -/
theorem always_sendCreateOrder {context : CommandContext} {K : CommandCall → Prop}
    {spec : InstrumentSpec} (hcheck : checkCreateOrder spec s = .ok ())
    (h : (createOrder context s).run.Always fun _ q => K q) :
    (sendCreateOrder context s).run.Always fun _ q => K q := by
  rw [createOrder, validateCreateOrder, bind_assoc] at h
  have hsome := always_of_commandSpec context h spec
  have hsend : ∀ {α : Type} (f : Unit → CommandE α),
      (ExceptT.mk (Prog.ret (checkCreateOrder spec s)) >>= f).run = (f ()).run := by
    intro α f
    rw [hcheck]
    rfl
  rw [hsend] at hsome
  exact hsome.left

/-- A command that has built a body for MEXC goes on with it. -/
theorem always_of_mexcCreateBody {context : CommandContext} {K : CommandCall → Prop} {α : Type}
    {build : LiveContext → InstrumentSpec → List Position → CreateOrderRequest →
      Except MarketError Json} {f : Json → CommandE α} {order : Json}
    (h : (mexcCreateBody context build s >>= f).run.Always fun _ q => K q) (spec : InstrumentSpec)
    (state : EngineState) (hbuild : build context.toLiveContext spec state.positions s = .ok order) :
    (f order).run.Always fun _ q => K q := by
  rw [mexcCreateBody, bind_assoc] at h
  have hspec := always_of_commandSpec _ h spec
  rw [bind_assoc] at hspec
  have hstate : (ofExcept (build context.toLiveContext spec state.positions s) >>= f).run.Always
      fun _ q => K q := Prog.Always.residual (fun _ _ _ hq => hq) hspec state
  rw [hbuild] at hstate
  exact hstate

/-- The order that was sent shows that it can be expressed. -/
theorem encodable_of_sendsKept {q : CommandCall} {order : Json}
    (hq : SendsKept venue command s q) (hwrites : q.Writes) (hsent : q.wireOrders venue = [order])
    (hasks : s.asksPostOnly = true) (h : Encodes venue s order) : PostOnlyEncodable venue s := by
  obtain ⟨-, horders⟩ := hq hwrites
  exact (h.postOnly hasks).1 ((horders order (by simp [hsent])).2 h.clientOrderId)

/-- The order, sent alone over REST, shows what the encoder does to it. -/
theorem encodable_of_paths (hasks : s.asksPostOnly = true) {spec : InstrumentSpec}
    (hcheck : checkCreateOrder spec s = .ok ()) (hpaths : PathsKeepPostOnly venue s) :
    PostOnlyEncodable venue s := by
  have hsent := always_sendCreateOrder hcheck
    (Prog.Always.left (hpaths (restContext venue) rfl (.create s) rfl))
  unfold sendCreateOrder at hsent
  cases venue with
  | binance =>
    have hspec := always_of_commandSpec _ hsent spec
    by_cases halgo : binanceCreateUsesAlgoOrderEndpoint s = true
    · rw [if_pos halgo] at hspec
      exact encodable_of_sendsKept (hspec []).1 (by simp [CommandCall.Writes]) rfl hasks
        encodes_buildBinanceAlgoCreatePairs
    · rw [if_neg halgo] at hspec
      exact encodable_of_sendsKept (hspec []).1 (by simp [CommandCall.Writes]) rfl hasks
        encodes_buildBinanceCreatePairs
  | bybit =>
    have hspec := always_of_commandSpec _ hsent spec
    exact encodable_of_sendsKept (hspec []).1 (by simp [CommandCall.Writes]) rfl hasks
      encodes_buildBybitCreateObject
  | mexc =>
    intro hmarket
    by_contra htrigger
    have hbody : ∀ positions, mexcCreateOrderObject (restContext .mexc).toLiveContext spec positions
        s = .ok (.object (mexcCreateOrderFields spec positions s 2)) := by
      intro positions
      have hnone : s.triggerPrice = none := by simpa using htrigger
      have hcode : mexcOrderType s.orderType s.timeInForce s.postOnly = .ok 2 := by
        unfold CreateOrderRequest.asksPostOnly at hasks
        unfold mexcOrderType
        rw [if_pos hasks]
      rw [hmarket] at hcode
      simp [mexcCreateOrderObject, hmarket, hnone, hcode, OrderType.isConditional]
    have horder := always_of_mexcCreateBody hsent spec
      (.new .mexc .linearUsdt ⟨0, 0⟩ []) (hbody _)
    exact absurd (encodable_of_sendsKept (horder []).1 (by simp [CommandCall.Writes]) rfl hasks
      (encodes_mexcCreateOrderObject (hbody _)) hmarket) htrigger

/-- **Post-only, exactly.**  An order that asks to be post-only, and that the checks accept, is
post-only on every path exactly when the encoders of the venue can express it. -/
theorem post_only_kept_iff (hasks : s.asksPostOnly = true)
    (hvalid : ∃ spec, checkCreateOrder spec s = .ok ()) :
    PathsKeepPostOnly venue s ↔ PostOnlyEncodable venue s := by
  obtain ⟨spec, hcheck⟩ := hvalid
  exact ⟨encodable_of_paths hasks hcheck, paths_keep_post_only hasks⟩

end Kept

/-! ### A post-only order without a time in force -/

/-- BTC on Binance. -/
def binanceBtc : InstrumentSpec := .active .binance "BTC/USDT:USDT" "BTCUSDT" 2 3

theorem limitPrice_fits : 65000 < 2 ^ 96 := by decide

/-- A post-only order to buy one BTC at 65000. -/
def postOnlyBtc (timeInForce : Option TimeInForce) : CreateOrderRequest where
  requestId := none
  instrumentId := ⟨"BTC/USDT:USDT"⟩
  clientOrderId := some ⟨"cid-1"⟩
  side := .buy
  orderType := .limit
  timeInForce := timeInForce
  quantity := ⟨.ofNat 1 Decimal.one_fits⟩
  price := some ⟨.ofNat 65000 limitPrice_fits⟩
  triggerPrice := none
  triggerType := none
  reduceOnly := false
  postOnly := true

/-- Binance gets a post-only order without a time in force as one that may take liquidity. -/
theorem post_only_dropped :
    ¬ ∀ (venue : Venue) (s : CreateOrderRequest), s.asksPostOnly = true →
      (∃ spec, checkCreateOrder spec s = .ok ()) → PathsKeepPostOnly venue s := by
  intro h
  have hcheck : checkCreateOrder binanceBtc (postOnlyBtc none) = .ok () := rfl
  have hpaths := h .binance (postOnlyBtc none) rfl ⟨binanceBtc, hcheck⟩
  have hencodable : PostOnlyEncodable .binance (postOnlyBtc none) :=
    encodable_of_paths rfl hcheck hpaths
  cases hencodable

/-- With a time in force, the order is post-only on every path. -/
theorem post_only_kept_iff_gtc : PathsKeepPostOnly .binance (postOnlyBtc (some .gtc)) :=
  (post_only_kept_iff rfl ⟨binanceBtc, rfl⟩).2 rfl

end BatMarkets
