import BatMarkets.Commands.AmendOrders
import BatMarkets.Commands.CancelOrders
import BatMarkets.Commands.PostOnly

/-!
# Commands that require the websocket

The commands of the public interface that set the transport mode to websocket only (`facade.rs`).
They pass what the commands of the runtime return on as handles of pending commands, of which only
the acknowledgement is kept here.

The transport mode is asked where a command is sent (`sendWebSocket`, `sendRestOnly`, `sendBatch`),
and each of these has one lemma, `webSocketOnly_…`: no order is written over REST, and a receipt
comes from the websocket.  The lemmas of the commands follow their branches.

## Main results

* `webSocketOnly_commands` : none of the commands writes an order over REST, whatever the replies,
  and what they return is acknowledged by the websocket.
-/

namespace BatMarkets

open CommandM Interleaving Wire

/-! ### The public interface -/

/-- The handle of a command, as far as it is made here. -/
structure PendingCommandHandle where
  ack : CommandAck

namespace PendingCommandHandle

/-- A handle keeps the acknowledgement it is made from. -/
def fromAck (ack : CommandAck) : PendingCommandHandle := ⟨ack⟩

/-- A handle made from a receipt takes the time anew. -/
def fromReceipt (receipt : CommandReceipt) (transport : CommandTransport) :
    CommandE PendingCommandHandle := do
  let acknowledgedAt ← liftCall .timestampNowMs
  return fromAck ⟨receipt, transport, acknowledgedAt⟩

end PendingCommandHandle

/-- One handle for each acknowledgement for which there is a receiver. -/
def commandHandlesFromAcks (acks : List CommandAck) (receivers : ℕ) : List PendingCommandHandle :=
  (acks.take receivers).map .fromAck

variable (context : CommandContext)

/-- The configuration, with the transport mode set to websocket only. -/
def webSocketOnlyContext : CommandContext := { context with websocketOnly := true }

/-- Create an order over the websocket alone. -/
def createOrderWs (request : CreateOrderRequest) : CommandE PendingCommandHandle :=
  return .fromAck (← createOrder (webSocketOnlyContext context) request)

/-- Create the orders of a batch over the websocket alone. -/
def createOrdersWs (request : CreateOrdersRequest) : CommandE (List PendingCommandHandle) :=
  return commandHandlesFromAcks (← createOrders (webSocketOnlyContext context) request)
    request.orders.length

/-- Amend an order over the websocket alone. -/
def editOrderWs (request : AmendOrderRequest) : CommandE PendingCommandHandle :=
  return .fromAck (← amendOrder (webSocketOnlyContext context) request)

/-- Amend the orders of a batch over the websocket alone. -/
def editOrdersWs (request : AmendOrdersRequest) : CommandE (List PendingCommandHandle) :=
  return commandHandlesFromAcks (← amendOrders (webSocketOnlyContext context) request)
    request.orders.length

/-- Cancel an order over the websocket alone. -/
def cancelOrderWs (request : CancelOrderRequest) : CommandE PendingCommandHandle :=
  return .fromAck (← cancelOrder (webSocketOnlyContext context) request)

/-- Cancel the orders of a batch over the websocket alone. -/
def cancelOrdersWs (request : CancelOrdersRequest) : CommandE (List PendingCommandHandle) :=
  return commandHandlesFromAcks (← cancelOrders (webSocketOnlyContext context) request)
    request.orders.length

/-- Cancel all orders over the websocket alone. -/
def cancelAllOrdersWs (request : CancelAllOrdersRequest) : CommandE PendingCommandHandle := do
  PendingCommandHandle.fromReceipt (← cancelAllOrders (webSocketOnlyContext context) request)
    .webSocket

/-- The commands that require the websocket, with their requests. -/
inductive WebSocketCommand
  | createOrder (request : CreateOrderRequest)
  | createOrders (request : CreateOrdersRequest)
  | editOrder (request : AmendOrderRequest)
  | editOrders (request : AmendOrdersRequest)
  | cancelOrder (request : CancelOrderRequest)
  | cancelOrders (request : CancelOrdersRequest)
  | cancelAllOrders (request : CancelAllOrdersRequest)

/-- Run the command; a single handle is a list of one. -/
def WebSocketCommand.run : WebSocketCommand → CommandE (List PendingCommandHandle)
  | .createOrder request => return [← createOrderWs context request]
  | .createOrders request => createOrdersWs context request
  | .editOrder request => return [← editOrderWs context request]
  | .editOrders request => editOrdersWs context request
  | .cancelOrder request => return [← cancelOrderWs context request]
  | .cancelOrders request => cancelOrdersWs context request
  | .cancelAllOrders request => return [← cancelAllOrdersWs context request]

/-! ### Ways to send -/

/-- The call writes something at the venue over REST. -/
def CommandCall.WritesOverRest : CommandCall → Prop
  | .rest request => request.method ≠ .get
  | _ => False

/-- The call is not one that writes over REST. -/
abbrev NoRestWrite (_ : List (Event CommandCall CommandReply)) (q : CommandCall) : Prop :=
  ¬ q.WritesOverRest

theorem noRestWrite_of_not_writes (τ : List (Event CommandCall CommandReply)) (q : CommandCall)
    (hq : ¬ q.Writes) : NoRestWrite τ q := by
  cases q with
  | rest request => exact hq
  | _ => exact id

theorem noRestWrite_of_local (τ : List (Event CommandCall CommandReply)) (q : CommandCall)
    (hq : q.Local) : NoRestWrite τ q :=
  noRestWrite_of_not_writes τ q hq.not_writes

section Send

variable {context} (hctx : context.websocketOnly = true) {operation : CommandOperation}
  {requestId : Option RequestId} {frame : WsCommand} {request : RestCommand} {unsupported : String}

include hctx

theorem webSocketOnly_sendWebSocket :
    Prog.Yields NoRestWrite (fun sent => sent.2 = .webSocket)
      (sendWebSocket context true operation requestId frame request) := by
  unfold sendWebSocket
  refine (Prog.yields_perform (fun τ => id) fun _ => trivial).attempt fun (reply, catalog) _ => ?_
  cases reply with
  | ok payload =>
    exact (yields_ofExcept fun _ _ => trivial).attempt fun _ _ => Prog.yields_pure rfl
  | error e =>
    cases e with
    | uncertain e =>
      exact (yields_ofExcept fun _ _ => trivial).attempt fun _ _ => Prog.yields_pure rfl
    | unavailable e =>
      simp only [hctx, Bool.and_true, if_true]
      exact Prog.yields_throw _

theorem webSocketOnly_sendRestOnly {P : CommandReceipt × CommandTransport → Prop} :
    Prog.Yields NoRestWrite P
      (sendRestOnly context unsupported operation requestId request) := by
  unfold sendRestOnly
  simp only [hctx, if_true]
  exact Prog.yields_throw_bind _

theorem webSocketOnly_sendCommand :
    Prog.Yields NoRestWrite (fun sent => sent.2 = .webSocket)
      (sendCommand context unsupported operation requestId frame request) := by
  unfold sendCommand
  split
  · exact webSocketOnly_sendWebSocket hctx
  · exact webSocketOnly_sendRestOnly hctx

theorem webSocketOnly_sendBatch {identities : List BatchIdentity} {classifier : BatchClassifier} :
    Prog.Yields NoRestWrite (fun sent => sent.2 = .webSocket)
      (sendBatch context unsupported operation identities classifier frame request) := by
  unfold sendBatch
  by_cases hw : context.wsOrderEntry = true
  · simp only [hw, if_true]
    refine (Prog.yields_perform (fun τ => id) fun _ => trivial).attempt
      fun (reply, catalog) _ => ?_
    cases reply with
    | ok payload =>
      exact (yields_ofExcept fun _ _ => trivial).attempt fun _ _ => Prog.yields_pure rfl
    | error e =>
      cases e with
      | uncertain e => exact Prog.yields_pure rfl
      | unavailable e =>
        simp only [hctx, if_true]
        exact Prog.yields_throw _
  · simp only [hw, hctx, if_true]
    exact Prog.yields_throw_bind _

end Send

/-! ### The commands -/

/-- The program writes nothing over REST, and all it acknowledges comes from the websocket. -/
abbrev WebSocketAcks (command : CommandE (List CommandAck)) : Prop :=
  Prog.Yields NoRestWrite (fun acks => ∀ ack ∈ acks, ack.transport = .webSocket) command

/-- The same for a program that acknowledges one receipt. -/
abbrev WebSocketAck (command : CommandE CommandAck) : Prop :=
  Prog.Yields NoRestWrite (fun ack => ack.transport = .webSocket) command

theorem WebSocketAck.list {command : CommandE CommandAck} (h : WebSocketAck command) :
    WebSocketAcks (return [← command]) :=
  h.attempt fun ack hack => Prog.yields_pure fun a ha => by
    obtain rfl := List.mem_singleton.1 ha
    exact hack

/-- What is acknowledged for the chunks of a batch. -/
theorem webSocketAcks_chunks {α : Type} {chunks : List (List α)}
    {f : List α → CommandE (List CommandAck)} (h : ∀ chunk ∈ chunks, WebSocketAcks (f chunk)) :
    WebSocketAcks (return (← chunks.mapM f).flatten) := by
  refine (Prog.Yields.mapM h).attempt fun ackss hackss => Prog.yields_pure fun ack hack => ?_
  obtain ⟨acks, hacks, hmem⟩ := List.mem_flatten.1 hack
  obtain ⟨chunk, -, htransport⟩ := exists_of_forall₂_mem hackss hacks
  exact htransport ack hmem

/-- What is acknowledged by commands that run side by side. -/
theorem webSocketAcks_tryJoinAll {α : Type} {cs : List α} {f : α → CommandE CommandAck}
    (h : ∀ c ∈ cs, WebSocketAck (f c)) : WebSocketAcks (tryJoinAll (cs.map f)) := by
  have hjoin := yields_tryJoinAll_map noRestWrite_of_local (fun _ _ _ hq => hq)
    (P := fun _ (ack : CommandAck) => ack.transport = .webSocket) h
  refine hjoin.mono fun acks hacks ack hack => ?_
  obtain ⟨c, -, htransport⟩ := exists_of_forall₂_mem hacks hack
  exact htransport

/-- A receipt from the websocket is acknowledged as one. -/
theorem webSocketAck_finish (receipt : CommandReceipt) (operation : CommandOperation)
    (instrumentId : InstrumentId) (orderId : Option OrderId)
    (clientOrderId : Option ClientOrderId) {transport : CommandTransport}
    (htransport : transport = .webSocket) :
    WebSocketAck (do
      cachePendingUnknown receipt operation instrumentId orderId clientOrderId
      applyCommandReceipt receipt transport) := by
  refine (yields_cachePendingUnknown noRestWrite_of_local _ _ _ _ _).attempt fun _ _ => ?_
  exact (yields_ack noRestWrite_of_local receipt transport).mono fun ack hack =>
    hack.2.trans htransport

theorem webSocketAcks_finishChunk (what : String) (receipts : List CommandReceipt)
    (identities : List BatchIdentity) (operation : CommandOperation)
    {transport : CommandTransport} (htransport : transport = .webSocket) :
    WebSocketAcks (finishChunk what receipts identities operation transport) := by
  refine (yields_acks noRestWrite_of_local what receipts transport).mono fun acks hacks ack hack => ?_
  obtain ⟨receipt, -, hreceipt⟩ := exists_of_forall₂_mem hacks hack
  exact hreceipt.2.trans htransport

section Commands

variable {context} (hctx : context.websocketOnly = true)

include hctx

theorem webSocketOnly_createOrder (request : CreateOrderRequest) :
    WebSocketAck (createOrder context request) := by
  have hsend : Prog.Yields NoRestWrite (fun sent => sent.2 = .webSocket)
      (sendCreateOrder context request) := by
    have hspec : Prog.Yields NoRestWrite (fun _ => True) (commandSpec context request.instrumentId) :=
      yields_commandSpec noRestWrite_of_local _
    unfold sendCreateOrder
    split
    · refine hspec.attempt fun spec _ => ?_
      -- orders with a trigger have no request for the websocket
      by_cases halgo : binanceCreateUsesAlgoOrderEndpoint request = true
      · simp only [halgo, if_true]
        exact webSocketOnly_sendRestOnly hctx
      · simp only [halgo]
        exact webSocketOnly_sendCommand hctx
    · exact hspec.attempt fun spec _ => webSocketOnly_sendCommand hctx
    · simp only [hctx, if_true]
      exact Prog.yields_throw_bind _
  unfold createOrder
  refine (yields_validateCreateOrder noRestWrite_of_local request).attempt fun _ _ => ?_
  exact hsend.attempt fun (receipt, transport) htransport =>
    webSocketAck_finish _ _ _ _ _ htransport

theorem webSocketOnly_createOrders (request : CreateOrdersRequest) :
    WebSocketAcks (createOrders context request) := by
  have hsend : ∀ orders, WebSocketAcks (sendCreateOrders context orders) := by
    intro orders
    unfold sendCreateOrders
    split
    · by_cases hw : context.wsOrderEntry = true
      · simp only [hw, if_true]
        exact webSocketAcks_chunks fun chunk _ =>
          webSocketAcks_tryJoinAll fun order _ => webSocketOnly_createOrder hctx order
      · simp only [hw, hctx, if_true]
        exact Prog.yields_throw_bind _
    · refine webSocketAcks_chunks fun chunk _ => ?_
      unfold createChunkBybit
      refine (Prog.Yields.mapM (P := fun _ _ => True) fun order _ =>
        (yields_commandSpec noRestWrite_of_local _).attempt fun _ _ =>
          Prog.yields_pure trivial).attempt fun orders _ => ?_
      exact (webSocketOnly_sendBatch hctx).attempt fun (receipts, transport) htransport =>
        webSocketAcks_finishChunk _ _ _ _ htransport
    · simp only [hctx, if_true]
      exact Prog.yields_throw_bind _
  unfold createOrders
  refine (yields_validateCreateOrders noRestWrite_of_local request).attempt fun _ _ => ?_
  split
  · exact (webSocketOnly_createOrder hctx _).list
  · exact hsend _

omit hctx in
theorem noRestWrite_validateAmendOrder (request : AmendOrderRequest) :
    Prog.Yields NoRestWrite (fun _ => True) (validateAmendOrder context request) := by
  unfold validateAmendOrder
  refine (yields_commandSpec noRestWrite_of_local _).attempt fun _ _ => ?_
  refine (yields_ofExcept fun _ _ => trivial).attempt fun _ _ => ?_
  split
  · exact Prog.yields_throw _
  · exact Prog.yields_pure trivial

theorem webSocketOnly_amendOrder (request : AmendOrderRequest) :
    WebSocketAck (amendOrder context request) := by
  have hspec : Prog.Yields NoRestWrite (fun _ => True) (commandSpec context request.instrumentId) :=
    yields_commandSpec noRestWrite_of_local _
  have hsend : Prog.Yields NoRestWrite (fun sent => sent.2 = .webSocket)
      (sendAmendOrder context request) := by
    unfold sendAmendOrder
    split
    · refine hspec.attempt fun spec _ => ?_
      -- the order is looked up over REST, which writes nothing
      have hcurrent : Prog.Yields NoRestWrite (fun _ => True)
          (resolveOrderForAmend context request) := by
        unfold resolveOrderForAmend
        refine (yields_readState noRestWrite_of_local).attempt fun state _ => ?_
        split
        · exact Prog.yields_pure trivial
        · exact .of_always (always_liftRuntime noRestWrite_of_not_writes _)
      refine hcurrent.attempt fun current _ => ?_
      refine (yields_ofExcept fun _ _ => trivial).attempt fun pairs _ => ?_
      exact webSocketOnly_sendCommand hctx
    · refine hspec.attempt fun spec _ => ?_
      refine (yields_ofExcept fun _ _ => trivial).attempt fun pairs _ => ?_
      exact webSocketOnly_sendCommand hctx
    · exact Prog.yields_throw _
  unfold amendOrder
  refine (noRestWrite_validateAmendOrder request).attempt fun _ _ => ?_
  exact hsend.attempt fun (receipt, transport) htransport =>
    webSocketAck_finish _ _ _ _ _ htransport

theorem webSocketOnly_amendOrders (request : AmendOrdersRequest) :
    WebSocketAcks (amendOrders context request) := by
  have hvalidate : Prog.Yields NoRestWrite (fun _ => True)
      (validateAmendOrders context request) := by
    have horders : Prog.Yields NoRestWrite (fun _ => True) (do
        let _ ← request.orders.mapM (validateAmendOrder context)) :=
      (Prog.Yields.mapM (P := fun _ _ => True) fun order _ =>
        noRestWrite_validateAmendOrder order).attempt fun _ _ => Prog.yields_pure trivial
    unfold validateAmendOrders
    split
    · exact (Prog.yields_throw (P := fun _ => True) _).attempt fun _ _ => horders
    · exact horders
  have hsend : ∀ orders, WebSocketAcks (sendAmendOrders context orders) := by
    intro orders
    unfold sendAmendOrders
    split
    · by_cases hw : context.wsOrderEntry = true
      · simp only [hw, if_true]
        exact webSocketAcks_chunks fun chunk _ =>
          webSocketAcks_tryJoinAll fun order _ => webSocketOnly_amendOrder hctx order
      · simp only [hw, hctx, if_true]
        exact Prog.yields_throw_bind _
    · refine webSocketAcks_chunks fun chunk _ => ?_
      unfold amendChunkBybit
      have hobject : ∀ order ∈ chunk, Prog.Yields NoRestWrite (fun _ => True)
          (buildBybitBatchAmendObject context order) := by
        intro order _
        unfold buildBybitBatchAmendObject
        refine (yields_commandSpec noRestWrite_of_local _).attempt fun _ _ => ?_
        exact (yields_ofExcept fun _ _ => trivial).attempt fun _ _ => Prog.yields_pure trivial
      refine (Prog.Yields.mapM hobject).attempt fun orders _ => ?_
      exact (webSocketOnly_sendBatch hctx).attempt fun (receipts, transport) htransport =>
        webSocketAcks_finishChunk _ _ _ _ htransport
    · exact Prog.yields_throw _
  unfold amendOrders
  refine hvalidate.attempt fun _ _ => ?_
  split
  · exact (webSocketOnly_amendOrder hctx _).list
  · exact hsend _

theorem webSocketOnly_cancelOrder (request : CancelOrderRequest) :
    WebSocketAck (cancelOrder context request) := by
  have hsend : ∀ spec, Prog.Yields NoRestWrite (fun sent => sent.2 = .webSocket)
      (sendCancelOrder context spec request) := by
    intro spec
    unfold sendCancelOrder
    split
    · -- conditional orders have no request for the websocket
      by_cases halgo : isBinanceAlgoOrderId request.orderId = true
      · simp only [halgo, hctx, if_true]
        exact Prog.yields_throw_bind _
      · simp only [halgo]
        exact (yields_ofExcept fun _ _ => trivial).attempt fun _ _ =>
          webSocketOnly_sendCommand hctx
    · exact (yields_ofExcept fun _ _ => trivial).attempt fun _ _ =>
        webSocketOnly_sendCommand hctx
    · simp only [hctx, if_true]
      exact Prog.yields_throw_bind _
  unfold cancelOrder
  refine (yields_commandSpec noRestWrite_of_local _).attempt fun spec _ => ?_
  exact (hsend spec).attempt fun (receipt, transport) htransport =>
    webSocketAck_finish _ _ _ _ _ htransport

theorem webSocketOnly_cancelOrders (request : CancelOrdersRequest) :
    WebSocketAcks (cancelOrders context request) := by
  have hsend : ∀ targets, WebSocketAcks (sendCancelOrders context request.requestId targets) := by
    intro targets
    unfold sendCancelOrders
    split
    · by_cases hw : context.wsOrderEntry = true
      · simp only [hw, if_true]
        exact webSocketAcks_chunks fun chunk _ =>
          webSocketAcks_tryJoinAll fun target _ => webSocketOnly_cancelOrder hctx _
      · simp only [hw, hctx, if_true]
        exact Prog.yields_throw_bind _
    · refine webSocketAcks_chunks fun chunk _ => ?_
      unfold cancelChunkBybit
      have hobject : ∀ target ∈ chunk, Prog.Yields NoRestWrite (fun _ => True) (do
          let spec ← commandSpec context target.instrumentId
          let order ← ofExcept (appendBybitOrderIdentity [("symbol", spec.nativeSymbol)]
            target.orderId target.clientOrderId)
          return bodyToObject order) := by
        intro target _
        refine (yields_commandSpec noRestWrite_of_local _).attempt fun _ _ => ?_
        exact (yields_ofExcept fun _ _ => trivial).attempt fun _ _ => Prog.yields_pure trivial
      refine (Prog.Yields.mapM hobject).attempt fun orders _ => ?_
      exact (webSocketOnly_sendBatch hctx).attempt fun (receipts, transport) htransport =>
        webSocketAcks_finishChunk _ _ _ _ htransport
    · simp only [hctx, if_true]
      exact Prog.yields_throw_bind _
  unfold cancelOrders
  refine (yields_ofExcept fun _ _ => trivial).attempt fun _ _ => ?_
  split
  · exact (webSocketOnly_cancelOrder hctx _).list
  · exact hsend _

/-- No venue takes the command over the websocket, so it fails. -/
theorem webSocketOnly_cancelAllOrders {P : CommandReceipt → Prop}
    (request : CancelAllOrdersRequest) :
    Prog.Yields NoRestWrite P (cancelAllOrders context request) := by
  unfold cancelAllOrders
  simp only [hctx, if_true]
  exact Prog.yields_throw_bind _

end Commands

/-- No command that requires the websocket writes an order over REST, whatever the replies, and what
it returns is acknowledged by the websocket. -/
theorem webSocketOnly_commands (command : WebSocketCommand) :
    Prog.Yields (fun _ q => ¬ q.WritesOverRest)
      (fun handles => ∀ handle ∈ handles, handle.ack.transport = .webSocket)
      (command.run context) := by
  have hctx : (webSocketOnlyContext context).websocketOnly = true := rfl
  have hone : ∀ {run : CommandE CommandAck}, WebSocketAck run →
      Prog.Yields NoRestWrite (fun handle => handle.ack.transport = .webSocket)
        (return PendingCommandHandle.fromAck (← run)) :=
    fun h => h.attempt fun ack hack => Prog.yields_pure hack
  have hlist : ∀ {run : CommandE PendingCommandHandle},
      Prog.Yields NoRestWrite (fun handle => handle.ack.transport = .webSocket) run →
      Prog.Yields NoRestWrite (fun handles => ∀ handle ∈ handles, handle.ack.transport = .webSocket)
        (return [← run]) := by
    intro run h
    refine h.attempt fun handle hhandle => Prog.yields_pure fun handle' hmem => ?_
    obtain rfl := List.mem_singleton.1 hmem
    exact hhandle
  have hmany : ∀ {run : CommandE (List CommandAck)} (receivers : ℕ), WebSocketAcks run →
      Prog.Yields NoRestWrite (fun handles => ∀ handle ∈ handles, handle.ack.transport = .webSocket)
        (return commandHandlesFromAcks (← run) receivers) := by
    intro run receivers h
    refine h.attempt fun acks hacks => Prog.yields_pure fun handle hmem => ?_
    obtain ⟨ack, hack, rfl⟩ := List.mem_map.1 hmem
    exact hacks ack (List.mem_of_mem_take hack)
  cases command with
  | createOrder request => exact hlist (hone (webSocketOnly_createOrder hctx request))
  | createOrders request => exact hmany _ (webSocketOnly_createOrders hctx request)
  | editOrder request => exact hlist (hone (webSocketOnly_amendOrder hctx request))
  | editOrders request => exact hmany _ (webSocketOnly_amendOrders hctx request)
  | cancelOrder request => exact hlist (hone (webSocketOnly_cancelOrder hctx request))
  | cancelOrders request => exact hmany _ (webSocketOnly_cancelOrders hctx request)
  | cancelAllOrders request =>
    refine hlist ?_
    exact (webSocketOnly_cancelAllOrders (P := fun _ => False) hctx request).attempt
      fun _ h => h.elim

end BatMarkets
