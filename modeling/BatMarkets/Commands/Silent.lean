import BatMarkets.Adapter.Values
import BatMarkets.Commands.Root

/-!
# What a command does before it has a receipt

Up to its receipt a command looks things up, checks them and sends requests.  None of this tells
anyone about the command: no event is emitted, no recovery is started, nothing is remembered as
pending, and the clock is not read.  Such calls are silent.

`Silently P x` says that `x` makes silent calls only and that its value satisfies `P`.  Of a receipt
it is said where its status comes from: a reply that can be decoded decides, so a receipt of unknown
execution is the one that the command makes up itself.

## Main results

* `silently_sendCreateOrder`, `silently_sendAmendOrder`, `silently_sendCancelOrder`,
  `silently_sendCloseOrder` : a receipt of unknown execution says nothing but the operation.
* `silently_sendBatch` : the receipts of a chunk are all decided, or all unknown.
-/

namespace BatMarkets

open CommandM Interleaving Prog Wire

/-- The call tells nobody about the command that makes it. -/
def CommandCall.Silent : CommandCall → Prop
  | .runtime .timestampNowMs | .runtime (.cachePendingUnknown _) => False
  | .emitCommandEvent _ | .spawnReconcile _ => False
  | _ => True

/-- The program makes silent calls only, and its value satisfies `P`. -/
abbrev Silently {α : Type} (P : α → Prop) (x : CommandE α) : Prop :=
  Yields (fun _ q => q.Silent) P x

/-- The call looks something up, or keeps what was found. -/
def CommandCall.Prepares : CommandCall → Prop
  | .runtime .timestampNowMs | .runtime (.cachePendingUnknown _) => False
  | .runtime _ | .readState => True
  | _ => False

/-- The program looks things up only, and its value satisfies `P`. -/
abbrev Preparing {α : Type} (P : α → Prop) (x : CommandE α) : Prop :=
  Yields (fun _ q => q.Prepares) P x

/-- If the receipt is one of unknown execution, it says nothing but the operation. -/
def UnknownAs (venue : Venue) (operation : CommandOperation) (requestId : Option RequestId)
    (receipt : CommandReceipt) : Prop :=
  receipt.status = .unknownExecution → receipt = unknownExecution venue operation requestId

theorem CommandReceipt.Decided.not_unknown {receipt : CommandReceipt} (h : receipt.Decided) :
    receipt.status ≠ .unknownExecution := by
  rcases h with h | h <;> simp [h]

/-! ### Lookups and checks -/

section Prepare

variable {context : CommandContext} {α β : Type}

theorem CommandCall.Prepares.silent {q : CommandCall} (h : q.Prepares) : q.Silent := by
  cases q with
  | runtime q => cases q <;> exact h
  | readState => trivial
  | _ => exact h.elim

theorem Preparing.silently {P : α → Prop} {x : CommandE α} (h : Preparing P x) : Silently P x :=
  h.imp fun _ _ hq => hq.silent

theorem silently_call {q : CommandCall} (h : q.Silent) :
    Silently (fun _ => True) (ExceptT.lift (.perform q) : CommandE (CommandReply q)) :=
  yields_perform (fun _ => h) fun _ => trivial

theorem preparing_readState : Preparing (fun _ => True) readState :=
  yields_perform (fun _ => trivial) fun _ => trivial

theorem silently_readState : Silently (fun _ => True) readState := preparing_readState.silently

theorem preparing_commandSpec (instrumentId : InstrumentId) :
    Preparing (fun _ => True) (commandSpec context instrumentId) := by
  refine .of_always fun τ => ⟨trivial, fun reply => ?_⟩
  cases reply <;> trivial

theorem silently_commandSpec (instrumentId : InstrumentId) :
    Silently (fun _ => True) (commandSpec context instrumentId) :=
  (preparing_commandSpec instrumentId).silently

theorem preparing_getOrder (request : GetOrderRequest) :
    Preparing (fun _ => True) (liftRuntime (getOrder context.toLiveContext request)) := by
  refine .of_always (always_liftRuntime_of ?_)
  unfold getOrder
  refine Prog.Always.attempt (fun τ => ⟨trivial, fun reply => ?_⟩) fun spec => ?_
  · cases reply <;> trivial
  · split
    · exact fun τ => trivial
    · refine fun τ => ⟨trivial, fun r => ?_⟩
      cases r with
      | error e => trivial
      | ok order => exact ⟨trivial, fun _ => ⟨trivial, fun _ => trivial⟩⟩

theorem preparing_refreshPositions :
    Preparing (fun _ => True) (liftRuntime (refreshPositions context.toLiveContext)) := by
  refine .of_always (always_liftRuntime_of ?_)
  unfold refreshPositions
  split
  all_goals
    refine fun τ => ⟨trivial, fun r => ?_⟩
    cases r with
    | error e => trivial
    | ok records => exact ⟨trivial, fun _ => trivial⟩

theorem preparing_validateCreateOrder (request : CreateOrderRequest) :
    Preparing (fun _ => True) (validateCreateOrder context request) :=
  (preparing_commandSpec _).attempt fun _ _ => fun _ _ _ => trivial

theorem preparing_validateOrdersFrom (batch : Bool) (index : ℕ) (seen : List (ClientOrderId × ℕ))
    (orders : List CreateOrderRequest) :
    Preparing (fun _ => True) (validateOrdersFrom context batch index seen orders) := by
  induction orders generalizing index seen with
  | nil =>
    rw [validateOrdersFrom]
    exact yields_pure trivial
  | cons order orders ih =>
    unfold validateOrdersFrom
    refine (preparing_validateCreateOrder order).attempt fun _ _ => ?_
    split
    · split
      · exact yields_throw _
      · split
        · exact yields_throw _
        · exact ih _ _
    · exact ih _ _

theorem preparing_validateCreateOrders (request : CreateOrdersRequest) :
    Preparing (fun _ => True) (validateCreateOrders context request) := by
  unfold validateCreateOrders
  split
  · exact yields_throw_bind _
  · exact preparing_validateOrdersFrom _ _ _ _

theorem preparing_validateAmendOrder (request : AmendOrderRequest) :
    Preparing (fun _ => True) (validateAmendOrder context request) := by
  unfold validateAmendOrder
  refine (preparing_commandSpec _).attempt fun _ _ => ?_
  refine (yields_ofExcept fun _ _ => trivial).attempt fun _ _ => ?_
  split
  · exact yields_throw _
  · exact yields_pure trivial

/-- A step for each element of a list. -/
theorem yields_each {G : List (Event CommandCall CommandReply) → CommandCall → Prop} {cs : List β}
    {f : β → CommandE α} (h : ∀ c ∈ cs, Yields G (fun _ => True) (f c)) :
    Yields G (fun _ => True) (cs.mapM f) :=
  (Yields.mapM (P := fun _ _ => True) h).mono fun _ _ => trivial

theorem preparing_validateAmendOrders (request : AmendOrdersRequest) :
    Preparing (fun _ => True) (validateAmendOrders context request) := by
  have horders : Preparing (fun _ => True) (do
      let _ ← request.orders.mapM (validateAmendOrder context)) :=
    (yields_each fun order _ => preparing_validateAmendOrder order).attempt
      fun _ _ => yields_pure trivial
  unfold validateAmendOrders
  split
  · exact (yields_throw (P := fun _ => True) _).attempt fun _ _ => horders
  · exact horders

theorem preparing_mexcCreateBody {build : LiveContext → InstrumentSpec → List Position →
    CreateOrderRequest → Except MarketError Json} (request : CreateOrderRequest) :
    Preparing (fun _ => True) (mexcCreateBody context build request) := by
  unfold mexcCreateBody
  refine (preparing_commandSpec _).attempt fun spec _ => ?_
  refine preparing_readState.attempt fun state _ => ?_
  exact yields_ofExcept fun _ _ => trivial

theorem preparing_resolveOrderForAmend (request : AmendOrderRequest) :
    Preparing (fun _ => True) (resolveOrderForAmend context request) := by
  unfold resolveOrderForAmend
  refine preparing_readState.attempt fun state _ => ?_
  split
  · exact yields_pure trivial
  · exact preparing_getOrder _

theorem preparing_resolveClosePosition (request : ClosePositionRequest) :
    Preparing (fun _ => True) (resolveClosePosition context request) := by
  unfold resolveClosePosition
  refine preparing_readState.attempt fun state _ => ?_
  split
  · exact yields_pure trivial
  · refine preparing_refreshPositions.attempt fun refreshed _ => ?_
    split
    · exact yields_pure trivial
    · exact yields_throw _

theorem preparing_buildBinanceBatchAmendObject (request : AmendOrderRequest) :
    Preparing (fun _ => True) (buildBinanceBatchAmendObject context request) := by
  unfold buildBinanceBatchAmendObject resolveCachedOrderForAmend
  refine (preparing_commandSpec _).attempt fun spec _ => ?_
  refine Yields.attempt (P := fun _ => True) ?_ fun current _ => ?_
  · refine preparing_readState.attempt fun state _ => ?_
    split
    · exact yields_pure trivial
    · exact yields_throw _
  · refine Yields.attempt (P := fun _ => True) (yields_ofExcept fun _ _ => trivial) fun _ _ => ?_
    exact yields_pure trivial

theorem preparing_buildBybitBatchAmendObject (request : AmendOrderRequest) :
    Preparing (fun _ => True) (buildBybitBatchAmendObject context request) := by
  unfold buildBybitBatchAmendObject
  refine (preparing_commandSpec _).attempt fun spec _ => ?_
  refine Yields.attempt (P := fun _ => True) (yields_ofExcept fun _ _ => trivial) fun _ _ => ?_
  exact yields_pure trivial

theorem preparing_mexcCancelChunkBody (byOrderId : Bool) (chunk : List OrderTarget) :
    Preparing (fun _ => True) (mexcCancelChunkBody context byOrderId chunk) := by
  unfold mexcCancelChunkBody
  split
  · exact yields_pure trivial
  · refine (yields_each fun target _ => ?_).attempt fun orders _ => yields_pure trivial
    exact (preparing_commandSpec _).attempt fun spec _ => yields_pure trivial

theorem silently_restText (request : RestCommand) :
    Silently (fun _ => True) (restText request) := by
  refine (silently_call (q := .rest request) trivial).attempt fun (reply, catalog) _ => ?_
  cases reply with
  | ok payload => exact yields_pure trivial
  | error e => exact yields_throw _

end Prepare

/-! ### Sending -/

section Send

variable {context : CommandContext} {operation : CommandOperation} {requestId : Option RequestId}
  {request : RestCommand} {frame : WsCommand} {unsupported : String}

theorem silently_classify_some {catalog : InstrumentCatalog} {payload : Payload} :
    Silently (fun receipt => receipt.status ≠ .unknownExecution)
      (classify context operation catalog (some payload) requestId) :=
  yields_ofExcept fun _ hreceipt => (decided_classifyCommand hreceipt).not_unknown

theorem silently_classify (catalog : InstrumentCatalog) (payload : Option Payload) :
    Silently (UnknownAs context.venue operation requestId)
      (classify context operation catalog payload requestId) := by
  cases payload with
  | some payload => exact silently_classify_some.mono fun _ hne hunknown => absurd hunknown hne
  | none =>
    refine yields_ofExcept fun receipt hreceipt _ => ?_
    exact (Except.ok.inj hreceipt).symm

theorem silently_sendRest :
    Silently (UnknownAs context.venue operation requestId)
      (sendRest context operation requestId request) := by
  refine (silently_call (q := .rest request) trivial).attempt fun (reply, catalog) _ => ?_
  cases reply with
  | ok payload => exact silently_classify _ _
  | error e =>
    dsimp only
    split
    · exact silently_classify _ _
    · exact yields_throw _

theorem silently_sendRestOrFail :
    Silently (fun receipt => receipt.status ≠ .unknownExecution)
      (sendRestOrFail context operation requestId request) := by
  refine (silently_call (q := .rest request) trivial).attempt fun (reply, catalog) _ => ?_
  cases reply with
  | ok payload => exact silently_classify_some
  | error e => exact yields_throw _

/-- A receipt, with the way it came. -/
theorem silently_with {P : CommandReceipt → Prop} {x : CommandE CommandReceipt}
    {transport : CommandTransport} (h : Silently P x) :
    Silently (fun sent => P sent.1) (do return (← x, transport)) :=
  h.attempt fun _ hreceipt => yields_pure hreceipt

theorem silently_sendWebSocket {strict : Bool} :
    Silently (fun sent => UnknownAs context.venue operation requestId sent.1)
      (sendWebSocket context strict operation requestId frame request) := by
  refine (silently_call (q := .ws frame) trivial).attempt fun (reply, catalog) _ => ?_
  cases reply with
  | ok payload => exact silently_with (silently_classify _ _)
  | error e =>
    cases e with
    | uncertain e => exact silently_with (silently_classify _ _)
    | unavailable e =>
      dsimp only
      split
      · exact yields_throw _
      · exact silently_with silently_sendRest

theorem silently_sendRestOnly :
    Silently (fun sent => UnknownAs context.venue operation requestId sent.1)
      (sendRestOnly context unsupported operation requestId request) := by
  unfold sendRestOnly
  split
  · exact yields_throw_bind _
  · exact silently_with silently_sendRest

theorem silently_sendCommand :
    Silently (fun sent => UnknownAs context.venue operation requestId sent.1)
      (sendCommand context unsupported operation requestId frame request) := by
  unfold sendCommand
  split
  · exact silently_sendWebSocket
  · exact silently_sendRestOnly

theorem silently_sendCreateOrder (request : CreateOrderRequest) :
    Silently (fun sent => UnknownAs context.venue .createOrder request.requestId sent.1)
      (sendCreateOrder context request) := by
  unfold sendCreateOrder
  split
  · refine (silently_commandSpec _).attempt fun spec _ => ?_
    dsimp only
    split
    · exact silently_sendRestOnly
    · exact silently_sendCommand
  · exact (silently_commandSpec _).attempt fun spec _ => silently_sendCommand
  · split
    · exact yields_throw_bind _
    · refine (preparing_mexcCreateBody request).silently.attempt fun order _ => ?_
      exact silently_with silently_sendRest

theorem silently_sendAmendOrder (request : AmendOrderRequest) :
    Silently (fun sent => UnknownAs context.venue .amendOrder request.requestId sent.1)
      (sendAmendOrder context request) := by
  unfold sendAmendOrder
  split
  · refine (silently_commandSpec _).attempt fun spec _ => ?_
    refine (preparing_resolveOrderForAmend request).silently.attempt fun current _ => ?_
    refine (yields_ofExcept fun _ _ => trivial).attempt fun pairs _ => ?_
    exact silently_sendCommand
  · refine (silently_commandSpec _).attempt fun spec _ => ?_
    refine (yields_ofExcept fun _ _ => trivial).attempt fun pairs _ => ?_
    exact silently_sendCommand
  · exact yields_throw _

theorem silently_sendCancelOrder (spec : InstrumentSpec) (request : CancelOrderRequest) :
    Silently (fun sent => UnknownAs context.venue .cancelOrder request.requestId sent.1)
      (sendCancelOrder context spec request) := by
  unfold sendCancelOrder
  split
  · split
    · split
      · exact yields_throw_bind _
      · refine (yields_ofExcept fun _ _ => trivial).attempt fun query _ => ?_
        exact silently_with silently_sendRest
    · refine (yields_ofExcept fun _ _ => trivial).attempt fun query _ => ?_
      exact silently_sendCommand
  · refine (yields_ofExcept fun _ _ => trivial).attempt fun body _ => ?_
    exact silently_sendCommand
  · split
    · exact yields_throw_bind _
    · refine (yields_ofExcept fun _ _ => trivial).attempt fun (path, body) _ => ?_
      exact silently_with silently_sendRest

theorem silently_sendCloseOrder (request : CreateOrderRequest) :
    Silently (fun sent => UnknownAs context.venue .closePosition request.requestId sent.1)
      (sendCloseOrder context request) := by
  unfold sendCloseOrder
  split
  · refine (silently_commandSpec _).attempt fun spec _ => ?_
    dsimp only
    split
    · exact silently_sendWebSocket
    · exact silently_with silently_sendRest
  · refine (silently_commandSpec _).attempt fun spec _ => ?_
    dsimp only
    split
    · exact silently_sendWebSocket
    · exact silently_with silently_sendRest
  · split
    · exact yields_throw_bind _
    · refine (preparing_mexcCreateBody request).silently.attempt fun order _ => ?_
      exact silently_with silently_sendRest

end Send

/-! ### Sending a chunk -/

/-- The receipts are all decided, or they are the unknown ones of the items. -/
def AllOrNone (context : CommandContext) (operation : CommandOperation)
    (identities : List BatchIdentity) (receipts : List CommandReceipt) : Prop :=
  (∀ receipt ∈ receipts, receipt.status ≠ .unknownExecution) ∨
    receipts = identities.map (unknownCommandReceipt context operation)

/-- The classifier makes up no receipt of unknown execution. -/
def Decides (classifier : BatchClassifier) : Prop :=
  ∀ catalog payload receipts, classifier catalog payload = .ok receipts →
    ∀ receipt ∈ receipts, receipt.status ≠ .unknownExecution

/-- The receipts that are classified one by one. -/
theorem not_unknown_of_mapM {β : Type} {f : β → Except MarketError CommandReceipt} {items : List β}
    {receipts : List CommandReceipt} (h : items.mapM f = .ok receipts)
    (hf : ∀ item receipt, f item = .ok receipt → receipt.Decided) :
    ∀ receipt ∈ receipts, receipt.status ≠ .unknownExecution := by
  intro receipt hreceipt
  obtain ⟨item, -, hitem⟩ := exists_of_forall₂_mem (mapM_eq_ok_iff.1 h) hreceipt
  exact (hf _ _ hitem).not_unknown

theorem decides_binance {operation : CommandOperation} {requestIds : List (Option RequestId)} :
    Decides (classifyBinanceBatchPayload · operation · requestIds) := by
  intro catalog payload receipts h
  unfold classifyBinanceBatchPayload at h
  dsimp only at h
  split at h
  · cases h
  · split at h
    · cases h
    · exact not_unknown_of_mapM h fun _ _ => Binance.decided_classifyReply

theorem decides_bybit {context : LiveContext} {operation : CommandOperation}
    {identities : List BatchIdentity} :
    Decides (classifyBybitBatchPayload context · operation · identities) := by
  intro catalog payload receipts h receipt hreceipt
  unfold classifyBybitBatchPayload at h
  dsimp only at h
  split at h
  · cases h
  · split at h
    · cases h
    · split at h
      · cases h
      · obtain rfl := Except.ok.inj h
        obtain ⟨index, hindex, rfl⟩ := List.mem_mapIdx.1 hreceipt
        unfold bybitItemReceipt
        dsimp only
        split <;> nofun

theorem decides_mexc {operation : CommandOperation} {requestIds : List (Option RequestId)} :
    Decides fun _ payload => classifyMexcBatchPayload operation payload requestIds := by
  intro catalog payload receipts h
  unfold classifyMexcBatchPayload at h
  dsimp only at h
  split at h
  · cases h
  · split at h
    · cases h
    · split at h
      · cases h
      · exact not_unknown_of_mapM h fun _ _ => Mexc.decided_classifyReply

section Batch

variable {context : CommandContext} {operation : CommandOperation}
  {identities : List BatchIdentity} {classifier : BatchClassifier} {request : RestCommand}
  {frame : WsCommand} {unsupported : String}

theorem silently_sendBatchRest (hdecides : Decides classifier) :
    Silently (AllOrNone context operation identities)
      (sendBatchRest context operation identities classifier request) := by
  refine (silently_call (q := .rest request) trivial).attempt fun (reply, catalog) _ => ?_
  cases reply with
  | ok payload => exact yields_ofExcept fun receipts h => .inl (hdecides _ _ _ h)
  | error e =>
    dsimp only
    split
    · exact yields_pure (.inr rfl)
    · exact yields_throw _

theorem silently_sendBatch (hdecides : Decides classifier) :
    Silently (fun sent => AllOrNone context operation identities sent.1)
      (sendBatch context unsupported operation identities classifier frame request) := by
  have hrest : Silently (fun sent => AllOrNone context operation identities sent.1) (do
      return (← sendBatchRest context operation identities classifier request,
        CommandTransport.rest)) :=
    (silently_sendBatchRest hdecides).attempt fun _ h => yields_pure h
  unfold sendBatch
  split
  · refine (silently_call (q := .ws frame) trivial).attempt fun (reply, catalog) _ => ?_
    cases reply with
    | ok payload =>
      refine Yields.attempt (P := AllOrNone context operation identities)
        (yields_ofExcept fun receipts h => .inl (hdecides _ _ _ h)) fun receipts h => ?_
      exact yields_pure h
    | error e =>
      cases e with
      | uncertain e => exact yields_pure (.inr rfl)
      | unavailable e =>
        dsimp only
        split
        · exact yields_throw _
        · exact hrest
  · split
    · exact yields_throw_bind _
    · exact hrest

end Batch

/-! ### The other commands -/

section Account

variable {context : CommandContext}

theorem silently_cancelInstrument (instrumentId : InstrumentId) :
    Silently (fun _ => True) (cancelInstrument context instrumentId) := by
  unfold cancelInstrument
  refine (silently_commandSpec _).attempt fun spec _ => ?_
  refine (silently_restText _).attempt fun _ _ => ?_
  exact (silently_restText _).attempt fun _ _ => yields_pure trivial

theorem silently_sendCancelAllOrders (request : CancelAllOrdersRequest) :
    Silently (fun receipt => receipt.status ≠ .unknownExecution)
      (sendCancelAllOrders context request) := by
  unfold sendCancelAllOrders
  split
  · refine (silently_commandSpec _).attempt fun spec _ => ?_
    refine (silently_restText _).attempt fun (payload, catalog) _ => ?_
    exact (silently_restText _).attempt fun _ _ => silently_classify_some
  · refine silently_readState.attempt fun state _ => ?_
    refine (yields_each fun i _ => silently_cancelInstrument i).attempt fun _ _ => ?_
    exact yields_pure nofun
  · exact (silently_commandSpec _).attempt fun spec _ => silently_sendRestOrFail
  · exact silently_sendRestOrFail
  · exact (silently_commandSpec _).attempt fun spec _ => silently_sendRestOrFail
  · exact silently_sendRestOrFail

theorem silently_sendValidateOrder (spec : InstrumentSpec) (order : CreateOrderRequest) :
    Silently (fun _ => True) (sendValidateOrder context spec order) := by
  unfold sendValidateOrder
  split
  · exact (silently_restText _).attempt fun _ _ => yields_pure trivial
  · exact (silently_restText _).attempt fun _ _ => yields_pure trivial
  · exact yields_throw _

theorem silently_mexcChangeLeverageBodies (instrumentId : InstrumentId) (leverage : String)
    (marginMode : Option MarginMode) :
    Silently (fun _ => True)
      (mexcChangeLeverageBodies context instrumentId leverage marginMode) := by
  unfold mexcChangeLeverageBodies
  refine (silently_commandSpec _).attempt fun spec _ => ?_
  refine Yields.attempt (P := fun _ => True) (yields_ofExcept fun _ _ => trivial) fun _ _ => ?_
  exact silently_readState.attempt fun state _ => yields_pure trivial

theorem silently_mexcChangeLeverage {operation : CommandOperation} {requestId : Option RequestId}
    {name : String} (bodies : List Json) :
    Silently (fun _ => True) (mexcChangeLeverage context operation requestId name bodies) := by
  unfold mexcChangeLeverage
  refine Yields.attempt (P := fun _ => True) ?_ fun receipts _ => yields_pure trivial
  exact yields_each fun body _ => silently_sendRest.mono fun _ _ => trivial

theorem silently_mexcFetchCurrentLeverage (instrumentId : InstrumentId) :
    Silently (fun _ => True) (mexcFetchCurrentLeverage context instrumentId) := by
  unfold mexcFetchCurrentLeverage
  refine silently_readState.attempt fun state _ => ?_
  split
  · exact yields_pure trivial
  · refine (silently_commandSpec _).attempt fun spec _ => ?_
    refine (silently_restText _).attempt fun (payload, catalog) _ => ?_
    exact yields_ofExcept fun _ _ => trivial

theorem silently_sendSetLeverage (spec : InstrumentSpec) (request : SetLeverageRequest) :
    Silently (fun _ => True) (sendSetLeverage context spec request) := by
  unfold sendSetLeverage
  dsimp only
  split
  · exact silently_sendRest.mono fun _ _ => trivial
  · exact silently_sendRest.mono fun _ _ => trivial
  · refine (silently_mexcChangeLeverageBodies _ _ _).attempt fun bodies _ => ?_
    exact silently_mexcChangeLeverage bodies

theorem silently_sendSetMarginMode (request : SetMarginModeRequest) :
    Silently (fun _ => True) (sendSetMarginMode context request) := by
  unfold sendSetMarginMode
  split
  · exact (silently_commandSpec _).attempt fun spec _ =>
      silently_sendRest.mono fun _ _ => trivial
  · exact silently_sendRest.mono fun _ _ => trivial
  · refine (silently_mexcFetchCurrentLeverage _).attempt fun leverage _ => ?_
    refine (silently_mexcChangeLeverageBodies _ _ _).attempt fun bodies _ => ?_
    exact silently_mexcChangeLeverage bodies

theorem silently_sendSetPositionMode (request : SetPositionModeRequest) :
    Silently (fun receipt => receipt.status ≠ .unknownExecution)
      (sendSetPositionMode context request) := by
  unfold sendSetPositionMode
  split
  · exact silently_sendRestOrFail
  · dsimp only
    split
    · refine (silently_commandSpec _).attempt fun spec _ => ?_
      exact (yields_pure (P := fun _ => True) trivial).attempt fun scope _ =>
        silently_sendRestOrFail
    · exact silently_sendRestOrFail
  · exact silently_sendRestOrFail

end Account

end BatMarkets
