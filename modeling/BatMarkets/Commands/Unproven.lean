import BatMarkets.Commands.Outcome

/-!
# Outcomes that prove nothing

The eight commands that send single orders or change the settings of an account, seen as programs
that end with a receipt.  `SingleCommand.finishes` says of each that its verdict follows from the
signs of the run, and that a receipt of unknown execution has a recovery on its way.

## Main results

* `unproven_recovered_iff` : a run of a command recovers from all outcomes that prove nothing, and
  fails only when nothing was executed, exactly when its signs are `Conclusive` for the command.
* `transport_error_not_recovered` : a transport error of `set_position_mode` is returned as an
  error.
-/

namespace BatMarkets

open CommandM Interleaving Prog Wire

/-- The commands that end with one receipt. -/
inductive SingleCommand
  | createOrder (request : CreateOrderRequest)
  | amendOrder (request : AmendOrderRequest)
  | cancelOrder (request : CancelOrderRequest)
  | closePosition (request : ClosePositionRequest)
  | cancelAllOrders (request : CancelAllOrdersRequest)
  | setLeverage (request : SetLeverageRequest)
  | setMarginMode (request : SetMarginModeRequest)
  | setPositionMode (request : SetPositionModeRequest)

namespace SingleCommand

/-- What the command does. -/
def operation : SingleCommand → CommandOperation
  | .createOrder _ => .createOrder
  | .amendOrder _ => .amendOrder
  | .cancelOrder _ => .cancelOrder
  | .closePosition _ => .closePosition
  | .cancelAllOrders _ => .cancelAllOrders
  | .setLeverage _ => .setLeverage
  | .setMarginMode _ => .setMarginMode
  | .setPositionMode _ => .setPositionMode

/-- The id that the caller gave the request. -/
def requestId : SingleCommand → Option RequestId
  | .createOrder request => request.requestId
  | .amendOrder request => request.requestId
  | .cancelOrder request => request.requestId
  | .closePosition request => request.requestId
  | .cancelAllOrders request => request.requestId
  | .setLeverage request => request.requestId
  | .setMarginMode request => request.requestId
  | .setPositionMode request => request.requestId

/-- The command does not fail on an outcome that is not certain. -/
def tolerant : SingleCommand → Bool
  | .cancelAllOrders _ | .setPositionMode _ => false
  | _ => true

/-- The command, with the receipt at its end. -/
def run (context : CommandContext) : SingleCommand → CommandE CommandReceipt
  | .createOrder request => do return (← BatMarkets.createOrder context request).receipt
  | .amendOrder request => do return (← BatMarkets.amendOrder context request).receipt
  | .cancelOrder request => do return (← BatMarkets.cancelOrder context request).receipt
  | .closePosition request => do return (← BatMarkets.closePosition context request).receipt
  | .cancelAllOrders request => BatMarkets.cancelAllOrders context request
  | .setLeverage request => BatMarkets.setLeverage context request
  | .setMarginMode request => BatMarkets.setMarginMode context request
  | .setPositionMode request => BatMarkets.setPositionMode context request

/-- The signs of a run of the command. -/
def signs (command : SingleCommand) (context : CommandContext)
    (τ : List (Event CommandCall CommandReply)) : List Sign :=
  τ.filterMap (signOf context.venue command.operation command.requestId)

end SingleCommand

/-- An outcome that proves nothing is recovered from, and the command fails only when nothing was
executed. -/
structure Recovers (os : List Sign) (r : Except Failure CommandReceipt) : Prop where
  unproven : .write .uncertain ∈ os ∨ .write .undecodable ∈ os ∨ (∃ read, .serverError read ∈ os) →
    ∃ receipt, r = .ok receipt ∧ receipt.status = .unknownExecution ∧
      ∃ ack : CommandAck, ack.receipt = receipt ∧ .recovery ack ∈ os
  failed : ∀ e, r = .error e → ∀ o, .write o ∈ os →
    o = .notWritten ∨ o = .refused ∨ o = .rejected

/-- Every reply can be decoded, and no websocket reply reports an error of the server; a command that
is not tolerant has no outcome that is not certain; nothing is left open or done when a request is
refused or an instrument is unknown; and nothing is rejected besides an outcome that is not
certain. -/
structure Conclusive (tolerant : Bool) (os : List Sign) : Prop where
  decodable : .write .undecodable ∉ os
  served : ∀ read, .serverError read ∉ os
  certain : tolerant = false → .write .uncertain ∉ os
  whole : .write .refused ∈ os ∨ .unknownInstrument ∈ os →
    .write .uncertain ∉ os ∧ .write .accepted ∉ os
  unmixed : .write .uncertain ∈ os → .write .rejected ∉ os

/-! ### Programs that end with a receipt -/

section Finishes

variable {α β : Type} {obs : Event CommandCall CommandReply → Option Sign} {tolerant : Bool}
  {receiptOf : β → CommandReceipt}

/-- The program is judged by its signs, and recovers from an execution that is not known. -/
def Finishes (obs : Event CommandCall CommandReply → Option Sign) (tolerant : Bool)
    (receiptOf : α → CommandReceipt) (x : CommandE α) : Prop :=
  x.run.Reports obs fun os r => Judges tolerant os (statusOf (fun a => (receiptOf a).status) r) ∧
    ∀ a, r = .ok a → (receiptOf a).status = .unknownExecution →
      ∃ ack : CommandAck, ack.receipt = receiptOf a ∧ .recovery ack ∈ os

theorem Prepares.finishes {x : CommandE α} {f : α → CommandE β} (hx : Prepares obs x)
    (hf : ∀ a, Finishes obs tolerant receiptOf (f a)) :
    Finishes obs tolerant receiptOf (x >>= f) := by
  unfold Finishes
  refine Reports.attempt hx (fun os a ha => ?_) fun os e he => ?_
  · rw [ha.2 a rfl]
    simp only [List.append_nil]
    exact hf a
  · exact ⟨judges_of_no_write he.1, fun a ha => by cases ha⟩

theorem finishes_ofExcept {x : Except MarketError α} {f : α → CommandE β}
    (h : ∀ a, x = .ok a → Finishes obs tolerant receiptOf (f a)) :
    Finishes obs tolerant receiptOf (ofExcept x >>= f) := by
  cases x with
  | ok a => exact h a rfl
  | error e =>
    refine reports_ret ⟨judges_of_no_write fun o ho => ?_, fun a ha => by cases ha⟩
    cases ho

/-- A request has been judged, and its receipt is delivered. -/
theorem Judged.finishes {status : α → CommandStatus} {x : CommandE α} {f : α → CommandE β}
    (hx : Judged obs tolerant status x)
    (hf : ∀ a, ∃ receipt : CommandReceipt, receipt.status = status a ∧
      Delivers obs receiptOf receipt (f a)) :
    Finishes obs tolerant receiptOf (x >>= f) := by
  unfold Finishes
  refine Reports.attempt hx (fun os a ha => ?_) fun os e he => ?_
  · obtain ⟨receipt, hstatus, hdelivers⟩ := hf a
    refine hdelivers.mono fun os' r hr => ?_
    obtain ⟨b, rfl, hb, ack, hack, rfl⟩ := hr
    have hverdict : statusOf (fun b => (receiptOf b).status) (.ok b : Except Failure β) =
        statusOf status (.ok a : Except Failure α) := by
      simp only [statusOf, Except.toOption, Option.map, hb, hstatus]
    refine ⟨?_, fun c hc hunknown => ?_⟩
    · rw [hverdict]
      refine ha.congr (fun o => ?_) (fun read => ?_) ?_
      · split <;> simp
      · split <;> simp
      · split <;> simp
    · obtain rfl : b = c := Except.ok.inj hc
      rw [hb] at hunknown ⊢
      exact ⟨ack, hack, by simp [hunknown]⟩
  · exact ⟨he, fun a ha => by cases ha⟩

theorem Finishes.map_ok {receiptOf' : α → CommandReceipt} {x : CommandE α} {g : α → β}
    (h : Finishes obs tolerant receiptOf' x) (hg : ∀ a, receiptOf (g a) = receiptOf' a) :
    Finishes obs tolerant receiptOf (x >>= fun a => pure (g a)) := by
  refine Reports.map_ok h fun os r hr => ?_
  cases r with
  | ok a =>
    refine ⟨?_, fun b hb => ?_⟩
    · simpa only [statusOf, Except.map, Except.toOption, Option.map, hg] using hr.1
    · obtain rfl : g a = b := Except.ok.inj hb
      rw [hg]
      exact hr.2 a rfl
  | error e => exact ⟨hr.1, fun b hb => by cases hb⟩

/-- What the signs of a run show when it recovers. -/
theorem recovers_iff_conclusive {os : List Sign} {r : Except Failure CommandReceipt}
    (hjudges : Judges tolerant os (statusOf (·.status) r))
    (hrecovery : ∀ receipt, r = .ok receipt → receipt.status = .unknownExecution →
      ∃ ack : CommandAck, ack.receipt = receipt ∧ .recovery ack ∈ os) :
    Recovers os r ↔ Conclusive tolerant os := by
  constructor
  · intro h
    -- an outcome that proves nothing leaves a receipt
    have hsome : .write .uncertain ∈ os ∨ .write .undecodable ∈ os →
        statusOf (·.status) r ≠ none := by
      intro ho hnone
      obtain ⟨receipt, rfl, -⟩ := h.unproven (ho.imp_right .inl)
      cases hnone
    refine ⟨fun ho => ?_, fun read hread => ?_, fun ht ho => ?_, fun ho => ?_, fun ho => ?_⟩
    · exact hsome (.inr ho) (hjudges.undecodable ho)
    · obtain ⟨receipt, rfl, hunknown, -⟩ := h.unproven (.inr (.inr ⟨read, hread⟩))
      exact hjudges.serverError read hread (congrArg some hunknown)
    · exact hsome (.inl ho) (hjudges.intolerant ht ho)
    · have hnone := hjudges.refused ho
      cases r with
      | ok receipt => cases hnone
      | error e =>
        refine ⟨fun hu => ?_, fun ha => ?_⟩
        · exact hsome (.inl hu) hnone
        · simpa using h.failed e rfl _ ha
    · obtain ⟨receipt, rfl, hunknown, -⟩ := h.unproven (.inl ho)
      exact (hjudges.uncertain ho _ rfl).1 hunknown
  · intro h
    have hfailed : statusOf (·.status) r = none →
        (.write .refused ∈ os ∨ .unknownInstrument ∈ os) ∨ ∀ o, .write o ∈ os → o = .notWritten := by
      intro hnone
      rcases hjudges.failed hnone with ho | ho | ⟨ht, ho⟩ | ⟨read, hread⟩ | ho
      · exact absurd ho h.decodable
      · exact .inl ho
      · exact absurd ho (h.certain ht)
      · exact absurd hread (h.served read)
      · exact .inr ho
    refine ⟨fun ho => ?_, ?_⟩
    · have hu : .write .uncertain ∈ os := by
        rcases ho with ho | ho | ⟨read, hread⟩
        · exact ho
        · exact absurd ho h.decodable
        · exact absurd hread (h.served read)
      cases r with
      | error e =>
        rcases hfailed rfl with ho | ho
        · exact absurd hu (h.whole ho).1
        · cases ho _ hu
      | ok receipt =>
        have hunknown := (hjudges.uncertain hu _ rfl).2 (h.unmixed hu)
        exact ⟨receipt, rfl, hunknown, hrecovery receipt rfl hunknown⟩
    · rintro e rfl o ho
      rcases hfailed rfl with hr | hr
      · obtain ⟨hu, ha⟩ := h.whole hr
        cases o
        case uncertain => exact absurd ho hu
        case accepted => exact absurd ho ha
        case undecodable => exact absurd ho h.decodable
        all_goals simp
      · exact .inl (hr o ho)

end Finishes

/-! ### The commands about orders -/

section Orders

variable {context : CommandContext} {venue : Venue} {operation : CommandOperation}
  {requestId : Option RequestId}

/-- A command whose outcome is not known is remembered before its receipt is passed on. -/
theorem delivers_cacheAndApply {receipt : CommandReceipt} {transport : CommandTransport}
    {cached : CommandOperation} {instrumentId : InstrumentId} {orderId : Option OrderId}
    {clientOrderId : Option ClientOrderId} :
    Delivers (signOf venue operation requestId) (·.receipt) receipt (do
      cachePendingUnknown receipt cached instrumentId orderId clientOrderId
      applyCommandReceipt receipt transport) := by
  have hcache : (cachePendingUnknown receipt cached instrumentId orderId
      clientOrderId).run.Reports (signOf venue operation requestId)
      fun os r => os = [] ∧ r = .ok () := by
    unfold cachePendingUnknown
    by_cases hs : receipt.status = .unknownExecution
    · simp only [hs, if_true]
      refine reports_perform fun recordedAt => reports_call fun _ => reports_ret ?_
      exact ⟨by simp [signOf], rfl⟩
    · simp only [hs, if_false]
      exact reports_ret ⟨rfl, rfl⟩
  unfold Delivers
  refine Reports.attempt hcache (fun os a ha => ?_) fun os e he => by cases he.2
  rw [ha.1]
  simp only [List.append_nil]
  exact delivers_applyCommandReceipt

theorem prepares_validateCreateOrder (request : CreateOrderRequest) :
    Prepares (signOf venue operation requestId) (validateCreateOrder context request) :=
  (prepares_commandSpec _).attempt fun _ => .of_quiet (quiet_ret _)

theorem prepares_mexcCreateBody {build : LiveContext → InstrumentSpec → List Position →
    CreateOrderRequest → Except MarketError Json} {request : CreateOrderRequest} :
    Prepares (signOf venue operation requestId) (mexcCreateBody context build request) :=
  (prepares_commandSpec _).attempt fun _ => prepares_readState.attempt fun _ =>
    prepares_ofExcept _

theorem judged_sendCreateOrder (request : CreateOrderRequest) :
    Judged (signOf context.venue .createOrder request.requestId) true (·.1.status)
      (sendCreateOrder context request) := by
  generalize hobs : signOf context.venue .createOrder request.requestId = obs
  unfold sendCreateOrder
  cases hv : context.venue <;> dsimp only
  case binance =>
    subst hobs
    refine (prepares_commandSpec _).judged fun spec => ?_
    split
    · exact judged_sendRestOnly (by simp)
    · exact judged_sendCommand (by simp)
  case bybit =>
    subst hobs
    refine (prepares_commandSpec _).judged fun spec => ?_
    exact judged_sendCommand (by simp)
  case mexc =>
    subst hobs
    by_cases hw : context.websocketOnly = true
    · simp only [hw, if_true]
      exact (prepares_throw _).judged fun _ => prepares_mexcCreateBody.judged fun _ =>
        judged_withTransport (judged_sendRest (by simp))
    · simp only [hw]
      exact prepares_mexcCreateBody.judged fun _ =>
        judged_withTransport (judged_sendRest (by simp))

theorem finishes_createOrder (request : CreateOrderRequest) :
    Finishes (signOf context.venue .createOrder request.requestId) true (·.receipt)
      (createOrder context request) := by
  unfold createOrder
  refine (prepares_validateCreateOrder _).finishes fun _ => ?_
  exact (judged_sendCreateOrder request).finishes fun (receipt, transport) =>
    ⟨hydrateCreateReceipt receipt request, rfl, delivers_cacheAndApply⟩

theorem prepares_validateAmendOrder (request : AmendOrderRequest) :
    Prepares (signOf venue operation requestId) (validateAmendOrder context request) := by
  unfold validateAmendOrder
  refine (prepares_commandSpec _).attempt fun _ => (prepares_ofExcept _).attempt fun _ => ?_
  split
  · exact prepares_throw _
  · exact prepares_pure _

theorem prepares_resolveOrderForAmend (request : AmendOrderRequest) :
    Prepares (signOf venue operation requestId) (resolveOrderForAmend context request) := by
  unfold resolveOrderForAmend
  refine prepares_readState.attempt fun state => ?_
  cases state.orders.find? (amendTarget request) with
  | some order => exact prepares_pure order
  | none => exact prepares_liftRuntime (prepares_getOrder _)

theorem judged_sendAmendOrder (request : AmendOrderRequest) :
    Judged (signOf context.venue .amendOrder request.requestId) true (·.1.status)
      (sendAmendOrder context request) := by
  generalize hobs : signOf context.venue .amendOrder request.requestId = obs
  unfold sendAmendOrder
  cases hv : context.venue <;> dsimp only
  case binance =>
    subst hobs
    refine (prepares_commandSpec _).judged fun spec => ?_
    refine (prepares_resolveOrderForAmend _).judged fun current => ?_
    exact (prepares_ofExcept _).judged fun pairs => judged_sendCommand (by simp)
  case bybit =>
    subst hobs
    refine (prepares_commandSpec _).judged fun spec => ?_
    exact (prepares_ofExcept _).judged fun pairs => judged_sendCommand (by simp)
  case mexc => exact judged_throw _

theorem finishes_amendOrder (request : AmendOrderRequest) :
    Finishes (signOf context.venue .amendOrder request.requestId) true (·.receipt)
      (amendOrder context request) := by
  unfold amendOrder
  refine (prepares_validateAmendOrder _).finishes fun _ => ?_
  exact (judged_sendAmendOrder request).finishes fun (receipt, transport) =>
    ⟨hydrateAmendReceipt receipt request, rfl, delivers_cacheAndApply⟩

theorem judged_sendCancelOrder (spec : InstrumentSpec) (request : CancelOrderRequest) :
    Judged (signOf context.venue .cancelOrder request.requestId) true (·.1.status)
      (sendCancelOrder context spec request) := by
  generalize hobs : signOf context.venue .cancelOrder request.requestId = obs
  unfold sendCancelOrder
  cases hv : context.venue <;> dsimp only
  case binance =>
    subst hobs
    split
    · by_cases hw : context.websocketOnly = true
      · simp only [hw, if_true]
        exact (prepares_throw _).judged fun _ => (prepares_ofExcept _).judged fun _ =>
          judged_withTransport (judged_sendRest (by simp))
      · simp only [hw]
        exact (prepares_ofExcept _).judged fun _ =>
          judged_withTransport (judged_sendRest (by simp))
    · exact (prepares_ofExcept _).judged fun _ => judged_sendCommand (by simp)
  case bybit =>
    subst hobs
    exact (prepares_ofExcept _).judged fun _ => judged_sendCommand (by simp)
  case mexc =>
    subst hobs
    by_cases hw : context.websocketOnly = true
    · simp only [hw, if_true]
      exact (prepares_throw _).judged fun _ => (prepares_ofExcept _).judged fun (path, body) =>
        judged_withTransport (judged_sendRest (by simp))
    · simp only [hw]
      exact (prepares_ofExcept _).judged fun (path, body) =>
        judged_withTransport (judged_sendRest (by simp))

theorem finishes_cancelOrder (request : CancelOrderRequest) :
    Finishes (signOf context.venue .cancelOrder request.requestId) true (·.receipt)
      (cancelOrder context request) := by
  unfold cancelOrder
  refine (prepares_commandSpec _).finishes fun spec => ?_
  exact (judged_sendCancelOrder spec request).finishes fun (receipt, transport) =>
    ⟨hydrateCancelReceipt receipt request, rfl, delivers_cacheAndApply⟩

theorem prepares_resolveClosePosition (request : ClosePositionRequest) :
    Prepares (signOf venue operation requestId) (resolveClosePosition context request) := by
  unfold resolveClosePosition
  refine prepares_readState.attempt fun state => ?_
  split
  · exact prepares_pure _
  · refine (prepares_liftRuntime prepares_refreshPositions).attempt fun refreshed => ?_
    split
    · exact prepares_pure _
    · exact prepares_throw _

theorem judged_sendCloseOrder (request : CreateOrderRequest) :
    Judged (signOf context.venue .closePosition request.requestId) true (·.1.status)
      (sendCloseOrder context request) := by
  generalize hobs : signOf context.venue .closePosition request.requestId = obs
  unfold sendCloseOrder
  cases hv : context.venue <;> dsimp only
  case mexc =>
    subst hobs
    by_cases hw : context.websocketOnly = true
    · simp only [hw, if_true]
      exact (prepares_throw _).judged fun _ => prepares_mexcCreateBody.judged fun _ =>
        judged_withTransport (judged_sendRest (by simp))
    · simp only [hw]
      exact prepares_mexcCreateBody.judged fun _ =>
        judged_withTransport (judged_sendRest (by simp))
  all_goals
    subst hobs
    refine (prepares_commandSpec _).judged fun spec => ?_
    split
    · exact judged_sendWebSocket (by simp)
    · exact judged_withTransport (judged_sendRest (by simp))

theorem closeRequest_requestId {request : ClosePositionRequest} {position : Position}
    {order : CreateOrderRequest} (h : closeRequest request position = .ok order) :
    order.requestId = request.requestId := by
  obtain ⟨side, quantity, rfl⟩ := closeRequest_eq_ok h
  rfl

theorem finishes_closePosition (request : ClosePositionRequest) :
    Finishes (signOf context.venue .closePosition request.requestId) true (·.receipt)
      (closePosition context request) := by
  unfold closePosition
  refine (prepares_resolveClosePosition _).finishes fun position => ?_
  refine finishes_ofExcept fun order hclose => ?_
  rw [← closeRequest_requestId hclose]
  refine (prepares_validateCreateOrder _).finishes fun _ => ?_
  exact (judged_sendCloseOrder order).finishes fun (receipt, transport) =>
    ⟨receipt, rfl, delivers_cacheAndApply⟩

end Orders

/-! ### The commands about settings -/

section Settings

variable {context : CommandContext} {venue : Venue} {operation : CommandOperation}
  {requestId : Option RequestId}

theorem delivers_finishReceipt {receipt : CommandReceipt} :
    Delivers (signOf venue operation requestId) id receipt (finishReceipt receipt) := by
  refine Reports.map_ok delivers_applyCommandReceipt fun os r hr => ?_
  obtain ⟨ack, rfl, -, hr⟩ := hr
  exact ⟨receipt, rfl, rfl, hr⟩

/-- A command whose receipt is passed on as it is. -/
theorem finishes_finishReceipt {tolerant : Bool} {x : CommandE CommandReceipt}
    (hx : Judged (signOf venue operation requestId) tolerant (·.status) x) :
    Finishes (signOf venue operation requestId) tolerant id (do finishReceipt (← x)) :=
  hx.finishes fun receipt => ⟨receipt, rfl, delivers_finishReceipt⟩

/-- What has been sent in a row, and the receipts of it. -/
structure SentInRow (os : List Sign) (r : Except Failure (List CommandReceipt)) : Prop where
  writes : ∀ s ∈ os, ∃ o : WriteOutcome, s = .write o ∧ o ≠ .notWritten
  receipts : ∀ receipts, r = .ok receipts →
    (∀ o, .write o ∈ os → ∃ receipt ∈ receipts, o.verdict true = some receipt.status) ∧
      ∀ receipt ∈ receipts, ∃ o, .write o ∈ os ∧ o.verdict true = some receipt.status
  failed : ∀ e, r = .error e → ∃ o, .write o ∈ os ∧ o.verdict true = none

theorem reports_mapM_sendRest {bodies : List Json} {request : Json → RestCommand}
    (hmethod : ∀ body, (request body).method ≠ .get) :
    (bodies.mapM fun body => sendRest context operation requestId (request body)).run.Reports
      (signOf context.venue operation requestId) SentInRow := by
  induction bodies with
  | nil =>
    refine reports_ret ⟨by simp, fun receipts hr => ?_, fun e he => by cases he⟩
    obtain rfl : [] = receipts := Except.ok.inj hr
    simp
  | cons body bodies ih =>
    rw [List.mapM_cons]
    refine Reports.attempt (reports_sendRest (hmethod body)) (fun os receipt hr => ?_)
      fun os e he => ?_
    · obtain ⟨o, hne, rfl, hverdict⟩ := hr
      have hverdict : o.verdict true = some receipt.status := hverdict.symm
      refine Reports.map_ok ih fun os r hr => ⟨?_, ?_, ?_⟩
      · simp only [List.mem_append, List.mem_singleton]
        rintro s (hs | rfl)
        · exact hr.writes s hs
        · exact ⟨o, rfl, hne⟩
      · intro receipts heq
        cases r with
        | error e => cases heq
        | ok rest =>
          obtain rfl : receipt :: rest = receipts := Except.ok.inj heq
          obtain ⟨hwrites, hreceipts⟩ := hr.receipts rest rfl
          refine ⟨fun o' ho' => ?_, fun receipt' hmem => ?_⟩
          · simp only [List.mem_append, List.mem_singleton, Sign.write.injEq] at ho'
            rcases ho' with ho' | rfl
            · obtain ⟨receipt', hmem, hv⟩ := hwrites o' ho'
              exact ⟨receipt', by simp [hmem], hv⟩
            · exact ⟨receipt, by simp, hverdict⟩
          · rcases List.mem_cons.1 hmem with rfl | hmem
            · exact ⟨o, by simp, hverdict⟩
            · obtain ⟨o', ho', hv⟩ := hreceipts receipt' hmem
              exact ⟨o', by simp [ho'], hv⟩
      · intro e heq
        cases r with
        | ok rest => cases heq
        | error e' =>
          obtain ⟨o', ho', hv⟩ := hr.failed e' rfl
          exact ⟨o', by simp [ho'], hv⟩
    · obtain ⟨o, hne, rfl, hverdict⟩ := he
      refine ⟨?_, fun receipts hr => (by cases hr), fun _ _ => ⟨o, by simp, hverdict.symm⟩⟩
      simp only [List.mem_singleton]
      rintro s rfl
      exact ⟨o, rfl, hne⟩

theorem mexcMergeCommandReceipts_status {receipts : List CommandReceipt}
    (h : ∃ receipt ∈ receipts, receipt.status = .unknownExecution) :
    (mexcMergeCommandReceipts context operation requestId receipts).status = .unknownExecution ↔
      ∀ receipt ∈ receipts, receipt.status ≠ .rejected := by
  unfold mexcMergeCommandReceipts
  cases hr : receipts.find? (·.status = .rejected) with
  | some receipt =>
    have hrejected : receipt.status = .rejected := by simpa using List.find?_some hr
    have hmem := List.mem_of_find?_eq_some hr
    simp only [Option.some_or, Option.getD_some, hrejected]
    exact ⟨fun h => (by cases h), fun h => absurd hrejected (h receipt hmem)⟩
  | none =>
    have hnone : ∀ receipt ∈ receipts, receipt.status ≠ .rejected := by simpa using hr
    cases hu : receipts.find? (·.status = .unknownExecution) with
    | none =>
      obtain ⟨receipt, hmem, hunknown⟩ := h
      have hno := List.find?_eq_none.1 hu receipt hmem
      simp [hunknown] at hno
    | some receipt =>
      have hunknown : receipt.status = .unknownExecution := by simpa using List.find?_some hu
      simp only [Option.none_or, Option.some_or, Option.getD_some, hunknown, true_iff]
      exact hnone

theorem SentInRow.judges {os : List Sign} {r : Except Failure (List CommandReceipt)}
    (h : SentInRow os r) : Judges true os (statusOf (·.status)
      (r.map (mexcMergeCommandReceipts context operation requestId))) := by
  -- all parts are answered writes
  have hunknown : .unknownInstrument ∉ os := by
    intro hmem
    obtain ⟨o, ho, -⟩ := h.writes _ hmem
    cases ho
  have hserver : ∀ read, .serverError read ∉ os := by
    intro read hmem
    obtain ⟨o, ho, -⟩ := h.writes _ hmem
    cases ho
  cases r with
  | error e =>
    obtain ⟨o, ho, hverdict⟩ := h.failed e rfl
    refine ⟨fun _ => rfl, fun _ => rfl, fun _ _ => rfl, fun _ => ?_, fun _ _ => nofun,
      fun _ s hs => by cases hs⟩
    obtain ⟨o', ho', hne⟩ := h.writes _ ho
    obtain rfl : o = o' := by cases ho'; rfl
    cases o <;> simp_all [WriteOutcome.verdict]
  | ok receipts =>
    obtain ⟨hwrites, hreceipts⟩ := h.receipts receipts rfl
    -- a part that was answered has a receipt, and thus a verdict
    have hverdict : ∀ o : WriteOutcome, o.verdict true = none → .write o ∉ os := by
      intro o hnone ho
      obtain ⟨receipt, -, hsome⟩ := hwrites o ho
      rw [hnone] at hsome
      cases hsome
    refine ⟨fun ho => absurd ho (hverdict _ rfl), ?_, fun ht => (by cases ht),
      fun hnone => (by cases hnone), fun read hread => absurd hread (hserver read),
      fun ho s hs => ?_⟩
    · rintro (ho | ho)
      · exact absurd ho (hverdict _ rfl)
      · exact absurd ho hunknown
    · obtain rfl : _ = s := Option.some.inj hs
      obtain ⟨receipt, hmem, hr⟩ := hwrites _ ho
      have hstatus : receipt.status = .unknownExecution := (Option.some.inj hr).symm
      rw [mexcMergeCommandReceipts_status ⟨receipt, hmem, hstatus⟩]
      constructor
      · intro hall hrejected
        obtain ⟨receipt', hmem', hr'⟩ := hwrites _ hrejected
        exact hall receipt' hmem' (Option.some.inj hr').symm
      · intro hrejected receipt' hmem' hstatus'
        obtain ⟨o, ho', hr'⟩ := hreceipts receipt' hmem'
        rw [hstatus'] at hr'
        cases o <;> simp_all [WriteOutcome.verdict]

theorem judged_mexcChangeLeverage {name : String} {bodies : List Json} :
    Judged (signOf context.venue operation requestId) true (·.status)
      (mexcChangeLeverage context operation requestId name bodies) :=
  Reports.map_ok (reports_mapM_sendRest fun _ => by simp) fun _ _ h => h.judges

theorem prepares_mexcChangeLeverageBodies {instrumentId : InstrumentId} {leverage : String}
    {marginMode : Option MarginMode} :
    Prepares (signOf venue operation requestId)
      (mexcChangeLeverageBodies context instrumentId leverage marginMode) := by
  refine (prepares_commandSpec _).attempt fun _ => (prepares_ofExcept _).attempt fun _ => ?_
  exact prepares_readState.attempt fun _ => prepares_pure _

theorem judged_sendSetLeverage (spec : InstrumentSpec) (request : SetLeverageRequest) :
    Judged (signOf context.venue .setLeverage request.requestId) true (·.status)
      (sendSetLeverage context spec request) := by
  generalize hobs : signOf context.venue .setLeverage request.requestId = obs
  unfold sendSetLeverage
  cases hv : context.venue <;> dsimp only <;> subst hobs
  case mexc => exact prepares_mexcChangeLeverageBodies.judged fun _ => judged_mexcChangeLeverage
  all_goals exact judged_sendRest (by simp)

theorem finishes_setLeverage (request : SetLeverageRequest) :
    Finishes (signOf context.venue .setLeverage request.requestId) true id
      (setLeverage context request) := by
  unfold setLeverage
  refine (prepares_commandSpec _).finishes fun spec => ?_
  exact finishes_finishReceipt (judged_sendSetLeverage spec request)

/-- A query writes nothing. -/
theorem prepares_restText {request : RestCommand} (hmethod : request.method = .get) :
    Prepares (signOf venue operation requestId) (restText request) := by
  refine (prepares_perform fun _ => by simp [signOf, hmethod]).attempt fun (reply, catalog) => ?_
  cases reply with
  | ok payload => exact prepares_pure _
  | error e => exact prepares_throw _

theorem prepares_mexcFetchCurrentLeverage {instrumentId : InstrumentId} :
    Prepares (signOf venue operation requestId)
      (mexcFetchCurrentLeverage context instrumentId) := by
  unfold mexcFetchCurrentLeverage
  refine prepares_readState.attempt fun state => ?_
  split
  · exact prepares_pure _
  · refine (prepares_commandSpec _).attempt fun spec => ?_
    exact (prepares_restText rfl).attempt fun _ => prepares_ofExcept _

theorem judged_sendSetMarginMode (request : SetMarginModeRequest) :
    Judged (signOf context.venue .setMarginMode request.requestId) true (·.status)
      (sendSetMarginMode context request) := by
  generalize hobs : signOf context.venue .setMarginMode request.requestId = obs
  unfold sendSetMarginMode
  cases hv : context.venue <;> dsimp only <;> subst hobs
  case binance => exact (prepares_commandSpec _).judged fun _ => judged_sendRest (by simp)
  case bybit => exact judged_sendRest (by simp)
  case mexc =>
    refine prepares_mexcFetchCurrentLeverage.judged fun leverage => ?_
    exact prepares_mexcChangeLeverageBodies.judged fun _ => judged_mexcChangeLeverage

theorem finishes_setMarginMode (request : SetMarginModeRequest) :
    Finishes (signOf context.venue .setMarginMode request.requestId) true id
      (setMarginMode context request) := by
  unfold setMarginMode
  refine (judged_sendSetMarginMode request).finishes fun receipt => ⟨receipt, rfl, ?_⟩
  split
  · refine reports_perform fun _ => ?_
    exact delivers_finishReceipt.mono fun os r hr => by simpa [signOf] using hr
  · exact delivers_finishReceipt

theorem judged_sendSetPositionMode (request : SetPositionModeRequest) :
    Judged (signOf context.venue .setPositionMode request.requestId) false (·.status)
      (sendSetPositionMode context request) := by
  generalize hobs : signOf context.venue .setPositionMode request.requestId = obs
  unfold sendSetPositionMode
  cases hv : context.venue <;> dsimp only <;> subst hobs
  case bybit =>
    cases request.instrumentId with
    | some instrumentId =>
      exact (prepares_commandSpec _).judged fun _ => judged_sendRestOrFail (by simp)
    | none => exact judged_sendRestOrFail (by simp)
  all_goals exact judged_sendRestOrFail (by simp)

theorem finishes_setPositionMode (request : SetPositionModeRequest) :
    Finishes (signOf context.venue .setPositionMode request.requestId) false id
      (setPositionMode context request) :=
  finishes_finishReceipt (judged_sendSetPositionMode request)

end Settings

/-! ### Cancelling all orders -/

section CancelAll

variable {α β γ : Type} {obs : Event CommandCall CommandReply → Option Sign}

/-- The sign of a request that has no reply the adapter can decode, or of none at all, or of an error
of the server. -/
def Sign.Fails (s : Sign) : Prop :=
  s = .write .undecodable ∨ (s = .write .refused ∨ s = .unknownInstrument) ∨
    s = .write .uncertain ∨ ∃ read, s = .serverError read

/-- All requests have been replied to, in a way the adapter can decode. -/
def AllReplied (os : List Sign) : Prop := ∀ s ∈ os, ¬ s.Fails

theorem allReplied_append {os os' : List Sign} :
    AllReplied (os ++ os') ↔ AllReplied os ∧ AllReplied os' := by
  unfold AllReplied
  simp only [List.mem_append]
  exact ⟨fun h => ⟨fun s hs => h s (.inl hs), fun s hs => h s (.inr hs)⟩,
    fun h s hs => hs.elim (h.1 s) (h.2 s)⟩

/-- The program fails unless all its requests have been replied to. -/
def Checks (obs : Event CommandCall CommandReply → Option Sign) (x : CommandE α) : Prop :=
  x.run.Reports obs fun os r => (∃ a, r = .ok a) ↔ AllReplied os

theorem checks_of_ok {x : CommandE α} (h : ∃ a, x = pure a) : Checks obs x := by
  obtain ⟨a, rfl⟩ := h
  exact reports_ret ⟨fun _ s hs => (by cases hs), fun _ => ⟨a, rfl⟩⟩

theorem Checks.attempt {x : CommandE α} {f : α → CommandE β} (hx : Checks obs x)
    (hf : ∀ a, Checks obs (f a)) : Checks obs (x >>= f) := by
  unfold Checks
  refine Reports.attempt hx (fun os a ha => (hf a).mono fun os' r hr => ?_) fun os e he => ?_
  · rw [allReplied_append, hr]
    exact ⟨fun h => ⟨h, ha.1 ⟨a, rfl⟩⟩, fun h => h.1⟩
  · refine ⟨fun ⟨a, ha⟩ => (by cases ha), fun h => ?_⟩
    obtain ⟨a, ha⟩ := he.2 h
    cases ha

theorem checks_mapM {f : γ → CommandE α} {cs : List γ} (h : ∀ c, Checks obs (f c)) :
    Checks obs (cs.mapM f) := by
  induction cs with
  | nil => exact checks_of_ok ⟨[], rfl⟩
  | cons c cs ih =>
    rw [List.mapM_cons]
    exact (h c).attempt fun a => ih.attempt fun as => checks_of_ok ⟨_, rfl⟩

/-- A program that fails unless all is replied to may not go on with an outcome that is not
certain. -/
theorem Checks.judged {x : CommandE α} (h : Checks obs x) (status : α → CommandStatus) :
    Judged obs false status x := by
  refine Reports.mono h fun os r hr => ?_
  by_cases hall : AllReplied os
  · obtain ⟨a, rfl⟩ := hr.2 hall
    refine ⟨fun ho => absurd (.inl rfl) (hall _ ho), ?_,
      fun _ ho => absurd (.inr (.inr (.inl rfl))) (hall _ ho), fun hnone => (by cases hnone),
      fun read ho => absurd (.inr (.inr (.inr ⟨read, rfl⟩))) (hall _ ho),
      fun ho => absurd (.inr (.inr (.inl rfl))) (hall _ ho)⟩
    rintro (ho | ho)
    · exact absurd (.inr (.inl (.inl rfl))) (hall _ ho)
    · exact absurd (.inr (.inl (.inr rfl))) (hall _ ho)
  · cases r with
    | ok a => exact absurd (hr.1 ⟨a, rfl⟩) hall
    | error e =>
      refine ⟨fun _ => rfl, fun _ => rfl, fun _ _ => rfl, fun _ => ?_, fun _ _ => nofun,
        fun _ s hs => by cases hs⟩
      unfold AllReplied at hall
      push Not at hall
      obtain ⟨s, hs, rfl | (rfl | rfl) | rfl | ⟨read, rfl⟩⟩ := hall
      · exact .inl hs
      · exact .inr (.inl (.inl hs))
      · exact .inr (.inl (.inr hs))
      · exact .inr (.inr (.inl ⟨rfl, hs⟩))
      · exact .inr (.inr (.inr (.inl ⟨read, hs⟩)))

variable {context : CommandContext} {requestId : Option RequestId} {request : RestCommand}

theorem checks_commandSpec {operation : CommandOperation} (instrumentId : InstrumentId) :
    Checks (signOf context.venue operation requestId) (commandSpec context instrumentId) := by
  refine reports_call fun reply => ?_
  cases reply with
  | none =>
    refine reports_ret ⟨fun ⟨a, ha⟩ => (by cases ha), fun hall => ?_⟩
    exact absurd (.inr (.inl (.inr rfl))) (hall .unknownInstrument (by simp [signOf]))
  | some spec => exact reports_ret ⟨fun _ s hs => by simp [signOf] at hs, fun _ => ⟨spec, rfl⟩⟩

/-- Binance's reply to a request to cancel all orders can always be decoded. -/
theorem classifyCommand_cancelAllOrders (requestId : Option RequestId)
    (catalog : InstrumentCatalog) (payload : Payload) :
    ∃ receipt,
      classifyCommand .binance catalog .cancelAllOrders (some payload) requestId = .ok receipt := by
  unfold classifyCommand Binance.classifyReply
  dsimp only
  split
  · exact ⟨_, rfl⟩
  · exact ⟨_, rfl⟩

theorem replyOutcome_cancelAllOrders {catalog : InstrumentCatalog} {payload : Payload} :
    ¬ (Sign.write (replyOutcome .binance .cancelAllOrders requestId catalog payload)).Fails := by
  obtain ⟨receipt, hr⟩ := classifyCommand_cancelAllOrders requestId catalog payload
  unfold replyOutcome Sign.Fails
  rw [hr]
  dsimp only
  split <;> simp

theorem checks_restText (hvenue : context.venue = .binance) (hmethod : request.method ≠ .get) :
    Checks (signOf context.venue .cancelAllOrders requestId) (restText request) := by
  refine reports_perform fun reply => ?_
  obtain ⟨reply, catalog⟩ := reply
  cases reply with
  | ok payload =>
    refine reports_ret ⟨fun _ s hs => ?_, fun _ => ⟨_, rfl⟩⟩
    obtain rfl : s = .write (replyOutcome .binance .cancelAllOrders requestId catalog payload) := by
      simpa [signOf, hmethod, hvenue] using hs
    exact replyOutcome_cancelAllOrders
  | error e =>
    refine reports_ret ⟨fun hok => (by obtain ⟨a, ha⟩ := hok; cases ha), fun hall => ?_⟩
    by_cases hu : isUncertainCommandError e = true
    · exact absurd (.inr (.inr (.inl rfl)))
        (hall (.write .uncertain) (by simp [signOf, hmethod, hu]))
    · exact absurd (.inr (.inl (.inl rfl)))
        (hall (.write .refused) (by simp [signOf, hmethod, hu]))

theorem checks_cancelInstrument (hvenue : context.venue = .binance) (instrumentId : InstrumentId) :
    Checks (signOf context.venue .cancelAllOrders requestId)
      (cancelInstrument context instrumentId) := by
  unfold cancelInstrument
  refine (checks_commandSpec _).attempt fun spec => ?_
  refine (checks_restText hvenue (by simp [binanceCancelAll])).attempt fun _ => ?_
  exact (checks_restText hvenue (by simp [binanceCancelAllAlgo])).attempt fun _ =>
    checks_of_ok ⟨(), rfl⟩

theorem judged_sendCancelAllOrders (request : CancelAllOrdersRequest) :
    Judged (signOf context.venue .cancelAllOrders request.requestId) false (·.status)
      (sendCancelAllOrders context request) := by
  generalize hobs : signOf context.venue .cancelAllOrders request.requestId = obs
  unfold sendCancelAllOrders
  cases hv : context.venue <;> cases hi : request.instrumentId <;> dsimp only <;> subst hobs
  case binance.some instrumentId =>
    refine Checks.judged ?_ _
    refine (checks_commandSpec _).attempt fun spec => ?_
    refine (checks_restText hv (by simp [binanceCancelAll])).attempt fun (payload, catalog) => ?_
    refine (checks_restText hv (by simp [binanceCancelAllAlgo])).attempt fun _ => ?_
    obtain ⟨receipt, hr⟩ := classifyCommand_cancelAllOrders request.requestId catalog payload
    refine checks_of_ok ⟨receipt, ?_⟩
    rw [classify, hv, hr]
    rfl
  case binance.none =>
    refine prepares_readState.judged fun state => Checks.judged ?_ _
    exact (checks_mapM fun i => checks_cancelInstrument hv i).attempt fun _ =>
      checks_of_ok ⟨_, rfl⟩
  case bybit.some instrumentId =>
    exact (prepares_commandSpec _).judged fun _ => judged_sendRestOrFail (by simp)
  case mexc.some instrumentId =>
    exact (prepares_commandSpec _).judged fun _ => judged_sendRestOrFail (by simp)
  case bybit.none | mexc.none => exact judged_sendRestOrFail (by simp)

theorem finishes_cancelAllOrders (request : CancelAllOrdersRequest) :
    Finishes (signOf context.venue .cancelAllOrders request.requestId) false id
      (cancelAllOrders context request) := by
  unfold cancelAllOrders
  by_cases hw : context.websocketOnly = true
  · simp only [hw, if_true]
    exact (prepares_throw _).finishes fun _ =>
      finishes_finishReceipt (judged_sendCancelAllOrders request)
  · simp only [hw]
    exact finishes_finishReceipt (judged_sendCancelAllOrders request)

end CancelAll

/-! ### All commands -/

variable {context : CommandContext}

/-- Every command is judged by its signs. -/
theorem SingleCommand.finishes (command : SingleCommand) :
    Finishes (signOf context.venue command.operation command.requestId) command.tolerant id
      (command.run context) := by
  cases command with
  | createOrder request => exact (finishes_createOrder request).map_ok fun _ => rfl
  | amendOrder request => exact (finishes_amendOrder request).map_ok fun _ => rfl
  | cancelOrder request => exact (finishes_cancelOrder request).map_ok fun _ => rfl
  | closePosition request => exact (finishes_closePosition request).map_ok fun _ => rfl
  | cancelAllOrders request => exact finishes_cancelAllOrders request
  | setLeverage request => exact finishes_setLeverage request
  | setMarginMode request => exact finishes_setMarginMode request
  | setPositionMode request => exact finishes_setPositionMode request

/-- A run recovers from all outcomes that prove nothing, and fails only when nothing was executed,
exactly when its signs are conclusive. -/
theorem unproven_recovered_iff (command : SingleCommand) {τ : List (Event CommandCall CommandReply)}
    {r : Except Failure CommandReceipt} (hrun : (command.run context).run.Ends [] τ r) :
    Recovers (command.signs context τ) r ↔
      Conclusive command.tolerant (command.signs context τ) := by
  have h := command.finishes.of_ends hrun
  exact recovers_iff_conclusive h.1 h.2

/-! ### Requests without a reply -/

/-- A request got no reply. -/
def transportError : MarketError where
  kind := .transportError
  message := "connection reset"

/-- BTC on Bybit. -/
def bybitLeveraged : InstrumentSpec := .active .bybit "BTC/USDT:USDT" "BTCUSDT" 2 3

/-- The run of a command over a connection that breaks. -/
def silentTrace (venue : Venue) (command : SingleCommand) : List (Event CommandCall CommandReply) :=
  execTrace (staticReply bybitLeveraged (.error transportError))
    (command.run (restContext venue)).run () []

/-- How the command ends when no request is answered. -/
def silentResult (venue : Venue) (command : SingleCommand) : Except Failure CommandReceipt :=
  (exec (staticReply bybitLeveraged (.error transportError))
    (command.run (restContext venue)).run ()).1

/-- The position mode of Binance, over a connection that breaks, is an error. -/
theorem transport_error_not_recovered :
    ¬ ∀ (context : CommandContext) (command : SingleCommand)
      (τ : List (Event CommandCall CommandReply)) (r : Except Failure CommandReceipt),
      (command.run context).run.Ends [] τ r → Recovers (command.signs context τ) r := by
  intro h
  have hrecovers := h (restContext .binance) (.setPositionMode ⟨none, none, .hedge⟩)
    (silentTrace .binance _) (silentResult .binance _) (ends_exec _)
  obtain ⟨receipt, hr, -⟩ := hrecovers.unproven (.inl (by decide))
  cases hr

/-- The leverage of BTC on Bybit, over a connection that breaks, is recovered from. -/
theorem unproven_recovered_iff_silent :
    let command : SingleCommand := .setLeverage ⟨none, ⟨"BTC/USDT:USDT"⟩, ⟨.ofNat 10⟩⟩
    Recovers (command.signs (restContext .bybit) (silentTrace .bybit command))
      (silentResult .bybit command) := by
  intro command
  refine (unproven_recovered_iff command (ends_exec _)).2 ?_
  refine ⟨by decide, fun read => ?_, fun h => (by cases h), by decide, by decide⟩
  cases read with
  | none => decide
  | some status => cases status <;> decide

end BatMarkets
