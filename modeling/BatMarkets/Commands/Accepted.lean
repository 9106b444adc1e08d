import BatMarkets.Commands.Unproven
import BatMarkets.Commands.Root

/-!
# Replies that say a command was accepted

The adapters read a reply to a command field by field, and most fields may be missing.  On Binance
an error and a success have the same fields, a code and a message; the errors are tried first.  On
Bybit a code that is missing counts as 0, which is the code of a success, and the reply to the
check of an order is not read at all.

## Main results

* `Binance.classified_by_code_iff` : when the code of a reply decides as the venue means it.
* `Bybit.accepted_with_code_iff` : when a reply is accepted only with the code of a success.
-/

namespace BatMarkets

open CommandM Interleaving Prog Wire

/-! ### Binance -/

namespace Binance

/-- The reply with a code and a message. -/
def codeReply (code : Int) (message : String) : Payload :=
  .json (.object [("code", .integer code), ("msg", .string message)])

/-- The commands that the venue replies to with code 200 when it has executed them. -/
def codeOperations : List CommandOperation := [.setMarginMode, .setPositionMode, .cancelAllOrders]

/-- The commands about one order. -/
def orderOperations : List CommandOperation :=
  [.createOrder, .amendOrder, .cancelOrder, .closePosition]

/-- The reply, or its result, names an order. -/
def NamesOrder (value : Json) : Prop :=
  (∃ part, (part = value ∨ value.get? "result" = some part) ∧ (orderResponse part).isSome) ∨
    (algoOrderSnapshot value).isSome ∨ (cancelAlgoOrderResponse value).isSome

/-- The reply is an error, or has one in its field. -/
def HasError (value : Json) : Prop :=
  (errorResponse value).isSome ∨ ∃ error, value.get? "error" = some error ∧
    (errorResponse error).isSome

/-- The receipt for the reply has the status. -/
def RepliedWith (catalog : InstrumentCatalog) (operation : CommandOperation)
    (requestId : Option RequestId) (payload : Payload) (status : CommandStatus) : Prop :=
  ∃ receipt, classifyCommand .binance catalog operation (some payload) requestId = .ok receipt ∧
    receipt.status = status

/-- The code of the reply decides, and orders are accepted by their identity. -/
structure ClassifiedByCode (catalog : InstrumentCatalog) (operation : CommandOperation)
    (requestId : Option RequestId) (code : Int) (message : String) : Prop where
  rejected : code < 0 →
    RepliedWith catalog operation requestId (codeReply code message) .rejected
  accepted : code = 200 → operation ∈ codeOperations →
    RepliedWith catalog operation requestId (codeReply code message) .accepted
  identified : operation ∈ orderOperations → ∀ payload,
    RepliedWith catalog operation requestId payload .accepted →
      ∃ value, payload = .json value ∧ NamesOrder value ∧ ¬ HasError value

theorem reportedError_eq_none {value : Json} : reportedError value = none ↔ ¬ HasError value := by
  unfold reportedError HasError
  rw [Option.or_eq_none_iff, Option.bind_eq_none_iff]
  simp only [Option.isSome_iff_ne_none, not_or, not_exists, not_and, not_not]
  exact and_comm

theorem namesOrder_of_commandIdentity {value : Json} (h : (commandIdentity value).isSome) :
    NamesOrder value := by
  unfold commandIdentity at h
  dsimp only at h
  split at h
  next horder =>
    left
    cases hresult : value.get? "result" with
    | none =>
      rw [hresult] at horder
      exact ⟨value, .inl rfl, by simp [horder]⟩
    | some result =>
      rw [hresult] at horder
      exact ⟨result, .inr rfl, by simp [horder]⟩
  next halgo => exact .inr (.inl (by simp [halgo]))
  next hcancel => exact .inr (.inr (by simp [hcancel]))
  next => cases h

/-- An order is accepted only if the reply names one, and has no error. -/
theorem namesOrder_of_accepted {catalog : InstrumentCatalog} {operation : CommandOperation}
    {requestId : Option RequestId} {payload : Payload} (hop : operation ∈ orderOperations)
    (h : RepliedWith catalog operation requestId payload .accepted) :
    ∃ value, payload = .json value ∧ NamesOrder value ∧ ¬ HasError value := by
  obtain ⟨receipt, h, hstatus⟩ := h
  unfold classifyCommand classifyReply at h
  dsimp only at h
  split at h
  · obtain rfl := Except.ok.inj h
    cases hstatus
  next herror =>
    have hidentity : (payload.value?.bind commandIdentity).isSome := by
      simp only [orderOperations, List.mem_cons, List.not_mem_nil, or_false] at hop
      rcases hop with rfl | rfl | rfl | rfl
      all_goals
        dsimp only at h
        split at h
        · cases h
        next hsome => simp [hsome]
    cases payload with
    | text text => cases hidentity
    | json value =>
      exact ⟨value, rfl, namesOrder_of_commandIdentity hidentity, reportedError_eq_none.1 herror⟩

theorem reportedError_codeReply (code : Int) (message : String) :
    (codeReply code message).value?.bind reportedError =
      if -2 ^ 63 ≤ code ∧ code < 2 ^ 63 then some (code, message) else none := by
  show (Json.asI64 (.integer code)).bind (fun code => some (code, message)) = _
  unfold Json.asI64
  dsimp only
  split <;> rfl

/-- A reply with a code that fits is an error, whatever the code. -/
theorem rejected_codeReply {catalog : InstrumentCatalog} {operation : CommandOperation}
    {requestId : Option RequestId} {code : Int} {message : String}
    (h : -2 ^ 63 ≤ code ∧ code < 2 ^ 63) :
    classifyCommand .binance catalog operation (some (codeReply code message)) requestId =
      .ok (.plain .binance operation .rejected requestId (some message) (some (toString code))
        false) := by
  unfold classifyCommand classifyReply
  simp only [reportedError_codeReply, if_pos h]

/-- The code of a reply that does not fit is not read. -/
theorem not_rejected_codeReply {catalog : InstrumentCatalog} {operation : CommandOperation}
    {requestId : Option RequestId} {code : Int} {message : String} (h : code < -2 ^ 63) :
    ¬ RepliedWith catalog operation requestId (codeReply code message) .rejected := by
  rintro ⟨receipt, hreceipt, hstatus⟩
  have herror : (codeReply code message).value?.bind reportedError = none := by
    rw [reportedError_codeReply, if_neg (by omega)]
  have hidentity : (codeReply code message).value?.bind commandIdentity = none := rfl
  unfold classifyCommand classifyReply at hreceipt
  simp only [herror, hidentity] at hreceipt
  cases operation <;> dsimp only at hreceipt
  case createOrder | amendOrder | cancelOrder | closePosition | getOrder => cases hreceipt
  case setLeverage => cases hreceipt
  case setMarginMode =>
    split at hreceipt
    · cases hreceipt
    · obtain rfl := Except.ok.inj hreceipt
      cases hstatus
  all_goals
    obtain rfl := Except.ok.inj hreceipt
    cases hstatus

/-- The code of a reply decides as the venue means it, unless it is the code of a success, or an
error whose code does not fit into 64 bits. -/
theorem classified_by_code_iff (catalog : InstrumentCatalog) (operation : CommandOperation)
    (requestId : Option RequestId) (code : Int) (message : String) :
    ClassifiedByCode catalog operation requestId code message ↔
      -2 ^ 63 ≤ code ∧ ¬ (code = 200 ∧ operation ∈ codeOperations) := by
  constructor
  · intro h
    refine ⟨?_, ?_⟩
    · by_contra hlow
      exact not_rejected_codeReply (by omega) (h.rejected (by omega))
    · rintro ⟨rfl, hop⟩
      obtain ⟨receipt, hreceipt, hstatus⟩ := h.accepted rfl hop
      rw [rejected_codeReply (by omega)] at hreceipt
      obtain rfl := Except.ok.inj hreceipt
      cases hstatus
  · rintro ⟨hlow, hcode⟩
    refine ⟨fun hneg => ?_, fun h200 hop => absurd ⟨h200, hop⟩ hcode, fun hop payload h => ?_⟩
    · exact ⟨_, rejected_codeReply (by omega), rfl⟩
    · exact namesOrder_of_accepted hop h

/-- The reply to a margin mode that has been set is taken for an error. -/
theorem success_rejected :
    ¬ ∀ (catalog : InstrumentCatalog) (operation : CommandOperation)
      (requestId : Option RequestId) (code : Int) (message : String),
      code = 200 → operation ∈ codeOperations →
        RepliedWith catalog operation requestId (codeReply code message) .accepted := by
  intro h
  obtain ⟨receipt, hreceipt, hstatus⟩ :=
    h (.new []) .setMarginMode none 200 "success" rfl (by decide)
  have hrejected : classifyCommand .binance (.new []) .setMarginMode
      (some (codeReply 200 "success")) none = .ok (.plain .binance .setMarginMode .rejected none
        (some "success") (some "200") false) := rfl
  rw [hrejected] at hreceipt
  obtain rfl := Except.ok.inj hreceipt
  cases hstatus

end Binance

/-! ### Bybit -/

namespace Bybit

/-- The code that the reply has, if it can be read. -/
def retCode? (value : Json) : Option Int := (value.get? "retCode").bind asCode

/-- The code that a reply to a batch has for an item, if it can be read. -/
def itemCode? (value : Json) (index : ℕ) : Option Int :=
  ((listOf value "retExtInfo")[index]?.bind (·.get? "code")).bind asCode

/-- The reply has the code of a success. -/
def CarriesSuccess (payload : Payload) : Prop :=
  ∃ value, payload = .json value ∧ retCode? value = some 0

/-- Each item has a receipt, and is accepted only with the code of a success. -/
structure ProvenBatch (payload : Payload) (identities : List BatchIdentity)
    (receipts : List CommandReceipt) : Prop where
  ordered : receipts.map (·.requestId) = identities.map (·.requestId)
  accepted : ∀ (index : ℕ) receipt, receipts[index]? = some receipt → receipt.status = .accepted →
    ∃ value, payload = .json value ∧ itemCode? value index = some 0 ∧
      index < (listOf value "result").length

/-- The reply is refused as a whole, or has a code for each item, and a result for each item if one
of these codes is that of a success. -/
def ReportsItems (payload : Payload) (identities : List BatchIdentity) : Prop :=
  ∀ value, payload = .json value → (retCode? value).getD 0 = 0 →
    (listOf value "result" = [] ∨ (listOf value "result").length = identities.length) →
      ∀ index < identities.length, ∃ code, itemCode? value index = some code ∧
        (code = 0 → listOf value "result" ≠ [])

variable {context : LiveContext} {catalog : InstrumentCatalog} {operation : CommandOperation}
  {identities : List BatchIdentity} {payload : Payload}

/-- The receipts of a batch, and when there are any. -/
theorem classifyBybitBatchPayload_eq_ok {receipts : List CommandReceipt} :
    classifyBybitBatchPayload context catalog operation payload identities = .ok receipts ↔
      ∃ value, payload = .json value ∧ (retCode? value).getD 0 = 0 ∧
        (listOf value "result" = [] ∨ (listOf value "result").length = identities.length) ∧
        receipts = identities.mapIdx fun index identity =>
          bybitItemReceipt context catalog operation value identity
            (listOf value "result")[index]? (listOf value "retExtInfo")[index]? := by
  constructor
  · intro h
    unfold classifyBybitBatchPayload at h
    dsimp only at h
    split at h
    · cases h
    split at h
    · cases h
    next hcode =>
      split at h
      · cases h
      next hcount =>
        obtain rfl := Except.ok.inj h
        exact ⟨_, rfl, not_not.1 hcode, by tauto, rfl⟩
  · rintro ⟨value, rfl, hcode, hcount, rfl⟩
    have hcount' : ¬ (listOf value "result" ≠ [] ∧
        (listOf value "result").length ≠ identities.length) := by tauto
    have hcode' : ¬ ((value.get? "retCode").bind asCode).getD 0 ≠ 0 := not_not.2 hcode
    unfold classifyBybitBatchPayload
    dsimp only
    rw [if_neg hcode', if_neg hcount']
    rfl

theorem bybitItemReceipt_accepted {value : Json} {identity : BatchIdentity} {index : ℕ}
    {result : Option Json} :
    (bybitItemReceipt context catalog operation value identity result
        (listOf value "retExtInfo")[index]?).status = .accepted ↔
      (itemCode? value index).getD 0 = 0 := by
  unfold bybitItemReceipt itemCode?
  dsimp only
  split
  next h => exact ⟨fun _ => h, fun _ => rfl⟩
  next h => exact ⟨fun hstatus => (by cases hstatus), fun h' => absurd h' h⟩

/-- A batch is accepted only with the codes of a success exactly when the reply reports its
items. -/
theorem provenBatch_iff :
    (∀ receipts, classifyBybitBatchPayload context catalog operation payload identities =
        .ok receipts → ProvenBatch payload identities receipts) ↔
      ReportsItems payload identities := by
  constructor
  · intro h value hvalue hcode hcount index hindex
    subst hvalue
    have hproven := h _ (classifyBybitBatchPayload_eq_ok.2 ⟨value, rfl, hcode, hcount, rfl⟩)
    have hreceipt := List.getElem?_mapIdx (l := identities) (i := index)
      (f := fun index identity => bybitItemReceipt context catalog operation value identity
        (listOf value "result")[index]? (listOf value "retExtInfo")[index]?)
    rw [List.getElem?_eq_getElem hindex] at hreceipt
    have hitem : (itemCode? value index).getD 0 = 0 →
        itemCode? value index = some 0 ∧ index < (listOf value "result").length := by
      intro hzero
      obtain ⟨_, heq, haccepted, hresult⟩ := hproven.accepted index _ hreceipt
        (bybitItemReceipt_accepted.2 hzero)
      obtain rfl := Payload.json.inj heq
      exact ⟨haccepted, hresult⟩
    cases hitemCode : itemCode? value index with
    | none =>
      have hproof := hitem (by rw [hitemCode]; rfl)
      rw [hitemCode] at hproof
      cases hproof.1
    | some code =>
      refine ⟨code, rfl, fun hzero hnil => ?_⟩
      have hproof := hitem (by rw [hitemCode]; exact hzero)
      rw [hnil] at hproof
      exact Nat.not_lt_zero _ hproof.2
  · intro h receipts hreceipts
    obtain ⟨value, rfl, hcode, hcount, rfl⟩ := classifyBybitBatchPayload_eq_ok.1 hreceipts
    refine ⟨?_, fun index receipt hreceipt haccepted => ⟨value, rfl, ?_⟩⟩
    · refine List.ext_getElem (by simp) fun index h₁ h₂ => ?_
      simp [bybitItemReceipt]
    · rw [List.getElem?_mapIdx, Option.map_eq_some_iff] at hreceipt
      obtain ⟨identity, hidentity, rfl⟩ := hreceipt
      obtain ⟨hindex, -⟩ := List.getElem?_eq_some_iff.1 hidentity
      obtain ⟨code, hitemCode, hresult⟩ := h value rfl hcode hcount index hindex
      have hzero := bybitItemReceipt_accepted.1 haccepted
      rw [hitemCode] at hzero
      obtain rfl : code = 0 := hzero
      refine ⟨hitemCode, ?_⟩
      rw [hcount.resolve_left (hresult rfl)]
      exact hindex

/-- Every JSON reply has a receipt. -/
theorem exists_receipt (catalog : InstrumentCatalog) (operation : CommandOperation) (value : Json)
    (requestId : Option RequestId) :
    ∃ receipt, classifyCommand .bybit catalog operation (some (.json value)) requestId =
        .ok receipt ∧
      (receipt.status = .accepted ↔ (retCode? value).getD 0 = 0) := by
  unfold classifyCommand classifyReply
  dsimp only
  by_cases hcode : (retCode? value).getD 0 = 0
  · have hcode' : ¬ ((value.get? "retCode").bind asCode).getD 0 ≠ 0 := not_not.2 hcode
    rw [if_neg hcode']
    cases operation <;> exact ⟨_, rfl, iff_of_true rfl hcode⟩
  · have hcode' : ((value.get? "retCode").bind asCode).getD 0 ≠ 0 := hcode
    rw [if_pos hcode']
    exact ⟨_, rfl, iff_of_false (fun h => by cases h) hcode⟩

/-- A command is accepted only with the code of a success exactly when the reply has a code. -/
theorem carriesSuccess_iff {requestId : Option RequestId} :
    (∀ receipt, classifyCommand .bybit catalog operation (some payload) requestId = .ok receipt →
        receipt.status = .accepted → CarriesSuccess payload) ↔
      ∀ value, payload = .json value → (retCode? value).isSome := by
  constructor
  · intro h value hvalue
    subst hvalue
    obtain ⟨receipt, hreceipt, haccepted⟩ :=
      exists_receipt catalog operation value requestId
    cases hcode : retCode? value with
    | some code => rfl
    | none =>
      obtain ⟨_, heq, hzero⟩ := h receipt hreceipt (haccepted.2 (by rw [hcode]; rfl))
      obtain rfl := Payload.json.inj heq
      rw [hcode] at hzero
      cases hzero
  · intro h receipt hreceipt haccepted
    cases payload with
    | text text => cases hreceipt
    | json value =>
      obtain ⟨receipt', hreceipt', haccepted'⟩ :=
        exists_receipt catalog operation value requestId
      obtain rfl := Except.ok.inj (hreceipt.symm.trans hreceipt')
      obtain ⟨code, hcode⟩ := Option.isSome_iff_exists.1 (h value rfl)
      have hzero := haccepted'.1 haccepted
      rw [hcode] at hzero
      obtain rfl : code = 0 := hzero
      exact ⟨value, rfl, hcode⟩

/-! ### Checking an order on Bybit -/

/-- The reply to the check of an order. -/
def preCheckReply : Event CommandCall CommandReply → Option Payload
  | ⟨.rest request, reply⟩ =>
    if request.path = "/v5/order/pre-check" then reply.1.toOption else none
  | _ => none

/-- The receipt of a checked order is accepted only with the code of a success. -/
def ProvenCheck (τ : List (Event CommandCall CommandReply)) (r : Except Failure CommandReceipt) :
    Prop :=
  ∀ receipt, r = .ok receipt → receipt.status = .accepted →
    ∃ payload ∈ τ.filterMap preCheckReply, CarriesSuccess payload

variable {context : CommandContext}

theorem reports_finishReceipt_preCheck {receipt : CommandReceipt} :
    (finishReceipt receipt).run.Reports preCheckReply fun os r => os = [] ∧ r = .ok receipt :=
  reports_finishReceipt (by rintro q r (_ | _ | _ | _) <;> rfl)

theorem quiet_commandSpec_preCheck (instrumentId : InstrumentId) :
    (commandSpec context instrumentId).run.Quiet preCheckReply := by
  refine quiet_call (fun reply => rfl) fun reply => ?_
  cases reply <;> exact quiet_ret _

/-- The call that checks the order, and its reply. -/
theorem reports_sendValidateOrder (hvenue : context.venue = .bybit) (spec : InstrumentSpec)
    (order : CreateOrderRequest) :
    (sendValidateOrder context spec order).run.Reports preCheckReply fun os r =>
      (os = [] ∧ ∃ e, r = .error e) ∨ ∃ payload, os = [payload] ∧ r = .ok () := by
  unfold sendValidateOrder restText
  rw [hvenue]
  refine reports_perform fun (reply, catalog) => ?_
  cases reply with
  | ok payload => exact reports_ret (.inr ⟨payload, rfl, rfl⟩)
  | error e => exact reports_ret (.inl ⟨rfl, _, rfl⟩)

/-- An order that is checked gets a receipt for every reply, and an error without a reply. -/
theorem reports_validateOrder (hvenue : context.venue = .bybit) (request : ValidateOrderRequest) :
    (validateOrder context request).run.Reports preCheckReply fun os r =>
      (os = [] ∧ ∃ e, r = .error e) ∨
        ∃ payload receipt, os = [payload] ∧ r = .ok receipt ∧ receipt.status = .accepted := by
  have hcheck : (validateCreateOrder context request.order).run.Quiet preCheckReply := by
    refine Reports.quiet_attempt (quiet_commandSpec_preCheck _) (fun spec => ?_) fun e => rfl
    exact quiet_ret _
  unfold validateOrder
  refine Reports.quiet_attempt hcheck (fun _ => ?_) fun e => .inl ⟨rfl, e, rfl⟩
  refine Reports.quiet_attempt (quiet_commandSpec_preCheck _) (fun spec => ?_)
    fun e => .inl ⟨rfl, e, rfl⟩
  refine Reports.attempt (reports_sendValidateOrder hvenue spec request.order)
    (fun os a hsent => ?_) fun os e hsent => ?_
  · rcases hsent with ⟨-, e, he⟩ | ⟨payload, rfl, -⟩
    · cases he
    · refine reports_finishReceipt_preCheck.mono fun os r hr => ?_
      obtain ⟨rfl, rfl⟩ := hr
      exact .inr ⟨payload, _, rfl, rfl, rfl⟩
  · rcases hsent with ⟨rfl, -⟩ | ⟨payload, -, he⟩
    · exact .inl ⟨rfl, e, rfl⟩
    · cases he

/-- An order is checked only with the code of a success exactly when every reply to the check has
this code. -/
theorem provenCheck_iff (hvenue : context.venue = .bybit) {request : ValidateOrderRequest}
    {τ : List (Event CommandCall CommandReply)} {r : Except Failure CommandReceipt}
    (hrun : (validateOrder context request).run.Ends [] τ r) :
    ProvenCheck τ r ↔ ∀ payload ∈ τ.filterMap preCheckReply, CarriesSuccess payload := by
  have hreports := (reports_validateOrder hvenue request).of_ends hrun
  unfold ProvenCheck
  rcases hreports with ⟨hnone, e, rfl⟩ | ⟨payload, receipt, hsome, rfl, haccepted⟩
  · rw [hnone]
    exact iff_of_true (fun receipt h => by cases h) (fun payload h => by cases h)
  · rw [hsome]
    constructor
    · intro h payload' hpayload'
      obtain ⟨_, hmem, hsuccess⟩ := h receipt rfl haccepted
      rw [List.mem_singleton] at hmem hpayload'
      rw [hpayload', ← hmem]
      exact hsuccess
    · intro h _ _ _
      exact ⟨payload, List.mem_singleton_self payload, h payload (List.mem_singleton_self payload)⟩

/-- **Bybit replies that are accepted with proof.**  For every reply to a batch and to a single
command, and every run that checks an order. -/
theorem accepted_with_code_iff (hvenue : context.venue = .bybit) (catalog : InstrumentCatalog)
    (operation : CommandOperation) (identities : List BatchIdentity)
    (requestId : Option RequestId) (payload : Payload) {request : ValidateOrderRequest}
    {τ : List (Event CommandCall CommandReply)} {r : Except Failure CommandReceipt}
    (hrun : (validateOrder context request).run.Ends [] τ r) :
    ((∀ receipts, classifyBybitBatchPayload context.toLiveContext catalog operation payload
          identities = .ok receipts → ProvenBatch payload identities receipts) ↔
        ReportsItems payload identities) ∧
      ((∀ receipt, classifyCommand .bybit catalog operation (some payload) requestId =
          .ok receipt → receipt.status = .accepted → CarriesSuccess payload) ↔
        ∀ value, payload = .json value → (retCode? value).isSome) ∧
      (ProvenCheck τ r ↔ ∀ payload ∈ τ.filterMap preCheckReply, CarriesSuccess payload) :=
  ⟨provenBatch_iff, carriesSuccess_iff, provenCheck_iff hvenue hrun⟩

/-- An order to sell BTC at the market. -/
def checkedBtc : ValidateOrderRequest where
  requestId := none
  order :=
    { requestId := none, instrumentId := ⟨"BTC/USDT:USDT"⟩, clientOrderId := none, side := .sell,
      orderType := .market, timeInForce := none, quantity := ⟨.ofNat 1 Decimal.one_fits⟩, price := none,
      triggerPrice := none, triggerType := none, reduceOnly := false, postOnly := false }

/-- The run that checks the order, with this reply. -/
def checkTrace (code : Int) : List (Event CommandCall CommandReply) :=
  execTrace (staticReply bybitLeveraged (.ok (.json (.object [("retCode", .integer code)]))))
    (validateOrder (restContext .bybit) checkedBtc).run () []

/-- The receipt of the check of an order that is answered with this code. -/
def checkResult (code : Int) : Except Failure CommandReceipt :=
  (exec (staticReply bybitLeveraged (.ok (.json (.object [("retCode", .integer code)]))))
    (validateOrder (restContext .bybit) checkedBtc).run ()).1

theorem ends_checkTrace (code : Int) :
    (validateOrder (restContext .bybit) checkedBtc).run.Ends [] (checkTrace code)
      (checkResult code) := ends_exec _

theorem accepted_with_code_iff_btc : ProvenCheck (checkTrace 0) (checkResult 0) := by
  have hreplies : (checkTrace 0).filterMap preCheckReply =
      [.json (.object [("retCode", .integer 0)])] := rfl
  refine (accepted_with_code_iff rfl (.new []) .createOrder [] none (.json .null)
    (ends_checkTrace 0)).2.2.2 fun payload hpayload => ?_
  rw [hreplies, List.mem_singleton] at hpayload
  exact ⟨_, hpayload, rfl⟩

/-- An empty reply accepts an order, and a reply without codes of its items a batch; an order whose
check is refused is accepted. -/
theorem accepted_without_code :
    (¬ ∀ (context : LiveContext) (catalog : InstrumentCatalog) (operation : CommandOperation)
      (payload : Payload) (identities : List BatchIdentity) (receipts : List CommandReceipt),
      classifyBybitBatchPayload context catalog operation payload identities = .ok receipts →
        ProvenBatch payload identities receipts) ∧
    (¬ ∀ (catalog : InstrumentCatalog) (operation : CommandOperation) (payload : Payload)
      (requestId : Option RequestId) (receipt : CommandReceipt),
      classifyCommand .bybit catalog operation (some payload) requestId = .ok receipt →
        receipt.status = .accepted → CarriesSuccess payload) ∧
    ¬ ∀ (context : CommandContext) (request : ValidateOrderRequest)
      (τ : List (Event CommandCall CommandReply)) (r : Except Failure CommandReceipt),
      context.venue = .bybit → (validateOrder context request).run.Ends [] τ r →
        ProvenCheck τ r := by
  refine ⟨fun h => ?_, fun h => ?_, fun h => ?_⟩
  · let value : Json := .object [("retCode", .integer 0)]
    let identity : BatchIdentity := ⟨none, none, none, none⟩
    have hproven := h (restContext .bybit).toLiveContext (.new []) .createOrder (.json value)
      [identity] _ rfl
    obtain ⟨_, heq, hcode, -⟩ := hproven.accepted 0 _ rfl rfl
    obtain rfl := Payload.json.inj heq
    cases hcode
  · obtain ⟨_, heq, hcode⟩ := h (.new []) .createOrder (.json (.object [])) none _ rfl rfl
    obtain rfl := Payload.json.inj heq
    cases hcode
  · have hreplies : (checkTrace 110007).filterMap preCheckReply =
        [.json (.object [("retCode", .integer 110007)])] := rfl
    obtain ⟨payload, hpayload, value, rfl, hcode⟩ :=
      h _ _ _ _ rfl (ends_checkTrace 110007) _ rfl rfl
    rw [hreplies, List.mem_singleton] at hpayload
    obtain rfl := Payload.json.inj hpayload
    cases hcode

end Bybit

end BatMarkets
