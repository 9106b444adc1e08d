import BatMarkets.Commands.Outcome

/-!
# What a cancellation of all orders proves

`cancel_all_orders` returns one receipt for many requests.  It tells the truth when an accepted
receipt means that the open orders in its scope have been asked to be cancelled, plain and
conditional ones, and that every reply is a success by the code of the venue.

Binance keeps conditional orders apart, and knows no request for the whole account: the command goes
through the instruments of the open orders it has cached.  MEXC keeps conditional orders at
endpoints that the command does not know.  And none of the adapters insists on the code by which its
venue reports a success.

## Main results

* `cancel_all_true_iff` : an accepted receipt tells the truth exactly when, on Binance, the cached
  open orders cover those of the venue and every reply has the code of a success, on Bybit and MEXC
  the reply has a code at all, and on MEXC there is no open conditional order in scope.
* `empty_cache_accepts` : with an empty cache, nothing is sent and the receipt is accepted.
-/

namespace BatMarkets

open CommandM Interleaving Prog Wire

/-- Conditional orders wait for a trigger; the others are plain. -/
inductive OrderFamily
  | plain
  | conditional

/-- Where to cancel all orders of a family.  On Bybit they are one kind of order, with or without a
trigger; on MEXC conditional orders have endpoints of their own, and the command has none of
them. -/
def cancelAllPath : Venue → OrderFamily → Option String
  | .binance, .plain => some "/fapi/v1/allOpenOrders"
  | .binance, .conditional => some "/fapi/v1/algoOpenOrders"
  | .bybit, _ => some "/v5/order/cancel-all"
  | .mexc, .plain => some "/api/v1/private/order/cancel_all"
  | .mexc, .conditional => none

/-- The request cancels the orders of the symbol.  One that names no symbol is for all symbols; on
Binance there is none such. -/
def CancelsAllOf (venue : Venue) (family : OrderFamily) (symbol : String) (request : RestCommand) :
    Prop :=
  cancelAllPath venue family = some request.path ∧
    (request.body.get? "symbol" = some (.string symbol) ∨
      venue ≠ .binance ∧ request.body.get? "symbol" = none)

/-- The code of a reply to a request to cancel all orders. -/
def replyCode (venue : Venue) (payload : Payload) : Option Int :=
  match venue with
  | .binance => (payload.value?.bind (·.get? "code")).bind Bybit.asCode
  | .bybit => (payload.value?.bind (·.get? "retCode")).bind Bybit.asCode
  | .mexc => ((payload.value?.bind (·.get? "code")).bind Mexc.valueToI64).map (·.toInt)

/-- The reply has arrived, and reports a success as the venue does: by the code 200 on Binance, the
code 0 on Bybit, and the code 0 next to a mark of success on MEXC. -/
def ReportsSuccess (venue : Venue) : Except MarketError Payload × InstrumentCatalog → Prop
  | (.ok payload, _) =>
    match venue with
    | .binance => replyCode .binance payload = some 200
    | .bybit => replyCode .bybit payload = some 0
    | .mexc => replyCode .mexc payload = some 0 ∧
        (payload.value?.bind (·.get? "success")).bind Json.asBool = some true
  | (.error _, _) => False

/-- The reply has the code that the adapter does not insist on: that of a success on Binance, and
any code on Bybit and MEXC. -/
def Coded (venue : Venue) : Except MarketError Payload × InstrumentCatalog → Prop
  | (.ok payload, _) =>
    match venue with
    | .binance => replyCode .binance payload = some 200
    | .bybit | .mexc => replyCode venue payload ≠ none
  | (.error _, _) => False

variable (context : CommandContext) (request : CancelAllOrdersRequest)

/-- The symbol is the one of the requested instrument, if one is requested. -/
def CancelScope (τ : List (Event CommandCall CommandReply)) (symbol : String) : Prop :=
  ∀ instrumentId, request.instrumentId = some instrumentId → ∃ spec : InstrumentSpec,
    ⟨.runtime (.resolveInstrument instrumentId), some spec⟩ ∈ τ ∧ spec.nativeSymbol = symbol

/-- For every symbol in scope with open orders of a family at the venue, these have been asked to be
cancelled, and the replies report success.  Where each instrument with an open order needs the
requests for both families, both have the same symbols. -/
def CancelAllTrue (openAt : OrderFamily → String → Prop)
    (τ : List (Event CommandCall CommandReply)) : Prop :=
  ∀ family symbol, openAt family symbol → CancelScope request τ symbol →
    (∃ sent reply, ⟨.rest sent, reply⟩ ∈ τ ∧ CancelsAllOf context.venue family symbol sent) ∧
    ∀ sent reply, ⟨.rest sent, reply⟩ ∈ τ → CancelsAllOf context.venue family symbol sent →
      ReportsSuccess context.venue reply

/-- The cached open orders cover those of Binance, MEXC has no open conditional orders, and the
replies have the code that is not insisted on. -/
structure CancelCovered (openAt : OrderFamily → String → Prop)
    (τ : List (Event CommandCall CommandReply)) : Prop where
  cached : context.venue = .binance → request.instrumentId = none →
    ∀ family symbol, openAt family symbol →
      ∃ (state : EngineState) (instrumentId : InstrumentId) (spec : InstrumentSpec),
        ⟨.readState, state⟩ ∈ τ ∧ instrumentId ∈ openInstruments state ∧
        ⟨.runtime (.resolveInstrument instrumentId), some spec⟩ ∈ τ ∧ spec.nativeSymbol = symbol
  plain : context.venue = .mexc →
    ∀ symbol, openAt .conditional symbol → ¬ CancelScope request τ symbol
  coded : ∀ family symbol, openAt family symbol → CancelScope request τ symbol →
    ∀ sent reply, ⟨.rest sent, reply⟩ ∈ τ → CancelsAllOf context.venue family symbol sent →
      Coded context.venue reply

/-! ### What is sent -/

/-- The requests, the lookups and the reads of the state. -/
def noteCancel : Event CommandCall CommandReply → Option (Event CommandCall CommandReply)
  | ⟨.rest sent, reply⟩ => some ⟨.rest sent, reply⟩
  | ⟨.runtime (.resolveInstrument instrumentId), reply⟩ =>
    some ⟨.runtime (.resolveInstrument instrumentId), reply⟩
  | ⟨.readState, state⟩ => some ⟨.readState, state⟩
  | _ => none

/-- For the instruments that have been looked up, and for no others, the two requests of Binance
have been sent. -/
structure BinanceSent (instruments : List InstrumentId)
    (os : List (Event CommandCall CommandReply)) : Prop where
  sent : ∀ instrumentId spec, ⟨.runtime (.resolveInstrument instrumentId), some spec⟩ ∈ os →
    (∃ reply, ⟨.rest (binanceCancelAll spec), reply⟩ ∈ os) ∧
      ∃ reply, ⟨.rest (binanceCancelAllAlgo spec), reply⟩ ∈ os
  only : ∀ sent reply, ⟨.rest sent, reply⟩ ∈ os → ∃ instrumentId ∈ instruments, ∃ spec,
    ⟨.runtime (.resolveInstrument instrumentId), some spec⟩ ∈ os ∧
      (sent = binanceCancelAll spec ∨ sent = binanceCancelAllAlgo spec)

theorem BinanceSent.append {is is' : List InstrumentId}
    {os os' : List (Event CommandCall CommandReply)} (h : BinanceSent is os)
    (h' : BinanceSent is' os') : BinanceSent (is ++ is') (os' ++ os) where
  sent := by
    intro instrumentId spec hmem
    simp only [List.mem_append] at hmem ⊢
    rcases hmem with hmem | hmem
    · obtain ⟨⟨r, hr⟩, r', hr'⟩ := h'.sent _ _ hmem
      exact ⟨⟨r, .inl hr⟩, r', .inl hr'⟩
    · obtain ⟨⟨r, hr⟩, r', hr'⟩ := h.sent _ _ hmem
      exact ⟨⟨r, .inr hr⟩, r', .inr hr'⟩
  only := by
    intro sent reply hmem
    simp only [List.mem_append] at hmem ⊢
    rcases hmem with hmem | hmem
    · obtain ⟨i, hi, spec, hspec, heq⟩ := h'.only _ _ hmem
      exact ⟨i, .inr hi, spec, .inl hspec, heq⟩
    · obtain ⟨i, hi, spec, hspec, heq⟩ := h.only _ _ hmem
      exact ⟨i, .inl hi, spec, .inr hspec, heq⟩

variable {context request}

theorem reports_restText_noted {sent : RestCommand} :
    (restText sent).run.Reports noteCancel fun os r => ∀ payload catalog,
      r = .ok (payload, catalog) → os = [⟨.rest sent, (.ok payload, catalog)⟩] := by
  refine reports_perform fun (reply, catalog) => ?_
  cases reply with
  | ok payload =>
    refine reports_ret fun payload' catalog' heq => ?_
    cases heq
    rfl
  | error e => exact reports_ret fun _ _ heq => by cases heq

theorem reports_commandSpec_noted (instrumentId : InstrumentId) :
    (commandSpec context instrumentId).run.Reports noteCancel fun os r => ∀ spec,
      r = .ok spec → os = [⟨.runtime (.resolveInstrument instrumentId), some spec⟩] := by
  refine reports_call fun reply => ?_
  cases reply with
  | none => exact reports_ret fun _ heq => by cases heq
  | some spec =>
    refine reports_ret fun spec' heq => ?_
    cases heq
    rfl

/-- The instrument has been looked up and its two requests have been sent. -/
theorem binanceSent_pair {instrumentId : InstrumentId} {spec : InstrumentSpec}
    {plain conditional : Except MarketError Payload × InstrumentCatalog} :
    BinanceSent [instrumentId] [⟨.rest (binanceCancelAllAlgo spec), conditional⟩,
      ⟨.rest (binanceCancelAll spec), plain⟩,
      ⟨.runtime (.resolveInstrument instrumentId), some spec⟩] where
  sent := by
    intro i spec' hmem
    obtain ⟨rfl, rfl⟩ : i = instrumentId ∧ spec' = spec := by simpa using hmem
    exact ⟨⟨plain, by simp⟩, conditional, by simp⟩
  only := by
    intro sent reply hmem
    simp only [List.mem_cons, List.not_mem_nil, or_false] at hmem
    refine ⟨instrumentId, by simp, spec, by simp, ?_⟩
    rcases hmem with hmem | hmem | hmem
    · cases hmem
      exact .inr rfl
    · cases hmem
      exact .inl rfl
    · cases hmem

theorem reports_cancelInstrument_noted (instrumentId : InstrumentId) :
    (cancelInstrument context instrumentId).run.Reports noteCancel fun os r =>
      ∀ u, r = .ok u → BinanceSent [instrumentId] os := by
  unfold cancelInstrument
  refine Reports.attempt (reports_commandSpec_noted _) (fun os spec hspec => ?_)
    fun os e he u hu => by cases hu
  refine Reports.attempt reports_restText_noted (fun os' (payload, catalog) hplain => ?_)
    fun os e he u hu => by cases hu
  refine Reports.attempt reports_restText_noted (fun os'' (payload', catalog') halgo => ?_)
    fun os e he u hu => by cases hu
  refine reports_ret fun u _ => ?_
  rw [hspec _ rfl, hplain _ _ rfl, halgo _ _ rfl]
  exact binanceSent_pair

theorem reports_mapM_cancelInstrument_noted (instruments : List InstrumentId) :
    (instruments.mapM (cancelInstrument context)).run.Reports noteCancel fun os r =>
      ∀ us, r = .ok us → BinanceSent instruments os := by
  induction instruments with
  | nil => exact reports_ret fun _ _ => ⟨by simp, by simp⟩
  | cons i is ih =>
    rw [List.mapM_cons]
    refine Reports.attempt (reports_cancelInstrument_noted i) (fun os u hu => ?_)
      fun os e he us hus => by cases hus
    refine Reports.attempt ih (fun os' us hus => ?_) fun os e he us hus => by cases hus
    exact reports_ret fun _ _ => (hu u rfl).append (hus us rfl)

theorem reports_classify_eq {operation : CommandOperation} {requestId : Option RequestId}
    (payload : Payload) (catalog : InstrumentCatalog) :
    (classify context operation catalog (some payload) requestId).run.Reports noteCancel fun os r =>
      os = [] ∧ ∀ receipt, r = .ok receipt →
        classifyCommand context.venue catalog operation (some payload) requestId = .ok receipt := by
  unfold classify
  cases classifyCommand context.venue catalog operation (some payload) requestId with
  | error e => exact reports_ret ⟨rfl, fun receipt heq => by cases heq⟩
  | ok receipt' =>
    refine reports_ret ⟨rfl, fun receipt heq => ?_⟩
    obtain rfl : receipt' = receipt := Except.ok.inj heq
    rfl

/-- What is sent over Bybit or MEXC says of itself whether it is a success. -/
theorem reports_sendRestOrFail_noted {operation : CommandOperation} {requestId : Option RequestId}
    {sent : RestCommand} :
    (sendRestOrFail context operation requestId sent).run.Reports noteCancel fun os r =>
      ∀ receipt, r = .ok receipt → ∃ payload catalog,
        os = [⟨.rest sent, (.ok payload, catalog)⟩] ∧
        classifyCommand context.venue catalog operation (some payload) requestId = .ok receipt := by
  refine reports_perform fun (reply, catalog) => ?_
  cases reply with
  | error e => exact reports_ret fun receipt hr => by cases hr
  | ok payload =>
    refine (reports_classify_eq payload catalog).mono fun os r hr receipt heq => ?_
    obtain ⟨rfl, hr⟩ := hr
    exact ⟨payload, catalog, rfl, hr receipt heq⟩

/-- A reply that Bybit's adapter accepts has the code 0, or none that is a number. -/
theorem Bybit.code_of_accepted {operation : CommandOperation} {requestId : Option RequestId}
    {catalog : InstrumentCatalog} {payload : Payload} {receipt : CommandReceipt}
    (hr : classifyReply catalog operation payload requestId = .ok receipt)
    (haccepted : receipt.status = .accepted) : (replyCode .bybit payload).getD 0 = 0 := by
  cases payload with
  | text t => cases hr
  | json value =>
    by_contra hne
    have hcode : ¬ ((value.get? "retCode").bind asCode).getD 0 = 0 := hne
    simp only [classifyReply, hcode, ne_eq, not_false_eq_true, if_true] at hr
    rw [← Except.ok.inj hr] at haccepted
    cases haccepted

/-- A reply that MEXC's adapter accepts is marked as a success, and has the code 0 or none that is a
number. -/
theorem Mexc.code_of_accepted {operation : CommandOperation} {requestId : Option RequestId}
    {payload : Payload} {receipt : CommandReceipt}
    (hr : classifyReply operation payload requestId = .ok receipt)
    (haccepted : receipt.status = .accepted) :
    (payload.value?.bind (·.get? "success")).bind Json.asBool = some true ∧
      (replyCode .mexc payload).getD 0 = 0 := by
  cases payload with
  | text t => cases hr
  | json value =>
    rw [← Except.ok.inj hr] at haccepted
    dsimp only at haccepted
    split at haccepted
    · next hstatus =>
      simp only [Bool.and_eq_true, beq_iff_eq] at hstatus
      obtain ⟨⟨hsuccess, hzero⟩, -⟩ := hstatus
      constructor
      · change (value.get? "success").bind Json.asBool = some true
        cases hmark : (value.get? "success").bind Json.asBool with
        | none => simp [hmark] at hsuccess
        | some mark => simpa [hmark] using hsuccess
      · change (((value.get? "code").bind valueToI64).map (·.toInt)).getD 0 = 0
        cases hcode : (value.get? "code").bind valueToI64 with
        | none => rfl
        | some code =>
          rw [hcode, Option.getD_some] at hzero
          simp [hzero]
    · cases haccepted

/-- A code that is 0 unless it is missing is 0 exactly when it is there. -/
theorem code_eq_zero_iff {code : Option Int} (h : code.getD 0 = 0) :
    code = some 0 ↔ code ≠ none := by
  cases code with
  | none => simp
  | some c => simpa using h

/-- A reply of Bybit or MEXC that the adapter accepts is a success if it has a code. -/
theorem reportsSuccess_iff_coded {requestId : Option RequestId} {catalog : InstrumentCatalog}
    {payload : Payload} {receipt : CommandReceipt} (hvenue : context.venue ≠ .binance)
    (hr : classifyCommand context.venue catalog .cancelAllOrders (some payload) requestId =
      .ok receipt) (haccepted : receipt.status = .accepted) :
    ReportsSuccess context.venue (.ok payload, catalog) ↔
      Coded context.venue (.ok payload, catalog) := by
  cases hv : context.venue with
  | binance => exact absurd hv hvenue
  | bybit =>
    rw [hv] at hr
    have hr : Bybit.classifyReply catalog .cancelAllOrders payload requestId = .ok receipt := hr
    exact code_eq_zero_iff (Bybit.code_of_accepted hr haccepted)
  | mexc =>
    rw [hv] at hr
    obtain ⟨hmark, hzero⟩ := Mexc.code_of_accepted hr haccepted
    exact (and_iff_left hmark).trans (code_eq_zero_iff hzero)

/-- What an accepted receipt shows of the requests and the lookups of the command. -/
structure CancelAllSent (context : CommandContext) (request : CancelAllOrdersRequest)
    (os : List (Event CommandCall CommandReply)) : Prop where
  /-- Over Bybit and MEXC, there is one request for all plain orders in scope, and on Bybit for all
  conditional ones, and the adapter accepts the reply. -/
  direct : context.venue ≠ .binance → ∃ sent payload catalog,
    (∀ sent' reply, ⟨.rest sent', reply⟩ ∈ os ↔ sent' = sent ∧ reply = (.ok payload, catalog)) ∧
    (∀ family symbol, CancelScope request os symbol →
      (CancelsAllOf context.venue family symbol sent ↔
        ¬ (context.venue = .mexc ∧ family = .conditional))) ∧
    (ReportsSuccess context.venue (.ok payload, catalog) ↔
      Coded context.venue (.ok payload, catalog))
  /-- The requests to Binance are those for the requested instrument, or for the cached ones. -/
  binance : context.venue = .binance → ∃ instruments, BinanceSent instruments os ∧
    (request.instrumentId = none →
      ∃ state, ⟨.readState, state⟩ ∈ os ∧ instruments = openInstruments state)

/-- One request for everything in scope, and its reply. -/
theorem cancelAllSent_direct {sent : RestCommand} {payload : Payload} {catalog : InstrumentCatalog}
    {receipt : CommandReceipt} {os : List (Event CommandCall CommandReply)}
    (hvenue : context.venue ≠ .binance)
    (hr : classifyCommand context.venue catalog .cancelAllOrders (some payload) request.requestId =
      .ok receipt) (haccepted : receipt.status = .accepted)
    (hos : ∀ sent' reply, ⟨.rest sent', reply⟩ ∉ os)
    (hsent : ∀ family symbol,
      CancelScope request (⟨.rest sent, (.ok payload, catalog)⟩ :: os) symbol →
        (CancelsAllOf context.venue family symbol sent ↔
          ¬ (context.venue = .mexc ∧ family = .conditional))) :
    CancelAllSent context request (⟨.rest sent, (.ok payload, catalog)⟩ :: os) where
  direct := by
    refine fun _ => ⟨sent, payload, catalog, fun sent' reply => ?_, hsent,
      reportsSuccess_iff_coded hvenue hr haccepted⟩
    constructor
    · intro hmem
      rcases List.mem_cons.1 hmem with heq | hmem
      · cases heq
        exact ⟨rfl, rfl⟩
      · exact absurd hmem (hos _ _)
    · rintro ⟨rfl, rfl⟩
      exact List.mem_cons_self
  binance := fun h => absurd h hvenue

theorem reports_sendCancelAllOrders_noted (request : CancelAllOrdersRequest) :
    (sendCancelAllOrders context request).run.Reports noteCancel fun os r => ∀ receipt,
      r = .ok receipt → receipt.status = .accepted → CancelAllSent context request os := by
  unfold sendCancelAllOrders
  cases hv : context.venue <;> cases hi : request.instrumentId <;> dsimp only
  case binance.some instrumentId =>
    refine Reports.attempt (reports_commandSpec_noted _) (fun os spec hspec => ?_)
      fun os e he u hu => by cases hu
    refine Reports.attempt reports_restText_noted (fun os' (payload, catalog) hplain => ?_)
      fun os e he u hu => by cases hu
    refine Reports.attempt reports_restText_noted (fun os'' (payload', catalog') halgo => ?_)
      fun os e he u hu => by cases hu
    rw [hspec _ rfl, hplain _ _ rfl, halgo _ _ rfl]
    refine (reports_classify_eq payload catalog).mono fun os₃ r hr receipt heq haccepted => ?_
    obtain ⟨rfl, -⟩ := hr
    exact ⟨fun h => absurd hv h, fun _ => ⟨_, binanceSent_pair, by simp [hi]⟩⟩
  case binance.none =>
    refine reports_perform fun state => ?_
    refine Reports.attempt (reports_mapM_cancelInstrument_noted _) (fun os us hus => ?_)
      fun os e he u hu => by cases hu
    refine reports_ret fun receipt _ _ => ?_
    have hsent := hus us rfl
    refine ⟨fun h => absurd hv h, fun _ => ⟨openInstruments state, ⟨?_, ?_⟩, fun _ =>
      ⟨state, by simp [noteCancel], rfl⟩⟩⟩
    · simpa [noteCancel] using hsent.sent
    · simpa [noteCancel] using hsent.only
  case bybit.some instrumentId | mexc.some instrumentId =>
    refine Reports.attempt (reports_commandSpec_noted _) (fun os spec hspec => ?_)
      fun os e he u hu => by cases hu
    rw [hspec _ rfl]
    refine reports_sendRestOrFail_noted.mono fun os' r hr receipt heq haccepted => ?_
    obtain ⟨payload, catalog, rfl, hclassify⟩ := hr receipt heq
    refine cancelAllSent_direct (by simp [hv]) hclassify haccepted (by simp)
      fun family symbol hscope => ?_
    obtain ⟨spec', hmem, rfl⟩ := hscope instrumentId hi
    obtain rfl : spec' = spec := by simpa using hmem
    cases family <;> simp [CancelsAllOf, cancelAllPath, hv, Json.get?]
  case bybit.none | mexc.none =>
    refine reports_sendRestOrFail_noted.mono fun os' r hr receipt heq haccepted => ?_
    obtain ⟨payload, catalog, rfl, hclassify⟩ := hr receipt heq
    refine cancelAllSent_direct (by simp [hv]) hclassify haccepted (by simp)
      fun family symbol hscope => ?_
    cases family <;> simp [CancelsAllOf, cancelAllPath, hv, Json.get?]

/-! ### What is noted of a run -/

theorem reports_finishReceipt_noted {receipt : CommandReceipt} :
    (finishReceipt receipt).run.Reports noteCancel fun os r => os = [] ∧ r = .ok receipt :=
  reports_finishReceipt (by rintro q r (_ | _ | _ | _) <;> rfl)

theorem reports_cancelAllOrders_noted (request : CancelAllOrdersRequest) :
    (cancelAllOrders context request).run.Reports noteCancel fun os r => ∀ receipt,
      r = .ok receipt → receipt.status = .accepted → CancelAllSent context request os := by
  have hfinish : (sendCancelAllOrders context request >>= finishReceipt).run.Reports noteCancel
      fun os r => ∀ receipt, r = .ok receipt → receipt.status = .accepted →
        CancelAllSent context request os := by
    refine Reports.attempt (reports_sendCancelAllOrders_noted request) (fun os receipt' hr => ?_)
      fun os e he receipt hr => by cases hr
    refine reports_finishReceipt_noted.mono fun os' r hr' receipt heq haccepted => ?_
    obtain ⟨rfl, rfl⟩ := hr'
    obtain rfl : receipt' = receipt := Except.ok.inj heq
    exact hr receipt' rfl haccepted
  unfold cancelAllOrders
  by_cases hw : context.websocketOnly = true
  · simp only [hw, if_true]
    exact reports_ret fun receipt hr => by cases hr
  · simp only [hw]
    exact hfinish

section Noted

variable {τ : List (Event CommandCall CommandReply)}

theorem eq_of_noteCancel {e e' : Event CommandCall CommandReply} (h : noteCancel e = some e') :
    e = e' := by
  unfold noteCancel at h
  split at h
  · exact Option.some.inj h
  · exact Option.some.inj h
  · exact Option.some.inj h
  · cases h

/-- What is noted is in the notes exactly when it is in the run. -/
theorem mem_noted {e : Event CommandCall CommandReply} (h : noteCancel e = some e) :
    e ∈ τ.filterMap noteCancel ↔ e ∈ τ := by
  rw [List.mem_filterMap]
  constructor
  · rintro ⟨e', hmem, he⟩
    rwa [← eq_of_noteCancel he]
  · exact fun hmem => ⟨e, hmem, h⟩

theorem CancelAllSent.of_noted (h : CancelAllSent context request (τ.filterMap noteCancel)) :
    CancelAllSent context request τ := by
  have hrest : ∀ sent reply, (⟨.rest sent, reply⟩ : Event CommandCall CommandReply) ∈
      τ.filterMap noteCancel ↔ ⟨.rest sent, reply⟩ ∈ τ := fun _ _ => mem_noted rfl
  have hresolve : ∀ i spec,
      (⟨.runtime (.resolveInstrument i), some spec⟩ : Event CommandCall CommandReply) ∈
        τ.filterMap noteCancel ↔ ⟨.runtime (.resolveInstrument i), some spec⟩ ∈ τ :=
    fun _ _ => mem_noted rfl
  have hstate : ∀ state, (⟨.readState, state⟩ : Event CommandCall CommandReply) ∈
      τ.filterMap noteCancel ↔ ⟨.readState, state⟩ ∈ τ := fun _ => mem_noted rfl
  obtain ⟨hdirect, hbinance⟩ := h
  refine ⟨fun hv => ?_, fun hv => ?_⟩
  · simpa only [CancelScope, hrest, hresolve] using hdirect hv
  · obtain ⟨instruments, ⟨hsent, honly⟩, hread⟩ := hbinance hv
    simp only [hrest, hresolve] at hsent honly
    simp only [hstate] at hread
    exact ⟨instruments, ⟨hsent, honly⟩, hread⟩

end Noted

/-! ### The truth of an accepted receipt -/

theorem cancelsAllOf_binance {symbol : String} {spec : InstrumentSpec} :
    ∀ family, CancelsAllOf .binance family symbol (match family with
      | .plain => binanceCancelAll spec
      | .conditional => binanceCancelAllAlgo spec) ↔ spec.nativeSymbol = symbol := by
  intro family
  cases family <;>
    simp [CancelsAllOf, cancelAllPath, binanceCancelAll, binanceCancelAllAlgo, Json.get?]

/-- A request of Binance names the symbol of the instrument it is for. -/
theorem symbol_of_cancelsAllOf {family : OrderFamily} {symbol : String} {spec : InstrumentSpec}
    {sent : RestCommand} (hsent : sent = binanceCancelAll spec ∨ sent = binanceCancelAllAlgo spec)
    (h : CancelsAllOf .binance family symbol sent) : spec.nativeSymbol = symbol := by
  rcases hsent with rfl | rfl <;>
    simpa [CancelsAllOf, binanceCancelAll, binanceCancelAllAlgo, Json.get?] using h.2

/-- Once the instrument of a symbol has been looked up, its orders are asked to be cancelled. -/
theorem BinanceSent.asked {instruments : List InstrumentId}
    {τ : List (Event CommandCall CommandReply)} (h : BinanceSent instruments τ)
    {instrumentId : InstrumentId} {spec : InstrumentSpec}
    (hspec : ⟨.runtime (.resolveInstrument instrumentId), some spec⟩ ∈ τ) (family : OrderFamily) :
    ∃ sent reply, ⟨.rest sent, reply⟩ ∈ τ ∧ CancelsAllOf .binance family spec.nativeSymbol sent := by
  obtain ⟨⟨plain, hplain⟩, conditional, hconditional⟩ := h.sent instrumentId spec hspec
  have hcancels := (cancelsAllOf_binance family).2 (rfl : spec.nativeSymbol = spec.nativeSymbol)
  cases family with
  | plain => exact ⟨_, plain, hplain, hcancels⟩
  | conditional => exact ⟨_, conditional, hconditional, hcancels⟩

/-- **An accepted cancellation, exactly.**  An accepted receipt tells the truth about the open
orders of the venue exactly when, on Binance, those are covered by the cached ones, MEXC has no open
conditional order in scope, and the replies have the code that the adapter does not insist on. -/
theorem cancel_all_true_iff {openAt : OrderFamily → String → Prop}
    {τ : List (Event CommandCall CommandReply)} {receipt : CommandReceipt}
    (hrun : (cancelAllOrders context request).run.Ends [] τ (.ok receipt))
    (haccepted : receipt.status = .accepted) :
    CancelAllTrue context request openAt τ ↔ CancelCovered context request openAt τ := by
  have hall : CancelAllSent context request τ :=
    ((reports_cancelAllOrders_noted request).of_ends hrun receipt rfl haccepted).of_noted
  by_cases hv : context.venue = .binance
  · obtain ⟨instruments, hsent, hread⟩ := hall.binance hv
    constructor
    · refine fun h => ⟨fun _ hnone family symbol hopen => ?_, fun hmexc => ?_, ?_⟩
      · obtain ⟨state, hstate, rfl⟩ := hread hnone
        have hscope : CancelScope request τ symbol := fun i hi => by simp [hnone] at hi
        obtain ⟨⟨sent, reply, hmem, hc⟩, -⟩ := h family symbol hopen hscope
        obtain ⟨i, hi, spec, hspec, heq⟩ := hsent.only sent reply hmem
        rw [hv] at hc
        exact ⟨state, i, spec, hstate, hi, hspec, symbol_of_cancelsAllOf heq hc⟩
      · rw [hv] at hmexc
        cases hmexc
      · intro family symbol hopen hscope sent reply hmem hc
        have hsuccess := (h family symbol hopen hscope).2 sent reply hmem hc
        rw [hv] at hsuccess ⊢
        exact hsuccess
    · intro h family symbol hopen hscope
      -- the symbol is that of an instrument that has been looked up
      have hlookup : ∃ i spec, ⟨.runtime (.resolveInstrument i), some spec⟩ ∈ τ ∧
          spec.nativeSymbol = symbol := by
        cases hi : request.instrumentId with
        | some i =>
          obtain ⟨spec, hspec, hsymbol⟩ := hscope i hi
          exact ⟨i, spec, hspec, hsymbol⟩
        | none =>
          obtain ⟨state, i, spec, -, -, hspec, hsymbol⟩ := h.cached hv hi family symbol hopen
          exact ⟨i, spec, hspec, hsymbol⟩
      obtain ⟨i, spec, hspec, rfl⟩ := hlookup
      refine ⟨?_, fun sent reply hmem hc => ?_⟩
      · rw [hv]
        exact hsent.asked hspec family
      · have hcoded := h.coded family _ hopen hscope sent reply hmem hc
        rw [hv] at hcoded ⊢
        exact hcoded
  · obtain ⟨sent, payload, catalog, honly, hcancels, hcoded⟩ := hall.direct hv
    constructor
    · refine fun h => ⟨fun hbinance => absurd hbinance hv, fun hmexc symbol hopen hscope => ?_, ?_⟩
      · obtain ⟨⟨sent', reply, hmem, hc⟩, -⟩ := h .conditional symbol hopen hscope
        obtain ⟨rfl, -⟩ := (honly _ _).1 hmem
        exact (hcancels .conditional symbol hscope).1 hc ⟨hmexc, rfl⟩
      · intro family symbol hopen hscope sent' reply hmem hc
        have hsuccess := (h family symbol hopen hscope).2 sent' reply hmem hc
        obtain ⟨rfl, rfl⟩ := (honly _ _).1 hmem
        exact hcoded.1 hsuccess
    · refine fun h family symbol hopen hscope => ⟨?_, fun sent' reply hmem hc => ?_⟩
      · refine ⟨sent, _, (honly _ _).2 ⟨rfl, rfl⟩, (hcancels family symbol hscope).2 ?_⟩
        rintro ⟨hmexc, rfl⟩
        exact h.plain hmexc symbol hopen hscope
      · have hcode := h.coded family symbol hopen hscope sent' reply hmem hc
        obtain ⟨rfl, rfl⟩ := (honly _ _).1 hmem
        exact hcoded.2 hcode

/-! ### Binance with nothing cached -/

/-- BTC on Binance. -/
def binanceListed : InstrumentSpec := .active .binance "BTC/USDT:USDT" "BTCUSDT" 2 3

/-- The run of a cancellation on Binance when all requests get the reply `{"code":200}`. -/
def listedTrace (request : CancelAllOrdersRequest) : List (Event CommandCall CommandReply) :=
  execTrace (staticReply binanceListed (.ok (.json (.object [("code", .integer 200)]))))
    (cancelAllOrders (restContext .binance) request).run () []

/-- The replies to requests that a run shows. -/
def restReplies (τ : List (Event CommandCall CommandReply)) :
    List (Except MarketError Payload × InstrumentCatalog) :=
  τ.filterMap fun
    | ⟨.rest _, reply⟩ => some reply
    | _ => none

theorem mem_restReplies {τ : List (Event CommandCall CommandReply)} {sent : RestCommand}
    {reply : CommandReply (.rest sent)} (h : ⟨.rest sent, reply⟩ ∈ τ) : reply ∈ restReplies τ :=
  List.mem_filterMap.2 ⟨_, h, rfl⟩

/-- With nothing cached, Binance is asked for nothing, and the receipt is accepted. -/
theorem empty_cache_accepts :
    ¬ ∀ (context : CommandContext) (request : CancelAllOrdersRequest)
      (openAt : OrderFamily → String → Prop) (τ : List (Event CommandCall CommandReply))
      (receipt : CommandReceipt), (cancelAllOrders context request).run.Ends [] τ (.ok receipt) →
      receipt.status = .accepted → CancelAllTrue context request openAt τ := by
  intro h
  have htrue := h (restContext .binance) ⟨none, none⟩ (fun _ symbol => symbol = "BTCUSDT")
    (listedTrace ⟨none, none⟩) _ (ends_exec _) rfl
  obtain ⟨⟨sent, reply, hmem, -⟩, -⟩ :=
    htrue .plain "BTCUSDT" rfl (fun i hi => by cases hi)
  have hnone : restReplies (listedTrace ⟨none, none⟩) = [] := rfl
  have hreply := mem_restReplies hmem
  rw [hnone] at hreply
  cases hreply

/-- Asked about BTC, with replies that report success, an accepted receipt tells the truth. -/
theorem cancel_all_true_iff_listed :
    CancelAllTrue (restContext .binance) ⟨none, some ⟨"BTC/USDT:USDT"⟩⟩
      (fun _ symbol => symbol = "BTCUSDT") (listedTrace ⟨none, some ⟨"BTC/USDT:USDT"⟩⟩) := by
  refine (cancel_all_true_iff (ends_exec _) rfl).2 ⟨fun _ h => (by cases h), nofun, ?_⟩
  intro family symbol _ _ sent reply hmem _
  have hreplies : restReplies (listedTrace ⟨none, some ⟨"BTC/USDT:USDT"⟩⟩) =
      List.replicate 2 (.ok (.json (.object [("code", .integer 200)])), .new [binanceListed]) := rfl
  have hreply := mem_restReplies hmem
  rw [hreplies] at hreply
  obtain rfl := List.eq_of_mem_replicate hreply
  rfl

end BatMarkets
