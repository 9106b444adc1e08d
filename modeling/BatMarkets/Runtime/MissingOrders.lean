import BatMarkets.Adapter.OrderSnapshot
import BatMarkets.Runtime.Evidence

/-!
# Recovery and missing orders

A command whose order the venue does not know has to be looked for in the history of its
instrument, and must not keep the other commands from being examined.  The recovery goes on after a
lookup that fails with a rejection or with an unsupported request (`isMissingOrderError`).  Binance
rejects a request for an order it does not know.  Bybit lists no order, and MEXC may refuse or
succeed without giving one: both are reported as an answer that cannot be decoded.  A command
without an order id cannot be looked up on MEXC at all, which is reported as an error of the
configuration.  All of these end the recovery.

## Main results

* `missing_order_survived_iff` : a run in which nothing else goes wrong comes to its end, with
  every command either resolved or looked for everywhere, exactly when no lookup is answered that
  there is no such order in a form that the adapter does not recognise, and every command looked up
  on MEXC has an order id.
-/

namespace BatMarkets

open Interleaving Ordered RuntimeM

/-! ### Answers to lookups -/

/-- The reply to a lookup is what is made of a response saying that there is no such order. -/
def NoSuchOrder (venue : Venue) (r : Except MarketError Order) : Prop :=
  ∃ catalog nowMs operation response, MeansNoSuchOrder venue response ∧
    orderOfAnswer venue catalog nowMs operation response = r.mapError .error

theorem error_of_mapError {r : Except MarketError Order} {e : MarketError}
    (h : (.error (.error e) : Except Failure Order) = r.mapError .error) : r = .error e := by
  cases r with
  | ok o => cases h
  | error e' =>
    cases h
    rfl

/-- The recovery goes on after a lookup with this result. -/
def goesOn : Except MarketError Order → Bool
  | .ok _ => true
  | .error e => isMissingOrderError e

/-- The reply is what is made of a response that hides that there is no such order. -/
def HiddenNoSuchOrder (venue : Venue) (r : Except MarketError Order) : Prop :=
  ∃ catalog nowMs operation response, HidesNoSuchOrder venue response ∧
    orderOfAnswer venue catalog nowMs operation response = r.mapError .error

theorem NoSuchOrder.binance {r : Except MarketError Order} (h : NoSuchOrder .binance r) :
    goesOn r = true := by
  obtain ⟨catalog, nowMs, operation, response, hresponse, hr⟩ := h
  obtain ⟨e, he, hkind⟩ : ∃ e, orderOfAnswer .binance catalog nowMs operation response =
      .error (.error e) ∧ e.kind = .exchangeReject := orderOfAnswer_refused hresponse
  rw [he] at hr
  rw [error_of_mapError hr]
  simp [goesOn, isMissingOrderError, hkind]

/-- Unless the recovery goes on after a reply that there is no such order, the reply hides it. -/
theorem NoSuchOrder.hidden {venue : Venue} {r : Except MarketError Order}
    (h : NoSuchOrder venue r) (hr : goesOn r = false) : HiddenNoSuchOrder venue r := by
  cases venue with
  | binance =>
    rw [h.binance] at hr
    cases hr
  | bybit => exact h
  | mexc =>
    obtain ⟨catalog, nowMs, operation, response, hresponse, heq⟩ := h
    refine ⟨catalog, nowMs, operation, response, ⟨hresponse, ?_⟩, heq⟩
    obtain ⟨e, he, hkind⟩ : ∃ e, orderOfAnswer .mexc catalog nowMs operation response =
      .error (.error e) ∧ e.kind = if (response.body.value?.bind Mexc.OrderResponse.read).isNone
        then .decodeError else .exchangeReject := orderOfAnswer_mexc hresponse
    rw [he] at heq
    rw [error_of_mapError heq] at hr
    by_contra hread
    rw [if_neg (by simpa using hread)] at hkind
    simp [goesOn, isMissingOrderError, hkind] at hr

/-- The recovery ends with a reply that hides that there is no such order. -/
theorem HiddenNoSuchOrder.error {venue : Venue} {r : Except MarketError Order}
    (h : HiddenNoSuchOrder venue r) : ∃ e, r = .error e ∧ isMissingOrderError e = false := by
  obtain ⟨catalog, nowMs, operation, response, hresponse, hr⟩ := h
  cases venue with
  | binance => exact hresponse.elim
  | bybit =>
    rw [orderOfAnswer_empty hresponse] at hr
    exact ⟨_, error_of_mapError hr, rfl⟩
  | mexc =>
    obtain ⟨e, he, hkind⟩ : ∃ e, orderOfAnswer .mexc catalog nowMs operation response =
      .error (.error e) ∧ e.kind = if (response.body.value?.bind Mexc.OrderResponse.read).isNone
        then .decodeError else .exchangeReject := orderOfAnswer_mexc hresponse.1
    rw [he] at hr
    rw [hresponse.2] at hkind
    refine ⟨e, error_of_mapError hr, ?_⟩
    simp [isMissingOrderError, hkind]

/-- The command can be looked up, or it is not looked up at all. -/
def PendingUnknownCommand.Lookable (venue : Venue) (command : PendingUnknownCommand) : Prop :=
  venue = .mexc → command.orderId = none → command.clientOrderId = none

theorem orderIdentity_of_identity (clientKey : String) {orderId : Option OrderId}
    {clientOrderId : Option ClientOrderId} (h : (orderId.isSome || clientOrderId.isSome) = true) :
    ∃ pairs, orderIdentity clientKey orderId clientOrderId = .ok pairs := by
  cases orderId with
  | some orderId => exact ⟨_, rfl⟩
  | none =>
    cases clientOrderId with
    | some clientOrderId => exact ⟨_, rfl⟩
    | none => cases h

theorem binanceAlgoIdentityQuery_of_algo {orderId : Option OrderId}
    (clientOrderId : Option ClientOrderId) (h : isBinanceAlgoOrderId orderId = true) :
    ∃ pairs, binanceAlgoIdentityQuery orderId clientOrderId = .ok pairs := by
  cases orderId with
  | none => cases h
  | some orderId =>
    obtain ⟨algoId, halgoId⟩ := Option.isSome_iff_exists.1 h
    refine ⟨[("algoId", algoId)], ?_⟩
    rw [Option.bind_some] at halgoId
    simp only [binanceAlgoIdentityQuery, halgoId]

theorem orderLookup_lookable {context : LiveContext} (spec : InstrumentSpec)
    {command : PendingUnknownCommand} (hid : command.hasIdentity = true)
    (h : command.Lookable context.venue) :
    ∃ lookup, orderLookup context spec command.orderRequest = .ok lookup := by
  obtain ⟨venue, product, stale⟩ := context
  cases venue with
  | binance =>
    by_cases halgo : isBinanceAlgoOrderId command.orderId = true
    · obtain ⟨pairs, hpairs⟩ := binanceAlgoIdentityQuery_of_algo command.clientOrderId halgo
      refine ⟨⟨"/fapi/v1/algoOrder", pairs, "binance.get_algo_order"⟩, ?_⟩
      simp only [orderLookup, PendingUnknownCommand.orderRequest, halgo, if_true, hpairs]
      rfl
    · obtain ⟨pairs, hpairs⟩ := orderIdentity_of_identity "origClientOrderId" hid
      refine ⟨⟨"/fapi/v1/order", [("symbol", spec.nativeSymbol)] ++ pairs,
        "binance.get_order"⟩, ?_⟩
      simp only [orderLookup, PendingUnknownCommand.orderRequest, if_neg halgo,
        appendOrderIdentity, hpairs]
      rfl
  | bybit =>
    obtain ⟨pairs, hpairs⟩ := orderIdentity_of_identity "orderLinkId" hid
    refine ⟨⟨"/v5/order/realtime", [("category", "linear"), ("symbol", spec.nativeSymbol)] ++ pairs,
      "bybit.get_order"⟩, ?_⟩
    simp only [orderLookup, PendingUnknownCommand.orderRequest, appendBybitOrderIdentity, hpairs]
    rfl
  | mexc =>
    cases horder : command.orderId with
    | some orderId =>
      refine ⟨⟨"/api/v1/private/order/get/" ++ orderId.asStr, [], "mexc.get_order"⟩, ?_⟩
      simp only [orderLookup, PendingUnknownCommand.orderRequest, horder]
    | none =>
      rw [PendingUnknownCommand.hasIdentity, horder, h rfl horder] at hid
      cases hid

theorem orderLookup_not_lookable {context : LiveContext} (spec : InstrumentSpec)
    {command : PendingUnknownCommand} (h : ¬ command.Lookable context.venue) :
    ∃ e, orderLookup context spec command.orderRequest = .error e ∧
      isMissingOrderError e = false := by
  obtain ⟨venue, product, stale⟩ := context
  simp only [PendingUnknownCommand.Lookable, Classical.not_imp] at h
  obtain ⟨rfl, hnone, -⟩ := h
  cases hlookup : orderLookup ⟨.mexc, product, stale⟩ spec command.orderRequest with
  | ok lookup => simp [orderLookup, PendingUnknownCommand.orderRequest, hnone] at hlookup
  | error e =>
    refine ⟨e, rfl, ?_⟩
    simp only [orderLookup, PendingUnknownCommand.orderRequest, hnone, Except.error.injEq]
      at hlookup
    rw [← hlookup]
    rfl

/-! ### Undisturbed runs -/

/-- The catalog knows the instrument, a lookup is answered with an order, with an error the
recovery goes on after, or that there is no such order, and the history is not an error. -/
def SmoothReply (venue : Venue) : Event RuntimeCall RuntimeReply → Prop
  | ⟨.resolveInstrument _, spec⟩ => spec.isSome = true
  | ⟨.signedGet .order _, r⟩ => goesOn r = true ∨ NoSuchOrder venue r
  | ⟨.signedGet .orderHistory _, r⟩ => ∃ orders, r = .ok orders
  | ⟨.signedGet .executions _, r⟩ => ∃ executions, r = .ok executions
  | _ => True

/-- Nothing went wrong, except that orders may have been missing. -/
def Undisturbed (venue : Venue) (τ : RuntimeTrace) : Prop := ∀ e ∈ τ, SmoothReply venue e

/-- The reply hides that there is no such order. -/
def HidesMissing (venue : Venue) : Event RuntimeCall RuntimeReply → Prop
  | ⟨.signedGet .order _, r⟩ => HiddenNoSuchOrder venue r
  | _ => False

/-- Binance never hides it. -/
theorem not_hidesMissing_binance (e : Event RuntimeCall RuntimeReply) :
    ¬ HidesMissing .binance e := by
  obtain ⟨q, r⟩ := e
  cases q with
  | signedGet decoder request =>
    cases decoder with
    | order =>
      rintro ⟨_, _, _, _, hhides, _⟩
      exact hhides
    | _ => exact id
  | _ => exact id

/-- No lookup was answered that there is no such order in a form that hides it. -/
def NoneMissing (venue : Venue) (τ : RuntimeTrace) : Prop := ∀ e ∈ τ, ¬ HidesMissing venue e

theorem noneMissing_nil {venue : Venue} : NoneMissing venue [] := fun _ he => by cases he

theorem noneMissing_cons {venue : Venue} {e : Event RuntimeCall RuntimeReply} {τ : RuntimeTrace} :
    NoneMissing venue (e :: τ) ↔ ¬ HidesMissing venue e ∧ NoneMissing venue τ :=
  List.forall_mem_cons

/-- In the runs of the program that are undisturbed, the trace and the value at the end satisfy
`P`. -/
def Smoothly {α : Type} (venue : Venue) (P : RuntimeTrace → α → Prop) (t : RuntimeM α)
    (τ : RuntimeTrace) : Prop :=
  t.Spec (fun _ _ => True) (fun τ' a => Undisturbed venue τ' → P τ' a) τ

namespace Smoothly

variable {α β : Type} {venue : Venue} {P P' : RuntimeTrace → α → Prop} {t : RuntimeM α}
  {τ : RuntimeTrace}

theorem mono (h : Smoothly venue P t τ) (hP : ∀ τ' a, P τ' a → P' τ' a) : Smoothly venue P' t τ :=
  Prog.Spec.mono h (fun _ _ h => h) fun τ' a ha hτ' => hP τ' a (ha hτ')

/-- What holds of every run holds of the undisturbed ones too. -/
theorem and_spec {G : RuntimeTrace → RuntimeCall → Prop} (h : Smoothly venue P t τ)
    (h' : t.Spec G P' τ) : Smoothly venue (fun τ' a => P τ' a ∧ P' τ' a) t τ :=
  (Prog.Spec.and h h').mono (fun _ _ h => h) fun _ _ ha hτ' => ⟨ha.1 hτ', ha.2⟩

theorem and_suffix (h : Smoothly venue P t τ) :
    Smoothly venue (fun τ' a => P τ' a ∧ τ <:+ τ') t τ :=
  h.and_spec (Prog.spec_suffix t τ)

/-- The run may be assumed to be undisturbed so far. -/
theorem assume (h : Undisturbed venue τ → Smoothly venue P t τ) : Smoothly venue P t τ :=
  Prog.spec_assume (fun _ _ hτ e he => hτ e (List.mem_cons_of_mem _ he)) h

theorem call {q : RuntimeCall} {k : RuntimeReply q → RuntimeM α}
    (h : ∀ r, SmoothReply venue ⟨q, r⟩ → Smoothly venue P (k r) (⟨q, r⟩ :: τ)) :
    Smoothly venue P (.call q k) τ :=
  ⟨trivial, fun r => assume fun hτ => h r (hτ _ List.mem_cons_self)⟩

theorem bind {P' : RuntimeTrace → β → Prop} {f : α → RuntimeM β} (ht : Smoothly venue P t τ)
    (hf : ∀ τ' a, P τ' a → Smoothly venue P' (f a) τ') : Smoothly venue P' (t >>= f) τ := by
  refine Prog.spec_bind.2 (Prog.Spec.mono ht (fun _ _ h => h) fun τ' a ha => ?_)
  exact assume fun hτ' => hf τ' a (ha hτ')

/-- A step that cannot fail, and what follows. -/
theorem lift {P' : RuntimeTrace → Except MarketError β → Prop} {f : α → RuntimeE β}
    (ht : Smoothly venue P t τ) (hf : ∀ τ' a, P τ' a → Smoothly venue P' (f a).run τ') :
    Smoothly venue P' ((liftM t : RuntimeE α) >>= f).run τ := by
  rw [ExceptT.run_bind]
  refine Smoothly.bind (P := fun τ' r => ∃ a, r = .ok a ∧ P τ' a) ?_ ?_
  · exact ht.bind fun τ' a ha _ => ⟨a, rfl, ha⟩
  · rintro τ' r ⟨a, rfl, ha⟩
    exact hf τ' a ha

/-- A step, and what follows unless the step fails. -/
theorem attempt {P : RuntimeTrace → Except MarketError α → Prop}
    {P' : RuntimeTrace → Except MarketError β → Prop} {x : RuntimeE α} {f : α → RuntimeE β}
    (hx : Smoothly venue P x.run τ)
    (hok : ∀ τ' a, P τ' (.ok a) → Smoothly venue P' (f a).run τ')
    (herror : ∀ τ' e, P τ' (.error e) → P' τ' (.error e)) :
    Smoothly venue P' (x >>= f).run τ := by
  refine Prog.spec_attempt (Prog.Spec.mono hx (fun _ _ h => h) fun τ' r hr => ?_)
  cases r with
  | ok a => exact assume fun hτ' => hok τ' a (hr hτ')
  | error e => exact fun hτ' => herror τ' e (hr hτ')

/-- An instrument is looked up in the catalog, which knows it. -/
theorem requireSpec {P : RuntimeTrace → Except MarketError α → Prop} {context : LiveContext}
    {i : InstrumentId} {f : InstrumentSpec → RuntimeE α}
    (h : ∀ spec, Smoothly venue P (f spec).run (⟨.resolveInstrument i, some spec⟩ :: τ)) :
    Smoothly venue P (requireSpec context i >>= f).run τ := by
  refine Smoothly.call fun spec hspec => ?_
  cases spec with
  | none => cases hspec
  | some spec => exact h spec

end Smoothly

/-! ### What is asked for a command -/

/-- The call was made. -/
def Asked (τ : RuntimeTrace) (q : RuntimeCall) : Prop :=
  ∃ r, (⟨q, r⟩ : Event RuntimeCall RuntimeReply) ∈ τ

/-- The catalog knows the instrument. -/
def Known (τ : RuntimeTrace) (i : InstrumentId) (spec : InstrumentSpec) : Prop :=
  (⟨.resolveInstrument i, some spec⟩ : Event RuntimeCall RuntimeReply) ∈ τ

/-- The venue was asked for the order of the command, if it has an identity. -/
def LookedUp (context : LiveContext) (τ : RuntimeTrace) (command : PendingUnknownCommand) : Prop :=
  command.hasIdentity = true → ∃ spec lookup, Known τ command.instrumentId spec ∧
    orderLookup context spec command.orderRequest = .ok lookup ∧ Asked τ (.signedGet .order lookup)

/-- The recent orders of the instrument were asked for. -/
def OrdersAsked (context : LiveContext) (τ : RuntimeTrace) (i : InstrumentId) : Prop :=
  ∃ spec window, Known τ i spec ∧
    Asked τ (.signedGet .orderHistory (orderHistoryGet context spec window))

/-- The recent executions of the instrument were asked for. -/
def ExecutionsAsked (context : LiveContext) (τ : RuntimeTrace) (i : InstrumentId) : Prop :=
  ∃ spec window, Known τ i spec ∧
    Asked τ (.signedGet .executions (executionHistoryGet context spec window))

/-- The command was looked for everywhere. -/
structure PassedOver (context : LiveContext) (τ : RuntimeTrace)
    (command : PendingUnknownCommand) : Prop where
  lookedUp : LookedUp context τ command
  ordersAsked : OrdersAsked context τ command.instrumentId
  executionsAsked : ExecutionsAsked context τ command.instrumentId

section Suffix

variable {context : LiveContext} {τ τ' : RuntimeTrace} {i : InstrumentId}

theorem Asked.mono {q : RuntimeCall} (h : Asked τ q) (hτ : τ <:+ τ') : Asked τ' q := by
  obtain ⟨r, hr⟩ := h
  exact ⟨r, hτ.subset hr⟩

theorem LookedUp.mono {command : PendingUnknownCommand} (h : LookedUp context τ command)
    (hτ : τ <:+ τ') : LookedUp context τ' command := by
  intro hid
  obtain ⟨spec, lookup, hknown, hlookup, hasked⟩ := h hid
  exact ⟨spec, lookup, hτ.subset hknown, hlookup, hasked.mono hτ⟩

theorem OrdersAsked.mono (h : OrdersAsked context τ i) (hτ : τ <:+ τ') :
    OrdersAsked context τ' i := by
  obtain ⟨spec, window, hknown, hasked⟩ := h
  exact ⟨spec, window, hτ.subset hknown, hasked.mono hτ⟩

theorem ExecutionsAsked.mono (h : ExecutionsAsked context τ i) (hτ : τ <:+ τ') :
    ExecutionsAsked context τ' i := by
  obtain ⟨spec, window, hknown, hasked⟩ := h
  exact ⟨spec, window, hτ.subset hknown, hasked.mono hτ⟩

end Suffix

/-! ### The stages of the recovery -/

variable {context : LiveContext} {τ : RuntimeTrace}

/-- How the lookups of some commands end: all of them are answered in a way the recovery goes on
after, or one of them is not. -/
def LookupsEnd {α : Type} (venue : Venue) (pending : List PendingUnknownCommand)
    (leaves : RuntimeTrace → α → Prop) (τ : RuntimeTrace) : Except MarketError α → Prop
  | .ok a => leaves τ a ∧ NoneMissing venue τ ∧ ∀ c ∈ pending, c.Lookable venue
  | .error _ => ¬ (NoneMissing venue τ ∧ ∀ c ∈ pending, c.Lookable venue)

theorem lookable_of_no_identity {venue : Venue} {command : PendingUnknownCommand}
    (h : command.hasIdentity = false) : command.Lookable venue := by
  rintro - -
  rw [PendingUnknownCommand.hasIdentity, Bool.or_eq_false_iff] at h
  simpa using h.2

theorem smoothly_getOrder {command : PendingUnknownCommand} (hid : command.hasIdentity = true)
    (hτ : NoneMissing context.venue τ) :
    Smoothly context.venue (fun τ' r =>
      (goesOn r = true → LookedUp context τ' command ∧ NoneMissing context.venue τ' ∧
        command.Lookable context.venue) ∧
      (goesOn r = false → ¬ (NoneMissing context.venue τ' ∧ command.Lookable context.venue)))
      (getOrder context command.orderRequest).run τ := by
  refine Smoothly.requireSpec fun spec => ?_
  have hτ₁ : NoneMissing context.venue
      (⟨.resolveInstrument command.orderRequest.instrumentId, some spec⟩ :: τ) :=
    noneMissing_cons.2 ⟨id, hτ⟩
  -- a command that cannot be looked up ends in an error of its own
  by_cases hlookable : command.Lookable context.venue
  · obtain ⟨lookup, hlookup⟩ := orderLookup_lookable spec hid hlookable
    rw [hlookup]
    refine Smoothly.call fun r hr => ?_
    have hlooked : LookedUp context (⟨.signedGet .order lookup, r⟩ ::
        ⟨.resolveInstrument command.orderRequest.instrumentId, some spec⟩ :: τ) command :=
      fun _ => ⟨spec, lookup, List.mem_cons_of_mem _ List.mem_cons_self, hlookup,
        r, List.mem_cons_self⟩
    -- a reply after which the recovery goes on hides no missing order
    have hnone : goesOn r = true → NoneMissing context.venue (⟨.signedGet .order lookup, r⟩ ::
        ⟨.resolveInstrument command.orderRequest.instrumentId, some spec⟩ :: τ) := by
      refine fun hgo => noneMissing_cons.2 ⟨fun hhidden => ?_, hτ₁⟩
      obtain ⟨e, rfl, he⟩ := HiddenNoSuchOrder.error hhidden
      rw [goesOn, he] at hgo
      cases hgo
    cases hgo : goesOn r with
    | true =>
      cases r with
      | error e => exact fun _ => ⟨fun _ => ⟨hlooked, hnone hgo, hlookable⟩, fun h => by
          rw [hgo] at h
          cases h⟩
      | ok order =>
        refine Smoothly.call fun _ _ => Smoothly.call fun _ _ => fun _ => ⟨fun _ => ?_, nofun⟩
        refine ⟨hlooked.mono ((List.suffix_cons _ _).trans (List.suffix_cons _ _)), ?_, hlookable⟩
        exact noneMissing_cons.2 ⟨id, noneMissing_cons.2 ⟨id, hnone rfl⟩⟩
    | false =>
      have hno : NoSuchOrder context.venue r := hr.resolve_left (by simp [hgo])
      have hhidden := hno.hidden hgo
      obtain ⟨e, rfl, -⟩ := hhidden.error
      refine fun _ => ⟨fun h => ?_, fun _ h => h.1 _ List.mem_cons_self hhidden⟩
      rw [hgo] at h
      cases h
  · obtain ⟨e, he, hmissing⟩ := orderLookup_not_lookable spec hlookable
    rw [he]
    refine fun _ => ⟨fun hgo => ?_, fun _ h => hlookable h.2⟩
    rw [goesOn, hmissing] at hgo
    cases hgo

theorem smoothly_lookupOrder (command : PendingUnknownCommand)
    (hτ : NoneMissing context.venue τ) :
    Smoothly context.venue (LookupsEnd context.venue [command] fun τ' _ =>
      LookedUp context τ' command) (lookupOrder context command).run τ := by
  rw [lookupOrder, ExceptT.run_mk]
  split
  · next hid =>
    refine Smoothly.bind (smoothly_getOrder hid hτ) fun τ' r hr => ?_
    cases r with
    | ok order =>
      obtain ⟨hlooked, hnone, hlookable⟩ := hr.1 rfl
      exact fun _ => ⟨hlooked, hnone, by simpa using hlookable⟩
    | error e =>
      refine fun _ => ?_
      cases hmissing : isMissingOrderError e with
      | true =>
        obtain ⟨hlooked, hnone, hlookable⟩ := hr.1 hmissing
        exact ⟨hlooked, hnone, by simpa using hlookable⟩
      | false =>
        have hstops := hr.2 hmissing
        simpa [LookupsEnd] using hstops
  · next hid =>
    have hid' : command.hasIdentity = false := Bool.eq_false_iff.2 hid
    refine fun _ => ⟨fun h => ?_, hτ, fun c hc => ?_⟩
    · rw [hid'] at h
      cases h
    · obtain rfl := List.mem_singleton.1 hc
      exact lookable_of_no_identity hid'

theorem smoothly_lookupOrders (pending : List PendingUnknownCommand)
    (hτ : NoneMissing context.venue τ) :
    Smoothly context.venue (LookupsEnd context.venue pending fun τ' U =>
      ∀ c ∈ U, LookedUp context τ' c) (lookupOrders context pending).run τ := by
  induction pending generalizing τ with
  | nil => exact fun _ => ⟨fun _ hc => absurd hc List.not_mem_nil, hτ, fun _ hc => absurd hc
      List.not_mem_nil⟩
  | cons command pending ih =>
    refine Smoothly.attempt (smoothly_lookupOrder command hτ) (fun τ₁ resolved h₁ => ?_)
      fun τ₁ e h₁ hall => ?_
    · obtain ⟨hlooked, hnone, hlookable⟩ := h₁
      refine Smoothly.attempt (ih hnone).and_suffix (fun τ₂ U h₂ => ?_) fun τ₂ e h₂ hall => ?_
      · obtain ⟨⟨hrest, hnone', hpending⟩, hτ₂⟩ := h₂
        refine fun _ => ⟨fun c hc => ?_, hnone', List.forall_mem_cons.2 ⟨?_, hpending⟩⟩
        · cases resolved with
          | true => exact hrest c hc
          | false =>
            rcases List.mem_cons.1 hc with rfl | hc
            · exact hlooked.mono hτ₂
            · exact hrest c hc
        · exact hlookable command List.mem_cons_self
      · exact h₂.1 ⟨hall.1, fun c hc => hall.2 c (List.mem_cons_of_mem _ hc)⟩
    · refine h₁ ⟨hall.1, fun c hc => ?_⟩
      obtain rfl := List.mem_singleton.1 hc
      exact hall.2 c List.mem_cons_self

/-- The recent records of each instrument are asked for. -/
theorem smoothly_resolveGroups {ρ : Type}
    {refresh : InstrumentId → List PendingUnknownCommand → RuntimeE (List ρ)}
    {merge : List ρ → EngineOp}
    {unresolvedAfter : List PendingUnknownCommand → List ρ → List PendingUnknownCommand}
    {asked : RuntimeTrace → InstrumentId → Prop} {venue : Venue}
    (hrefresh : ∀ τ i commands, NoneMissing venue τ → Smoothly venue (fun τ' r =>
      (∃ records, r = .ok records) ∧ NoneMissing venue τ' ∧ asked τ' i) (refresh i commands).run τ)
    (hmono : ∀ τ τ' i, asked τ i → τ <:+ τ' → asked τ' i)
    (hsub : ∀ commands records, ∀ c ∈ unresolvedAfter commands records, c ∈ commands)
    (groups : List (InstrumentId × List PendingUnknownCommand)) (hτ : NoneMissing venue τ) :
    Smoothly venue (fun τ' r => ∃ U, r = .ok U ∧ NoneMissing venue τ' ∧
        ∀ c ∈ U, ∃ group ∈ groups, c ∈ group.2 ∧ asked τ' group.1)
      (resolveGroups refresh merge unresolvedAfter groups).run τ := by
  induction groups generalizing τ with
  | nil => exact fun _ => ⟨[], rfl, hτ, fun _ hc => by cases hc⟩
  | cons group groups ih =>
    obtain ⟨i, commands⟩ := group
    refine Smoothly.attempt (hrefresh τ i commands hτ) (fun τ₁ records h₁ => ?_)
      fun τ₁ e h₁ => ?_
    · obtain ⟨-, hnone, hasked⟩ := h₁
      have hnone₁ : ∀ ops, NoneMissing venue (⟨.write ops, ()⟩ :: τ₁) := fun _ =>
        noneMissing_cons.2 ⟨id, hnone⟩
      refine Smoothly.call fun _ _ => ?_
      refine Smoothly.attempt (ih (hnone₁ _)).and_suffix (fun τ₂ U h₂ => ?_) fun τ₂ e h₂ => ?_
      · obtain ⟨⟨U', hU, hnone', hrest⟩, hτ₂⟩ := h₂
        cases hU
        refine fun _ => ⟨_, rfl, hnone', fun c hc => ?_⟩
        rcases List.mem_append.1 hc with hc | hc
        · exact ⟨(i, commands), List.mem_cons_self, hsub _ _ c hc,
            hmono _ _ _ hasked ((List.suffix_cons _ _).trans hτ₂)⟩
        · obtain ⟨group, hgroup, hmem, hasked'⟩ := hrest c hc
          exact ⟨group, List.mem_cons_of_mem _ hgroup, hmem, hasked'⟩
      · obtain ⟨⟨U', hU, -⟩, -⟩ := h₂
        cases hU
    · obtain ⟨⟨records, hrecords⟩, -⟩ := h₁
      cases hrecords

theorem smoothly_refreshRecentOrderHistory {venue : Venue} (i : InstrumentId)
    (commands : List PendingUnknownCommand) (hτ : NoneMissing venue τ) :
    Smoothly venue (fun τ' r => (∃ orders, r = .ok orders) ∧ NoneMissing venue τ' ∧
      OrdersAsked context τ' i) (refreshRecentOrderHistory context i commands).run τ := by
  refine Smoothly.requireSpec fun spec => ?_
  refine Smoothly.call fun now _ => Smoothly.call fun times _ => Smoothly.call fun health _ => ?_
  refine Smoothly.call fun r hr _ => ⟨hr, ?_, spec, _, ?_, r, List.mem_cons_self⟩
  · simp only [noneMissing_cons]
    exact ⟨id, id, id, id, id, hτ⟩
  · simp only [Known, List.mem_cons, true_or, or_true]

theorem smoothly_refreshRecentExecutionHistory {venue : Venue} (i : InstrumentId)
    (commands : List PendingUnknownCommand) (hτ : NoneMissing venue τ) :
    Smoothly venue (fun τ' r => (∃ executions, r = .ok executions) ∧ NoneMissing venue τ' ∧
      ExecutionsAsked context τ' i) (refreshRecentExecutionHistory context i commands).run τ := by
  refine Smoothly.call fun now _ => Smoothly.call fun times _ => Smoothly.call fun health _ => ?_
  refine Smoothly.requireSpec fun spec => ?_
  refine Smoothly.call fun r hr _ => ⟨hr, ?_, spec, _, ?_, r, List.mem_cons_self⟩
  · simp only [noneMissing_cons]
    exact ⟨id, id, id, id, id, hτ⟩
  · simp only [Known, List.mem_cons, true_or, or_true]

/-- A history stage keeps commands of the list, and has asked for the history of each. -/
def HistoryEnd (venue : Venue) (asked : RuntimeTrace → InstrumentId → Prop)
    (pending : List PendingUnknownCommand) (τ : RuntimeTrace)
    (r : Except MarketError (List PendingUnknownCommand)) : Prop :=
  ∃ U, r = .ok U ∧ NoneMissing venue τ ∧ ∀ c ∈ U, c ∈ pending ∧ asked τ c.instrumentId

theorem historyEnd_of_groups {venue : Venue} {asked : RuntimeTrace → InstrumentId → Prop}
    {pending : List PendingUnknownCommand} {r : Except MarketError (List PendingUnknownCommand)}
    (h : ∃ U, r = .ok U ∧ NoneMissing venue τ ∧
      ∀ c ∈ U, ∃ group ∈ (pendingByInstrument pending).toList, c ∈ group.2 ∧ asked τ group.1) :
    HistoryEnd venue asked pending τ r := by
  obtain ⟨U, hU, hnone, hgroups⟩ := h
  refine ⟨U, hU, hnone, fun c hc => ?_⟩
  obtain ⟨group, hgroup, hmem, hasked⟩ := hgroups c hc
  obtain ⟨hpending, hkey⟩ := (mem_group_iff hgroup).1 hmem
  exact ⟨hpending, hkey ▸ hasked⟩

theorem smoothly_resolvePendingFromRecentOrderHistory {venue : Venue}
    (pending : List PendingUnknownCommand) (hτ : NoneMissing venue τ) :
    Smoothly venue (HistoryEnd venue (OrdersAsked context) pending)
      (resolvePendingFromRecentOrderHistory context pending).run τ :=
  (smoothly_resolveGroups (fun _ i commands h => smoothly_refreshRecentOrderHistory i commands h)
    (fun _ _ _ h hτ => h.mono hτ) (fun _ _ _ hc => mem_of_mem_unresolvedAfterOrders hc) _
    hτ).mono fun _ _ => historyEnd_of_groups

theorem smoothly_resolvePendingFromRecentExecutionHistory {venue : Venue}
    (pending : List PendingUnknownCommand) (hτ : NoneMissing venue τ) :
    Smoothly venue (HistoryEnd venue (ExecutionsAsked context) pending)
      (resolvePendingFromRecentExecutionHistory context pending).run τ :=
  (smoothly_resolveGroups
    (fun _ i commands h => smoothly_refreshRecentExecutionHistory i commands h)
    (fun _ _ _ h hτ => h.mono hτ) (fun _ _ _ hc => mem_of_mem_unresolvedAfterExecutions hc) _
    hτ).mono fun _ _ => historyEnd_of_groups

/-! ### The recovery as a whole -/

variable (context) in
/-- The recovery of the commands that the local state leaves. -/
def recoverRemaining (pending : List PendingUnknownCommand) : RuntimeE Nat := do
  if pending.isEmpty then return 0
  else
    let unresolved ← lookupOrders context pending
    let unresolved ← resolvePendingFromLocalState unresolved
    if unresolved.isEmpty then
      replacePendingUnknownCommands []
      return 0
    else
      let unresolved ← resolvePendingFromRecentOrderHistory context unresolved
      if unresolved.isEmpty then
        replacePendingUnknownCommands []
        return 0
      else
        let unresolved ← resolvePendingFromRecentExecutionHistory context unresolved
        replacePendingUnknownCommands unresolved
        return unresolved.length

theorem smoothly_resolvePendingFromLocalState {venue : Venue} (U : List PendingUnknownCommand)
    (hτ : NoneMissing venue τ) :
    Smoothly venue (fun τ' U' => NoneMissing venue τ' ∧ ∀ c ∈ U', c ∈ U)
      (resolvePendingFromLocalState U) τ := by
  unfold resolvePendingFromLocalState
  split
  · exact fun _ => ⟨hτ, fun _ hc => hc⟩
  · refine Smoothly.call fun r _ _ => ⟨noneMissing_cons.2 ⟨id, hτ⟩, fun c hc => ?_⟩
    exact mem_of_mem_unresolvedAfterOrders (mem_of_mem_unresolvedAfterExecutions hc)

/-- The commands that the replies leave were looked for everywhere. -/
def AllPassedOver (context : LiveContext) (τ : RuntimeTrace) (_ : Nat) : Prop :=
  ∀ c ∈ leftOf τ, PassedOver context τ c

/-- No command is left. -/
theorem AllPassedOver.done {U : List PendingUnknownCommand} (h : Accounted τ U)
    (hU : U.isEmpty = true) : AllPassedOver context τ 0 := by
  intro c hc
  rw [← h.perm.mem_iff, List.isEmpty_iff.1 hU] at hc
  cases hc

/-- Writing the list back changes nothing about the commands left. -/
theorem AllPassedOver.replace {n : Nat} (h : AllPassedOver context τ n)
    (U : List PendingUnknownCommand) :
    AllPassedOver context (⟨.replacePendingUnknownCommands U, ()⟩ :: τ) n := by
  intro c hc
  have hτ := List.suffix_cons (⟨.replacePendingUnknownCommands U, ()⟩ :
    Event RuntimeCall RuntimeReply) τ
  have hleft : leftOf (⟨.replacePendingUnknownCommands U, ()⟩ :: τ) = leftOf τ :=
    List.filter_eq_self.2 fun _ _ => rfl
  rw [hleft] at hc
  obtain ⟨hlooked, horders, hexecutions⟩ := h c hc
  exact ⟨hlooked.mono hτ, horders.mono hτ, hexecutions.mono hτ⟩

theorem smoothly_recoverRemaining {pending : List PendingUnknownCommand}
    (hacc : Examining τ pending) (hask : toAsk τ = pending.filter (·.hasIdentity))
    (hτ : NoneMissing context.venue τ) :
    Smoothly context.venue (LookupsEnd context.venue pending (AllPassedOver context))
      (recoverRemaining context pending).run τ := by
  unfold recoverRemaining
  split
  · next hempty =>
    refine fun _ => ⟨.done hacc.toAccounted hempty, hτ, fun c hc => ?_⟩
    rw [List.isEmpty_iff.1 hempty] at hc
    cases hc
  · refine Smoothly.attempt ((smoothly_lookupOrders pending hτ).and_spec
      (spec_lookupOrders pending (show Examining τ ([] ++ pending) from hacc) hask))
      (fun τ₁ U h₁ => ?_) fun τ₁ e h₁ => h₁.1
    obtain ⟨⟨hlooked, hnone, hlookable⟩, hacc⟩ := h₁
    have hacc : Examining τ₁ U := hacc
    refine Smoothly.lift ((smoothly_resolvePendingFromLocalState U hnone).and_spec
      (spec_resolvePendingFromLocalState hacc.toAccounted)).and_suffix fun τ₂ U₂ h₂ => ?_
    obtain ⟨⟨⟨hnone, hU₂⟩, hacc, -⟩, hτ₂⟩ := h₂
    have hlooked₂ : ∀ c ∈ U₂, LookedUp context τ₂ c := fun c hc => (hlooked c (hU₂ c hc)).mono hτ₂
    -- an exit that leaves nothing has passed over every command
    have hdone : ∀ {τ' : RuntimeTrace} {U' : List PendingUnknownCommand},
        Examining τ' U' → U'.isEmpty = true → NoneMissing context.venue τ' →
        LookupsEnd context.venue pending (AllPassedOver context)
          (⟨.replacePendingUnknownCommands [], ()⟩ :: τ') (.ok 0) := fun hacc hempty hnone =>
      ⟨(AllPassedOver.done hacc.toAccounted hempty).replace [],
        noneMissing_cons.2 ⟨id, hnone⟩, hlookable⟩
    split
    · next hempty => exact Smoothly.call fun _ _ _ => hdone hacc hempty hnone
    · refine Smoothly.attempt ((smoothly_resolvePendingFromRecentOrderHistory U₂ hnone).and_spec
        (spec_resolvePendingFromRecentOrderHistory hacc)).and_suffix (fun τ₃ U₃ h₃ => ?_)
        fun τ₃ e h₃ => ?_
      · obtain ⟨⟨⟨_, ⟨⟩, hnone, horders⟩, hacc⟩, hτ₃⟩ := h₃
        have hacc : Examining τ₃ U₃ := hacc
        split
        · next hempty => exact Smoothly.call fun _ _ _ => hdone hacc hempty hnone
        · refine Smoothly.attempt ((smoothly_resolvePendingFromRecentExecutionHistory U₃ hnone
            ).and_spec (spec_resolvePendingFromRecentExecutionHistory hacc)).and_suffix
            (fun τ₄ U₄ h₄ => ?_) fun τ₄ e h₄ => ?_
          · obtain ⟨⟨⟨_, ⟨⟩, hnone, hexecutions⟩, hacc⟩, hτ₄⟩ := h₄
            have hacc : Examining τ₄ U₄ := hacc
            -- who is left has been looked up, and asked for in both histories
            have hpassed : AllPassedOver context τ₄ U₄.length := by
              intro c hc
              obtain ⟨hU₃, hasked⟩ := hexecutions c (hacc.perm.mem_iff.2 hc)
              obtain ⟨hU₂, hasked'⟩ := horders c hU₃
              exact ⟨((hlooked₂ c hU₂).mono hτ₃).mono hτ₄, hasked'.mono hτ₄, hasked⟩
            exact Smoothly.call fun _ _ _ =>
              ⟨hpassed.replace U₄, noneMissing_cons.2 ⟨id, hnone⟩, hlookable⟩
          · obtain ⟨⟨⟨_, ⟨⟩, _⟩, _⟩, _⟩ := h₄
      · obtain ⟨⟨⟨_, ⟨⟩, _⟩, _⟩, _⟩ := h₃

/-- The commands that the recovery read, less those that the local state resolves. -/
def remaining (τ : RuntimeTrace) : List PendingUnknownCommand :=
  match τ.reverse with
  | ⟨.pendingUnknownCommands, pending⟩ ::
      ⟨.read .ordersAndExecutions, (orders, executions)⟩ :: _ =>
    unresolvedPendingAfterState pending orders executions
  | _ => []

theorem remaining_nil {σ : RuntimeTrace} (h : [⟨.pendingUnknownCommands, []⟩] <:+ σ) :
    remaining σ = [] := by
  obtain ⟨l, rfl⟩ := h
  rw [remaining, List.reverse_append]
  cases hl : l.reverse with
  | nil => rfl
  | cons e l =>
    obtain ⟨q, r⟩ := e
    cases q with
    | read what => cases what <;> rfl
    | _ => rfl

theorem remaining_read {pending : List PendingUnknownCommand} {orders : List Order}
    {executions : List Execution} {σ : RuntimeTrace}
    (h : [⟨.read .ordersAndExecutions, (orders, executions)⟩, ⟨.pendingUnknownCommands, pending⟩]
      <:+ σ) : remaining σ = unresolvedPendingAfterState pending orders executions := by
  obtain ⟨l, rfl⟩ := h
  rw [remaining, List.reverse_append]
  rfl

/-- When nothing else goes wrong, the recovery comes to its end, and each command of the list is
resolved or was looked for everywhere. -/
def SurvivesMissing (context : LiveContext) (τ : RuntimeTrace) (result : Except MarketError Nat) :
    Prop :=
  Undisturbed context.venue τ → (∃ n, result = .ok n) ∧
    ∀ c ∈ snapshotOf τ, (grounds c τ).isSome = true ∨ PassedOver context τ c

/-- No lookup was answered that there is no such order in a form that hides it, and each command to
be looked up on MEXC has an order id. -/
def Tolerated (venue : Venue) (τ : RuntimeTrace) : Prop :=
  NoneMissing venue τ ∧ ∀ c ∈ remaining τ, c.Lookable venue

/-- The recovery of the commands left ends well exactly when what it meets is tolerated. -/
theorem survivesMissing_of_recoverRemaining {pending : List PendingUnknownCommand}
    {τ' : RuntimeTrace} {result : Except MarketError Nat} (hacc : Examining τ pending)
    (hask : toAsk τ = pending.filter (·.hasIdentity)) (hτ : NoneMissing context.venue τ)
    (hremaining : ∀ σ : RuntimeTrace, τ <:+ σ → remaining σ = pending)
    (h : (recoverRemaining context pending).run.Ends τ τ' result) :
    SurvivesMissing context τ' result ↔
      (Undisturbed context.venue τ' → Tolerated context.venue τ') := by
  have hend := h.post (smoothly_recoverRemaining hacc hask hτ)
  refine imp_congr_right fun hundisturbed => ?_
  have hend := hend hundisturbed
  rw [Tolerated, hremaining τ' h.suffix]
  cases result with
  | error e =>
    refine ⟨fun hs => ?_, fun ht => absurd ht hend⟩
    obtain ⟨⟨n, hn⟩, -⟩ := hs
    cases hn
  | ok n =>
    obtain ⟨hpassed, hnone, hlookable⟩ := hend
    refine ⟨fun _ => ⟨hnone, hlookable⟩, fun _ => ⟨⟨n, rfl⟩, fun c hc => ?_⟩⟩
    by_cases hleft : c ∈ leftOf τ'
    · exact .inr (hpassed c hleft)
    · exact .inl (isSome_grounds_iff.2 ⟨hc, hleft⟩)

/-- **Missing orders.**  A recovery in which nothing else goes wrong comes to its end, with each
command resolved or looked for everywhere, exactly when no lookup is answered that there is no such
order in a form that the adapter does not recognise, and each command to be looked up on MEXC has an
order id. -/
theorem missing_order_survived_iff {τ : RuntimeTrace} {result : Except MarketError Nat}
    (h : (resolvePendingUnknownCommands context).run.Ends [] τ result) :
    SurvivesMissing context τ result ↔
      (Undisturbed context.venue τ → Tolerated context.venue τ) := by
  obtain ⟨pending, h⟩ := Prog.ends_call.1 h
  have hacc : Accounted [⟨.pendingUnknownCommands, pending⟩] pending := .snapshot pending
  have hnone : NoneMissing context.venue [⟨.pendingUnknownCommands, pending⟩] :=
    noneMissing_cons.2 ⟨id, noneMissing_nil⟩
  cases pending with
  | nil =>
    exact survivesMissing_of_recoverRemaining ⟨hacc, fun hU => absurd rfl hU⟩ rfl hnone
      (fun σ => remaining_nil) h
  | cons c pending =>
    obtain ⟨⟨orders, executions⟩, h⟩ := Prog.ends_call.1 h
    obtain ⟨hlocal, hask⟩ := (spec_resolvePendingFromLocalState hacc).2 (orders, executions)
    have hnone : NoneMissing context.venue [⟨.read .ordersAndExecutions, (orders, executions)⟩,
        ⟨.pendingUnknownCommands, c :: pending⟩] := noneMissing_cons.2 ⟨id, hnone⟩
    exact survivesMissing_of_recoverRemaining hlocal (hask rfl) hnone (fun σ => remaining_read) h

/-- Two creates are pending. -/
def twoCreates : List PendingUnknownCommand :=
  [⟨.createOrder, ⟨"BTC"⟩, none, some ⟨"a"⟩, 5⟩, ⟨.createOrder, ⟨"BTC"⟩, none, some ⟨"b"⟩, 5⟩]

/-- An account with these creates pending, at a venue that knows of no order and no execution. -/
def withoutOrders (venue : Venue) (answer : MarketError) : LiveWorld where
  engine := EngineState.new venue .linearUsdt ⟨16, 16⟩ []
  pending := twoCreates
  catalog _ := some (.active venue "BTC" "BTCUSDT" 2 3)
  venueReply
    | .order, _ => .error answer
    | .orderHistory, _ => .ok []
    | .executions, _ => .ok []
    | _, _ => .error { kind := .transportError, message := "unavailable" }

/-- What the recovery of the creates sees when it runs alone. -/
def createsTrace (venue : Venue) (answer : MarketError) : RuntimeTrace :=
  (resolvePendingUnknownCommands ⟨venue, .linearUsdt, 5000⟩).run.execTrace LiveWorld.reply
    (withoutOrders venue answer) []

/-- Binance rejects the lookups, and both creates are left. -/
theorem missing_order_survived_iff_binance :
    SurvivesMissing ⟨.binance, .linearUsdt, 5000⟩
      (createsTrace .binance { kind := .exchangeReject, message := "Order does not exist." })
      (.ok 2) := by
  have hrun : (resolvePendingUnknownCommands ⟨.binance, .linearUsdt, 5000⟩).run.Ends []
      (createsTrace .binance { kind := .exchangeReject, message := "Order does not exist." })
      (.ok 2) := Prog.ends_exec _
  exact (missing_order_survived_iff hrun).2 fun _ =>
    ⟨fun e _ => not_hidesMissing_binance e, fun _ _ => nofun⟩

/-- The body of an answer of Bybit without orders. -/
def emptyOrderList : HttpResponse where
  status := 200
  body := .json (.object [("retCode", .integer 0), ("retMsg", .string "OK"),
    ("result", .object [("list", .array [])])])

/-- An empty list on Bybit ends the recovery, and the second create is not looked up. -/
theorem empty_list_ends_recovery :
    ¬ ∀ (context : LiveContext) (τ : RuntimeTrace) (result : Except MarketError Nat),
      (resolvePendingUnknownCommands context).run.Ends [] τ result →
        SurvivesMissing context τ result := by
  intro h
  let answer := decodeFailure "missing bybit order snapshot entry in response"
  have hmissing : NoSuchOrder .bybit (.error answer) :=
    ⟨InstrumentCatalog.new [], 0, "bybit.get_order", emptyOrderList, ⟨rfl, "OK", rfl⟩,
      orderOfAnswer_empty ⟨rfl, "OK", rfl⟩⟩
  obtain ⟨request, htrace⟩ : ∃ request, createsTrace .bybit answer =
      [⟨.signedGet .order request, .error answer⟩,
        ⟨.resolveInstrument ⟨"BTC"⟩, some (.active .bybit "BTC" "BTCUSDT" 2 3)⟩,
        ⟨.read .ordersAndExecutions, ([], [])⟩, ⟨.pendingUnknownCommands, twoCreates⟩] :=
    ⟨_, rfl⟩
  have hrun : (resolvePendingUnknownCommands ⟨.bybit, .linearUsdt, 5000⟩).run.Ends []
      (createsTrace .bybit answer) (.error answer) := Prog.ends_exec _
  rw [htrace] at hrun
  have hsmooth := h _ _ _ hrun fun e he => ?_
  · obtain ⟨⟨n, hn⟩, -⟩ := hsmooth
    cases hn
  · simp only [List.mem_cons, List.not_mem_nil, or_false] at he
    rcases he with rfl | rfl | rfl | rfl
    · exact .inr hmissing
    · rfl
    · trivial
    · trivial

end BatMarkets
