import BatMarkets.Commands.CancelAll
import BatMarkets.Commands.CancelOrders
import BatMarkets.Runtime.Recovery

/-!
# Where the orders of Binance are

Binance keeps conditional orders at an endpoint of their own, under ids of their own.  An order goes
to one endpoint or the other by its type when it is created; afterwards the code tells them apart by
the prefix that it puts before the ids of conditional orders.  A client order id has no such prefix.

An operation that names orders is addressed right when every request it sends names them where they
were created, by the ids the venue has for them.

## Main results

* `createOrder_createsAt` : an order is created where its type says.
* `addressedRight_of_addressable` : an operation is addressed right, whatever the transport mode, if
  every conditional order it names is named by its order id, and is not cancelled in a batch over
  REST.
-/

namespace BatMarkets

open CommandM Interleaving Ordered Prog Wire

/-! ### Names in requests -/

/-- What a request names an order by. -/
inductive OrderName
  | id (text : String)
  | client (text : String)
  deriving DecidableEq

/-- An order named at the endpoint of a family. -/
structure OrderAddress where
  family : OrderFamily
  name : OrderName

/-- The names in the fields of a request. -/
def namesIn (family : OrderFamily) (idKey clientKey : String) (fields : List (String × Json)) :
    List OrderAddress :=
  fields.filterMap fun (key, value) => value.asStr.bind fun text =>
    if key = idKey then some ⟨family, .id text⟩
    else if key = clientKey then some ⟨family, .client text⟩
    else none

/-- The ids in a list without quotes. -/
def listedIds (text : String) : List String :=
  (((text.toList.drop 1).dropLast).splitOn ',').map String.ofList

/-- The names in the two lists of a batch. -/
def listedNames (fields : List (String × Json)) : List OrderAddress :=
  fields.flatMap fun (key, value) =>
    if key = "orderIdList" then
      (value.asStr.map fun text => (listedIds text).map fun id => ⟨.plain, .id id⟩).getD []
    else if key = "origClientOrderIdList" then
      (value.asArray.map fun items =>
        (items.filterMap Json.asStr).map fun id => ⟨.plain, .client id⟩).getD []
    else []

/-- The fields of an object; other values have none. -/
def fieldsOf : Json → List (String × Json)
  | .object fields => fields
  | _ => []

/-- The orders that a query asks for. -/
def SignedGet.addresses (request : SignedGet) : List OrderAddress :=
  if request.path = "/fapi/v1/order" then
    namesIn .plain "orderId" "origClientOrderId" (stringFields request.query)
  else if request.path = "/fapi/v1/algoOrder" then
    namesIn .conditional "algoId" "clientAlgoId" (stringFields request.query)
  else []

/-- The orders that a call asks for or cancels on Binance. -/
def CommandCall.addresses : CommandCall → List OrderAddress
  | .runtime (.signedGet _ request) => request.addresses
  | .rest request =>
    if request.method ≠ .delete then []
    else if request.path = "/fapi/v1/order" then
      namesIn .plain "orderId" "origClientOrderId" (fieldsOf request.body)
    else if request.path = "/fapi/v1/algoOrder" then
      namesIn .conditional "algoId" "clientAlgoId" (fieldsOf request.body)
    else if request.path = "/fapi/v1/batchOrders" then listedNames (fieldsOf request.body)
    else []
  | .ws frame =>
    if frame.method = "order.cancel" then
      namesIn .plain "orderId" "origClientOrderId" (fieldsOf frame.params)
    else []
  | _ => []

/-! ### Orders that have been created -/

/-- An order created on Binance, with the number the venue gave it and its client order id. -/
structure CreatedOrder where
  request : CreateOrderRequest
  number : ℤ
  clientOrderId : ClientOrderId
  /-- The client order id is the requested one, if one was requested. -/
  requested : ∀ id, request.clientOrderId = some id → clientOrderId = id

namespace CreatedOrder

/-- Where the order was created. -/
def family (order : CreatedOrder) : OrderFamily :=
  if binanceCreateUsesAlgoOrderEndpoint order.request then .conditional else .plain

/-- The id of the order in the engine. -/
def orderId (order : CreatedOrder) : OrderId :=
  match order.family with
  | .conditional => Binance.algoOrderId order.number
  | .plain => ⟨toString order.number⟩

/-- The target names the order, by its id, by its client order id or by both. -/
structure NamedBy (order : CreatedOrder) (target : OrderTarget) : Prop where
  orderId : ∀ id, target.orderId = some id → id = order.orderId
  clientOrderId : ∀ id, target.clientOrderId = some id → id = order.clientOrderId
  named : target.orderId.isSome ∨ target.clientOrderId.isSome

/-- The address is where the order was created, under the names the venue has for it. -/
def At (order : CreatedOrder) (address : OrderAddress) : Prop :=
  address.family = order.family ∧ (address.name = .id (toString order.number) ∨
    address.name = .client order.clientOrderId.asStr)

end CreatedOrder

/-- Every order the call addresses is one of those named, and is addressed right; a client order id
is sent to where the order it names was created. -/
structure AddressesRight (created : OrderTarget → CreatedOrder) (targets : List OrderTarget)
    (q : CommandCall) : Prop where
  named : ∀ a ∈ q.addresses, ∃ target ∈ targets, (created target).At a
  client : ∀ a ∈ q.addresses, ∀ target ∈ targets, target.orderId = none →
    a.name = .client (created target).clientOrderId.asStr → a.family = (created target).family

/-- The operations that name orders. -/
inductive NamingOperation
  | getOrder (request : GetOrderRequest)
  | cancelOrder (request : CancelOrderRequest)
  | cancelOrders (request : CancelOrdersRequest)
  /-- The lookup of the order of a pending command, in a reconcile. -/
  | lookupOrder (command : PendingUnknownCommand)

namespace NamingOperation

/-- The orders that the operation names. -/
def targets : NamingOperation → List OrderTarget
  | .getOrder request => [⟨request.instrumentId, request.orderId, request.clientOrderId⟩]
  | .cancelOrder request => [⟨request.instrumentId, request.orderId, request.clientOrderId⟩]
  | .cancelOrders request => request.orders
  | .lookupOrder command => [⟨command.instrumentId, command.orderId, command.clientOrderId⟩]

/-- The operation, whose result does not matter here. -/
def run (context : CommandContext) : NamingOperation → CommandE Unit
  | .getOrder request => do
    let _ ← liftRuntime (BatMarkets.getOrder context.toLiveContext request)
  | .cancelOrder request => do
    let _ ← BatMarkets.cancelOrder context request
  | .cancelOrders request => do
    let _ ← BatMarkets.cancelOrders context request
  | .lookupOrder command => do
    let _ ← liftRuntime (BatMarkets.lookupOrder context.toLiveContext command)

/-- The operation cancels several orders. -/
def IsBatch : NamingOperation → Prop
  | .cancelOrders request => 1 < request.orders.length
  | _ => False

end NamingOperation

/-- In every run, whatever the transport mode, the operation addresses the orders it names right. -/
def AddressedRight (wsOrderEntry : Bool) (created : OrderTarget → CreatedOrder)
    (operation : NamingOperation) : Prop :=
  ∀ context : CommandContext, context.venue = .binance → context.wsOrderEntry = wsOrderEntry →
    (operation.run context).run.Always fun _ q => AddressesRight created operation.targets q

/-- The code can tell the conditional orders that the operation names. -/
def Addressable (wsOrderEntry : Bool) (created : OrderTarget → CreatedOrder)
    (operation : NamingOperation) : Prop :=
  ∀ target ∈ operation.targets, (created target).family = .conditional →
    target.orderId.isSome ∧ (operation.IsBatch → wsOrderEntry = true)

/-! ### Where orders are created -/

/-- Where a call creates an order on Binance. -/
def CommandCall.createsAt : CommandCall → Option OrderFamily
  | .rest request =>
    if request.path = "/fapi/v1/algoOrder" then some .conditional
    else if request.path = "/fapi/v1/order" then some .plain
    else none
  | .ws frame => if frame.method = "order.place" then some .plain else none
  | _ => none

/-- `create_order` creates an order where its family says. -/
theorem createOrder_createsAt {context : CommandContext} (hv : context.venue = .binance)
    (order : CreatedOrder) :
    (createOrder context order.request).run.Always
      fun _ q => q.Writes → q.createsAt = some order.family := by
  have hlocal : ∀ (τ : List (Event CommandCall CommandReply)) (q : CommandCall), q.Local →
      q.Writes → q.createsAt = some order.family := fun _ _ hq hw => absurd hw hq.not_writes
  have hsend : Yields (fun _ q => q.Writes → q.createsAt = some order.family) (fun _ => True)
      (sendCreateOrder context order.request) := by
    unfold sendCreateOrder
    rw [hv]
    dsimp only
    refine (yields_commandSpec hlocal _).attempt fun spec _ => ?_
    by_cases halgo : binanceCreateUsesAlgoOrderEndpoint order.request = true
    · rw [if_pos halgo]
      exact yields_sendRestOnly fun _ _ => by simp [CommandCall.createsAt, CreatedOrder.family, halgo]
    · rw [if_neg halgo]
      exact yields_sendCommand (fun _ _ => by simp [CommandCall.createsAt, CreatedOrder.family, halgo])
        fun _ _ => by simp [CommandCall.createsAt, CreatedOrder.family, halgo]
  refine Yields.always (P := fun _ => True) ?_
  unfold createOrder
  refine Yields.attempt (P := fun _ => True) ?_ fun _ _ => ?_
  · exact (yields_commandSpec hlocal _).attempt fun _ _ _ _ _ => trivial
  · refine hsend.attempt fun (receipt, transport) _ => ?_
    exact (yields_cachePendingUnknown hlocal _ _ _ _ _).attempt fun _ _ =>
      yields_applyCommandReceipt hlocal _ _

/-! ### Ids -/

theorem mem_toList_toString {n : ℤ} {c : Char} (h : c ∈ (toString n).toList) :
    c.isDigit = true ∨ c = '-' := by
  cases n with
  | ofNat n =>
    rw [show toString (Int.ofNat n) = toString n from rfl, Nat.toString_eq_repr] at h
    simp only [Nat.toList_repr] at h
    exact .inl (Nat.isDigit_of_mem_toDigits (by decide) (by decide) h)
  | negSucc n =>
    rw [show toString (Int.negSucc n) = "-" ++ toString (n + 1) from rfl, String.toList_append,
      Nat.toString_eq_repr] at h
    simp only [Nat.toList_repr, List.mem_append] at h
    rcases h with h | h
    · exact .inr (by simpa using h)
    · exact .inl (Nat.isDigit_of_mem_toDigits (by decide) (by decide) h)

theorem binanceAlgoOrderIdValue_algoOrderId (n : ℤ) :
    binanceAlgoOrderIdValue (Binance.algoOrderId n) = some (toString n) :=
  Text.map_toString_dropPrefix? _ _

theorem binanceAlgoOrderIdValue_toString (n : ℤ) :
    binanceAlgoOrderIdValue ⟨toString n⟩ = none := by
  unfold binanceAlgoOrderIdValue
  cases h : (toString n).dropPrefix? "binance-algo:" with
  | none => simp
  | some rest =>
    have happend := String.eq_append_of_dropPrefix?_string_eq_some h
    have hmem : 'b' ∈ (toString n).toList := by
      rw [happend]
      simp
    rcases mem_toList_toString hmem with hb | hb
    · exact absurd hb (by decide)
    · exact absurd hb (by decide)

theorem not_comma_mem_toString (n : ℤ) : ',' ∉ (toString n).toList := by
  intro h
  rcases mem_toList_toString h with hc | hc
  · exact absurd hc (by decide)
  · exact absurd hc (by decide)

/-- A list of ids is read back, unless an id has a comma. -/
theorem listedIds_orderIdList {ids : List OrderId} (hne : ids ≠ [])
    (hcomma : ∀ id ∈ ids, ',' ∉ id.asStr.toList) :
    listedIds (orderIdList ids) = ids.map (·.asStr) := by
  have htext : ((orderIdList ids).toList.drop 1).dropLast =
      [','].intercalate (ids.map fun id => id.asStr.toList) := by
    simp [orderIdList, String.toList_intercalate, List.map_map, Function.comp_def]
  unfold listedIds
  rw [htext, List.splitOn_intercalate]
  · simp [List.map_map, Function.comp_def]
  · simpa using hcomma
  · simpa using hne

namespace CreatedOrder

variable {order : CreatedOrder} {target : OrderTarget}

theorem orderId_of_plain (h : order.family = .plain) : order.orderId = ⟨toString order.number⟩ := by
  simp [orderId, h]

theorem orderId_of_conditional (h : order.family = .conditional) :
    order.orderId = Binance.algoOrderId order.number := by
  simp [orderId, h]

theorem family_cases (order : CreatedOrder) : order.family = .plain ∨ order.family = .conditional := by
  cases order.family
  · exact .inl rfl
  · exact .inr rfl

theorem not_comma_mem_orderId : ',' ∉ order.orderId.asStr.toList := by
  rcases family_cases order with h | h
  · rw [orderId_of_plain h]
    exact not_comma_mem_toString _
  · rw [orderId_of_conditional h]
    simp only [Binance.algoOrderId, String.toList_append, List.mem_append, not_or]
    exact ⟨by decide, not_comma_mem_toString _⟩

/-- The code takes an order for conditional when it is named by the id of one. -/
theorem isBinanceAlgoOrderId_iff (hnamed : order.NamedBy target) :
    isBinanceAlgoOrderId target.orderId = true ↔
      order.family = .conditional ∧ target.orderId.isSome := by
  unfold isBinanceAlgoOrderId
  cases hid : target.orderId with
  | none => simp
  | some id =>
    obtain rfl := hnamed.orderId id hid
    rcases family_cases order with h | h
    · rw [orderId_of_plain h, Option.bind_some, binanceAlgoOrderIdValue_toString]
      simp [h]
    · rw [orderId_of_conditional h, Option.bind_some, binanceAlgoOrderIdValue_algoOrderId]
      simp [h]

/-- An order that is not taken for conditional is plain, unless only its client order id is
given. -/
theorem plain_of_not_algo (hnamed : order.NamedBy target)
    (hclient : target.orderId = none → order.family = .plain)
    (halgo : ¬ isBinanceAlgoOrderId target.orderId = true) : order.family = .plain := by
  rcases family_cases order with h | h
  · exact h
  · cases hid : target.orderId with
    | none => exact hclient hid
    | some id => exact absurd ((isBinanceAlgoOrderId_iff hnamed).2 ⟨h, by simp [hid]⟩) halgo

end CreatedOrder

/-! ### One order -/

/-- The plain order or the conditional one, as a request of its own names it. -/
theorem namesIn_appendOrderIdentity {target : OrderTarget} {symbol : String}
    {query : List (String × String)}
    (hquery : appendOrderIdentity [("symbol", symbol)] target.orderId target.clientOrderId =
      .ok query) :
    namesIn .plain "orderId" "origClientOrderId" (stringFields query) =
      match target.orderId, target.clientOrderId with
      | some id, _ => [⟨.plain, .id id.asStr⟩]
      | none, some id => [⟨.plain, .client id.asStr⟩]
      | none, none => [] := by
  obtain ⟨instrumentId, orderId, clientOrderId⟩ := target
  cases orderId <;> cases clientOrderId <;> cases hquery <;>
    simp [namesIn, stringFields, Json.asStr]

theorem namesIn_binanceAlgoIdentityQuery {order : CreatedOrder} {target : OrderTarget}
    {query : List (String × String)} (hnamed : order.NamedBy target)
    (hfamily : order.family = .conditional) (hid : target.orderId.isSome)
    (hquery : binanceAlgoIdentityQuery target.orderId target.clientOrderId = .ok query) :
    namesIn .conditional "algoId" "clientAlgoId" (stringFields query) =
      [⟨.conditional, .id (toString order.number)⟩] := by
  obtain ⟨id, hid⟩ := Option.isSome_iff_exists.1 hid
  obtain rfl := hnamed.orderId id hid
  rw [hid, CreatedOrder.orderId_of_conditional hfamily] at hquery
  simp only [binanceAlgoIdentityQuery, binanceAlgoOrderIdValue_algoOrderId] at hquery
  cases hquery
  simp [namesIn, stringFields, Json.asStr]

section Right

variable {created : OrderTarget → CreatedOrder} {targets : List OrderTarget} {target : OrderTarget}

theorem addressesRight_of_nil {q : CommandCall} (h : q.addresses = []) :
    AddressesRight created targets q := by
  constructor <;> simp [h]

theorem addressesRight_of_local {q : CommandCall} (h : q.Local) :
    AddressesRight created targets q := by
  refine addressesRight_of_nil ?_
  cases q with
  | rest request => exact h.elim
  | ws frame => exact h.elim
  | runtime q =>
    cases q with
    | signedGet decoder request => exact h.elim
    | _ => rfl
  | _ => rfl

/-- An order that can be told from its names is addressed right by its own request. -/
theorem addressesRight_of_names {q : CommandCall} (hmem : target ∈ targets)
    (hclient : ∀ t ∈ targets, t.orderId = none → (created t).family = .plain)
    (hq : ∀ a ∈ q.addresses, (created target).At a ∧
      ∀ text, a.name = .client text → a.family = .plain) :
    AddressesRight created targets q where
  named := fun a ha => ⟨target, hmem, (hq a ha).1⟩
  client := by
    intro a ha t ht hid hname
    rw [hclient t ht hid]
    exact (hq a ha).2 _ hname

/-- The names of a plain order are right at the endpoint of plain orders. -/
theorem at_of_namesIn_plain {symbol : String} {query : List (String × String)}
    (hnamed : (created target).NamedBy target) (hplain : (created target).family = .plain)
    (hquery : appendOrderIdentity [("symbol", symbol)] target.orderId target.clientOrderId =
      .ok query) :
    ∀ a ∈ namesIn .plain "orderId" "origClientOrderId" (stringFields query),
      (created target).At a ∧ ∀ text, a.name = .client text → a.family = .plain := by
  rw [namesIn_appendOrderIdentity hquery]
  intro a ha
  cases hid : target.orderId with
  | some id =>
    obtain rfl := hnamed.orderId id hid
    rw [hid] at ha
    obtain rfl := List.mem_singleton.1 ha
    rw [CreatedOrder.orderId_of_plain hplain]
    exact ⟨⟨hplain.symm, .inl rfl⟩, fun _ _ => rfl⟩
  | none =>
    rw [hid] at ha
    cases hclient : target.clientOrderId with
    | some id =>
      obtain rfl := hnamed.clientOrderId id hclient
      rw [hclient] at ha
      obtain rfl := List.mem_singleton.1 ha
      exact ⟨⟨hplain.symm, .inr rfl⟩, fun _ _ => rfl⟩
    | none =>
      rw [hclient] at ha
      cases ha

/-- The id of a conditional order is right at the endpoint of conditional orders. -/
theorem at_of_namesIn_conditional {query : List (String × String)}
    (hnamed : (created target).NamedBy target)
    (hconditional : (created target).family = .conditional) (hid : target.orderId.isSome)
    (hquery : binanceAlgoIdentityQuery target.orderId target.clientOrderId = .ok query) :
    ∀ a ∈ namesIn .conditional "algoId" "clientAlgoId" (stringFields query),
      (created target).At a ∧ ∀ text, a.name = .client text → a.family = .plain := by
  rw [namesIn_binanceAlgoIdentityQuery hnamed hconditional hid hquery]
  intro a ha
  obtain rfl := List.mem_singleton.1 ha
  exact ⟨⟨hconditional.symm, .inl rfl⟩, nofun⟩

/-! ### Lookups and single cancellations -/

variable {context : CommandContext}
  (hclient : ∀ t ∈ targets, t.orderId = none → (created t).family = .plain)

include hclient

/-- The query for an order addresses it right. -/
theorem addressesRight_orderLookup {request : GetOrderRequest} {spec : InstrumentSpec}
    {lookup : SignedGet} {decoder : Decoder} (hv : context.venue = .binance)
    (htarget : target = ⟨request.instrumentId, request.orderId, request.clientOrderId⟩)
    (hmem : target ∈ targets) (hnamed : (created target).NamedBy target)
    (hlookup : orderLookup context.toLiveContext spec request = .ok lookup) :
    AddressesRight created targets (.runtime (.signedGet decoder lookup)) := by
  refine addressesRight_of_names hmem hclient fun a ha => ?_
  have hid : request.orderId = target.orderId := by rw [htarget]
  have hcid : request.clientOrderId = target.clientOrderId := by rw [htarget]
  unfold orderLookup at hlookup
  rw [hv, hid, hcid] at hlookup
  dsimp only at hlookup
  by_cases halgo : isBinanceAlgoOrderId target.orderId = true
  · obtain ⟨hconditional, hsome⟩ := (CreatedOrder.isBinanceAlgoOrderId_iff hnamed).1 halgo
    rw [if_pos halgo] at hlookup
    obtain ⟨query, hquery, heq⟩ := except_bind_eq_ok.1 hlookup
    obtain rfl := Except.ok.inj heq
    exact at_of_namesIn_conditional hnamed hconditional hsome hquery a ha
  · rw [if_neg halgo] at hlookup
    obtain ⟨query, hquery, heq⟩ := except_bind_eq_ok.1 hlookup
    obtain rfl := Except.ok.inj heq
    have hplain := CreatedOrder.plain_of_not_algo hnamed (hclient target hmem) halgo
    exact at_of_namesIn_plain hnamed hplain hquery a ha

theorem always_getOrder_right {request : GetOrderRequest} (hv : context.venue = .binance)
    (htarget : target = ⟨request.instrumentId, request.orderId, request.clientOrderId⟩)
    (hmem : target ∈ targets) (hnamed : (created target).NamedBy target) :
    (getOrder context.toLiveContext request).run.Always
      fun _ q => AddressesRight created targets (.runtime q) := by
  have hspec : (requireSpec context.toLiveContext request.instrumentId).run.Always
      fun _ q => AddressesRight created targets (.runtime q) := by
    refine fun τ => ⟨addressesRight_of_local trivial, fun reply => ?_⟩
    cases reply <;> trivial
  have hwrite : ∀ ops, (liftM (RuntimeM.write ops) : RuntimeE Unit).run.Always
      fun _ q => AddressesRight created targets (.runtime q) :=
    fun ops τ => ⟨addressesRight_of_local trivial, fun _ => trivial⟩
  unfold getOrder
  refine Always.attempt hspec fun spec => ?_
  cases hlookup : orderLookup context.toLiveContext spec request with
  | error e => exact fun _ => trivial
  | ok lookup =>
    refine Always.attempt (fun τ => ⟨?_, fun _ => trivial⟩) fun order => ?_
    · exact addressesRight_orderLookup hclient hv htarget hmem hnamed hlookup
    · exact Always.attempt (hwrite _) fun _ => Always.attempt (hwrite _) fun _ _ => trivial

theorem always_lookupOrder_right {command : PendingUnknownCommand} (hv : context.venue = .binance)
    (htarget : target = ⟨command.instrumentId, command.orderId, command.clientOrderId⟩)
    (hmem : target ∈ targets) (hnamed : (created target).NamedBy target) :
    (lookupOrder context.toLiveContext command).run.Always
      fun _ q => AddressesRight created targets (.runtime q) := by
  unfold lookupOrder
  split
  · refine Always.bind (always_getOrder_right hclient hv htarget hmem hnamed) fun r => ?_
    cases r <;> exact fun _ => trivial
  · exact fun _ => trivial

/-- The request that cancels an order addresses it right. -/
theorem yields_cancelOrder (requestId : Option RequestId) (hv : context.venue = .binance)
    (hmem : target ∈ targets) (hnamed : (created target).NamedBy target) :
    Yields (fun _ q => AddressesRight created targets q) (fun _ => True)
      (cancelOrder context (target.cancelRequest requestId)) := by
  have hlocal : ∀ (τ : List (Event CommandCall CommandReply)) (q : CommandCall), q.Local →
      AddressesRight created targets q := fun _ _ => addressesRight_of_local
  unfold cancelOrder
  refine (yields_commandSpec hlocal _).attempt fun spec _ => ?_
  refine Yields.attempt (P := fun _ => True) ?_ fun (receipt, transport) _ => ?_
  · unfold sendCancelOrder
    rw [hv]
    dsimp only
    by_cases halgo : isBinanceAlgoOrderId (target.cancelRequest requestId).orderId = true
    · rw [if_pos halgo]
      obtain ⟨hconditional, hsome⟩ := (CreatedOrder.isBinanceAlgoOrderId_iff hnamed).1 halgo
      have hsend : Yields (fun _ q => AddressesRight created targets q) (fun _ => True) (do
          let query ← ofExcept (binanceAlgoIdentityQuery target.orderId target.clientOrderId)
          return (← sendRest context .cancelOrder requestId ⟨.delete, "/fapi/v1/algoOrder",
            bodyToObject query, "binance.cancel_algo_order"⟩, CommandTransport.rest)) := by
        refine (yields_ofExcept fun query hquery => hquery).attempt fun query hquery => ?_
        refine (yields_sendRest fun _ => ?_).attempt fun _ _ => yields_pure trivial
        refine addressesRight_of_names hmem hclient ?_
        exact at_of_namesIn_conditional hnamed hconditional hsome hquery
      split
      · exact (yields_throw (P := fun _ => True) _).attempt fun _ _ => hsend
      · exact hsend
    · rw [if_neg halgo]
      have halgo : ¬ isBinanceAlgoOrderId target.orderId = true := halgo
      have hplain := CreatedOrder.plain_of_not_algo hnamed (hclient target hmem) halgo
      refine (yields_ofExcept fun query hquery => hquery).attempt fun query hquery => ?_
      have hright := at_of_namesIn_plain hnamed hplain hquery
      exact yields_sendCommand (fun _ => addressesRight_of_names hmem hclient hright)
        fun _ => addressesRight_of_names hmem hclient hright
  · exact (yields_cachePendingUnknown hlocal _ _ _ _ _).attempt fun _ _ =>
      yields_applyCommandReceipt hlocal _ _

omit hclient

/-! ### Batches -/

/-- A chunk of orders with ids names them by their ids. -/
theorem addresses_cancelBatch_ids {spec : InstrumentSpec} {chunk : List OrderTarget}
    (hne : chunk ≠ []) (hids : ∀ t ∈ chunk, t.orderId = some (created t).orderId) :
    (CommandCall.rest (binanceCancelBatch spec chunk)).addresses =
      chunk.map fun t => ⟨.plain, .id (created t).orderId.asStr⟩ := by
  have hfilter : chunk.filterMap (·.orderId) = chunk.map fun t => (created t).orderId := by
    rw [← List.filterMap_eq_map]
    exact List.filterMap_congr fun t ht => hids t ht
  have hhead : (chunk.head?.bind (·.orderId)).isSome = true := by
    obtain ⟨t, ts, rfl⟩ := List.exists_cons_of_ne_nil hne
    simp [hids t (by simp)]
  have hlisted : listedIds (orderIdList (chunk.map fun t => (created t).orderId)) =
      (chunk.map fun t => (created t).orderId).map (·.asStr) := by
    refine listedIds_orderIdList (by simpa using hne) ?_
    intro id hid
    obtain ⟨t, -, rfl⟩ := List.mem_map.1 hid
    exact CreatedOrder.not_comma_mem_orderId
  simp [CommandCall.addresses, binanceCancelBatch, fieldsOf, listedNames, hhead, hfilter,
    Json.asStr, hlisted, Function.comp_def]

/-- A chunk of orders without ids names them by their client order ids. -/
theorem addresses_cancelBatch_clients {spec : InstrumentSpec} {chunk : List OrderTarget}
    (hids : ∀ t ∈ chunk, t.orderId = none)
    (hclients : ∀ t ∈ chunk, t.clientOrderId = some (created t).clientOrderId) :
    (CommandCall.rest (binanceCancelBatch spec chunk)).addresses =
      chunk.map fun t => ⟨.plain, .client (created t).clientOrderId.asStr⟩ := by
  have hfilter : chunk.filterMap (·.clientOrderId) =
      chunk.map fun t => (created t).clientOrderId := by
    rw [← List.filterMap_eq_map]
    exact List.filterMap_congr fun t ht => hclients t ht
  have hhead : (chunk.head?.bind (·.orderId)).isSome = false := by
    cases chunk with
    | nil => rfl
    | cons t ts => simp [hids t (by simp)]
  simp [CommandCall.addresses, binanceCancelBatch, fieldsOf, listedNames, hhead, hfilter,
    Json.asStr, Json.asArray, Function.comp_def, List.filterMap_map]

/-- The orders of a chunk are all named by their ids, or all by their client order ids. -/
def Uniform (created : OrderTarget → CreatedOrder) (chunk : List OrderTarget) : Prop :=
  (∀ t ∈ chunk, t.orderId = some (created t).orderId) ∨
    (∀ t ∈ chunk, t.orderId = none) ∧
      ∀ t ∈ chunk, t.clientOrderId = some (created t).clientOrderId

/-- The groups of a batch are uniform, and together they have all its targets. -/
structure Groups (created : OrderTarget → CreatedOrder) (targets : List OrderTarget)
    (groups : List (InstrumentId × List (OrderTarget × ℕ))) : Prop where
  uniform : ∀ g ∈ groups, Uniform created (g.2.map (·.1))
  subset : ∀ g ∈ groups, ∀ t ∈ g.2, t.1 ∈ targets
  covered : ∀ t ∈ targets, ∃ g ∈ groups, ∃ x ∈ g.2, x.1 = t

/-- The groups in the order in which they are sent. -/
def cancelGroups (targets : List OrderTarget) : List (InstrumentId × List (OrderTarget × ℕ)) :=
  (groupBy (·.1.instrumentId) (targets.zipIdx.filter (·.1.orderId.isSome))).toList ++
    (groupBy (·.1.instrumentId) (targets.zipIdx.filter fun target =>
      target.1.orderId.isNone && target.1.clientOrderId.isSome)).toList

theorem groups_cancelGroups (hnamed : ∀ t ∈ targets, (created t).NamedBy t) :
    Groups created targets (cancelGroups targets) := by
  have hmem : ∀ {p : OrderTarget × ℕ → Bool} {g : InstrumentId × List (OrderTarget × ℕ)},
      g ∈ (groupBy (·.1.instrumentId) (targets.zipIdx.filter p)).toList →
      ∀ x ∈ g.2, x.1 ∈ targets ∧ p x = true := by
    intro p g hg x hx
    obtain ⟨hzip, hp⟩ := List.mem_filter.1 (exists_mem_groupBy.1 ⟨g, hg, hx⟩)
    exact ⟨List.fst_mem_of_mem_zipIdx hzip, hp⟩
  refine ⟨fun g hg => ?_, fun g hg x hx => ?_, fun t ht => ?_⟩
  · rcases List.mem_append.1 hg with hg | hg
    · refine .inl fun t ht => ?_
      obtain ⟨x, hx, rfl⟩ := List.mem_map.1 ht
      obtain ⟨hx, hsome⟩ := hmem hg x hx
      obtain ⟨id, hid⟩ := Option.isSome_iff_exists.1 hsome
      rw [hid, (hnamed _ hx).orderId id hid]
    · refine .inr ⟨fun t ht => ?_, fun t ht => ?_⟩
      · obtain ⟨x, hx, rfl⟩ := List.mem_map.1 ht
        have hp := (hmem hg x hx).2
        simp only [Bool.and_eq_true, Option.isNone_iff_eq_none] at hp
        exact hp.1
      · obtain ⟨x, hx, rfl⟩ := List.mem_map.1 ht
        obtain ⟨hx, hp⟩ := hmem hg x hx
        simp only [Bool.and_eq_true, Option.isNone_iff_eq_none] at hp
        obtain ⟨id, hid⟩ := Option.isSome_iff_exists.1 hp.2
        rw [hid, (hnamed _ hx).clientOrderId id hid]
  · rcases List.mem_append.1 hg with hg | hg
    · exact (hmem hg x hx).1
    · exact (hmem hg x hx).1
  · obtain ⟨i, hi⟩ : ∃ i, (t, i) ∈ targets.zipIdx := by
      rw [← List.zipIdx_map_fst 0 targets] at ht
      obtain ⟨⟨t', i⟩, hx, rfl⟩ := List.mem_map.1 ht
      exact ⟨i, hx⟩
    have hgroup : ∀ p : OrderTarget × ℕ → Bool, p (t, i) = true →
        ∃ g ∈ (groupBy (·.1.instrumentId) (targets.zipIdx.filter p)).toList, (t, i) ∈ g.2 :=
      fun p hp => exists_mem_groupBy.2 (List.mem_filter.2 ⟨hi, hp⟩)
    by_cases hsome : t.orderId.isSome = true
    · obtain ⟨g, hg, hx⟩ := hgroup (·.1.orderId.isSome) hsome
      exact ⟨g, List.mem_append_left _ hg, _, hx, rfl⟩
    · have hclient : (t.orderId.isNone && t.clientOrderId.isSome) = true := by
        rcases (hnamed t ht).named with h | h
        · exact absurd h hsome
        · simp_all
      obtain ⟨g, hg, hx⟩ := hgroup
        (fun target => target.1.orderId.isNone && target.1.clientOrderId.isSome) hclient
      exact ⟨g, List.mem_append_right _ hg, _, hx, rfl⟩

/-- A batch of plain orders addresses them right. -/
theorem addressesRight_cancelBatch {spec : InstrumentSpec} {chunk : List OrderTarget}
    (hplain : ∀ t ∈ targets, (created t).family = .plain) (hne : chunk ≠ [])
    (huniform : Uniform created chunk) (hsubset : ∀ t ∈ chunk, t ∈ targets) :
    AddressesRight created targets (.rest (binanceCancelBatch spec chunk)) := by
  rcases huniform with hids | ⟨hids, hclients⟩
  · refine ⟨fun a ha => ?_, fun a ha t ht _ _ => ?_⟩
    · rw [addresses_cancelBatch_ids hne hids] at ha
      obtain ⟨t, ht, rfl⟩ := List.mem_map.1 ha
      have hfamily := hplain t (hsubset t ht)
      exact ⟨t, hsubset t ht, hfamily.symm,
        .inl (by rw [CreatedOrder.orderId_of_plain hfamily])⟩
    · rw [addresses_cancelBatch_ids hne hids] at ha
      obtain ⟨t', -, rfl⟩ := List.mem_map.1 ha
      exact (hplain t ht).symm
  · refine ⟨fun a ha => ?_, fun a ha t ht _ _ => ?_⟩
    · rw [addresses_cancelBatch_clients hids hclients] at ha
      obtain ⟨t, ht, rfl⟩ := List.mem_map.1 ha
      exact ⟨t, hsubset t ht, (hplain t (hsubset t ht)).symm, .inr rfl⟩
    · rw [addresses_cancelBatch_clients hids hclients] at ha
      obtain ⟨t', -, rfl⟩ := List.mem_map.1 ha
      exact (hplain t ht).symm

theorem Uniform.of_subset {chunk chunk' : List OrderTarget} (h : Uniform created chunk)
    (hsubset : ∀ t ∈ chunk', t ∈ chunk) : Uniform created chunk' := by
  rcases h with h | ⟨h, h'⟩
  · exact .inl fun t ht => h t (hsubset t ht)
  · exact .inr ⟨fun t ht => h t (hsubset t ht), fun t ht => h' t (hsubset t ht)⟩

theorem yields_cancelGroupsBinance (hnamed : ∀ t ∈ targets, (created t).NamedBy t)
    (hplain : ∀ t ∈ targets, (created t).family = .plain) :
    Yields (fun _ q => AddressesRight created targets q) (fun _ => True)
      (cancelGroupsBinance context targets) := by
  have hlocal : ∀ (τ : List (Event CommandCall CommandReply)) (q : CommandCall), q.Local →
      AddressesRight created targets q := fun _ _ => addressesRight_of_local
  have hgroups := groups_cancelGroups hnamed
  unfold cancelGroupsBinance
  refine Yields.attempt (P := fun _ => True) ?_ fun _ _ => yields_pure trivial
  refine (Yields.mapM (P := fun _ _ => True) fun g hg => ?_).mono fun _ _ => trivial
  unfold cancelGroupBinance
  refine (yields_commandSpec hlocal _).attempt fun spec _ => ?_
  refine Yields.attempt (P := fun _ => True) ?_ fun _ _ => yields_pure trivial
  refine (Yields.mapM (P := fun _ _ => True) fun chunk hchunk => ?_).mono fun _ _ => trivial
  have hsub : ∀ t ∈ chunk.map (·.1), t ∈ g.2.map (·.1) := by
    intro t ht
    obtain ⟨x, hx, rfl⟩ := List.mem_map.1 ht
    exact List.mem_map.2 ⟨x, mem_of_mem_chunks hchunk hx, rfl⟩
  have hright : AddressesRight created targets
      (.rest (binanceCancelBatch spec (chunk.map (·.1)))) := by
    refine addressesRight_cancelBatch hplain (by simpa using ne_nil_of_mem_chunks hchunk)
      ((hgroups.uniform g hg).of_subset hsub) fun t ht => ?_
    obtain ⟨x, hx, rfl⟩ := List.mem_map.1 (hsub t ht)
    exact hgroups.subset g hg x hx
  unfold cancelChunkBinance
  refine (yields_sendBatchRest fun _ => hright).attempt fun receipts _ => ?_
  exact (yields_finishChunk hlocal _ _ _).attempt fun _ _ => yields_pure trivial

end Right

/-! ### What the code can tell is addressed right -/

section Addressable

variable {context : CommandContext} {created : OrderTarget → CreatedOrder}
  {wsOrderEntry : Bool} {operation : NamingOperation}

theorem Addressable.plain_of_client (h : Addressable wsOrderEntry created operation) :
    ∀ t ∈ operation.targets, t.orderId = none → (created t).family = .plain := by
  intro t ht hid
  rcases CreatedOrder.family_cases (created t) with hf | hf
  · exact hf
  · have hsome := (h t ht hf).1
    rw [hid] at hsome
    cases hsome

theorem yields_cancelOrders {request : CancelOrdersRequest} (hv : context.venue = .binance)
    (hnamed : ∀ t ∈ request.orders, (created t).NamedBy t)
    (h : Addressable context.wsOrderEntry created (.cancelOrders request)) :
    Yields (fun _ q => AddressesRight created request.orders q) (fun _ => True)
      (cancelOrders context request) := by
  have hlocal : ∀ (τ : List (Event CommandCall CommandReply)) (q : CommandCall), q.Local →
      AddressesRight created request.orders q := fun _ _ => addressesRight_of_local
  have hclient := h.plain_of_client
  unfold cancelOrders
  refine (yields_ofExcept fun _ _ => trivial).attempt fun _ _ => ?_
  split
  · next single heq =>
    have hmem : single ∈ request.orders := by simp [heq]
    exact (yields_cancelOrder hclient _ hv hmem (hnamed single hmem)).attempt fun _ _ =>
      yields_pure trivial
  · next targets hne =>
    unfold sendCancelOrders
    rw [hv]
    dsimp only
    by_cases hws : context.wsOrderEntry = true
    · simp only [hws, if_true]
      refine Yields.attempt (P := fun _ => True) ?_ fun _ _ => yields_pure trivial
      refine (Yields.mapM (P := fun _ _ => True) fun chunk hchunk => ?_).mono fun _ _ => trivial
      refine yields_tryJoinAll hlocal (fun _ _ _ h => h) fun c hc => ?_
      obtain ⟨t, ht, rfl⟩ := List.mem_map.1 hc
      have hmem : t ∈ request.orders := mem_of_mem_chunks hchunk ht
      exact (yields_cancelOrder hclient _ hv hmem (hnamed t hmem)).always
    · have hplain : ∀ t ∈ request.orders, (created t).family = .plain := by
        intro t ht
        rcases CreatedOrder.family_cases (created t) with hf | hf
        · exact hf
        · have hbatch : 1 < request.orders.length := by
            by_contra hle
            have hone : request.orders.length = 1 := by
              have hpos := List.length_pos_of_mem ht
              omega
            obtain ⟨single, hsingle⟩ := List.length_eq_one_iff.1 hone
            exact hne single hsingle
          exact absurd ((h t ht hf).2 hbatch) hws
      have hgroups : Yields (fun _ q => AddressesRight created request.orders q) (fun _ => True)
          (cancelGroupsBinance context request.orders >>= fun acks =>
            CommandM.ofExcept (collectBatchAcks request.orders.length acks "cancel_orders")) :=
        (yields_cancelGroupsBinance hnamed hplain).attempt fun _ _ =>
          yields_ofExcept fun _ _ => trivial
      rw [if_neg hws]
      split
      · exact (yields_throw (P := fun _ => True) _).attempt fun _ _ => hgroups
      · exact hgroups

/-- What the code can tell is addressed right. -/
theorem addressedRight_of_addressable (hnamed : ∀ t ∈ operation.targets, (created t).NamedBy t)
    (h : Addressable wsOrderEntry created operation) :
    AddressedRight wsOrderEntry created operation := by
  rintro context hv rfl
  have hclient := h.plain_of_client
  cases operation with
  | getOrder request =>
    refine Always.attempt (always_liftRuntime_of ?_) fun _ _ => trivial
    exact always_getOrder_right hclient hv rfl (List.mem_singleton.2 rfl)
      (hnamed _ (List.mem_singleton.2 rfl))
  | lookupOrder command =>
    refine Always.attempt (always_liftRuntime_of ?_) fun _ _ => trivial
    exact always_lookupOrder_right hclient hv rfl (List.mem_singleton.2 rfl)
      (hnamed _ (List.mem_singleton.2 rfl))
  | cancelOrder request =>
    refine Always.attempt ?_ fun _ _ => trivial
    exact (yields_cancelOrder hclient request.requestId hv
      (List.mem_singleton.2 rfl) (hnamed _ (List.mem_singleton.2 rfl))).always
  | cancelOrders request =>
    refine Always.attempt ?_ fun _ _ => trivial
    exact (yields_cancelOrders hv hnamed h).always

end Addressable

end BatMarkets
