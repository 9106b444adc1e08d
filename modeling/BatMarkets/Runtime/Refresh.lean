import BatMarkets.Runtime.Call

/-!
# Refreshing the private state over REST

The tasks that read the account of the venue and write what they found to the engine state:
`fetchBalance`, `refreshPositions`, `refreshOpenOrders` and `getOrder`.  Each venue has its own
endpoints and its own way to name an instrument or an order in a request.

## Main results

* `exec_refreshOpenOrders` : a refresh that runs alone writes the reply of the venue, or nothing.
* `refreshOpenOrders_scoped_iff` : a refresh of the open orders of one instrument leaves the others
  alone, and stores exactly the open orders of the reply, under a condition on what was stored
  before; the replacement it makes is not limited to the instrument it asked about.
-/

namespace BatMarkets

open Interleaving Ordered RuntimeM

variable (context : LiveContext)

/-- The specification of an instrument the adapter knows. -/
def requireSpec (instrumentId : InstrumentId) : RuntimeE InstrumentSpec := do
  match ← resolveInstrument instrumentId with
  | some spec => return spec
  | none =>
    throw (MarketError.withVenue
      { kind := .unsupported, message := "unknown instrument " ++ instrumentId.asStr }
      context.venue context.product)

/-! ### Account and positions -/

/-- The wallet account type of a Bybit account, which is asked for once. -/
def refreshBybitAccountContext : RuntimeE String := do
  match ← cachedBybitAccountContext with
  | some cached => return cached
  | none =>
    let parsed ← signedGet .accountContext "/v5/account/info" [] "bybit.account_info"
    cacheBybitAccountContext parsed
    return parsed

/-- The balances of the account, which replace those of the state. -/
def fetchBalance : RuntimeE AccountSnapshot := do
  match context.venue with
  | .binance =>
    let (account, positions) ←
      signedGet .accountAndPositions "/fapi/v3/account" [] "binance.account"
    write [.replaceAccountSnapshot account, .replacePositions positions, .markRestSuccess none]
    return account
  | .bybit =>
    let walletAccountType ← refreshBybitAccountContext
    let account ← signedGet .account "/v5/account/wallet-balance"
      [("accountType", walletAccountType)] "bybit.account.wallet_balance"
    write [.replaceAccountSnapshot account, .markRestSuccess none]
    return account
  | .mexc =>
    let account ← signedGet .account "/api/v1/private/account/assets" [] "mexc.account.assets"
    write [.replaceAccountSnapshot account, .markRestSuccess none]
    return account

/-- The summary of the account. -/
def refreshAccount : RuntimeE (Option AccountSummary) := do
  return (← fetchBalance context).summary

/-- The positions of the account, which replace those of the state. -/
def refreshPositions : RuntimeE (List Position) := do
  match context.venue with
  | .binance =>
    let (account, positions) ←
      signedGet .accountAndPositions "/fapi/v3/account" [] "binance.positions"
    write [.replaceAccountSnapshot account, .replacePositions positions, .markRestSuccess none]
    return positions
  | .bybit =>
    let positions ← signedGet .positions "/v5/position/list"
      [("category", "linear"), ("settleCoin", "USDT")] "bybit.positions"
    write [.replacePositions positions, .markRestSuccess none]
    return positions
  | .mexc =>
    let positions ← signedGet .positions "/api/v1/private/position/open_positions" []
      "mexc.positions"
    write [.replacePositions positions, .markRestSuccess none]
    return positions

/-! ### Open orders -/

/-- Ask the venue for its open orders, of one instrument when the request names one. -/
def fetchOpenOrders (request : Option ListOpenOrdersRequest) : RuntimeE (List Order) := do
  let scope := request.bind (·.instrumentId)
  match context.venue with
  | .binance =>
    let pairs ← match scope with
      | some instrumentId => do
        let spec ← requireSpec context instrumentId
        pure [("symbol", spec.nativeSymbol)]
      | none => pure []
    let orders ← signedGet .openOrders "/fapi/v1/openOrders" pairs "binance.open_orders"
    let algoOrders ← signedGet .openAlgoOrders "/fapi/v1/openAlgoOrders" pairs
      "binance.open_algo_orders"
    return orders ++ algoOrders
  | .bybit =>
    let pairs ← match scope with
      | some instrumentId => do
        let spec ← requireSpec context instrumentId
        pure [("category", "linear"), ("symbol", spec.nativeSymbol)]
      | none => pure [("category", "linear"), ("settleCoin", "USDT")]
    signedGet .openOrders "/v5/order/realtime" pairs "bybit.open_orders"
  | .mexc =>
    let path ← match scope with
      | some instrumentId => do
        let spec ← requireSpec context instrumentId
        pure ("/api/v1/private/order/list/open_orders" ++ "/" ++ spec.nativeSymbol)
      | none => pure "/api/v1/private/order/list/open_orders"
    signedGet .openOrders path [] "mexc.open_orders"

/-- The open orders of the account, which replace those of the state. -/
def refreshOpenOrders (request : Option ListOpenOrdersRequest) : RuntimeE (List Order) := do
  let orders ← fetchOpenOrders context request
  write [.replaceOpenOrders orders, .markRestSuccess none]
  return orders

/-! ### Single orders -/

/-- The error for a request that names no order. -/
def missingIdentity : MarketError where
  kind := .configError
  message := "either order_id or client_order_id is required"

/-- The number in the id of a conditional order of Binance. -/
def binanceAlgoOrderIdValue (orderId : OrderId) : Option String :=
  (orderId.asStr.dropPrefix? "binance-algo:").map (·.toString)

/-- The id is that of a conditional order of Binance. -/
def isBinanceAlgoOrderId (orderId : Option OrderId) : Bool :=
  (orderId.bind binanceAlgoOrderIdValue).isSome

/-- The query that names an order by its order id or else by its client order id, under the key
the venue has for the latter. -/
def orderIdentity (clientKey : String) (orderId : Option OrderId)
    (clientOrderId : Option ClientOrderId) : Except MarketError (List (String × String)) :=
  match orderId, clientOrderId with
  | some orderId, _ => .ok [("orderId", orderId.asStr)]
  | none, some clientOrderId => .ok [(clientKey, clientOrderId.asStr)]
  | none, none => .error missingIdentity

/-- A query of Binance with the name of an order. -/
def appendOrderIdentity (query : List (String × String)) (orderId : Option OrderId)
    (clientOrderId : Option ClientOrderId) : Except MarketError (List (String × String)) :=
  (query ++ ·) <$> orderIdentity "origClientOrderId" orderId clientOrderId

/-- A query of Bybit with the name of an order. -/
def appendBybitOrderIdentity (query : List (String × String)) (orderId : Option OrderId)
    (clientOrderId : Option ClientOrderId) : Except MarketError (List (String × String)) :=
  (query ++ ·) <$> orderIdentity "orderLinkId" orderId clientOrderId

/-- The name of a conditional order of Binance. -/
def binanceAlgoIdentityQuery (orderId : Option OrderId) (clientOrderId : Option ClientOrderId) :
    Except MarketError (List (String × String)) :=
  match orderId, clientOrderId with
  | some orderId, _ =>
    match binanceAlgoOrderIdValue orderId with
    | some algoId => .ok [("algoId", algoId)]
    | none => .error {
        kind := .configError
        message := "expected binance algo order id, got '" ++ orderId.asStr ++ "'" }
  | none, some clientOrderId => .ok [("clientAlgoId", clientOrderId.asStr)]
  | none, none => .error missingIdentity

/-- The request that asks for one order of a known instrument. -/
def orderLookup (spec : InstrumentSpec) (request : GetOrderRequest) :
    Except MarketError SignedGet :=
  match context.venue with
  | .binance =>
    if isBinanceAlgoOrderId request.orderId then do
      let query ← binanceAlgoIdentityQuery request.orderId request.clientOrderId
      return ⟨"/fapi/v1/algoOrder", query, "binance.get_algo_order"⟩
    else do
      let query ← appendOrderIdentity [("symbol", spec.nativeSymbol)] request.orderId
        request.clientOrderId
      return ⟨"/fapi/v1/order", query, "binance.get_order"⟩
  | .bybit => do
    let query ← appendBybitOrderIdentity [("category", "linear"), ("symbol", spec.nativeSymbol)]
      request.orderId request.clientOrderId
    return ⟨"/v5/order/realtime", query, "bybit.get_order"⟩
  | .mexc =>
    match request.orderId with
    | some orderId => .ok ⟨"/api/v1/private/order/get/" ++ orderId.asStr, [], "mexc.get_order"⟩
    | none => .error (MarketError.withVenue
        { kind := .configError
          message := "mexc get_order requires order_id; externalOid query is not stable " ++
            "enough for unified lookup" }
        context.venue context.product)

/-- The order that the venue has under this name, which is merged into the state. -/
def getOrder (request : GetOrderRequest) : RuntimeE Order := do
  let spec ← requireSpec context request.instrumentId
  match orderLookup context spec request with
  | .error e => throw e
  | .ok lookup =>
    let order ← signedGet .order lookup.path lookup.query lookup.operation
    write [.applyPrivateEvent (.order order)]
    write [.markRestSuccess none]
    return order

/-! ### What a refresh of the open orders does -/

section Spec

variable {α : Type} {G : List (Event RuntimeCall RuntimeReply) → RuntimeCall → Prop}
  {Post : List (Event RuntimeCall RuntimeReply) → Except MarketError α → Prop}
  {τ : List (Event RuntimeCall RuntimeReply)}

variable {context} in
theorem spec_requireSpec {i : InstrumentId}
    {f : InstrumentSpec → RuntimeE α} (hcall : G τ (.resolveInstrument i))
    (herror : ∀ e, Post (⟨.resolveInstrument i, none⟩ :: τ) (.error e))
    (hok : ∀ spec, (f spec).run.Spec G Post (⟨.resolveInstrument i, some spec⟩ :: τ)) :
    (requireSpec context i >>= f).run.Spec G Post τ := by
  refine Prog.spec_attempt ⟨hcall, fun r => ?_⟩
  cases r with
  | none => exact herror _
  | some a => exact hok a

variable {context} in
theorem run_requireSpec_bind {i : InstrumentId} {f : InstrumentSpec → RuntimeE α} :
    (requireSpec context i >>= f).run = .call (.resolveInstrument i) fun reply =>
      match reply with
      | some spec => (f spec).run
      | none => .ret (.error (MarketError.withVenue
          { kind := .unsupported, message := "unknown instrument " ++ i.asStr }
          context.venue context.product)) := by
  show Prog.call _ _ = _
  congr 1
  funext reply
  cases reply <;> rfl

end Spec

/-- Asking for the open orders changes nothing. -/
theorem spec_fetchOpenOrders {τ : List (Event RuntimeCall RuntimeReply)}
    (request : Option ListOpenOrdersRequest) :
    (fetchOpenOrders context request).run.Spec (fun _ q => q.AsksVenue) (fun _ _ => True) τ := by
  obtain ⟨venue, product, stale⟩ := context
  cases venue with
  | binance =>
    cases h : request.bind (·.instrumentId) with
    | none =>
      simp only [fetchOpenOrders, h, pure_bind]
      exact spec_signedGet trivial (fun _ => trivial) fun _ =>
        spec_signedGet trivial (fun _ => trivial) fun _ => trivial
    | some i =>
      simp only [fetchOpenOrders, h, pure_bind]
      exact spec_requireSpec trivial (fun _ => trivial) fun _ =>
        spec_signedGet trivial (fun _ => trivial) fun _ =>
          spec_signedGet trivial (fun _ => trivial) fun _ => trivial
  | bybit =>
    cases h : request.bind (·.instrumentId) with
    | none =>
      simp only [fetchOpenOrders, h, pure_bind]
      exact ⟨trivial, fun _ => trivial⟩
    | some i =>
      simp only [fetchOpenOrders, h, pure_bind]
      exact spec_requireSpec trivial (fun _ => trivial) fun _ => ⟨trivial, fun _ => trivial⟩
  | mexc =>
    cases h : request.bind (·.instrumentId) with
    | none =>
      simp only [fetchOpenOrders, h, pure_bind]
      exact ⟨trivial, fun _ => trivial⟩
    | some i =>
      simp only [fetchOpenOrders, h, pure_bind]
      exact spec_requireSpec trivial (fun _ => trivial) fun _ => ⟨trivial, fun _ => trivial⟩

theorem exec_fetchOpenOrders_snd (request : Option ListOpenOrdersRequest) (w : LiveWorld) :
    ((fetchOpenOrders context request).run.exec LiveWorld.reply w).2 = w :=
  Prog.exec_invariant (I := fun v => v = w)
    ((spec_fetchOpenOrders context request).mono
      (fun _ _ hq v hv => by rw [LiveWorld.reply_of_asksVenue hq, hv]) fun _ _ h => h)
    (τ := []) rfl

/-- A refresh that runs alone writes the orders the venue answers with, or nothing. -/
theorem exec_refreshOpenOrders (request : Option ListOpenOrdersRequest) (w : LiveWorld) :
    (refreshOpenOrders context request).run.exec LiveWorld.reply w =
      match ((fetchOpenOrders context request).run.exec LiveWorld.reply w).1 with
      | .error e => (.error e, w)
      | .ok orders => (.ok orders, { w with
          engine := (w.engine.replaceOpenOrders orders).markRestSuccess none }) := by
  have hw := exec_fetchOpenOrders_snd context request w
  rw [refreshOpenOrders, ExceptT.run_bind, Prog.exec_bind, hw]
  cases ((fetchOpenOrders context request).run.exec LiveWorld.reply w).1 <;> rfl

/-- **A refresh scoped to one instrument, exactly.** -/
theorem refreshOpenOrders_scoped_iff (i : InstrumentId) (w : LiveWorld) (orders : List Order)
    (hreply : ((refreshOpenOrders context (some ⟨some i⟩)).run.exec LiveWorld.reply w).1 =
      .ok orders)
    (hscope : ∀ r ∈ orders, r.instrumentId = i) :
    let after := ((refreshOpenOrders context (some ⟨some i⟩)).run.exec LiveWorld.reply w).2.engine
    ((∀ o ∈ w.engine.orders, o.instrumentId ≠ i → o ∈ after.orders) ∧
        ∀ o : Order, o.instrumentId = i → o.status.isOpen = true →
          (o ∈ after.orders ↔ o ∈ orders)) ↔
      w.engine.ScopedReplacement i orders := by
  rw [exec_refreshOpenOrders] at hreply ⊢
  cases hf : ((fetchOpenOrders context (some ⟨some i⟩)).run.exec LiveWorld.reply w).1 with
  | error e =>
    rw [hf] at hreply
    cases hreply
  | ok fetched =>
    rw [hf] at hreply
    obtain rfl : fetched = orders := Except.ok.inj hreply
    exact EngineState.replaceOpenOrders_scoped_iff hscope

/-- A Bybit account whose reply to every query of open orders is one order of BTC, and an engine
that holds `stored`. -/
def onlyBtcOpen (stored : List Order) : LiveWorld where
  engine := { EngineState.new .bybit .linearUsdt ⟨16, 16⟩ [] with ordersById := .collect stored }
  catalog _ := some (.active .bybit "BTC" "BTCUSDT" 2 3)
  venueReply
    | .openOrders, _ => .ok [.unit "1" "BTC" .new 5]
    | _, _ => .error { kind := .transportError, message := "unavailable" }

/-- Refreshing the open orders of BTC drops the open order of ETH. -/
theorem refreshOpenOrders_drops_other_instrument :
    ¬ ∀ (context : LiveContext) (i : InstrumentId) (w : LiveWorld) (orders : List Order),
      ((refreshOpenOrders context (some ⟨some i⟩)).run.exec LiveWorld.reply w).1 = .ok orders →
      (∀ r ∈ orders, r.instrumentId = i) →
      let after :=
        ((refreshOpenOrders context (some ⟨some i⟩)).run.exec LiveWorld.reply w).2.engine
      (∀ o ∈ w.engine.orders, o.instrumentId ≠ i → o ∈ after.orders) ∧
        ∀ o : Order, o.instrumentId = i → o.status.isOpen = true →
          (o ∈ after.orders ↔ o ∈ orders) := by
  intro h
  have hframe := (h ⟨.bybit, .linearUsdt, 5000⟩ ⟨"BTC"⟩
    (onlyBtcOpen [.unit "2" "ETH" .new 4]) [.unit "1" "BTC" .new 5] rfl (by decide)).1
  exact absurd (hframe (.unit "2" "ETH" .new 4) (by decide) (by decide)) (by decide +kernel)

/-- With a closed order of ETH stored, the refresh of BTC keeps to its scope. -/
theorem refreshOpenOrders_scoped_iff_closed :
    ∃ w : LiveWorld, w.engine.ScopedReplacement ⟨"BTC"⟩ [.unit "1" "BTC" .new 5] ∧
      ∀ o ∈ w.engine.orders, o.instrumentId ≠ ⟨"BTC"⟩ →
        o ∈ ((refreshOpenOrders ⟨.bybit, .linearUsdt, 5000⟩ (some ⟨some ⟨"BTC"⟩⟩)).run.exec
          LiveWorld.reply w).2.engine.orders := by
  have hscoped : (onlyBtcOpen [.unit "2" "ETH" .filled 4]).engine.ScopedReplacement ⟨"BTC"⟩
      [.unit "1" "BTC" .new 5] := ⟨by decide, by decide⟩
  exact ⟨_, hscoped, ((refreshOpenOrders_scoped_iff ⟨.bybit, .linearUsdt, 5000⟩ ⟨"BTC"⟩
    (onlyBtcOpen [.unit "2" "ETH" .filled 4]) [.unit "1" "BTC" .new 5] rfl (by decide)).2
      hscoped).1⟩

end BatMarkets
