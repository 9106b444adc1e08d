import BatMarkets.Core.Orphans
import BatMarkets.Transition.Views

/-!
# The cells of the engine state

The engine state (`state.rs`) keeps its records in cells: the specification and the market data of
one instrument, the balance of one asset, the account summary, the position in one instrument, one
order, and the executions.  `EngineOp.concerns` says which operations are about a cell.

## Main results

* `content_run_congr` : what is in a cell after a history depends only on what was in it before and
  on the operations about it, in their order; the operations about other cells, those that fail
  included, may be left out, added, or moved past them.
-/

namespace BatMarkets

open Ordered Std Transition

/-- A part of the state that is kept apart from the others. -/
inductive Cell
  /-- The specification and the market data of an instrument. -/
  | market (instrumentId : InstrumentId)
  | balance (asset : AssetCode)
  | accountSummary
  | position (instrumentId : InstrumentId)
  | order (orderId : OrderId)
  | executions
  deriving DecidableEq

/-- The market side of one instrument. -/
structure MarketCell where
  spec : Option InstrumentSpec
  ticker : Option Ticker
  recentTrades : Option (List TradeTick)
  bookTop : Option BookTop
  kline : Option Kline
  markPrice : Option MarkPrice
  fundingRate : Option FundingRate
  openInterest : Option OpenInterest
  liquidations : Option (List Liquidation)

/-- The market data of an instrument. -/
def MarketData.cell (m : MarketData) (i : InstrumentId) : MarketCell where
  spec := m.instruments.get? i
  ticker := m.tickers[i]?
  recentTrades := m.recentTrades[i]?
  bookTop := m.bookTops[i]?
  kline := m.klines[i]?
  markPrice := m.markPrices[i]?
  fundingRate := m.fundingRates.get? i
  openInterest := m.openInterest.get? i
  liquidations := m.liquidations[i]?

/-- What a cell holds. -/
abbrev Cell.Content : Cell → Type
  | .market _ => MarketCell
  | .balance _ => Option Balance
  | .accountSummary => Option AccountSummary
  | .position _ => Option Position
  | .order _ => Option Order
  | .executions => List Execution

/-- What the state has in a cell. -/
def EngineState.content (s : EngineState) : (cell : Cell) → cell.Content
  | .market i => s.marketData.cell i
  | .balance asset => s.balances.get? asset
  | .accountSummary => s.accountSummary
  | .position i => s.positionsById.get? i
  | .order id => s.ordersById.get? id
  | .executions => s.executions

/-- The instrument under which the state stores what an event says. -/
def PublicLaneEvent.storedUnder : PublicLaneEvent → Option InstrumentId
  | .ticker x => some x.instrumentId
  | .trade x => some x.instrumentId
  | .bookTop x => some x.instrumentId
  | .kline x => some x.instrumentId
  | .markPrice x => some x.instrumentId
  | .fundingRate x => some x.instrumentId
  | .openInterest x => some x.instrumentId
  | .liquidation x => some x.instrumentId
  | .orderBookDelta _ | .divergence _ => none

/-- The event is about the cell. -/
def PrivateLaneEvent.concerns : PrivateLaneEvent → Cell → Bool
  | .balance x, .balance asset => x.asset = asset
  | .position x, .position i => x.instrumentId = i
  | .order x, .order id => x.orderId = id
  | .execution _, .executions => true
  | _, _ => false

/-- The operation is about the cell. -/
def EngineOp.concerns : EngineOp → Cell → Bool
  | .applyPublicEvent event, .market i => event.storedUnder = some i
  | .applyPrivateEvent event, cell => event.concerns cell
  | .replaceInstruments _, .market _ => true
  | .replaceAccountSnapshot _, .balance _ => true
  | .replaceAccountSnapshot _, .accountSummary => true
  | .replacePositions _, .position _ => true
  | .replaceOpenOrders _, .order _ => true
  | .mergeOrderHistory orders, .order id => orders.any (·.orderId = id)
  | .mergeExecutions _, .executions => true
  | .applyPrivateSnapshot snapshot, .balance _ => snapshot.account.isSome
  | .applyPrivateSnapshot snapshot, .accountSummary => snapshot.account.isSome
  | .applyPrivateSnapshot _, .position _ => true
  | .applyPrivateSnapshot _, .order _ => true
  | _, _ => false

namespace EngineState

variable {s s' : EngineState} {i : InstrumentId} {cell : Cell}

/-! ### The health report is in no cell -/

theorem content_observeLatest (s : EngineState) (timestamp : Option TimestampMs) :
    (s.observeLatest timestamp).content = s.content := by
  cases timestamp <;> (funext cell; cases cell <;> rfl)

theorem content_applyCommandReceipt (s : EngineState) (receipt : CommandReceipt) :
    (s.applyCommandReceipt receipt).content = s.content := by
  unfold applyCommandReceipt
  funext cell
  split <;> cases cell <;> rfl

theorem content_applyReconcileReport (s : EngineState) (report : ReconcileReport) :
    (s.applyReconcileReport report).content = s.content := by
  unfold applyReconcileReport
  funext cell
  split <;> cases cell <;> rfl

/-! ### The policy -/

theorem statePolicy_observeLatest (s : EngineState) (timestamp : Option TimestampMs) :
    (s.observeLatest timestamp).statePolicy = s.statePolicy := by
  cases timestamp <;> rfl

theorem statePolicy_pushExecution (s : EngineState) (e : Execution) :
    (s.pushExecution e).statePolicy = s.statePolicy := by
  unfold pushExecution
  split <;> rfl

theorem statePolicy_applyPublicEvent (s : EngineState) (event : PublicLaneEvent) :
    (s.apply (.applyPublicEvent event)).statePolicy = s.statePolicy := by
  cases event with
  | ticker | bookTop | kline | markPrice | liquidation =>
    exact stateAfter_applyFast (P := fun t => t.statePolicy = s.statePolicy) rfl fun _ _ _ _ => rfl
  | trade =>
    refine stateAfter_applyFast (P := fun t => t.statePolicy = s.statePolicy) rfl fun _ _ _ _ => ?_
    unfold pushTrade
    dsimp only
    split <;> rfl
  | orderBookDelta | fundingRate | openInterest => rfl
  | divergence d => cases d <;> rfl

theorem statePolicy_apply (s : EngineState) (op : EngineOp) :
    (s.apply op).statePolicy = s.statePolicy := by
  cases op with
  | applyPublicEvent event => exact statePolicy_applyPublicEvent s event
  | applyPrivateEvent event =>
    cases event with
    | execution e => exact statePolicy_pushExecution _ e
    | divergence d => cases d <;> rfl
    | balance | position | order => rfl
  | applyCommandReceipt receipt =>
    simp only [apply, applyCommandReceipt]
    split <;> rfl
  | applyReconcileReport report =>
    simp only [apply, applyReconcileReport]
    split <;> rfl
  | mergeExecutions executions =>
    rw [apply, mergeExecutions, statePolicy_observeLatest]
    induction executions generalizing s with
    | nil => rfl
    | cons e es ih => rw [List.foldl_cons, ih, statePolicy_pushExecution]
  | replaceAccountSnapshot | replacePositions | replaceOpenOrders | mergeOrderHistory =>
    exact statePolicy_observeLatest _ _
  | applyPrivateSnapshot snapshot =>
    simp only [apply, applyPrivateSnapshot, replaceOpenOrders, replacePositions,
      statePolicy_observeLatest]
    split
    · exact statePolicy_observeLatest _ _
    · rfl
  | replaceInstruments | markRestSuccess | markPublicDisconnect | markPrivateDisconnect
  | markReconnect | markSnapshotAge => rfl

/-! ### Market data -/

section Fast

variable {β : Type} {id : InstrumentId} {toUnified : InstrumentSpec → Except Failure β}
  {eventTime : TimestampMs} {store : β → EngineState → EngineState}

/-- A checked writer leaves a cell alone that its store leaves alone. -/
theorem content_applyFast_of_skip
    (hstore : ∀ unified, (store unified (s.observePublicMessage eventTime)).content cell =
      s.content cell) :
    (stateAfter ((applyFast id toUnified eventTime store).run s)).content cell =
      s.content cell :=
  stateAfter_applyFast (P := fun t => t.content cell = s.content cell) rfl
    fun _ unified _ _ => hstore unified

/-- From two states with the same specification, a checked writer fails in both or stores the same
value in both. -/
theorem content_applyFast_congr (hspec : s.instruments.get? id = s'.instruments.get? id)
    (hs : s.content cell = s'.content cell)
    (hstore : ∀ unified, (store unified (s.observePublicMessage eventTime)).content cell =
      (store unified (s'.observePublicMessage eventTime)).content cell) :
    (stateAfter ((applyFast id toUnified eventTime store).run s)).content cell =
      (stateAfter ((applyFast id toUnified eventTime store).run s')).content cell := by
  rw [applyFast_run, applyFast_run, ← hspec]
  cases s.instruments.get? id with
  | none => exact hs
  | some spec =>
    dsimp only
    cases toUnified spec with
    | error e => exact hs
    | ok unified => exact hstore unified

end Fast

theorem content_market_eq_iff : s.content (.market i) = s'.content (.market i) ↔
    s.instruments.get? i = s'.instruments.get? i ∧ s.tickers[i]? = s'.tickers[i]? ∧
      s.recentTrades[i]? = s'.recentTrades[i]? ∧ s.bookTops[i]? = s'.bookTops[i]? ∧
      s.klines[i]? = s'.klines[i]? ∧ s.markPrices[i]? = s'.markPrices[i]? ∧
      s.fundingRates.get? i = s'.fundingRates.get? i ∧
      s.openInterest.get? i = s'.openInterest.get? i ∧
      s.liquidations[i]? = s'.liquidations[i]? := by
  simp only [content, marketData, MarketData.cell, MarketCell.mk.injEq]

/-- What a trade makes of the market data of its instrument. -/
theorem content_pushTrade (s : EngineState) (i : InstrumentId) (unified : TradeTick)
    (eventTime : TimestampMs) :
    (pushTrade i unified (s.observePublicMessage eventTime)).content (.market i) =
      if ((s.recentTrades[i]?.getD []).getLast?.map (·.tradeId)) = some unified.tradeId then
        s.content (.market i)
      else
        { (s.content (.market i) : MarketCell) with
          recentTrades := some (trimFront s.statePolicy.recentTradeCapacity
            (s.recentTrades[i]?.getD [] ++ [unified])) } := by
  by_cases hrepeat :
      ((s.recentTrades[i]?.getD []).getLast?.map (·.tradeId)) = some unified.tradeId
  · rw [if_pos hrepeat]
    exact (congrArg (content · (.market i)) (if_pos hrepeat)).trans rfl
  · rw [if_neg hrepeat]
    refine (congrArg (content · (.market i)) (if_neg hrepeat)).trans ?_
    simp [content, marketData, MarketData.cell, observePublicMessage]

/-- A public event about another instrument leaves the market data of an instrument alone. -/
theorem content_applyPublicEvent_of_ne {event : PublicLaneEvent}
    (h : event.storedUnder ≠ some i) :
    (s.apply (.applyPublicEvent event)).content (.market i) = s.content (.market i) := by
  cases event with
  | ticker x | bookTop x | kline x | markPrice x | liquidation x =>
    have hne : x.instrumentId ≠ i := fun heq => h (congrArg some heq)
    refine content_applyFast_of_skip fun unified => content_market_eq_iff.2 ?_
    simp [lookup_insert, hne, observePublicMessage]
  | trade x =>
    have hne : x.instrumentId ≠ i := fun heq => h (congrArg some heq)
    refine content_applyFast_of_skip fun unified => content_market_eq_iff.2 ?_
    unfold pushTrade
    dsimp only
    split <;> simp [lookup_insert, hne, observePublicMessage]
  | fundingRate x =>
    have hne : x.instrumentId ≠ i := fun heq => h (congrArg some heq)
    rw [apply_fundingRate, content_market_eq_iff]
    simp [Index.get?_insert, hne, observePublicMessage]
  | openInterest x =>
    have hne : x.instrumentId ≠ i := fun heq => h (congrArg some heq)
    rw [apply_openInterest, content_market_eq_iff]
    simp [Index.get?_insert, hne, observePublicMessage]
  | orderBookDelta => rfl
  | divergence d => cases d <;> rfl

/-- What a public event makes of the market data of its instrument. -/
theorem content_applyPublicEvent_congr {event : PublicLaneEvent}
    (h : event.storedUnder = some i) (hpolicy : s.statePolicy = s'.statePolicy)
    (hs : s.content (.market i) = s'.content (.market i)) :
    (s.apply (.applyPublicEvent event)).content (.market i) =
      (s'.apply (.applyPublicEvent event)).content (.market i) := by
  have hcells := content_market_eq_iff.1 hs
  cases event with
  | ticker x | bookTop x | kline x | markPrice x | liquidation x =>
    obtain rfl : x.instrumentId = i := Option.some.inj h
    refine content_applyFast_congr hcells.1 hs fun unified => content_market_eq_iff.2 ?_
    simp [observePublicMessage, hcells, hpolicy]
  | trade x =>
    obtain rfl : x.instrumentId = i := Option.some.inj h
    refine content_applyFast_congr hcells.1 hs fun unified => content_market_eq_iff.2 ?_
    rw [← content_market_eq_iff, content_pushTrade, content_pushTrade, hs, hcells.2.2.1, hpolicy]
  | fundingRate x =>
    obtain rfl : x.instrumentId = i := Option.some.inj h
    rw [apply_fundingRate, apply_fundingRate, content_market_eq_iff]
    simp [Index.get?_insert, observePublicMessage, hcells]
  | openInterest x =>
    obtain rfl : x.instrumentId = i := Option.some.inj h
    rw [apply_openInterest, apply_openInterest, content_market_eq_iff]
    simp [Index.get?_insert, observePublicMessage, hcells]
  | orderBookDelta => cases h
  | divergence => cases h

/-- What a change of the table makes of the market data of an instrument. -/
theorem content_replaceInstruments_congr (instruments : List InstrumentSpec)
    (hs : s.content (.market i) = s'.content (.market i)) :
    (s.replaceInstruments instruments).content (.market i) =
      (s'.replaceInstruments instruments).content (.market i) := by
  have hcells := content_market_eq_iff.1 hs
  rw [content_market_eq_iff]
  simp only [replaceInstruments, pruneOrphanMarketState, lookup_retain, Index.get?_filter, hcells,
    and_self]

/-! ### Records of the account -/

/-- Public events leave the records of the account alone. -/
theorem content_applyPublicEvent_of_private (hcell : ∀ i, cell ≠ .market i)
    (event : PublicLaneEvent) :
    (s.apply (.applyPublicEvent event)).content cell = s.content cell := by
  cases event with
  | ticker | bookTop | kline | markPrice | liquidation =>
    refine content_applyFast_of_skip fun unified => ?_
    cases cell <;> first | rfl | exact absurd rfl (hcell _)
  | trade x =>
    refine content_applyFast_of_skip fun unified => ?_
    unfold pushTrade
    dsimp only
    split <;> cases cell <;> first | rfl | exact absurd rfl (hcell _)
  | orderBookDelta => rfl
  | fundingRate | openInterest => cases cell <;> first | rfl | exact absurd rfl (hcell _)
  | divergence d => cases d <;> cases cell <;> rfl

theorem content_pushExecution_of_ne (hcell : cell ≠ .executions) (e : Execution) :
    (s.pushExecution e).content cell = s.content cell := by
  unfold pushExecution
  split
  · rfl
  · cases cell <;> first | rfl | exact absurd rfl hcell

theorem executions_pushExecution_congr (hpolicy : s.statePolicy = s'.statePolicy)
    (hs : s.executions = s'.executions) (e : Execution) :
    (s.pushExecution e).executions = (s'.pushExecution e).executions := by
  unfold pushExecution
  rw [hs, hpolicy]
  split
  · exact hs
  · rfl

theorem content_mergeExecutions_of_ne (hcell : cell ≠ .executions) (es : List Execution) :
    (s.mergeExecutions es).content cell = s.content cell := by
  rw [mergeExecutions, content_observeLatest]
  induction es generalizing s with
  | nil => rfl
  | cons e es ih => rw [List.foldl_cons, ih, content_pushExecution_of_ne hcell]

theorem executions_mergeExecutions_congr (hpolicy : s.statePolicy = s'.statePolicy)
    (hs : s.executions = s'.executions) (es : List Execution) :
    (s.mergeExecutions es).content .executions = (s'.mergeExecutions es).content .executions := by
  rw [mergeExecutions, mergeExecutions, content_observeLatest, content_observeLatest]
  induction es generalizing s s' with
  | nil => exact hs
  | cons e es ih =>
    refine ih ?_ (executions_pushExecution_congr hpolicy hs e)
    rw [statePolicy_pushExecution, statePolicy_pushExecution, hpolicy]

theorem content_replaceAccountSnapshot (snapshot : AccountSnapshot) :
    (s.replaceAccountSnapshot snapshot).content cell =
      { s with
        balances := .collect snapshot.balances
        accountSummary := snapshot.summary }.content cell :=
  congrFun (content_observeLatest _ _) cell

theorem content_replacePositions (ps : List Position) :
    (s.replacePositions ps).content cell =
      { s with positionsById := .collect ps }.content cell :=
  congrFun (content_observeLatest _ _) cell

theorem content_replaceOpenOrders (os : List Order) :
    (s.replaceOpenOrders os).content cell =
      { s with ordersById :=
          (s.ordersById.filter (!·.status.isOpen)).insertAll os }.content cell :=
  congrFun (content_observeLatest _ _) cell

theorem content_mergeOrderHistory (os : List Order) :
    (s.mergeOrderHistory os).content cell =
      { s with ordersById := s.ordersById.insertAll os }.content cell :=
  congrFun (content_observeLatest _ _) cell

theorem content_replaceAccountSnapshot_of_ne (hbalance : ∀ asset, cell ≠ .balance asset)
    (hsummary : cell ≠ .accountSummary) (snapshot : AccountSnapshot) :
    (s.replaceAccountSnapshot snapshot).content cell = s.content cell := by
  refine (content_replaceAccountSnapshot snapshot).trans ?_
  cases cell <;> first | rfl | exact absurd rfl hsummary | exact absurd rfl (hbalance _)

theorem content_replacePositions_of_ne (hcell : ∀ i, cell ≠ .position i) (ps : List Position) :
    (s.replacePositions ps).content cell = s.content cell := by
  refine (content_replacePositions ps).trans ?_
  cases cell <;> first | rfl | exact absurd rfl (hcell _)

theorem content_replaceOpenOrders_of_ne (hcell : ∀ id, cell ≠ .order id) (os : List Order) :
    (s.replaceOpenOrders os).content cell = s.content cell := by
  refine (content_replaceOpenOrders os).trans ?_
  cases cell <;> first | rfl | exact absurd rfl (hcell _)

/-- The open orders of an index are replaced order by order. -/
theorem content_replaceOpenOrders_congr {id : OrderId}
    (hs : s.content (.order id) = s'.content (.order id)) (os : List Order) :
    (s.replaceOpenOrders os).content (.order id) =
      (s'.replaceOpenOrders os).content (.order id) := by
  have hget : s.ordersById.get? id = s'.ordersById.get? id := hs
  exact (get?_replaceOpenOrders s os id).trans
    ((get?_replaceOpenOrders s' os id).trans (by rw [hget])).symm

/-- The state in which a snapshot replaces the positions. -/
def replaceAccount (s : EngineState) (account : Option AccountSnapshot) : EngineState :=
  match account with
  | some account => s.replaceAccountSnapshot account
  | none => s

theorem applyPrivateSnapshot_eq (s : EngineState) (snapshot : PrivateSnapshot) :
    s.applyPrivateSnapshot snapshot =
      ((s.replaceAccount snapshot.account).replacePositions snapshot.positions).replaceOpenOrders
        snapshot.openOrders := rfl

theorem content_replaceAccount_of_ne (hbalance : ∀ asset, cell ≠ .balance asset)
    (hsummary : cell ≠ .accountSummary) (account : Option AccountSnapshot) :
    (s.replaceAccount account).content cell = s.content cell := by
  cases account with
  | none => rfl
  | some account => exact content_replaceAccountSnapshot_of_ne hbalance hsummary account

/-! ### One operation -/

/-- An operation leaves the cells alone that it is not about. -/
theorem content_apply_of_skip {op : EngineOp} (h : op.concerns cell = false) :
    (s.apply op).content cell = s.content cell := by
  -- an operation that does not concern the cell writes other cells only
  cases op with
  | applyPublicEvent event =>
    cases cell with
    | market i => exact content_applyPublicEvent_of_ne (by simpa [EngineOp.concerns] using h)
    | _ => exact content_applyPublicEvent_of_private (by simp) event
  | applyPrivateEvent event =>
    cases event with
    | execution e =>
      refine (content_pushExecution_of_ne ?_ e).trans (by cases cell <;> rfl)
      rintro rfl
      cases h
    | divergence d => cases d <;> cases cell <;> rfl
    | balance x | position x | order x =>
      cases cell <;> first
        | rfl
        | (refine (Index.get?_insert _ _ _).trans (if_neg ?_)
           simpa [EngineOp.concerns, PrivateLaneEvent.concerns] using h)
  | applyCommandReceipt receipt => exact congrFun (content_applyCommandReceipt s receipt) cell
  | applyReconcileReport report => exact congrFun (content_applyReconcileReport s report) cell
  | replaceInstruments => cases cell <;> first | rfl | cases h
  | replaceAccountSnapshot snapshot =>
    refine content_replaceAccountSnapshot_of_ne ?_ ?_ snapshot
    · rintro asset rfl
      cases h
    · rintro rfl
      cases h
  | replacePositions ps =>
    refine content_replacePositions_of_ne ?_ ps
    rintro i rfl
    cases h
  | replaceOpenOrders os =>
    refine content_replaceOpenOrders_of_ne ?_ os
    rintro id rfl
    cases h
  | mergeOrderHistory os =>
    refine content_mergeOrderHistory os |>.trans ?_
    cases cell with
    | order id =>
      have hnone : lastOf Order.orderId id os = none :=
        lastOf_eq_none.2 (by simpa [EngineOp.concerns] using h)
      exact (Index.get?_insertAll _ _ _).trans (by rw [hnone]; rfl)
    | _ => rfl
  | mergeExecutions es =>
    refine content_mergeExecutions_of_ne ?_ es
    rintro rfl
    cases h
  | applyPrivateSnapshot snapshot =>
    rw [apply, applyPrivateSnapshot_eq]
    cases cell with
    | position | order => cases h
    | balance | accountSummary =>
      have hnone : snapshot.account = none := by simpa [EngineOp.concerns] using h
      rw [content_replaceOpenOrders_of_ne (by simp), content_replacePositions_of_ne (by simp),
        hnone, replaceAccount]
    | market | executions =>
      rw [content_replaceOpenOrders_of_ne (by simp), content_replacePositions_of_ne (by simp),
        content_replaceAccount_of_ne (by simp) (by simp)]
  | markRestSuccess | markPublicDisconnect | markPrivateDisconnect | markReconnect
  | markSnapshotAge => cases cell <;> rfl

/-- What an operation makes of a cell depends only on the cell. -/
theorem content_apply_congr {op : EngineOp} (h : op.concerns cell = true)
    (hpolicy : s.statePolicy = s'.statePolicy) (hs : s.content cell = s'.content cell) :
    (s.apply op).content cell = (s'.apply op).content cell := by
  -- only the operations that concern the cell are left in each case
  cases op with
  | applyPublicEvent event =>
    cases cell with
    | market i => exact content_applyPublicEvent_congr (of_decide_eq_true h) hpolicy hs
    | _ => cases h
  | applyPrivateEvent event =>
    cases event with
    | execution e =>
      cases cell with
      | executions =>
        have hobserved : (s.observePrivateMessage e.executedAt).statePolicy =
          (s'.observePrivateMessage e.executedAt).statePolicy := hpolicy
        exact executions_pushExecution_congr hobserved hs e
      | _ => cases h
    | divergence d => cases h
    | balance x | position x | order x =>
      cases cell <;> first
        | cases h
        | exact (Index.get?_insert _ _ _).trans
            ((if_pos (of_decide_eq_true h)).trans
              ((Index.get?_insert _ _ _).trans (if_pos (of_decide_eq_true h))).symm)
  | replaceInstruments instruments =>
    cases cell with
    | market i => exact content_replaceInstruments_congr instruments hs
    | _ => cases h
  | replaceAccountSnapshot snapshot =>
    refine (content_replaceAccountSnapshot _).trans
      (Eq.trans ?_ (content_replaceAccountSnapshot _).symm)
    cases cell <;> first | rfl | cases h
  | replacePositions ps =>
    refine (content_replacePositions _).trans (Eq.trans ?_ (content_replacePositions _).symm)
    cases cell <;> first | rfl | cases h
  | replaceOpenOrders os =>
    cases cell with
    | order id => exact content_replaceOpenOrders_congr hs os
    | _ => cases h
  | mergeOrderHistory os =>
    cases cell with
    | order id =>
      have hget : s.ordersById.get? id = s'.ordersById.get? id := hs
      rw [apply, apply, content_mergeOrderHistory, content_mergeOrderHistory]
      exact (Index.get?_insertAll _ _ _).trans
        ((Index.get?_insertAll _ _ _).trans (by rw [hget])).symm
    | _ => cases h
  | mergeExecutions es =>
    cases cell with
    | executions => exact executions_mergeExecutions_congr hpolicy hs es
    | _ => cases h
  | applyPrivateSnapshot snapshot =>
    rw [apply, apply, applyPrivateSnapshot_eq, applyPrivateSnapshot_eq]
    cases cell with
    | market | executions => cases h
    | position i =>
      rw [content_replaceOpenOrders_of_ne (by simp), content_replaceOpenOrders_of_ne (by simp),
        content_replacePositions, content_replacePositions]
      rfl
    | order id =>
      refine content_replaceOpenOrders_congr ?_ _
      rw [content_replacePositions_of_ne (by simp), content_replacePositions_of_ne (by simp),
        content_replaceAccount_of_ne (by simp) (by simp),
        content_replaceAccount_of_ne (by simp) (by simp), hs]
    | balance | accountSummary =>
      rw [content_replaceOpenOrders_of_ne (by simp), content_replaceOpenOrders_of_ne (by simp),
        content_replacePositions_of_ne (by simp), content_replacePositions_of_ne (by simp)]
      obtain ⟨account, haccount⟩ := Option.isSome_iff_exists.1 h
      rw [haccount, replaceAccount, replaceAccount, content_replaceAccountSnapshot,
        content_replaceAccountSnapshot]
      rfl
  | applyCommandReceipt | applyReconcileReport | markRestSuccess | markPublicDisconnect
  | markPrivateDisconnect | markReconnect | markSnapshotAge => cases h

/-! ### Whole histories -/

/-- A cell, together with the capacities of the windows, is confined to the operations about it. -/
theorem confined_content (cell : Cell) :
    Confined apply (fun s => (s.statePolicy, s.content cell)) (·.concerns cell) where
  skip s op h := by rw [statePolicy_apply, content_apply_of_skip h]
  congr s s' op h hs := by
    obtain ⟨hpolicy, hcell⟩ := Prod.mk.inj hs
    rw [statePolicy_apply, statePolicy_apply, content_apply_congr h hpolicy hcell, hpolicy]

/-- **The cells of the engine state are independent.**  In two histories, from states with the same
capacities and the same content of a cell, that have the same operations about the cell in the same
order, the cell ends with the same content, whatever the other operations are. -/
theorem content_run_congr {s s' : EngineState} {cell : Cell} {ops ops' : List EngineOp}
    (hpolicy : s.statePolicy = s'.statePolicy) (hcell : s.content cell = s'.content cell)
    (hops : ops.filter (·.concerns cell) = ops'.filter (·.concerns cell)) :
    (run apply s ops).content cell = (run apply s' ops').content cell :=
  congrArg Prod.snd ((confined_content cell).run_congr (Prod.ext hpolicy hcell) hops)

/-- A funding rate of BTC ends up the same with and without the updates around it. -/
theorem content_run_congr_fundingRate :
    let engine := new .binance .linearUsdt ⟨16, 16⟩ []
    let rate (raw : String) : EngineOp :=
      .applyPublicEvent (.fundingRate ⟨⟨raw⟩, ⟨⟨1, 4, by decide, by decide⟩⟩, none, 1⟩)
    (run apply engine [rate "ETH/USDT:USDT", .markReconnect, rate "BTC/USDT:USDT",
        .replacePositions []]).content (.market ⟨"BTC/USDT:USDT"⟩) =
      (run apply engine [rate "BTC/USDT:USDT"]).content (.market ⟨"BTC/USDT:USDT"⟩) :=
  content_run_congr rfl rfl rfl

end EngineState

end BatMarkets
