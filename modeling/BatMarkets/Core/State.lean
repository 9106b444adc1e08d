import BatMarkets.Core.Market
import BatMarkets.Core.Trade
import BatMarkets.Core.Health
import BatMarkets.Ordered.Index

/-!
# The engine state

`EngineState` (`state.rs`) is the in-memory state of the engine: the instrument table, the latest
market data of each instrument, the private state of the account and the health report.  The
operations that cannot fail are functions on states; `applyPublicEvent` can return an error or
panic, and is a program of the monad `EngineM`, in which what was written before a failure stays
written.

`EngineOp` is one call of a mutating operation and `EngineState.apply` the state it leaves behind,
whatever its result, so that a list of calls is a history of the state.
-/

namespace BatMarkets

open Ordered Std

/-- In-memory state sizing and retention policy. -/
structure StatePolicy where
  recentTradeCapacity : Nat
  executionCapacity : Nat
  deriving DecidableEq, Repr

/-- Private state-lane output. -/
inductive PrivateLaneEvent
  | balance (balance : Balance)
  | position (position : Position)
  | order (order : Order)
  | execution (execution : Execution)
  | divergence (divergence : DivergenceEvent)
  deriving DecidableEq, Repr

/-- In-memory engine state used by the facade. -/
structure EngineState where
  venue : Venue
  product : Product
  statePolicy : StatePolicy
  instruments : Index InstrumentSpec.instrumentId
  tickers : BTreeMap InstrumentId Ticker := ∅
  recentTrades : BTreeMap InstrumentId (List TradeTick) := ∅
  bookTops : BTreeMap InstrumentId BookTop := ∅
  klines : BTreeMap InstrumentId Kline := ∅
  markPrices : BTreeMap InstrumentId MarkPrice := ∅
  fundingRates : Index FundingRate.instrumentId := ∅
  openInterest : Index OpenInterest.instrumentId := ∅
  liquidations : BTreeMap InstrumentId (List Liquidation) := ∅
  balances : Index Balance.asset := ∅
  accountSummary : Option AccountSummary := none
  /-- The field `positions` of the source, one position for each instrument. -/
  positionsById : Index Position.instrumentId := ∅
  /-- The field `orders` of the source. -/
  ordersById : Index Order.orderId := ∅
  executions : List Execution := []
  health : HealthReport := {}

/-- Programs that change the engine state and may fail. -/
abbrev EngineM := EStateM Failure EngineState

/-- The state a call leaves behind, whatever its result. -/
def stateAfter {α : Type} : EStateM.Result Failure EngineState α → EngineState
  | .ok _ s => s
  | .error _ s => s

/-- The result of a call, without the state it leaves behind. -/
def resultOf {α : Type} : EStateM.Result Failure EngineState α → Except Failure α
  | .ok a _ => .ok a
  | .error e _ => .error e

/-- Fail when the value was not computed. -/
def EngineM.ofExcept {α : Type} : Except Failure α → EngineM α
  | .ok a => pure a
  | .error e => throw e

namespace EngineState

/-- A new engine: the instruments under their identifiers, and nothing else. -/
def new (venue : Venue) (product : Product) (statePolicy : StatePolicy)
    (instruments : List InstrumentSpec) : EngineState :=
  { venue, product, statePolicy, instruments := .collect instruments }

/-! ### Reading -/

/-- All positions, by instrument. -/
def positions (s : EngineState) : List Position := s.positionsById.toVals

/-- All orders, by id. -/
def orders (s : EngineState) : List Order := s.ordersById.toVals

/-- The orders that are still open. -/
def openOrders (s : EngineState) : List Order :=
  s.ordersById.toVals.filter (·.status.isOpen)

/-- All instruments, by id. -/
def instrumentSpecs (s : EngineState) : List InstrumentSpec := s.instruments.toVals

/-- The time of the latest update of an order of the instrument. -/
def latestOrderUpdateAt (s : EngineState) (instrumentId : InstrumentId) : Option TimestampMs :=
  ((s.ordersById.toVals.filter (·.instrumentId = instrumentId)).map (·.updatedAt)).max?

/-- The time of the latest execution of the instrument. -/
def latestExecutionAt (s : EngineState) (instrumentId : InstrumentId) : Option TimestampMs :=
  ((s.executions.filter (·.instrumentId = instrumentId)).map (·.executedAt)).max?

/-- The error for an instrument that is not in the table. -/
def unknownInstrument (s : EngineState) (instrumentId : InstrumentId) : MarketError where
  kind := .configError
  message := "unknown instrument " ++ instrumentId.asStr ++ " for " ++ s.venue.display ++ " " ++
    s.product.display

/-- The specification of an instrument. -/
def spec (instrumentId : InstrumentId) : EngineM InstrumentSpec := do
  let s ← get
  match s.instruments.get? instrumentId with
  | some spec => return spec
  | none => throw (.error (s.unknownInstrument instrumentId))

/-! ### Public events -/

/-- Health sees a public message. -/
def observePublicMessage (s : EngineState) (timestamp : TimestampMs) : EngineState :=
  { s with health := s.health.observePublicMessage timestamp }

/-- The shape of the six checked writers: read the fast value with the specification of its
instrument, note the message, and store the unified value. -/
def applyFast {β : Type} (instrumentId : InstrumentId)
    (toUnified : InstrumentSpec → Except Failure β) (eventTime : TimestampMs)
    (store : β → EngineState → EngineState) : EngineM Unit := do
  let spec ← spec instrumentId
  let unified ← EngineM.ofExcept (toUnified spec)
  modify (·.observePublicMessage eventTime)
  modify (store unified)

/-- A ticker takes the place of the last one. -/
def applyFastTicker (ticker : FastTicker) : EngineM Unit :=
  applyFast ticker.instrumentId ticker.toUnified ticker.eventTime fun unified s =>
    { s with tickers := s.tickers.insert ticker.instrumentId unified }

/-- Append a trade to the window of its instrument, unless it repeats the last one. -/
def pushTrade (instrumentId : InstrumentId) (unified : TradeTick) (s : EngineState) :
    EngineState :=
  let entry := s.recentTrades[instrumentId]?.getD []
  if (entry.getLast?.map (·.tradeId)) = some unified.tradeId then s
  else
    { s with
      recentTrades := s.recentTrades.insert instrumentId
        (trimFront s.statePolicy.recentTradeCapacity (entry ++ [unified])) }

/-- A trade goes into the window of its instrument. -/
def applyFastTrade (trade : FastTrade) : EngineM Unit :=
  applyFast trade.instrumentId trade.toUnified trade.eventTime (pushTrade trade.instrumentId)

/-- The best bid and ask take the place of the last ones. -/
def applyFastBookTop (bookTop : FastBookTop) : EngineM Unit :=
  applyFast bookTop.instrumentId bookTop.toUnified bookTop.eventTime fun unified s =>
    { s with bookTops := s.bookTops.insert bookTop.instrumentId unified }

/-- A candle takes the place of the last one, whatever its interval. -/
def applyFastKline (kline : FastKline) : EngineM Unit :=
  applyFast kline.instrumentId kline.toUnified kline.closeTime fun unified s =>
    { s with klines := s.klines.insert kline.instrumentId unified }

/-- A mark price takes the place of the last one. -/
def applyFastMarkPrice (markPrice : FastMarkPrice) : EngineM Unit :=
  applyFast markPrice.instrumentId markPrice.toUnified markPrice.eventTime fun unified s =>
    { s with markPrices := s.markPrices.insert markPrice.instrumentId unified }

/-- A forced order takes the place of the last one. -/
def applyFastLiquidation (liquidation : FastLiquidation) : EngineM Unit :=
  applyFast liquidation.instrumentId liquidation.toUnified liquidation.eventTime fun unified s =>
    { s with
      liquidations := s.liquidations.insert liquidation.instrumentId
        (trimFront s.statePolicy.recentTradeCapacity
          (s.liquidations[liquidation.instrumentId]?.getD [] ++ [unified])) }

/-- What a divergence marker of the public lane does to the health report. -/
def applyPublicDivergence (s : EngineState) : DivergenceEvent → EngineState
  | .reconcileRequired | .sequenceGap _ => { s with health := s.health.markPublicGap }
  | .stateDivergence => { s with health := s.health.markStateDivergence }

/-- A change of the book leaves no trace in the state. -/
def applyPublicEvent : PublicLaneEvent → EngineM Unit
  | .ticker ticker => applyFastTicker ticker
  | .trade trade => applyFastTrade trade
  | .bookTop bookTop => applyFastBookTop bookTop
  | .orderBookDelta _ => pure ()
  | .kline kline => applyFastKline kline
  | .markPrice markPrice => applyFastMarkPrice markPrice
  | .fundingRate fundingRate => do
    modify (·.observePublicMessage fundingRate.eventTime)
    modify fun s =>
      { s with fundingRates := s.fundingRates.insert fundingRate }
  | .openInterest openInterest => do
    modify (·.observePublicMessage openInterest.eventTime)
    modify fun s =>
      { s with openInterest := s.openInterest.insert openInterest }
  | .liquidation liquidation => applyFastLiquidation liquidation
  | .divergence divergence => modify (·.applyPublicDivergence divergence)

/-! ### Private events -/

/-- Health sees a private message. -/
def observePrivateMessage (s : EngineState) (timestamp : TimestampMs) : EngineState :=
  { s with health := s.health.observePrivateMessage timestamp }

/-- Note the latest of the messages, if there is one. -/
def observeLatest (s : EngineState) : Option TimestampMs → EngineState
  | none => s
  | some timestamp => s.observePrivateMessage timestamp

/-- Append an execution that is not stored yet, and drop the oldest ones beyond the capacity. -/
def pushExecution (s : EngineState) (execution : Execution) : EngineState :=
  if s.executions.any (·.executionId = execution.executionId) then s
  else
    { s with
      executions := trimFront s.statePolicy.executionCapacity (s.executions ++ [execution]) }

/-- A private event takes the place of what the state has under its key; executions are admitted. -/
def applyPrivateEvent (s : EngineState) : PrivateLaneEvent → EngineState
  | .balance balance =>
    let s := s.observePrivateMessage balance.updatedAt
    { s with balances := s.balances.insert balance }
  | .position position =>
    let s := s.observePrivateMessage position.updatedAt
    { s with positionsById := s.positionsById.insert position }
  | .order order =>
    let s := s.observePrivateMessage order.updatedAt
    { s with ordersById := s.ordersById.insert order }
  | .execution execution =>
    (s.observePrivateMessage execution.executedAt).pushExecution execution
  | .divergence .reconcileRequired => { s with health := s.health.markReconcileRequired }
  | .divergence (.sequenceGap _) => { s with health := s.health.markPrivateGap }
  | .divergence .stateDivergence => { s with health := s.health.markStateDivergence }

/-! ### Commands and snapshots -/

/-- Only a receipt of unknown execution changes the state. -/
def applyCommandReceipt (s : EngineState) (receipt : CommandReceipt) : EngineState :=
  match receipt.status with
  | .accepted | .rejected => s
  | .unknownExecution => { s with health := s.health.markCommandUncertain }

/-- Drop the market data of instruments that are not in the table. -/
def pruneOrphanMarketState (s : EngineState) : EngineState :=
  let known {β : Type} (m : BTreeMap InstrumentId β) : BTreeMap InstrumentId β :=
    retain m fun instrumentId _ => decide (instrumentId ∈ s.instruments)
  { s with
    tickers := known s.tickers
    recentTrades := known s.recentTrades
    bookTops := known s.bookTops
    klines := known s.klines
    markPrices := known s.markPrices
    fundingRates := s.fundingRates.filter fun value => decide (value.instrumentId ∈ s.instruments)
    openInterest := s.openInterest.filter fun value => decide (value.instrumentId ∈ s.instruments)
    liquidations := known s.liquidations }

/-- Market data of instruments that are gone go with them. -/
def replaceInstruments (s : EngineState) (instruments : List InstrumentSpec) : EngineState :=
  { s with instruments := .collect instruments }.pruneOrphanMarketState

/-- A snapshot of the account replaces all balances and the summary. -/
def replaceAccountSnapshot (s : EngineState) (snapshot : AccountSnapshot) : EngineState :=
  let s := { s with
    balances := .collect snapshot.balances
    accountSummary := snapshot.summary }
  s.observeLatest
    ((s.accountSummary.map (·.updatedAt)).or (s.balances.toVals.map (·.updatedAt)).max?)

/-- The positions of a reply replace all positions. -/
def replacePositions (s : EngineState) (positions : List Position) : EngineState :=
  { s with
    positionsById := .collect positions }.observeLatest (positions.map Position.updatedAt).max?

/-- The orders of a reply replace all open orders; orders that are not open stay. -/
def replaceOpenOrders (s : EngineState) (openOrders : List Order) : EngineState :=
  { s with
    ordersById := (s.ordersById.filter (!·.status.isOpen)).insertAll openOrders }.observeLatest
      (openOrders.map Order.updatedAt).max?

/-- The orders of a history replace those with the same ids. -/
def mergeOrderHistory (s : EngineState) (orders : List Order) : EngineState :=
  { s with
    ordersById := s.ordersById.insertAll orders }.observeLatest (orders.map Order.updatedAt).max?

/-- The executions of a reply are admitted one by one. -/
def mergeExecutions (s : EngineState) (executions : List Execution) : EngineState :=
  (executions.foldl pushExecution s).observeLatest (executions.map (·.executedAt)).max?

/-- The account, if it has been read, the positions and the open orders. -/
def applyPrivateSnapshot (s : EngineState) (snapshot : PrivateSnapshot) : EngineState :=
  let s := match snapshot.account with
    | some account => s.replaceAccountSnapshot account
    | none => s
  (s.replacePositions snapshot.positions).replaceOpenOrders snapshot.openOrders

/-- Health sees how a reconcile has ended. -/
def applyReconcileReport (s : EngineState) (report : ReconcileReport) : EngineState :=
  match report.outcome with
  | .synchronized => { s with health := s.health.markReconcileComplete }
  | .stillUncertain => { s with health := s.health.markReconcileRequired }
  | .diverged => { s with health := s.health.markStateDivergence }

/-- Health sees a request that has succeeded. -/
def markRestSuccess (s : EngineState) (clockSkewMs : Option Int64) : EngineState :=
  { s with health := s.health.observeRestSuccess clockSkewMs }

/-- Health sees that the public stream is lost. -/
def markPublicDisconnect (s : EngineState) : EngineState :=
  { s with health := s.health.markPublicDisconnect }

/-- Health sees that the private stream is lost. -/
def markPrivateDisconnect (s : EngineState) : EngineState :=
  { s with health := s.health.markPrivateDisconnect }

/-- Health counts a reconnect. -/
def markReconnect (s : EngineState) : EngineState :=
  { s with health := s.health.markReconnect }

/-- Health sees how old the last snapshot is. -/
def markSnapshotAge (s : EngineState) (ageMs staleAfterMs : UInt64) : EngineState :=
  { s with health := s.health.markSnapshotAge ageMs staleAfterMs }

end EngineState

/-! ### What public events do -/

/-- The event is a ticker, a trade, a top of book, a kline, a mark price or a liquidation of an
instrument outside the table. -/
def PublicLaneEvent.NamesUnknown (s : EngineState) : PublicLaneEvent → Prop
  | .ticker e => e.instrumentId ∉ s.instruments
  | .trade e => e.instrumentId ∉ s.instruments
  | .bookTop e => e.instrumentId ∉ s.instruments
  | .kline e => e.instrumentId ∉ s.instruments
  | .markPrice e => e.instrumentId ∉ s.instruments
  | .liquidation e => e.instrumentId ∉ s.instruments
  | .orderBookDelta _ | .fundingRate _ | .openInterest _ | .divergence _ => False

namespace EngineState

section Fast

variable {β : Type} {s : EngineState} {id : InstrumentId}
  {toUnified : InstrumentSpec → Except Failure β} {eventTime : TimestampMs}
  {store : β → EngineState → EngineState}

theorem spec_run (id : InstrumentId) (s : EngineState) :
    (spec id).run s = match s.instruments.get? id with
      | some spec => .ok spec s
      | none => .error (.error (s.unknownInstrument id)) s := by
  simp only [spec, EStateM.run_bind, EStateM.run_get]
  cases s.instruments.get? id <;> rfl

/-- What a checked writer does: nothing when the instrument is unknown or its value cannot be
read, and otherwise one store after one message noted. -/
theorem applyFast_run :
    (applyFast id toUnified eventTime store).run s = match s.instruments.get? id with
      | none => .error (.error (s.unknownInstrument id)) s
      | some spec => match toUnified spec with
        | .error e => .error e s
        | .ok unified => .ok () (store unified (s.observePublicMessage eventTime)) := by
  simp only [applyFast, EStateM.run_bind, spec_run]
  cases s.instruments.get? id with
  | none => rfl
  | some spec =>
    simp only
    cases toUnified spec <;> rfl

theorem stateAfter_applyFast {P : EngineState → Prop} (hs : P s)
    (hstore : ∀ spec unified, s.instruments.get? id = some spec → toUnified spec = .ok unified →
      P (store unified (s.observePublicMessage eventTime))) :
    P (stateAfter ((applyFast id toUnified eventTime store).run s)) := by
  rw [applyFast_run]
  cases hspec : s.instruments.get? id with
  | none => exact hs
  | some spec =>
    simp only
    cases hu : toUnified spec with
    | error e => exact hs
    | ok unified => exact hstore spec unified hspec hu

end Fast

/-- The part of the state that names the engine and its instruments. -/
def table (s : EngineState) : Venue × Product × Index InstrumentSpec.instrumentId :=
  (s.venue, s.product, s.instruments)

/-- No public event changes the instrument table. -/
theorem table_applyPublicEvent (s : EngineState) (event : PublicLaneEvent) :
    (stateAfter ((applyPublicEvent event).run s)).table = s.table := by
  cases event with
  | ticker | bookTop | kline | markPrice | liquidation =>
    exact stateAfter_applyFast (P := fun t => t.table = s.table) rfl fun _ _ _ _ => rfl
  | trade =>
    refine stateAfter_applyFast (P := fun t => t.table = s.table) rfl fun _ _ _ _ => ?_
    unfold pushTrade
    dsimp only
    split <;> rfl
  | orderBookDelta | fundingRate | openInterest => rfl
  | divergence d => cases d <;> rfl

theorem table_forM_applyPublicEvent (s : EngineState) (events : List PublicLaneEvent) :
    (stateAfter ((forM events applyPublicEvent).run s)).table = s.table := by
  induction events generalizing s with
  | nil => rfl
  | cons event events ih =>
    have htable := table_applyPublicEvent s event
    rw [List.forM_cons, EStateM.run_bind]
    cases hr : (applyPublicEvent event).run s with
    | ok _ s' =>
      rw [hr] at htable
      exact (ih s').trans htable
    | error _ s' =>
      rw [hr] at htable
      exact htable

section Unknown

variable {s : EngineState} {event : PublicLaneEvent}

theorem applyFast_run_of_not_mem {β : Type} {id : InstrumentId}
    {toUnified : InstrumentSpec → Except Failure β} {eventTime : TimestampMs}
    {store : β → EngineState → EngineState} (h : id ∉ s.instruments) :
    (applyFast id toUnified eventTime store).run s =
      .error (.error (s.unknownInstrument id)) s := by
  rw [applyFast_run, Index.not_mem_iff.1 h]

theorem onlyPanics_applyFast {β : Type} {id : InstrumentId}
    {toUnified : InstrumentSpec → Except Failure β} {eventTime : TimestampMs}
    {store : β → EngineState → EngineState} (h : id ∈ s.instruments)
    (hu : ∀ spec, OnlyPanics (toUnified spec)) :
    OnlyPanics (resultOf ((applyFast id toUnified eventTime store).run s)) := by
  obtain ⟨spec, hspec⟩ := Index.mem_iff.1 h
  rw [applyFast_run, hspec]
  have hspec' := hu spec
  dsimp only
  cases hx : toUnified spec with
  | ok a => exact onlyPanics_ok _
  | error e =>
    rw [hx] at hspec'
    intro e' h
    injection h with h
    exact hspec' e' (congrArg Except.error h)

/-- Applying an event fails without effect when it names an unknown instrument. -/
theorem applyPublicEvent_of_namesUnknown (h : event.NamesUnknown s) :
    ∃ e, (applyPublicEvent event).run s = .error (.error e) s := by
  cases event with
  | ticker | trade | bookTop | kline | markPrice | liquidation =>
    exact ⟨_, applyFast_run_of_not_mem h⟩
  | orderBookDelta | fundingRate | openInterest | divergence => exact h.elim

/-- Applying an event that names no unknown instrument does not return an error. -/
theorem onlyPanics_applyPublicEvent (h : ¬ event.NamesUnknown s) :
    OnlyPanics (resultOf ((applyPublicEvent event).run s)) := by
  cases event with
  | ticker t => exact onlyPanics_applyFast (not_not.1 h) t.onlyPanics_toUnified
  | trade t => exact onlyPanics_applyFast (not_not.1 h) t.onlyPanics_toUnified
  | bookTop t => exact onlyPanics_applyFast (not_not.1 h) t.onlyPanics_toUnified
  | kline t => exact onlyPanics_applyFast (not_not.1 h) t.onlyPanics_toUnified
  | markPrice t => exact onlyPanics_applyFast (not_not.1 h) t.onlyPanics_toUnified
  | liquidation t => exact onlyPanics_applyFast (not_not.1 h) t.onlyPanics_toUnified
  | orderBookDelta | fundingRate | openInterest => exact onlyPanics_ok _
  | divergence d => cases d <;> exact onlyPanics_ok _

theorem namesUnknown_congr {s s' : EngineState} (h : s'.table = s.table) :
    event.NamesUnknown s' ↔ event.NamesUnknown s := by
  have hi : s'.instruments = s.instruments := congrArg (·.2.2) h
  cases event <;> simp only [PublicLaneEvent.NamesUnknown, hi]

end Unknown

/-! ### What replacing the open orders does -/

section OpenOrders

variable (s : EngineState)

theorem ordersById_observeLatest (timestamp : Option TimestampMs) :
    (s.observeLatest timestamp).ordersById = s.ordersById := by
  cases timestamp <;> rfl

theorem mem_orders {s : EngineState} {o : Order} :
    o ∈ s.orders ↔ s.ordersById.get? o.orderId = some o := Index.mem_toVals_iff

/-- What is stored under an order id after the open orders have been replaced: the last reply with
that id, or else what was stored before when it was not open. -/
theorem get?_replaceOpenOrders (orders : List Order) (k : OrderId) :
    (s.replaceOpenOrders orders).ordersById.get? k =
      (lastOf Order.orderId k orders).or
        ((s.ordersById.get? k).filter fun o => !o.status.isOpen) := by
  rw [replaceOpenOrders, ordersById_observeLatest, Index.get?_insertAll, Index.get?_filter]

variable {s}

/-- A closed order is stored after the replacement when it is the last reply with its id, or when
it was stored before and there is no reply with its id; an open one only in the first case. -/
theorem mem_orders_replaceOpenOrders {orders : List Order} {o : Order} :
    o ∈ (s.replaceOpenOrders orders).orders ↔
      lastOf Order.orderId o.orderId orders = some o ∨
        (o ∈ s.orders ∧ o.status.isOpen = false ∧ ∀ r ∈ orders, r.orderId ≠ o.orderId) := by
  rw [mem_orders, mem_orders, get?_replaceOpenOrders, ← lastOf_eq_none]
  cases lastOf Order.orderId o.orderId orders with
  | some r => simp
  | none => simp [Option.filter_eq_some_iff]

/-- The replacement of the open orders by the reply to a request about one instrument touches that
instrument only: no other instrument has an open order or an order with the id of a reply, and no
open reply is followed by another one with its id. -/
def ScopedReplacement (s : EngineState) (i : InstrumentId) (orders : List Order) : Prop :=
  (∀ o ∈ s.orders, o.instrumentId ≠ i →
      o.status.isOpen = false ∧ ∀ r ∈ orders, r.orderId ≠ o.orderId) ∧
    ∀ r ∈ orders, r.status.isOpen = true → lastOf Order.orderId r.orderId orders = some r

theorem replaceOpenOrders_scoped_iff {i : InstrumentId} {orders : List Order}
    (hscope : ∀ r ∈ orders, r.instrumentId = i) :
    ((∀ o ∈ s.orders, o.instrumentId ≠ i → o ∈ (s.replaceOpenOrders orders).orders) ∧
        ∀ o : Order, o.instrumentId = i → o.status.isOpen = true →
          (o ∈ (s.replaceOpenOrders orders).orders ↔ o ∈ orders)) ↔
      s.ScopedReplacement i orders := by
  simp only [mem_orders_replaceOpenOrders, ScopedReplacement]
  refine and_congr (forall₃_congr fun o ho hi => ?_) ?_
  · -- an order of another instrument is not in the reply, so it must be kept
    have hne : lastOf Order.orderId o.orderId orders ≠ some o := fun h =>
      hi (hscope o (lastOf_eq_some h).1)
    simp only [hne, ho, true_and, false_or]
  · constructor
    · intro h r hr hopen
      have hclosed : ¬ r.status.isOpen = false := by simp [hopen]
      exact ((h r (hscope r hr) hopen).2 hr).resolve_right fun hs => hclosed hs.2.1
    · intro h o _ hopen
      have hclosed : ¬ o.status.isOpen = false := by simp [hopen]
      refine ⟨fun ho => ?_, fun ho => .inl (h o ho hopen)⟩
      rcases ho with ho | ho
      · exact (lastOf_eq_some ho).1
      · exact absurd ho.2.1 hclosed

end OpenOrders

end EngineState

/-! ### Histories -/

/-- One call of a mutating operation of `EngineState`. -/
inductive EngineOp
  | applyPublicEvent (event : PublicLaneEvent)
  | applyPrivateEvent (event : PrivateLaneEvent)
  | applyCommandReceipt (receipt : CommandReceipt)
  | replaceInstruments (instruments : List InstrumentSpec)
  | replaceAccountSnapshot (snapshot : AccountSnapshot)
  | replacePositions (positions : List Position)
  | replaceOpenOrders (openOrders : List Order)
  | mergeOrderHistory (orders : List Order)
  | mergeExecutions (executions : List Execution)
  | applyPrivateSnapshot (snapshot : PrivateSnapshot)
  | applyReconcileReport (report : ReconcileReport)
  | markRestSuccess (clockSkewMs : Option Int64)
  | markPublicDisconnect
  | markPrivateDisconnect
  | markReconnect
  | markSnapshotAge (ageMs staleAfterMs : UInt64)

/-- The state after a call, whatever its result. -/
def EngineState.apply (s : EngineState) : EngineOp → EngineState
  | .applyPublicEvent event => stateAfter ((applyPublicEvent event).run s)
  | .applyPrivateEvent event => s.applyPrivateEvent event
  | .applyCommandReceipt receipt => s.applyCommandReceipt receipt
  | .replaceInstruments instruments => s.replaceInstruments instruments
  | .replaceAccountSnapshot snapshot => s.replaceAccountSnapshot snapshot
  | .replacePositions positions => s.replacePositions positions
  | .replaceOpenOrders openOrders => s.replaceOpenOrders openOrders
  | .mergeOrderHistory orders => s.mergeOrderHistory orders
  | .mergeExecutions executions => s.mergeExecutions executions
  | .applyPrivateSnapshot snapshot => s.applyPrivateSnapshot snapshot
  | .applyReconcileReport report => s.applyReconcileReport report
  | .markRestSuccess clockSkewMs => s.markRestSuccess clockSkewMs
  | .markPublicDisconnect => s.markPublicDisconnect
  | .markPrivateDisconnect => s.markPrivateDisconnect
  | .markReconnect => s.markReconnect
  | .markSnapshotAge ageMs staleAfterMs => s.markSnapshotAge ageMs staleAfterMs

end BatMarkets
