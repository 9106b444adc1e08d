import BatMarkets.Core.State

/-!
# Orphan market data

The eight market maps of the engine state are keyed by instrument.  The six checked writers look
the instrument up in the table first, and a change of the table drops the market data of the
instruments that are gone; the writers of funding rates and of open interest store what they are
given.  So market data of instruments outside the table, `HasMarketState` without membership in
`instruments`, appears exactly through those two (`no_orphans_iff`).
-/

namespace BatMarkets

open Ordered Std Transition

/-- The instrument table and the maps keyed by its instruments. -/
structure MarketData where
  instruments : Index InstrumentSpec.instrumentId
  tickers : BTreeMap InstrumentId Ticker
  recentTrades : BTreeMap InstrumentId (List TradeTick)
  bookTops : BTreeMap InstrumentId BookTop
  klines : BTreeMap InstrumentId Kline
  markPrices : BTreeMap InstrumentId MarkPrice
  fundingRates : Index FundingRate.instrumentId
  openInterest : Index OpenInterest.instrumentId
  liquidations : BTreeMap InstrumentId (List Liquidation)

namespace EngineState

/-- The market side of the state. -/
def marketData (s : EngineState) : MarketData :=
  ⟨s.instruments, s.tickers, s.recentTrades, s.bookTops, s.klines, s.markPrices, s.fundingRates,
    s.openInterest, s.liquidations⟩

/-- The instrument is a key of one of the eight market maps. -/
def HasMarketState (s : EngineState) (id : InstrumentId) : Prop :=
  id ∈ s.tickers ∨ id ∈ s.recentTrades ∨ id ∈ s.bookTops ∨ id ∈ s.klines ∨ id ∈ s.markPrices ∨
    id ∈ s.fundingRates ∨ id ∈ s.openInterest ∨ id ∈ s.liquidations

/-- There is market data only for instruments of the table. -/
def NoOrphans (s : EngineState) : Prop := ∀ id, s.HasMarketState id → id ∈ s.instruments

variable {s s' : EngineState} {id : InstrumentId}

theorem NoOrphans.of_marketData (h : s'.marketData = s.marketData) :
    s'.NoOrphans ↔ s.NoOrphans := by
  simp only [marketData, MarketData.mk.injEq] at h
  obtain ⟨h1, h2, h3, h4, h5, h6, h7, h8, h9⟩ := h
  simp only [NoOrphans, HasMarketState, h1, h2, h3, h4, h5, h6, h7, h8, h9]

/-- Storing under an instrument keeps the state free of orphans exactly when the instrument is in
the table. -/
theorem NoOrphans.store_iff (hs : s.NoOrphans) (htable : s'.instruments = s.instruments)
    (hkeys : ∀ k, s'.HasMarketState k ↔ id = k ∨ s.HasMarketState k) :
    s'.NoOrphans ↔ id ∈ s.instruments := by
  unfold NoOrphans
  rw [htable]
  constructor
  · intro h
    exact h id ((hkeys id).2 (.inl rfl))
  · intro hid k hk
    rcases (hkeys k).1 hk with rfl | hk
    · exact hid
    · exact hs k hk

/-! ### The operations that do not touch market data -/

theorem marketData_observeLatest (s : EngineState) (timestamp : Option TimestampMs) :
    (s.observeLatest timestamp).marketData = s.marketData := by
  cases timestamp <;> rfl

theorem marketData_pushExecution (s : EngineState) (execution : Execution) :
    (s.pushExecution execution).marketData = s.marketData := by
  unfold pushExecution
  split <;> rfl

theorem marketData_applyPrivateEvent (s : EngineState) (event : PrivateLaneEvent) :
    (s.applyPrivateEvent event).marketData = s.marketData := by
  cases event with
  | execution e => exact marketData_pushExecution _ e
  | divergence d => cases d <;> rfl
  | balance | position | order => rfl

theorem marketData_mergeExecutions (s : EngineState) (executions : List Execution) :
    (s.mergeExecutions executions).marketData = s.marketData := by
  rw [mergeExecutions, marketData_observeLatest]
  induction executions generalizing s with
  | nil => rfl
  | cons e es ih => rw [List.foldl_cons, ih, marketData_pushExecution]

theorem marketData_replaceAccountSnapshot (s : EngineState) (snapshot : AccountSnapshot) :
    (s.replaceAccountSnapshot snapshot).marketData = s.marketData :=
  marketData_observeLatest _ _

theorem marketData_replacePositions (s : EngineState) (positions : List Position) :
    (s.replacePositions positions).marketData = s.marketData :=
  marketData_observeLatest _ _

theorem marketData_replaceOpenOrders (s : EngineState) (openOrders : List Order) :
    (s.replaceOpenOrders openOrders).marketData = s.marketData :=
  marketData_observeLatest _ _

theorem marketData_mergeOrderHistory (s : EngineState) (orders : List Order) :
    (s.mergeOrderHistory orders).marketData = s.marketData :=
  marketData_observeLatest _ _

theorem marketData_applyPrivateSnapshot (s : EngineState) (snapshot : PrivateSnapshot) :
    (s.applyPrivateSnapshot snapshot).marketData = s.marketData := by
  rw [applyPrivateSnapshot, marketData_replaceOpenOrders, marketData_replacePositions]
  cases snapshot.account with
  | none => rfl
  | some account => exact marketData_replaceAccountSnapshot s account

theorem marketData_applyCommandReceipt (s : EngineState) (receipt : CommandReceipt) :
    (s.applyCommandReceipt receipt).marketData = s.marketData := by
  unfold applyCommandReceipt
  split <;> rfl

theorem marketData_applyReconcileReport (s : EngineState) (report : ReconcileReport) :
    (s.applyReconcileReport report).marketData = s.marketData := by
  unfold applyReconcileReport
  split <;> rfl

/-! ### The operations that do -/

theorem noOrphans_replaceInstruments (s : EngineState) (instruments : List InstrumentSpec) :
    (s.replaceInstruments instruments).NoOrphans := by
  set table : Index InstrumentSpec.instrumentId := .collect instruments
  have known : ∀ {β : Type} {m : BTreeMap InstrumentId β} {k : InstrumentId},
      k ∈ retain m (fun k _ => decide (k ∈ table)) → k ∈ table := by
    intro β m k h
    rw [ExtTreeMap.mem_iff_isSome_getElem?, lookup_retain, Option.isSome_filter,
      Option.any_eq_true] at h
    obtain ⟨v, -, hv⟩ := h
    exact of_decide_eq_true hv
  have kept : ∀ {β : Type} {key : β → InstrumentId} {m : Index key} {k : InstrumentId},
      k ∈ m.filter (fun v => decide (key v ∈ table)) → k ∈ table := by
    intro β key m k h
    obtain ⟨v, hv⟩ := Index.mem_iff.1 h
    rw [Index.get?_filter, Option.filter_eq_some_iff] at hv
    exact m.keyed k v hv.1 ▸ of_decide_eq_true hv.2
  rintro k (h | h | h | h | h | h | h | h)
  exacts [known h, known h, known h, known h, known h, kept h, kept h, known h]

/-- The checked writers store under an instrument of the table only. -/
theorem noOrphans_applyFast {β : Type} {toUnified : InstrumentSpec → Except Failure β}
    {eventTime : TimestampMs} {store : β → EngineState → EngineState} (hs : s.NoOrphans)
    (hstore : ∀ unified, (store unified (s.observePublicMessage eventTime)).instruments =
        s.instruments ∧
      ∀ k, (store unified (s.observePublicMessage eventTime)).HasMarketState k →
        id = k ∨ s.HasMarketState k) :
    (stateAfter ((applyFast id toUnified eventTime store).run s)).NoOrphans := by
  refine stateAfter_applyFast hs fun spec unified hspec _ k hk => ?_
  obtain ⟨htable, hkeys⟩ := hstore unified
  rw [htable]
  rcases hkeys k hk with rfl | hk
  · exact Index.mem_of_get? hspec
  · exact hs k hk

theorem apply_fundingRate (s : EngineState) (f : FundingRate) :
    s.apply (.applyPublicEvent (.fundingRate f)) = { s.observePublicMessage f.eventTime with
      fundingRates := s.fundingRates.insert f } := rfl

theorem apply_openInterest (s : EngineState) (o : OpenInterest) :
    s.apply (.applyPublicEvent (.openInterest o)) = { s.observePublicMessage o.eventTime with
      openInterest := s.openInterest.insert o } := rfl

/-- The condition under which a call leaves no orphans: a funding rate or an open interest is
about an instrument of the table. -/
def StoresKnown (s : EngineState) : EngineOp → Prop
  | .applyPublicEvent (.fundingRate fundingRate) => fundingRate.instrumentId ∈ s.instruments
  | .applyPublicEvent (.openInterest openInterest) => openInterest.instrumentId ∈ s.instruments
  | _ => True

theorem NoOrphans.applyPublicEvent_iff (hs : s.NoOrphans) (event : PublicLaneEvent) :
    (s.apply (.applyPublicEvent event)).NoOrphans ↔ s.StoresKnown (.applyPublicEvent event) := by
  cases event with
  | ticker | bookTop | kline | markPrice | liquidation =>
    refine iff_true_intro (noOrphans_applyFast hs fun unified => ⟨rfl, fun k hk => ?_⟩)
    simp only [HasMarketState, mem_insert_iff] at hk ⊢
    tauto
  | trade =>
    refine iff_true_intro (noOrphans_applyFast hs fun unified => ?_)
    unfold pushTrade
    dsimp only
    split
    · exact ⟨rfl, fun k hk => .inr hk⟩
    · refine ⟨rfl, fun k hk => ?_⟩
      simp only [HasMarketState, mem_insert_iff] at hk ⊢
      tauto
  | fundingRate f =>
    rw [apply_fundingRate]
    refine hs.store_iff rfl fun k => ?_
    simp only [HasMarketState, Index.mem_insert, observePublicMessage]
    tauto
  | openInterest o =>
    rw [apply_openInterest]
    refine hs.store_iff rfl fun k => ?_
    simp only [HasMarketState, Index.mem_insert, observePublicMessage]
    tauto
  | orderBookDelta => exact iff_true_intro hs
  | divergence d => cases d <;> exact iff_true_intro hs

/-- What one call does to the absence of orphans. -/
theorem NoOrphans.apply_iff (hs : s.NoOrphans) (op : EngineOp) :
    (s.apply op).NoOrphans ↔ s.StoresKnown op := by
  cases op with
  | applyPublicEvent event => exact hs.applyPublicEvent_iff event
  | replaceInstruments instruments => exact iff_true_intro (noOrphans_replaceInstruments s _)
  | applyPrivateEvent event =>
    exact iff_true_intro ((of_marketData (marketData_applyPrivateEvent s event)).2 hs)
  | applyCommandReceipt receipt =>
    exact iff_true_intro ((of_marketData (marketData_applyCommandReceipt s receipt)).2 hs)
  | replaceAccountSnapshot snapshot =>
    exact iff_true_intro ((of_marketData (marketData_replaceAccountSnapshot s snapshot)).2 hs)
  | replacePositions positions =>
    exact iff_true_intro ((of_marketData (marketData_replacePositions s positions)).2 hs)
  | replaceOpenOrders openOrders =>
    exact iff_true_intro ((of_marketData (marketData_replaceOpenOrders s openOrders)).2 hs)
  | mergeOrderHistory orders =>
    exact iff_true_intro ((of_marketData (marketData_mergeOrderHistory s orders)).2 hs)
  | mergeExecutions executions =>
    exact iff_true_intro ((of_marketData (marketData_mergeExecutions s executions)).2 hs)
  | applyPrivateSnapshot snapshot =>
    exact iff_true_intro ((of_marketData (marketData_applyPrivateSnapshot s snapshot)).2 hs)
  | applyReconcileReport report =>
    exact iff_true_intro ((of_marketData (marketData_applyReconcileReport s report)).2 hs)
  | markRestSuccess | markPublicDisconnect | markPrivateDisconnect | markReconnect
  | markSnapshotAge => exact iff_true_intro hs

/-- **No orphan market data, exactly.**  In every history of an engine, all states have market
data only for instruments of the table exactly when every funding rate and every open interest
that is applied is about an instrument of the table at that moment. -/
theorem no_orphans_iff (venue : Venue) (product : Product) (statePolicy : StatePolicy)
    (instruments : List InstrumentSpec) (ops : List EngineOp) :
    (∀ s, Visited apply (new venue product statePolicy instruments) ops s → s.NoOrphans) ↔
      StepsMeet apply StoresKnown (new venue product statePolicy instruments) ops := by
  have hinit : (new venue product statePolicy instruments).NoOrphans := by
    intro id hid
    simp [HasMarketState, new, Index.not_mem_empty] at hid
  exact forall_visited_iff_stepsMeet (I := fun _ => True) (fun _ _ _ => trivial)
    (fun _ op _ hs => hs.apply_iff op) trivial hinit

/-- A funding rate for an instrument that is not in the table is stored. -/
theorem orphan_stored :
    ¬ ∀ (venue : Venue) (product : Product) (statePolicy : StatePolicy)
        (instruments : List InstrumentSpec) (ops : List EngineOp),
      (run apply (new venue product statePolicy instruments) ops).NoOrphans := by
  intro h
  have hid := h .binance .linearUsdt ⟨16, 16⟩ []
    [.applyPublicEvent (.fundingRate ⟨⟨"BTC/USDT:USDT"⟩, ⟨⟨1, 4, by decide, by decide⟩⟩, none, 1⟩)]
    ⟨"BTC/USDT:USDT"⟩
  exact absurd (hid (.inr (.inr (.inr (.inr (.inr (.inl (by decide))))))))
    (by decide)

end EngineState

end BatMarkets
