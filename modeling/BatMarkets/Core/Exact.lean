import BatMarkets.Core.State

/-!
# Exact events and what the state stores

An adapter turns the exact numbers of a venue message into fast values at the scales of the
instrument (`ExactEvent.quantize`), and a reader turns them back into decimals at the scales it
looks up (`PublicLaneEvent.toUnified`).  `RoundsAt p q x u` says that `u` is `x` with its prices
rounded at `p` places and its quantities at `q`.

## Main results

* `roundsAt_of_sameScales` : an event read back with a specification of the same scales is the
  exact event, rounded at these scales.
* `stores_applyPublicEvent`, `stores_replaceInstruments` : the market data of the state after an
  operation was there before, or is the event just read.
-/

namespace BatMarkets

open Ordered Std

/-- A public event with exact numbers: what a venue sent, or what a reader of a fast event gets. -/
inductive ExactEvent
  | ticker (ticker : Ticker)
  | trade (trade : TradeTick)
  | bookTop (bookTop : BookTop)
  | orderBookDelta (delta : OrderBookDelta)
  | kline (kline : Kline)
  | markPrice (markPrice : MarkPrice)
  | fundingRate (fundingRate : FundingRate)
  | openInterest (openInterest : OpenInterest)
  | liquidation (liquidation : Liquidation)
  | divergence (divergence : DivergenceEvent)
  deriving DecidableEq, Repr

/-! ### Writing -/

/-- The turnover of a ticker; Bybit frames are refused when it does not fit, others drop it. -/
def quantizeTurnover (spec : InstrumentSpec) (turnover : Option Notional) :
    Except MarketError (Option FastNotional) :=
  match spec.venue with
  | .bybit => turnover.mapM (·.quantize spec.quoteScale)
  | .binance | .mexc => .ok (turnover.bind fun x => (x.quantize spec.quoteScale).toOption)

/-- A level of an order-book delta. -/
def quantizeLevel (spec : InstrumentSpec) (level : OrderBookLevel) :
    Except MarketError (FastPrice × FastQuantity) := do
  let price ← level.price.quantize spec.priceScale
  let quantity ← level.quantity.quantize spec.qtyScale
  return (price, quantity)

/-- The fast event of an exact one, at the scales of an instrument; funding rates and open interest
keep their exact numbers. -/
def ExactEvent.quantize (spec : InstrumentSpec) : ExactEvent → Except MarketError PublicLaneEvent
  | .ticker x => do
    let lastPrice ← x.lastPrice.quantize spec.priceScale
    let markPrice ← x.markPrice.mapM (·.quantize spec.priceScale)
    let indexPrice ← x.indexPrice.mapM (·.quantize spec.priceScale)
    let volume24h ← x.volume24h.mapM (·.quantize spec.qtyScale)
    let turnover24h ← quantizeTurnover spec x.turnover24h
    return .ticker {
      instrumentId := spec.instrumentId, lastPrice, markPrice, indexPrice, volume24h,
      turnover24h, eventTime := x.eventTime }
  | .trade x => do
    let price ← x.price.quantize spec.priceScale
    let quantity ← x.quantity.quantize spec.qtyScale
    return .trade {
      instrumentId := spec.instrumentId, tradeId := x.tradeId, price, quantity,
      aggressorSide := x.aggressorSide, eventTime := x.eventTime }
  | .bookTop x => do
    let bidPrice ← x.bid.price.quantize spec.priceScale
    let bidQuantity ← x.bid.quantity.quantize spec.qtyScale
    let askPrice ← x.ask.price.quantize spec.priceScale
    let askQuantity ← x.ask.quantity.quantize spec.qtyScale
    return .bookTop {
      instrumentId := spec.instrumentId, bidPrice, bidQuantity, askPrice, askQuantity,
      eventTime := x.eventTime }
  | .orderBookDelta x => do
    let bids ← x.bids.mapM (quantizeLevel spec)
    let asks ← x.asks.mapM (quantizeLevel spec)
    return .orderBookDelta {
      instrumentId := spec.instrumentId, bids, asks, eventTime := x.eventTime }
  | .kline x => do
    let openPrice ← x.openPrice.quantize spec.priceScale
    let high ← x.high.quantize spec.priceScale
    let low ← x.low.quantize spec.priceScale
    let close ← x.close.quantize spec.priceScale
    let volume ← x.volume.quantize spec.qtyScale
    return .kline {
      instrumentId := spec.instrumentId, interval := x.interval, openPrice, high, low, close,
      volume, openTime := x.openTime, closeTime := x.closeTime, closed := x.closed }
  | .markPrice x => do
    let price ← x.price.quantize spec.priceScale
    return .markPrice {
      instrumentId := spec.instrumentId, price, fundingRate := x.fundingRate,
      eventTime := x.eventTime }
  | .fundingRate x => return .fundingRate { x with instrumentId := spec.instrumentId }
  | .openInterest x => return .openInterest { x with instrumentId := spec.instrumentId }
  | .liquidation x => do
    let price ← x.price.quantize spec.priceScale
    let quantity ← x.quantity.quantize spec.qtyScale
    return .liquidation {
      instrumentId := spec.instrumentId, side := x.side, price, quantity, eventTime := x.eventTime }
  | .divergence x => return .divergence x

/-! ### Reading -/

namespace PublicLaneEvent

/-- The instrument of a fast event, whose specification a reader looks up. -/
def fastInstrumentId : PublicLaneEvent → Option InstrumentId
  | .ticker e => some e.instrumentId
  | .trade e => some e.instrumentId
  | .bookTop e => some e.instrumentId
  | .orderBookDelta e => some e.instrumentId
  | .kline e => some e.instrumentId
  | .markPrice e => some e.instrumentId
  | .liquidation e => some e.instrumentId
  | .fundingRate _ | .openInterest _ | .divergence _ => none

/-- What a reader makes of an event with a specification. -/
def toUnified (spec : InstrumentSpec) : PublicLaneEvent → Except Failure ExactEvent
  | .ticker e => .ticker <$> e.toUnified spec
  | .trade e => .trade <$> e.toUnified spec
  | .bookTop e => .bookTop <$> e.toUnified spec
  | .orderBookDelta e => .orderBookDelta <$> e.toUnified spec
  | .kline e => .kline <$> e.toUnified spec
  | .markPrice e => .markPrice <$> e.toUnified spec
  | .liquidation e => .liquidation <$> e.toUnified spec
  | .fundingRate e => .ok (.fundingRate e)
  | .openInterest e => .ok (.openInterest e)
  | .divergence e => .ok (.divergence e)

end PublicLaneEvent

/-! ### Rounding -/

namespace ExactEvent

/-- The prices that a fast event carries as numbers of units. -/
def prices : ExactEvent → List Price
  | .ticker x => [x.lastPrice] ++ x.markPrice.toList ++ x.indexPrice.toList
  | .trade x => [x.price]
  | .bookTop x => [x.bid.price, x.ask.price]
  | .orderBookDelta x => x.bids.map (·.price) ++ x.asks.map (·.price)
  | .kline x => [x.openPrice, x.high, x.low, x.close]
  | .markPrice x => [x.price]
  | .liquidation x => [x.price]
  | .fundingRate _ | .openInterest _ | .divergence _ => []

/-- The quantities that a fast event carries as numbers of units. -/
def quantities : ExactEvent → List Quantity
  | .ticker x => x.volume24h.toList
  | .trade x => [x.quantity]
  | .bookTop x => [x.bid.quantity, x.ask.quantity]
  | .orderBookDelta x => x.bids.map (·.quantity) ++ x.asks.map (·.quantity)
  | .kline x => [x.volume]
  | .liquidation x => [x.quantity]
  | .markPrice _ | .fundingRate _ | .openInterest _ | .divergence _ => []

/-- The numbers that a fast event carries exactly. -/
def unscaled : ExactEvent → List Decimal
  | .markPrice x => (x.fundingRate.map (·.value)).toList
  | .fundingRate x => x.value.value :: (x.markPrice.map (·.value)).toList
  | .openInterest x => [x.value.value]
  | .ticker _ | .trade _ | .bookTop _ | .orderBookDelta _ | .kline _ | .liquidation _
  | .divergence _ => []

end ExactEvent

/-- `u` is `x` rounded at `scale` places. -/
def RoundedTo {k : ValueKind} (scale : Nat) (x u : DecimalValue k) : Prop :=
  u.value.toRat = x.value.roundedAt scale

/-- The numbers of `u` are those of `x`, prices rounded at `p` and quantities at `q` places where a
fast event carries them as numbers of units. -/
structure RoundsAt (p q : Nat) (x u : ExactEvent) : Prop where
  prices : List.Forall₂ (RoundedTo p) x.prices u.prices
  quantities : List.Forall₂ (RoundedTo q) x.quantities u.quantities
  unscaled : x.unscaled = u.unscaled

/-- The two specifications have the same price and quantity scales. -/
def InstrumentSpec.SameScales (spec spec' : InstrumentSpec) : Prop :=
  spec.priceScale = spec'.priceScale ∧ spec.qtyScale = spec'.qtyScale

/-! ### Round trips -/

section RoundTrip

variable {k : ValueKind} {scale : Nat}

theorem except_bind_eq_ok {ε α β : Type} {x : Except ε α} {f : α → Except ε β} {b : β} :
    x >>= f = .ok b ↔ ∃ a, x = .ok a ∧ f a = .ok b := by
  cases x with
  | error e => exact ⟨nofun, nofun⟩
  | ok a => exact ⟨fun h => ⟨a, rfl, h⟩, fun ⟨_, ha, h⟩ => Except.ok.inj ha ▸ h⟩

theorem except_ok_bind {ε α β : Type} (a : α) (f : α → Except ε β) :
    (Except.ok a >>= f) = f a := rfl

theorem except_error_bind {ε α β : Type} (e : ε) (f : α → Except ε β) :
    (Except.error e >>= f) = .error e := rfl

theorem except_map_eq_ok {ε α β : Type} {x : Except ε α} {f : α → β} {b : β} :
    f <$> x = .ok b ↔ ∃ a, x = .ok a ∧ f a = b := by
  cases x with
  | error e => exact ⟨nofun, nofun⟩
  | ok a => exact ⟨fun h => ⟨a, rfl, Except.ok.inj h⟩, fun ⟨_, ha, h⟩ => Except.ok.inj ha ▸ h ▸ rfl⟩

theorem except_pure_eq_ok {ε α : Type} {a b : α} :
    (pure a : Except ε α) = .ok b ↔ a = b := ⟨fun h => Except.ok.inj h, fun h => h ▸ rfl⟩

theorem roundedTo_option {x : Option (DecimalValue k)} {f : Option (FastValue k)}
    {u : Option (DecimalValue k)} (hq : x.mapM (·.quantize scale) = Except.ok (ε := MarketError) f)
    (hr : mapOption (·.toDecimal scale) f = .ok u) :
    List.Forall₂ (RoundedTo scale) x.toList u.toList := by
  cases x with
  | none =>
    cases hq
    cases hr
    exact .nil
  | some x =>
    obtain ⟨f, hf, rfl⟩ := except_map_eq_ok.1 hq
    obtain ⟨u, hu, rfl⟩ := except_map_eq_ok.1 hr
    exact .cons (toDecimal_of_quantize hf hu) .nil

variable {spec spec' : InstrumentSpec}

/-- The levels of a delta, read back one by one. -/
theorem roundedTo_levels (hs : spec'.SameScales spec) {xs : List OrderBookLevel}
    {fs : List (FastPrice × FastQuantity)} {us : List OrderBookLevel}
    (hq : xs.mapM (quantizeLevel spec) = .ok fs) (hr : fs.mapM spec'.levelFromFast = .ok us) :
    List.Forall₂ (RoundedTo spec.priceScale) (xs.map (·.price)) (us.map (·.price)) ∧
      List.Forall₂ (RoundedTo spec.qtyScale) (xs.map (·.quantity)) (us.map (·.quantity)) := by
  induction xs generalizing fs us with
  | nil =>
    cases hq
    cases hr
    exact ⟨.nil, .nil⟩
  | cons x xs ih =>
    simp only [List.mapM_cons, except_bind_eq_ok, except_pure_eq_ok, quantizeLevel] at hq
    obtain ⟨_, ⟨price, hprice, quantity, hquantity, rfl⟩, fs, hfs, rfl⟩ := hq
    simp only [List.mapM_cons, except_bind_eq_ok, except_pure_eq_ok,
      InstrumentSpec.levelFromFast, InstrumentSpec.priceFromFast,
      InstrumentSpec.quantityFromFast, hs.1, hs.2] at hr
    obtain ⟨_, ⟨price', hprice', quantity', hquantity', rfl⟩, us, hus, rfl⟩ := hr
    obtain ⟨hprices, hquantities⟩ := ih hfs hus
    exact ⟨.cons (toDecimal_of_quantize hprice hprice') hprices,
      .cons (toDecimal_of_quantize hquantity hquantity') hquantities⟩

/-- **Reading at the same scales** gives the exact event, rounded at these scales. -/
theorem roundsAt_of_sameScales {x u : ExactEvent} {e : PublicLaneEvent}
    (hq : x.quantize spec = .ok e) (hu : e.toUnified spec' = .ok u) (hs : spec'.SameScales spec) :
    RoundsAt spec.priceScale spec.qtyScale x u := by
  have hprice : ∀ v, spec'.priceFromFast v = v.toPrice spec.priceScale := fun v => by
    rw [InstrumentSpec.priceFromFast, hs.1]
  have hqty : ∀ v, spec'.quantityFromFast v = v.toQuantity spec.qtyScale := fun v => by
    rw [InstrumentSpec.quantityFromFast, hs.2]
  -- both ways go through the same fields, each of which is rounded once
  cases x with
  | ticker x =>
    simp only [ExactEvent.quantize, except_bind_eq_ok, except_pure_eq_ok] at hq
    obtain ⟨last, hlast, mark, hmark, index, hindex, volume, hvolume, turnover, -, rfl⟩ := hq
    simp only [PublicLaneEvent.toUnified, FastTicker.toUnified, except_map_eq_ok,
      except_bind_eq_ok, except_pure_eq_ok, funext hprice, funext hqty] at hu
    obtain ⟨_, ⟨last', hlast', mark', hmark', index', hindex', volume', hvolume', _, -, rfl⟩,
      rfl⟩ := hu
    refine ⟨?_, roundedTo_option hvolume hvolume', rfl⟩
    exact List.rel_append (R := RoundedTo spec.priceScale)
      (List.rel_append (R := RoundedTo spec.priceScale)
        (.cons (toDecimal_of_quantize hlast hlast') .nil) (roundedTo_option hmark hmark'))
      (roundedTo_option hindex hindex')
  | trade x =>
    simp only [ExactEvent.quantize, except_bind_eq_ok, except_pure_eq_ok] at hq
    obtain ⟨price, hp, quantity, hn, rfl⟩ := hq
    simp only [PublicLaneEvent.toUnified, FastTrade.toUnified, except_map_eq_ok,
      except_bind_eq_ok, except_pure_eq_ok, hprice, hqty] at hu
    obtain ⟨_, ⟨price', hp', quantity', hn', rfl⟩, rfl⟩ := hu
    exact ⟨.cons (toDecimal_of_quantize hp hp') .nil, .cons (toDecimal_of_quantize hn hn') .nil,
      rfl⟩
  | bookTop x =>
    simp only [ExactEvent.quantize, except_bind_eq_ok, except_pure_eq_ok] at hq
    obtain ⟨bid, hbid, bidQty, hbidQty, ask, hask, askQty, haskQty, rfl⟩ := hq
    simp only [PublicLaneEvent.toUnified, FastBookTop.toUnified, except_map_eq_ok,
      except_bind_eq_ok, except_pure_eq_ok, hprice, hqty] at hu
    obtain ⟨_, ⟨bid', hbid', bidQty', hbidQty', ask', hask', askQty', haskQty', rfl⟩, rfl⟩ := hu
    exact ⟨.cons (toDecimal_of_quantize hbid hbid') (.cons (toDecimal_of_quantize hask hask') .nil),
      .cons (toDecimal_of_quantize hbidQty hbidQty')
        (.cons (toDecimal_of_quantize haskQty haskQty') .nil), rfl⟩
  | orderBookDelta x =>
    simp only [ExactEvent.quantize, except_bind_eq_ok, except_pure_eq_ok] at hq
    obtain ⟨bids, hbids, asks, hasks, rfl⟩ := hq
    simp only [PublicLaneEvent.toUnified, FastOrderBookDelta.toUnified, except_map_eq_ok,
      except_bind_eq_ok, except_pure_eq_ok] at hu
    obtain ⟨_, ⟨bids', hbids', asks', hasks', rfl⟩, rfl⟩ := hu
    obtain ⟨hbidPrices, hbidQuantities⟩ := roundedTo_levels hs hbids hbids'
    obtain ⟨haskPrices, haskQuantities⟩ := roundedTo_levels hs hasks hasks'
    exact ⟨List.rel_append (R := RoundedTo spec.priceScale) hbidPrices haskPrices,
      List.rel_append (R := RoundedTo spec.qtyScale) hbidQuantities haskQuantities, rfl⟩
  | kline x =>
    simp only [ExactEvent.quantize, except_bind_eq_ok, except_pure_eq_ok] at hq
    obtain ⟨o, ho, h, hh, l, hl, c, hc, v, hv, rfl⟩ := hq
    simp only [PublicLaneEvent.toUnified, FastKline.toUnified, except_map_eq_ok,
      except_bind_eq_ok, except_pure_eq_ok, hprice, hqty] at hu
    obtain ⟨_, ⟨o', ho', h', hh', l', hl', c', hc', v', hv', rfl⟩, rfl⟩ := hu
    exact ⟨.cons (toDecimal_of_quantize ho ho') (.cons (toDecimal_of_quantize hh hh')
        (.cons (toDecimal_of_quantize hl hl') (.cons (toDecimal_of_quantize hc hc') .nil))),
      .cons (toDecimal_of_quantize hv hv') .nil, rfl⟩
  | markPrice x =>
    simp only [ExactEvent.quantize, except_bind_eq_ok, except_pure_eq_ok] at hq
    obtain ⟨price, hp, rfl⟩ := hq
    simp only [PublicLaneEvent.toUnified, FastMarkPrice.toUnified, except_map_eq_ok,
      except_bind_eq_ok, except_pure_eq_ok, hprice] at hu
    obtain ⟨_, ⟨price', hp', rfl⟩, rfl⟩ := hu
    exact ⟨.cons (toDecimal_of_quantize hp hp') .nil, .nil, rfl⟩
  | liquidation x =>
    simp only [ExactEvent.quantize, except_bind_eq_ok, except_pure_eq_ok] at hq
    obtain ⟨price, hp, quantity, hn, rfl⟩ := hq
    simp only [PublicLaneEvent.toUnified, FastLiquidation.toUnified, except_map_eq_ok,
      except_bind_eq_ok, except_pure_eq_ok, hprice, hqty] at hu
    obtain ⟨_, ⟨price', hp', quantity', hn', rfl⟩, rfl⟩ := hu
    exact ⟨.cons (toDecimal_of_quantize hp hp') .nil, .cons (toDecimal_of_quantize hn hn') .nil,
      rfl⟩
  -- these have no number in units
  | fundingRate x =>
    cases hq
    cases hu
    exact ⟨.nil, .nil, rfl⟩
  | openInterest x =>
    cases hq
    cases hu
    exact ⟨.nil, .nil, rfl⟩
  | divergence x =>
    cases hq
    cases hu
    exact ⟨.nil, .nil, rfl⟩

/-- A fast event is about the instrument whose specification it was quantised with. -/
theorem fastInstrumentId_of_quantize {x : ExactEvent} {e : PublicLaneEvent}
    (hq : x.quantize spec = .ok e) {id : InstrumentId} (hid : e.fastInstrumentId = some id) :
    id = spec.instrumentId := by
  have hsome : ∀ {e' : PublicLaneEvent}, e' = e → e'.fastInstrumentId = some spec.instrumentId →
      id = spec.instrumentId := fun he h => Option.some.inj (hid.symm.trans (he ▸ h))
  cases x with
  | ticker x =>
    simp only [ExactEvent.quantize, except_bind_eq_ok, except_pure_eq_ok] at hq
    obtain ⟨_, -, _, -, _, -, _, -, _, -, h⟩ := hq
    exact hsome h rfl
  | trade x =>
    simp only [ExactEvent.quantize, except_bind_eq_ok, except_pure_eq_ok] at hq
    obtain ⟨_, -, _, -, h⟩ := hq
    exact hsome h rfl
  | bookTop x =>
    simp only [ExactEvent.quantize, except_bind_eq_ok, except_pure_eq_ok] at hq
    obtain ⟨_, -, _, -, _, -, _, -, h⟩ := hq
    exact hsome h rfl
  | orderBookDelta x =>
    simp only [ExactEvent.quantize, except_bind_eq_ok, except_pure_eq_ok] at hq
    obtain ⟨_, -, _, -, h⟩ := hq
    exact hsome h rfl
  | kline x =>
    simp only [ExactEvent.quantize, except_bind_eq_ok, except_pure_eq_ok] at hq
    obtain ⟨_, -, _, -, _, -, _, -, _, -, h⟩ := hq
    exact hsome h rfl
  | markPrice x =>
    simp only [ExactEvent.quantize, except_bind_eq_ok, except_pure_eq_ok] at hq
    obtain ⟨_, -, h⟩ := hq
    exact hsome h rfl
  | liquidation x =>
    simp only [ExactEvent.quantize, except_bind_eq_ok, except_pure_eq_ok] at hq
    obtain ⟨_, -, _, -, h⟩ := hq
    exact hsome h rfl
  | fundingRate x =>
    cases hq
    cases hid
  | openInterest x =>
    cases hq
    cases hid
  | divergence x =>
    cases hq
    cases hid

end RoundTrip

/-! ### What the state stores -/

/-- The market data the state holds, read as exact events. -/
def EngineState.Stores (s : EngineState) : ExactEvent → Prop
  | .ticker x => ∃ id : InstrumentId, s.tickers[id]? = some x
  | .trade x => ∃ id : InstrumentId, x ∈ s.recentTrades[id]?.getD []
  | .bookTop x => ∃ id : InstrumentId, s.bookTops[id]? = some x
  | .kline x => ∃ id : InstrumentId, s.klines[id]? = some x
  | .markPrice x => ∃ id : InstrumentId, s.markPrices[id]? = some x
  | .fundingRate x => ∃ id : InstrumentId, s.fundingRates.get? id = some x
  | .openInterest x => ∃ id : InstrumentId, s.openInterest.get? id = some x
  | .liquidation x => ∃ id : InstrumentId, x ∈ s.liquidations[id]?.getD []
  | .orderBookDelta _ | .divergence _ => False

/-- Reading the event with the specification of its instrument in the table gives `u`; an event
without fast values is read as it is. -/
inductive PublicLaneEvent.ReadsAs (table : InstrumentId → Option InstrumentSpec)
    (e : PublicLaneEvent) (u : ExactEvent) : Prop
  | fast {id : InstrumentId} {spec : InstrumentSpec} : e.fastInstrumentId = some id →
      table id = some spec → e.toUnified spec = .ok u → ReadsAs table e u
  | exact : (∀ spec, e.toUnified spec = .ok u) → ReadsAs table e u

namespace EngineState

variable {s : EngineState}

/-- What a checked writer stores. -/
theorem stores_applyFast {β : Type} {id : InstrumentId}
    {toUnified : InstrumentSpec → Except Failure β} {eventTime : TimestampMs}
    {store : β → EngineState → EngineState} {e : PublicLaneEvent} {f : β → ExactEvent}
    (hid : e.fastInstrumentId = some id) (hread : ∀ spec, e.toUnified spec = f <$> toUnified spec)
    (hstore : ∀ x s u, (store x s).Stores u → s.Stores u ∨ u = f x) {u : ExactEvent}
    (hu : (stateAfter ((applyFast id toUnified eventTime store).run s)).Stores u) :
    s.Stores u ∨ e.ReadsAs s.instruments.get? u := by
  rw [applyFast_run] at hu
  cases hspec : s.instruments.get? id with
  | none =>
    rw [hspec] at hu
    exact .inl hu
  | some spec =>
    rw [hspec] at hu
    cases hx : toUnified spec with
    | error e =>
      simp only [hx] at hu
      exact .inl hu
    | ok x =>
      simp only [hx] at hu
      refine (hstore _ _ _ hu).imp_right fun heq => .fast hid hspec ?_
      rw [hread, hx, heq]
      rfl

/-- An entry of a window after the window of an instrument was replaced. -/
theorem mem_window_insert {β : Type} {m : BTreeMap InstrumentId (List β)} {k : InstrumentId}
    {ys : List β} {x y : β} (hys : ∀ z ∈ ys, z ∈ m[k]?.getD [] ∨ z = x)
    (h : ∃ id : InstrumentId, y ∈ (m.insert k ys)[id]?.getD []) :
    (∃ id : InstrumentId, y ∈ m[id]?.getD []) ∨ y = x := by
  obtain ⟨id, hy⟩ := h
  rw [lookup_insert] at hy
  split at hy
  · exact (hys y hy).imp_left fun hold => ⟨k, hold⟩
  · exact .inl ⟨id, hy⟩

/-- The new window of an instrument: the old one and one more entry, or a part of them. -/
theorem mem_trimFront_append {β : Type} {cap : ℕ} {xs : List β} {x z : β}
    (h : z ∈ trimFront cap (xs ++ [x])) : z ∈ xs ∨ z = x := by
  have hz := mem_of_mem_trimFront h
  rwa [List.mem_append, List.mem_singleton] at hz

/-- **What a public event adds to the market data**: nothing, or itself as the table reads it. -/
theorem stores_applyPublicEvent {e : PublicLaneEvent} {u : ExactEvent}
    (hu : (stateAfter ((applyPublicEvent e).run s)).Stores u) :
    s.Stores u ∨ e.ReadsAs s.instruments.get? u := by
  -- what is stored afterwards was there before, or is this event as it was read
  cases e with
  | ticker e =>
    refine stores_applyFast (f := .ticker) rfl (fun _ => rfl) (fun x s u hu => ?_) hu
    cases u with
    | ticker y =>
      obtain ⟨id, hid⟩ := hu
      exact (lookup_insert_cases hid).imp (fun h => ⟨id, h⟩) (congrArg ExactEvent.ticker)
    | _ => exact .inl hu
  | trade e =>
    refine stores_applyFast (f := .trade) rfl (fun _ => rfl) (fun x s u hu => ?_) hu
    unfold pushTrade at hu
    dsimp only at hu
    split at hu
    · exact .inl hu
    · cases u with
      | trade y =>
        exact (mem_window_insert (fun z hz => mem_trimFront_append hz) hu).imp_right
          (congrArg ExactEvent.trade)
      | _ => exact .inl hu
  | bookTop e =>
    refine stores_applyFast (f := .bookTop) rfl (fun _ => rfl) (fun x s u hu => ?_) hu
    cases u with
    | bookTop y =>
      obtain ⟨id, hid⟩ := hu
      exact (lookup_insert_cases hid).imp (fun h => ⟨id, h⟩) (congrArg ExactEvent.bookTop)
    | _ => exact .inl hu
  | orderBookDelta e => exact .inl hu
  | kline e =>
    refine stores_applyFast (f := .kline) rfl (fun _ => rfl) (fun x s u hu => ?_) hu
    cases u with
    | kline y =>
      obtain ⟨id, hid⟩ := hu
      exact (lookup_insert_cases hid).imp (fun h => ⟨id, h⟩) (congrArg ExactEvent.kline)
    | _ => exact .inl hu
  | markPrice e =>
    refine stores_applyFast (f := .markPrice) rfl (fun _ => rfl) (fun x s u hu => ?_) hu
    cases u with
    | markPrice y =>
      obtain ⟨id, hid⟩ := hu
      exact (lookup_insert_cases hid).imp (fun h => ⟨id, h⟩) (congrArg ExactEvent.markPrice)
    | _ => exact .inl hu
  | liquidation e =>
    refine stores_applyFast (f := .liquidation) rfl (fun _ => rfl) (fun x s u hu => ?_) hu
    cases u with
    | liquidation y =>
      exact (mem_window_insert (fun z hz => mem_trimFront_append hz) hu).imp_right
        (congrArg ExactEvent.liquidation)
    | _ => exact .inl hu
  | fundingRate e =>
    cases u with
    | fundingRate y =>
      obtain ⟨id, hid⟩ := hu
      refine (lookup_insert_cases hid).imp (fun h => ⟨id, h⟩) fun heq => .exact fun _ => ?_
      rw [heq]
      rfl
    | _ => exact .inl hu
  | openInterest e =>
    cases u with
    | openInterest y =>
      obtain ⟨id, hid⟩ := hu
      refine (lookup_insert_cases hid).imp (fun h => ⟨id, h⟩) fun heq => .exact fun _ => ?_
      rw [heq]
      rfl
    | _ => exact .inl hu
  | divergence d => cases d <;> exact .inl hu

/-- What a list of public events adds to the market data, also when one of them fails. -/
theorem stores_forM_applyPublicEvent {events : List PublicLaneEvent} {u : ExactEvent}
    (hu : (stateAfter ((forM events applyPublicEvent).run s)).Stores u) :
    s.Stores u ∨ ∃ e ∈ events, e.ReadsAs s.instruments.get? u := by
  induction events generalizing s with
  | nil => exact .inl hu
  | cons e events ih =>
    have htable : (stateAfter ((applyPublicEvent e).run s)).instruments = s.instruments :=
      congrArg (·.2.2) (table_applyPublicEvent s e)
    have hhead := @stores_applyPublicEvent s e u
    rw [List.forM_cons, EStateM.run_bind] at hu
    cases hr : (applyPublicEvent e).run s with
    | ok _ s' =>
      rw [hr] at hu htable hhead
      rcases ih hu with hold | ⟨e', he', hreads⟩
      · exact (hhead hold).imp_right fun hreads => ⟨e, List.mem_cons_self, hreads⟩
      · refine .inr ⟨e', List.mem_cons_of_mem _ he', ?_⟩
        rwa [show s'.instruments = s.instruments from htable] at hreads
    | error _ s' =>
      rw [hr] at hu hhead
      exact (hhead hu).imp_right fun hreads => ⟨e, List.mem_cons_self, hreads⟩

/-- A new instrument table adds no market data. -/
theorem stores_replaceInstruments {specs : List InstrumentSpec} {u : ExactEvent}
    (hu : (s.replaceInstruments specs).Stores u) : s.Stores u := by
  have hmap : ∀ {β : Type} {m : BTreeMap InstrumentId β} {p : InstrumentId → β → Bool}
      {id : InstrumentId} {x : β}, (retain m p)[id]? = some x → m[id]? = some x := by
    intro β m p id x h
    rw [lookup_retain, Option.filter_eq_some_iff] at h
    exact h.1
  have hwindow : ∀ {β : Type} {m : BTreeMap InstrumentId (List β)}
      {p : InstrumentId → List β → Bool} {id : InstrumentId} {x : β},
      x ∈ (retain m p)[id]?.getD [] → x ∈ m[id]?.getD [] := by
    intro β m p id x h
    cases hr : (retain m p)[id]? with
    | none =>
      rw [hr] at h
      cases h
    | some ys =>
      rw [hr] at h
      rw [hmap hr]
      exact h
  cases u with
  | ticker | bookTop | kline | markPrice | fundingRate | openInterest =>
    obtain ⟨id, hid⟩ := hu
    exact ⟨id, hmap hid⟩
  | trade | liquidation =>
    obtain ⟨id, hid⟩ := hu
    exact ⟨id, hwindow hid⟩
  | orderBookDelta | divergence => exact hu

end EngineState

end BatMarkets
