import BatMarkets.Core.Market
import BatMarkets.Runtime.Subscriptions

/-!
# The routes of the public streams

`route_public_subscriptions` (`subscriptions.rs`) merges the subscriptions of the leases and splits
the result by the route that carries each topic; `retain_public_events_for_subscription`
(`runtime.rs`) drops from the events of a route what its subscription does not ask for.  On Binance
a subscription is split in two.

## Main results

* `lookup_route`, `existsUnique_route` : a topic is on its own route, and on no other.
* `routes_partition` : the routes neither depend on how the subscriptions are listed nor lose or
  double a topic or an event.
* `no_route_without_topic` : on Binance there is no route for instruments without a topic.
-/

namespace BatMarkets

open Ordered

/-! ### Events -/

/-- The subscription asks for events of this kind.  An event about a candle is kept for any
interval. -/
def PublicSubscription.retains (subscription : PublicSubscription) : PublicLaneEvent → Bool
  | .ticker _ => subscription.ticker
  | .trade _ => subscription.trades
  | .bookTop _ => subscription.bookTop
  | .orderBookDelta _ => subscription.orderBook
  | .markPrice _ => subscription.markPrice
  | .fundingRate _ => subscription.fundingRate
  | .openInterest _ => subscription.openInterest
  | .liquidation _ => subscription.liquidations
  | .kline _ => !subscription.klineIntervals.isEmpty
  | .divergence _ => true

/-- The events that the subscription asks for. -/
def retainPublicEventsForSubscription (events : List PublicLaneEvent)
    (subscription : PublicSubscription) : List PublicLaneEvent :=
  events.filter subscription.retains

/-- The topic is about events of this kind. -/
def PublicTopic.About : PublicTopic → PublicLaneEvent → Prop
  | ticker, .ticker _ => True
  | trades, .trade _ => True
  | bookTop, .bookTop _ => True
  | orderBook, .orderBookDelta _ => True
  | markPrice, .markPrice _ => True
  | fundingRate, .fundingRate _ => True
  | openInterest, .openInterest _ => True
  | liquidations, .liquidation _ => True
  | kline _, .kline _ => True
  | _, _ => False

/-- An event of the market, and not about the stream. -/
def PublicLaneEvent.OfMarket : PublicLaneEvent → Prop
  | divergence _ => False
  | _ => True

section Retains

variable {s : PublicSubscription} {event : PublicLaneEvent} {topic other : PublicTopic}

theorem retains_of_about (h : topic.About event) (hasks : s.asks topic = true) :
    s.retains event = true := by
  cases topic with
  | kline interval =>
    cases event with
    | kline k =>
      have hmem : interval ∈ s.klineIntervals := by simpa [PublicSubscription.asks] using hasks
      have hne : s.klineIntervals.isEmpty = false :=
        List.isEmpty_eq_false_iff_exists_mem.2 ⟨interval, hmem⟩
      simp [PublicSubscription.retains, hne]
    | _ => cases h
  | _ => cases event <;> first | exact hasks | cases h

/-- An event of the market that is kept is one of a topic that is asked for. -/
theorem exists_topic_of_retains (h : event.OfMarket) (hretains : s.retains event = true) :
    ∃ topic : PublicTopic, topic.About event ∧ s.asks topic = true := by
  cases event with
  | ticker => exact ⟨.ticker, trivial, hretains⟩
  | trade => exact ⟨.trades, trivial, hretains⟩
  | bookTop => exact ⟨.bookTop, trivial, hretains⟩
  | orderBookDelta => exact ⟨.orderBook, trivial, hretains⟩
  | markPrice => exact ⟨.markPrice, trivial, hretains⟩
  | fundingRate => exact ⟨.fundingRate, trivial, hretains⟩
  | openInterest => exact ⟨.openInterest, trivial, hretains⟩
  | liquidation => exact ⟨.liquidations, trivial, hretains⟩
  | kline =>
    have hne : s.klineIntervals.isEmpty = false := by
      simpa [PublicSubscription.retains] using hretains
    obtain ⟨interval, hmem⟩ := List.isEmpty_eq_false_iff_exists_mem.1 hne
    exact ⟨.kline interval, trivial, by simpa [PublicSubscription.asks] using hmem⟩
  | divergence => cases h

/-- The topics of an event are all on one route of Binance. -/
theorem binanceRoute_of_about (h : topic.About event) (h' : other.About event) :
    topic.binanceRoute = other.binanceRoute := by
  cases event <;> cases topic <;> cases h <;> cases other <;> first | rfl | cases h'

end Retains

/-! ### Routes -/

/-- The route that carries a topic. -/
def PublicTopic.route (venue : Venue) (topic : PublicTopic) : PublicStreamRoute :=
  match venue with
  | .binance => topic.binanceRoute
  | .bybit | .mexc => .default

section Routes

variable {venue : Venue} {subscriptions : List PublicSubscription} {m s : PublicSubscription}
variable {route : PublicStreamRoute}

/-- What the market route of Binance is subscribed to. -/
def marketPart (m : PublicSubscription) : PublicSubscription :=
  { m with bookTop := false, orderBook := false }

/-- What the other route of Binance is subscribed to. -/
def bookPart (m : PublicSubscription) : PublicSubscription :=
  { instrumentIds := m.instrumentIds, bookTop := m.bookTop, orderBook := m.orderBook }

theorem lookup_splitBinance_cases (h : (splitBinancePublicSubscription m)[route]? = some s) :
    route = .binanceMarket ∧ s = marketPart m ∨ route = .binancePublic ∧ s = bookPart m := by
  have hmarket : ∀ plan : StreamPlan,
      (plan = ∅ ∨ plan = (∅ : StreamPlan).insert .binanceMarket (marketPart m)) →
        plan[route]? = some s → route = .binanceMarket ∧ s = marketPart m := by
    rintro plan (rfl | rfl) hplan
    · simp at hplan
    · rw [lookup_insert] at hplan
      split at hplan
      next heq => exact ⟨heq.symm, (Option.some.inj hplan).symm⟩
      next => simp at hplan
  have hfirst : ∀ p : Prop, [Decidable p] → (if p then
      (∅ : StreamPlan).insert .binanceMarket (marketPart m) else ∅)[route]? = some s →
        route = .binanceMarket ∧ s = marketPart m := by
    intro p _ hplan
    refine hmarket _ ?_ hplan
    split
    · exact .inr rfl
    · exact .inl rfl
  unfold splitBinancePublicSubscription at h
  dsimp only at h
  split at h
  · rw [lookup_insert] at h
    split at h
    next heq => exact .inr ⟨heq.symm, (Option.some.inj h).symm⟩
    next => exact .inl (hfirst _ h)
  · exact .inl (hfirst _ h)

/-- The subscription of a route of Binance has the topics of the route. -/
theorem lookup_splitBinance (h : (splitBinancePublicSubscription m)[route]? = some s) :
    s.instrumentIds = m.instrumentIds ∧ ∀ topic : PublicTopic,
      s.asks topic = true ↔ m.asks topic = true ∧ topic.binanceRoute = route := by
  obtain ⟨rfl, rfl⟩ | ⟨rfl, rfl⟩ := lookup_splitBinance_cases h
  · refine ⟨rfl, fun topic => ?_⟩
    cases topic <;> simp [PublicSubscription.asks, PublicTopic.binanceRoute, marketPart]
  · refine ⟨rfl, fun topic => ?_⟩
    cases topic <;> simp [PublicSubscription.asks, PublicTopic.binanceRoute, bookPart]

/-- A route has all the instruments and the topics of the route. -/
theorem lookup_route (hmerge : mergePublicSubscriptions subscriptions = some m)
    (h : (routePublicSubscriptions venue subscriptions)[route]? = some s) :
    s.instrumentIds = m.instrumentIds ∧ ∀ topic : PublicTopic,
      s.asks topic = true ↔ m.asks topic = true ∧ topic.route venue = route := by
  unfold routePublicSubscriptions at h
  rw [hmerge] at h
  cases venue with
  | binance => exact lookup_splitBinance h
  | bybit | mexc =>
    dsimp only at h
    rw [lookup_insert] at h
    split at h
    next heq =>
      cases h
      exact ⟨rfl, fun topic => ⟨fun hasks => ⟨hasks, heq⟩, And.left⟩⟩
    next => simp at h

theorem exists_route (hmerge : mergePublicSubscriptions subscriptions = some m)
    {topic : PublicTopic} (h : m.asks topic = true) :
    ∃ s, (routePublicSubscriptions venue subscriptions)[topic.route venue]? = some s ∧
      s.asks topic = true := by
  unfold routePublicSubscriptions
  rw [hmerge]
  cases venue with
  | binance =>
    obtain ⟨s, hs, hasks, -⟩ := exists_splitBinancePublicSubscription h
    exact ⟨s, hs, hasks⟩
  | bybit | mexc => exact ⟨m, by simp [PublicTopic.route], h⟩

/-- A topic that is asked for is on one route and on no other. -/
theorem existsUnique_route (hmerge : mergePublicSubscriptions subscriptions = some m)
    {topic : PublicTopic} (h : m.asks topic = true) :
    ∃! route : PublicStreamRoute, ∃ s,
      (routePublicSubscriptions venue subscriptions)[route]? = some s ∧ s.asks topic = true := by
  refine ⟨topic.route venue, exists_route hmerge h, ?_⟩
  rintro route ⟨s, hs, hasks⟩
  exact (((lookup_route hmerge hs).2 topic).1 hasks).2.symm

theorem route_of_about {event : PublicLaneEvent} {topic other : PublicTopic}
    (h : topic.About event) (h' : other.About event) : topic.route venue = other.route venue := by
  cases venue with
  | binance => exact binanceRoute_of_about h h'
  | bybit | mexc => rfl

/-- An event of the market that the merged subscription keeps is kept on one route and on no
other. -/
theorem existsUnique_retains (hmerge : mergePublicSubscriptions subscriptions = some m)
    {event : PublicLaneEvent} (hmarket : event.OfMarket) (h : m.retains event = true) :
    ∃! route : PublicStreamRoute, ∃ s,
      (routePublicSubscriptions venue subscriptions)[route]? = some s ∧
        s.retains event = true := by
  obtain ⟨topic, habout, hasks⟩ := exists_topic_of_retains hmarket h
  have hroute : ∃ s, (routePublicSubscriptions venue subscriptions)[topic.route venue]? = some s ∧
      s.asks topic = true := exists_route hmerge hasks
  obtain ⟨s, hs, hasks⟩ := hroute
  refine ⟨topic.route venue, ⟨s, hs, retains_of_about habout hasks⟩, ?_⟩
  rintro route ⟨s', hs', hretains⟩
  obtain ⟨other, habout', hasks'⟩ := exists_topic_of_retains hmarket hretains
  have hroute := (((lookup_route hmerge hs').2 other).1 hasks').2
  rw [← hroute]
  exact route_of_about habout' habout

theorem retains_of_route (hmerge : mergePublicSubscriptions subscriptions = some m)
    {event : PublicLaneEvent} (hmarket : event.OfMarket)
    (h : (routePublicSubscriptions venue subscriptions)[route]? = some s)
    (hretains : s.retains event = true) : m.retains event = true := by
  obtain ⟨topic, habout, hasks⟩ := exists_topic_of_retains hmarket hretains
  exact retains_of_about habout (((lookup_route hmerge h).2 topic).1 hasks).1

end Routes

/-! ### How the subscriptions are listed -/

theorem distinct_congr {κ : Type} [Ord κ] [Std.TransOrd κ] [Std.LawfulEqOrd κ] [DecidableEq κ]
    {xs ys : List κ} (h : ∀ x, x ∈ xs ↔ x ∈ ys) : distinct xs = distinct ys := by
  unfold distinct
  refine congrArg _ (Std.ExtTreeSet.ext_mem fun k => ?_)
  rw [Std.ExtTreeSet.mem_ofList, Std.ExtTreeSet.mem_ofList, List.contains_iff_mem,
    List.contains_iff_mem, h]

/-- Dropping repeated neighbours drops no value. -/
theorem mem_destutter_ne {α : Type} [DecidableEq α] {xs : List α} {x : α} :
    x ∈ xs.destutter (· ≠ ·) ↔ x ∈ xs := by
  refine ⟨fun h => (List.destutter_sublist _ xs).subset h, fun h => ?_⟩
  cases xs with
  | nil => cases h
  | cons a xs =>
    rw [List.destutter_cons']
    induction xs generalizing a with
    | nil => simpa using h
    | cons b xs ih =>
      rw [List.destutter'_cons]
      split
      next hne =>
        obtain rfl | h := List.mem_cons.1 h
        · exact List.mem_cons_self
        · exact List.mem_cons_of_mem _ (ih b h)
      next heq =>
        have hab : a = b := not_not.1 heq
        refine ih a ?_
        rw [hab] at h ⊢
        exact (List.mem_cons.1 h).elim (fun hx => hx ▸ List.mem_cons_self) id

theorem mem_instrumentIds_normalize {s : PublicSubscription} {i : InstrumentId} :
    i ∈ (normalizePublicSubscription s).instrumentIds ↔ i ∈ s.instrumentIds := by
  unfold normalizePublicSubscription
  rw [mem_destutter_ne, List.mem_mergeSort]

theorem mem_klineIntervals_normalize {s : PublicSubscription} {interval : String} :
    interval ∈ (normalizePublicSubscription s).klineIntervals ↔ interval ∈ s.klineIntervals := by
  unfold normalizePublicSubscription
  rw [mem_destutter_ne, List.mem_mergeSort]

/-- Only what the subscriptions ask for together matters. -/
theorem merge_congr {xs ys : List PublicSubscription}
    (hinstruments : ∀ i, i ∈ xs.flatMap (·.instrumentIds) ↔ i ∈ ys.flatMap (·.instrumentIds))
    (hasks : ∀ topic : PublicTopic, xs.any (·.asks topic) = ys.any (·.asks topic)) :
    mergePublicSubscriptions xs = mergePublicSubscriptions ys := by
  have hintervals : ∀ interval,
      interval ∈ xs.flatMap (·.klineIntervals) ↔ interval ∈ ys.flatMap (·.klineIntervals) := by
    intro interval
    have h := hasks (.kline interval)
    rw [Bool.eq_iff_iff, List.any_eq_true, List.any_eq_true] at h
    simpa [PublicSubscription.asks] using h
  unfold mergePublicSubscriptions
  rw [distinct_congr hinstruments, distinct_congr hintervals]
  rw [show xs.any (·.ticker) = ys.any (·.ticker) from hasks .ticker,
    show xs.any (·.trades) = ys.any (·.trades) from hasks .trades,
    show xs.any (·.bookTop) = ys.any (·.bookTop) from hasks .bookTop,
    show xs.any (·.orderBook) = ys.any (·.orderBook) from hasks .orderBook,
    show xs.any (·.markPrice) = ys.any (·.markPrice) from hasks .markPrice,
    show xs.any (·.fundingRate) = ys.any (·.fundingRate) from hasks .fundingRate,
    show xs.any (·.openInterest) = ys.any (·.openInterest) from hasks .openInterest,
    show xs.any (·.liquidations) = ys.any (·.liquidations) from hasks .liquidations]

theorem merge_of_mem_iff {xs ys : List PublicSubscription} (h : ∀ s, s ∈ xs ↔ s ∈ ys) :
    mergePublicSubscriptions xs = mergePublicSubscriptions ys := by
  refine merge_congr (fun i => ?_) fun topic => ?_
  · simp only [List.mem_flatMap, h]
  · rw [Bool.eq_iff_iff, List.any_eq_true, List.any_eq_true]
    simp only [h]

theorem merge_normalize (xs : List PublicSubscription) :
    mergePublicSubscriptions (xs.map normalizePublicSubscription) =
      mergePublicSubscriptions xs := by
  have hasks : ∀ (s : PublicSubscription) (topic : PublicTopic),
      (normalizePublicSubscription s).asks topic = s.asks topic := by
    intro s topic
    cases topic with
    | kline interval =>
      rw [Bool.eq_iff_iff]
      simpa [PublicSubscription.asks] using mem_klineIntervals_normalize
    | _ => rfl
  refine merge_congr (fun i => ?_) fun topic => ?_
  · simp only [List.mem_flatMap, List.mem_map, exists_exists_and_eq_and,
      mem_instrumentIds_normalize]
  · rw [List.any_map]
    exact congrArg (List.any xs) (funext fun s => hasks s topic)

/-! ### The partition -/

/-- What the routes of some subscriptions are. -/
structure RoutesPartition (venue : Venue) (subscriptions : List PublicSubscription) : Prop where
  order_free : ∀ others, (∀ s, s ∈ others ↔ s ∈ subscriptions) →
    routePublicSubscriptions venue others = routePublicSubscriptions venue subscriptions
  normalized : routePublicSubscriptions venue (subscriptions.map normalizePublicSubscription) =
    routePublicSubscriptions venue subscriptions
  /-- Every route has exactly the instruments that are named. -/
  instruments : ∀ (route : PublicStreamRoute) s,
    (routePublicSubscriptions venue subscriptions)[route]? = some s →
      ∀ i, i ∈ s.instrumentIds ↔ ∃ s' ∈ subscriptions, i ∈ s'.instrumentIds
  /-- There is a route unless, on Binance, no topic is asked for. -/
  carried : venue ≠ .binance ∨ AsksTopic subscriptions → ∀ i,
    CarriesInstrument (routePublicSubscriptions venue subscriptions) i ↔
      ∃ s ∈ subscriptions, i ∈ s.instrumentIds
  topics : ∀ topic : PublicTopic, (∃ s ∈ subscriptions, s.asks topic = true) →
    ∃! route : PublicStreamRoute, ∃ s,
      (routePublicSubscriptions venue subscriptions)[route]? = some s ∧ s.asks topic = true
  no_topics : ∀ (topic : PublicTopic) (route : PublicStreamRoute) s,
    (routePublicSubscriptions venue subscriptions)[route]? = some s → s.asks topic = true →
      ∃ s ∈ subscriptions, s.asks topic = true
  events : ∀ event : PublicLaneEvent, event.OfMarket →
    ∀ m, mergePublicSubscriptions subscriptions = some m →
      if retainPublicEventsForSubscription [event] m = [event] then
        ∃! route : PublicStreamRoute, ∃ s,
          (routePublicSubscriptions venue subscriptions)[route]? = some s ∧
            retainPublicEventsForSubscription [event] s = [event]
      else ∀ (route : PublicStreamRoute) s,
        (routePublicSubscriptions venue subscriptions)[route]? = some s →
          retainPublicEventsForSubscription [event] s = []

theorem retain_singleton {event : PublicLaneEvent} {s : PublicSubscription} :
    retainPublicEventsForSubscription [event] s = [event] ↔ s.retains event = true := by
  unfold retainPublicEventsForSubscription
  cases h : s.retains event <;> simp [h]

theorem retain_singleton_nil {event : PublicLaneEvent} {s : PublicSubscription} :
    retainPublicEventsForSubscription [event] s = [] ↔ ¬ s.retains event = true := by
  unfold retainPublicEventsForSubscription
  cases h : s.retains event <;> simp [h]

/-- **Routing is a partition.**  For every venue and all subscriptions that name an instrument. -/
theorem routes_partition (venue : Venue) {subscriptions : List PublicSubscription}
    (hnames : NamesInstrument subscriptions) : RoutesPartition venue subscriptions := by
  obtain ⟨m, hmerge⟩ : ∃ m, mergePublicSubscriptions subscriptions = some m := by
    refine Option.ne_none_iff_exists'.1 fun hnone => ?_
    exact mergePublicSubscriptions_eq_none.1 hnone hnames
  have hinstruments : ∀ (route : PublicStreamRoute) s,
      (routePublicSubscriptions venue subscriptions)[route]? = some s →
        ∀ i, i ∈ s.instrumentIds ↔ ∃ s' ∈ subscriptions, i ∈ s'.instrumentIds := by
    intro route s hs i
    rw [(lookup_route hmerge hs).1]
    exact instrumentIds_mergePublicSubscriptions hmerge i
  refine ⟨fun others h => ?_, ?_, hinstruments, fun hcarried i => ⟨?_, ?_⟩, ?_, ?_, ?_⟩
  · unfold routePublicSubscriptions
    rw [merge_of_mem_iff h]
  · unfold routePublicSubscriptions
    rw [merge_normalize]
  · rintro ⟨route, s, hs, hi⟩
    exact (hinstruments route s hs i).1 hi
  · rintro ⟨s, hs, hi⟩
    exact carriesInstrument_route venue hcarried hs hi
  · intro topic hasks
    exact existsUnique_route hmerge ((asks_mergePublicSubscriptions hmerge topic).2 hasks)
  · intro topic route s hs hasks
    exact (asks_mergePublicSubscriptions hmerge topic).1
      (((lookup_route hmerge hs).2 topic).1 hasks).1
  · intro event hmarket m' hm'
    cases hmerge.symm.trans hm'
    simp only [retain_singleton, retain_singleton_nil]
    split
    next hretains => exact existsUnique_retains hmerge hmarket hretains
    next hretains =>
      intro route s hs hs'
      exact hretains (retains_of_route hmerge hmarket hs hs')

/-- Two subscriptions that have an instrument and a topic in common. -/
def overlapping : List PublicSubscription :=
  [{ instrumentIds := [⟨"BTC/USDT:USDT"⟩, ⟨"ETH/USDT:USDT"⟩], ticker := true, bookTop := true },
    { instrumentIds := [⟨"ETH/USDT:USDT"⟩, ⟨"SOL/USDT:USDT"⟩], bookTop := true, trades := true }]

/-- Their topics take two routes of Binance, with all three instruments on each. -/
theorem routes_partition_binance : RoutesPartition .binance overlapping :=
  routes_partition .binance ⟨_, List.mem_cons_self, by decide⟩

/-- On Binance a subscription to no topic has no route, so that its instrument is not carried. -/
theorem no_route_without_topic :
    ¬ ∀ (venue : Venue) (subscriptions : List PublicSubscription), NamesInstrument subscriptions →
      ∀ i, CarriesInstrument (routePublicSubscriptions venue subscriptions) i ↔
        ∃ s ∈ subscriptions, i ∈ s.instrumentIds := by
  intro h
  have hcarried := (h .binance [{ instrumentIds := [⟨"BTC/USDT:USDT"⟩] }]
    ⟨_, List.mem_cons_self, by decide⟩ ⟨"BTC/USDT:USDT"⟩).2 ⟨_, List.mem_cons_self, by decide⟩
  obtain ⟨route, s, hs, -⟩ := hcarried
  have hempty : routePublicSubscriptions .binance [{ instrumentIds := [⟨"BTC/USDT:USDT"⟩] }] = ∅ := by
    decide +kernel
  rw [hempty] at hs
  simp at hs

end BatMarkets
