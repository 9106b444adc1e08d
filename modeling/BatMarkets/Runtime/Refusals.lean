import BatMarkets.Core.Interval
import BatMarkets.Mexc.Symbols
import BatMarkets.Runtime.Routes
import BatMarkets.Runtime.Streams

/-!
# Subscriptions that a stream refuses

The task of a public stream first finds out what to subscribe to (`run_binance_public_stream`,
`run_bybit_public_stream` and `mexc_public_subscribe_frames` of `runtime.rs`).  It ends, for good,
when an instrument is unknown or an interval of candles is not supported.  The hub does not ask
before: `spawn_public_stream` starts the task and succeeds, and the subscription of a stream is that
of all leases together.

## Main results

* `isOk_subscribeFrames` : what a stream can be subscribed to.
* `endsTask_of_refused` : a stream that is refused ends, and does not connect again.
* `allAccepted_iff` : the streams of a hub are accepted exactly when none of its leases asks for
  what is refused, or it has no streams.
* `refused_acquire_undone_iff` : an acquire of what is refused is never undone.
-/

namespace BatMarkets

open Ordered Std Transition Wire

/-! ### What a stream subscribes to -/

section Frames

variable (context : CommandContext) (catalog : InstrumentCatalog)

/-- The specification of an instrument that the adapter knows (`require_spec`). -/
def specIn (instrumentId : InstrumentId) : Except MarketError InstrumentSpec :=
  match catalog.get instrumentId with
  | some spec => .ok spec
  | none => .error (MarketError.withVenue
      { kind := .unsupported, message := "unknown instrument " ++ instrumentId.asStr }
      context.venue context.product)

/-- The topics of each instrument, in turn, each followed by those of its candles. -/
def collectTopics {α : Type} (subscription : PublicSubscription) (topics : InstrumentSpec → List α)
    (kline : InstrumentSpec → String → Except MarketError α) : Except MarketError (List α) := do
  let each ← subscription.instrumentIds.mapM fun instrumentId => do
    let spec ← specIn context catalog instrumentId
    let klines ← subscription.klineIntervals.mapM (kline spec)
    return topics spec ++ klines
  return each.flatten

/-- The topic, if it is asked for. -/
def topicIf {α : Type} (asked : Bool) (topic : α) : List α := if asked then [topic] else []

/-- The streams of a subscription at Binance. -/
def binanceStreams (subscription : PublicSubscription) : Except MarketError (List String) :=
  collectTopics context catalog subscription
    (fun spec =>
      let symbol := spec.nativeSymbol.toLower
      topicIf subscription.ticker (symbol ++ "@ticker") ++
        topicIf subscription.trades (symbol ++ "@aggTrade") ++
        topicIf subscription.bookTop (symbol ++ "@bookTicker") ++
        topicIf subscription.orderBook (symbol ++ "@depth20@100ms") ++
        topicIf subscription.liquidations (symbol ++ "@forceOrder") ++
        topicIf (subscription.markPrice || subscription.fundingRate) (symbol ++ "@markPrice@1s"))
    fun spec raw => do
      let interval ← parseKlineInterval context raw "binance.public_ws.kline_interval"
      return spec.nativeSymbol.toLower ++ "@kline_" ++ interval.asBinanceStr

/-- The topics of a subscription at Bybit. -/
def bybitArgs (subscription : PublicSubscription) : Except MarketError (List String) :=
  collectTopics context catalog subscription
    (fun spec =>
      topicIf (subscription.ticker || subscription.markPrice || subscription.fundingRate ||
          subscription.openInterest) ("tickers." ++ spec.nativeSymbol) ++
        topicIf subscription.trades ("publicTrade." ++ spec.nativeSymbol) ++
        topicIf subscription.bookTop ("orderbook.1." ++ spec.nativeSymbol) ++
        topicIf subscription.orderBook ("orderbook.50." ++ spec.nativeSymbol) ++
        topicIf subscription.liquidations ("allLiquidation." ++ spec.nativeSymbol))
    fun spec raw => do
      let interval ← parseKlineInterval context raw "bybit.public_ws.kline_interval"
      return "kline." ++ interval.asBybitStr ++ "." ++ spec.nativeSymbol

/-- A frame of a subscription at MEXC. -/
def mexcFrame (method : String) (param : List (String × Json)) : Json :=
  .object [("method", .string method), ("param", .object param)]

/-- The frames of a subscription at MEXC. -/
def mexcPublicSubscribeFrames (subscription : PublicSubscription) :
    Except MarketError (List Json) :=
  collectTopics context catalog subscription
    (fun spec =>
      let symbol := [("symbol", Json.string (mexcWireSymbol spec))]
      topicIf (subscription.ticker || subscription.markPrice || subscription.fundingRate)
          (mexcFrame "sub.ticker" symbol) ++
        topicIf subscription.trades (mexcFrame "sub.deal" symbol) ++
        topicIf (subscription.bookTop || subscription.orderBook) (mexcFrame "sub.depth" symbol))
    fun spec raw => do
      let interval ← parseKlineInterval context raw "mexc.public_ws.kline_interval"
      let name ← mexcIntervalStr interval
      return mexcFrame "sub.kline"
        [("symbol", .string (mexcWireSymbol spec)), ("interval", .string name)]

/-- The first messages of the task of a stream, or the error with which it ends. -/
def subscribeFrames (subscription : PublicSubscription) : Except MarketError (List Json) :=
  match context.venue with
  | .binance => do
    let streams ← binanceStreams context catalog subscription
    return [.object [("method", .string "SUBSCRIBE"), ("params", .array (streams.map .string)),
      ("id", .integer 1)]]
  | .bybit => do
    let args ← bybitArgs context catalog subscription
    return [.object [("op", .string "subscribe"), ("args", .array (args.map .string))]]
  | .mexc => mexcPublicSubscribeFrames context catalog subscription

end Frames

/-! ### What is refused -/

/-- The venue has candles of the interval. -/
def supportsInterval (venue : Venue) (raw : String) : Bool :=
  (KlineInterval.parse raw).any fun interval =>
    venue != .mexc || (mexcIntervalStr interval).isOk

/-- The subscription names an instrument that is unknown, or an interval that is not supported. -/
def Refuses (venue : Venue) (catalog : InstrumentCatalog) (subscription : PublicSubscription) :
    Prop :=
  (∃ i ∈ subscription.instrumentIds, catalog.get i = none) ∨
    ∃ raw ∈ subscription.klineIntervals, supportsInterval venue raw = false

section Accepted

variable {context : CommandContext} {catalog : InstrumentCatalog}
  {subscription : PublicSubscription}

variable (context) in
theorem isOk_specIn (i : InstrumentId) :
    (specIn context catalog i).isOk = (catalog.get i).isSome := by
  unfold specIn
  cases catalog.get i <;> rfl

theorem isOk_parseKlineInterval (raw operation : String) :
    (parseKlineInterval context raw operation).isOk = (KlineInterval.parse raw).isSome := by
  unfold parseKlineInterval
  cases KlineInterval.parse raw <;> rfl

theorem isOk_collectTopics {α : Type} {topics : InstrumentSpec → List α}
    {kline : InstrumentSpec → String → Except MarketError α} {supported : String → Bool}
    (h : ∀ spec raw, (kline spec raw).isOk = supported raw) :
    (collectTopics context catalog subscription topics kline).isOk =
      subscription.instrumentIds.all fun i =>
        (catalog.get i).isSome && subscription.klineIntervals.all supported := by
  unfold collectTopics
  refine (isOk_map List.flatten _).trans ?_
  rw [isOk_mapM]
  refine congrArg _ (funext fun i => ?_)
  rw [← isOk_specIn context]
  refine isOk_bind_of fun spec => ?_
  refine (isOk_map (topics spec ++ ·) _).trans ?_
  rw [isOk_mapM]
  exact congrArg _ (funext fun raw => h spec raw)

/-- The candles of an interval on Binance and Bybit. -/
theorem isOk_kline (hvenue : context.venue ≠ .mexc) (raw operation : String)
    (topic : KlineInterval → String) :
    (topic <$> parseKlineInterval context raw operation).isOk =
      supportsInterval context.venue raw := by
  rw [isOk_map, isOk_parseKlineInterval, supportsInterval]
  cases KlineInterval.parse raw with
  | none => rfl
  | some interval => simp [hvenue]

/-- A stream can be subscribed to known instruments, with intervals that the venue supports. -/
theorem isOk_subscribeFrames : (subscribeFrames context catalog subscription).isOk =
    subscription.instrumentIds.all fun i => (catalog.get i).isSome &&
      subscription.klineIntervals.all (supportsInterval context.venue) := by
  unfold subscribeFrames
  cases hvenue : context.venue with
  | binance =>
    have hne : context.venue ≠ .mexc := by simp [hvenue]
    refine (isOk_map _ _).trans (isOk_collectTopics fun spec raw => ?_)
    rw [← hvenue]
    exact isOk_kline hne raw _ _
  | bybit =>
    have hne : context.venue ≠ .mexc := by simp [hvenue]
    refine (isOk_map _ _).trans (isOk_collectTopics fun spec raw => ?_)
    rw [← hvenue]
    exact isOk_kline hne raw _ _
  | mexc =>
    refine isOk_collectTopics fun spec raw => ?_
    unfold supportsInterval parseKlineInterval
    cases KlineInterval.parse raw with
    | none => rfl
    | some interval => exact isOk_map _ (mexcIntervalStr interval)

/-- A subscription with instruments is refused exactly when it cannot be subscribed to. -/
theorem refuses_iff_of_instruments (h : subscription.instrumentIds ≠ []) :
    Refuses context.venue catalog subscription ↔
      (subscribeFrames context catalog subscription).isOk = false := by
  obtain ⟨i, hi⟩ := List.exists_mem_of_ne_nil _ h
  rw [isOk_subscribeFrames, List.all_eq_false]
  constructor
  · rintro (⟨j, hj, hunknown⟩ | ⟨raw, hraw, hunsupported⟩)
    · exact ⟨j, hj, by simp [hunknown]⟩
    · refine ⟨i, hi, ?_⟩
      have hall : subscription.klineIntervals.all (supportsInterval context.venue) = false :=
        List.all_eq_false.2 ⟨raw, hraw, by simp [hunsupported]⟩
      simp [hall]
  · rintro ⟨j, hj, hrefused⟩
    rw [Bool.and_eq_true, not_and_or] at hrefused
    rcases hrefused with hunknown | hall
    · exact .inl ⟨j, hj, by simpa using hunknown⟩
    · obtain ⟨raw, hraw, hunsupported⟩ := List.all_eq_false.1 (Bool.eq_false_iff.2 hall)
      exact .inr ⟨raw, hraw, Bool.eq_false_iff.2 hunsupported⟩

/-- Whatever goes wrong is an error of the kind `unsupported`. -/
def FailsUnsupported {α : Type} (x : Except MarketError α) : Prop :=
  ∀ e, x = .error e → e.kind = .unsupported

theorem failsUnsupported_bind {α β : Type} {x : Except MarketError α}
    {f : α → Except MarketError β} (hx : FailsUnsupported x) (hf : ∀ a, FailsUnsupported (f a)) :
    FailsUnsupported (x >>= f) := by
  cases x with
  | ok a => exact hf a
  | error e =>
    rintro e' ⟨⟩
    exact hx e rfl

theorem failsUnsupported_pure {α : Type} (a : α) :
    FailsUnsupported (pure a : Except MarketError α) := by
  rintro e ⟨⟩

theorem failsUnsupported_mapM {α β : Type} {f : α → Except MarketError β}
    (hf : ∀ a, FailsUnsupported (f a)) (as : List α) : FailsUnsupported (as.mapM f) := by
  induction as with
  | nil => exact failsUnsupported_pure []
  | cons a as ih =>
    rw [List.mapM_cons]
    exact failsUnsupported_bind (hf a) fun b =>
      failsUnsupported_bind ih fun bs => failsUnsupported_pure _

theorem failsUnsupported_parse (raw operation : String) :
    FailsUnsupported (parseKlineInterval context raw operation) := by
  unfold parseKlineInterval
  cases KlineInterval.parse raw with
  | some interval => exact failsUnsupported_pure interval
  | none =>
    rintro e ⟨⟩
    rfl

theorem failsUnsupported_collectTopics {α : Type} {topics : InstrumentSpec → List α}
    {kline : InstrumentSpec → String → Except MarketError α}
    (h : ∀ spec raw, FailsUnsupported (kline spec raw)) :
    FailsUnsupported (collectTopics context catalog subscription topics kline) := by
  have hspec : ∀ i, FailsUnsupported (specIn context catalog i) := by
    intro i
    unfold specIn
    cases catalog.get i with
    | some spec => exact failsUnsupported_pure spec
    | none =>
      rintro e ⟨⟩
      rfl
  refine failsUnsupported_bind (failsUnsupported_mapM (fun i => ?_) _) fun each =>
    failsUnsupported_pure _
  refine failsUnsupported_bind (hspec i) fun spec => ?_
  exact failsUnsupported_bind (failsUnsupported_mapM (h spec) _) fun klines =>
    failsUnsupported_pure _

/-- The task of a stream that is refused does not connect again. -/
theorem endsTask_of_refused {e : MarketError}
    (h : subscribeFrames context catalog subscription = .error e)
    (maxReconnectAttempts : Option UInt32) (reconnectAttempt : UInt32) (calls : List HealthOp) :
    EndsTask maxReconnectAttempts reconnectAttempt ⟨calls, .error e⟩ := by
  have hfails : FailsUnsupported (subscribeFrames context catalog subscription) := by
    unfold subscribeFrames
    cases context.venue with
    | binance =>
      refine failsUnsupported_bind (failsUnsupported_collectTopics fun spec raw => ?_) fun _ =>
        failsUnsupported_pure _
      exact failsUnsupported_bind (failsUnsupported_parse raw _) fun _ => failsUnsupported_pure _
    | bybit =>
      refine failsUnsupported_bind (failsUnsupported_collectTopics fun spec raw => ?_) fun _ =>
        failsUnsupported_pure _
      exact failsUnsupported_bind (failsUnsupported_parse raw _) fun _ => failsUnsupported_pure _
    | mexc =>
      refine failsUnsupported_collectTopics fun spec raw => ?_
      refine failsUnsupported_bind (failsUnsupported_parse raw _) fun interval => ?_
      refine failsUnsupported_bind ?_ fun _ => failsUnsupported_pure _
      -- the intervals that MEXC does not have
      cases interval <;> rintro e ⟨⟩ <;> rfl
  refine ⟨e, rfl, ?_⟩
  unfold shouldReconnect
  rw [hfails e h]
  rfl

end Accepted

/-! ### The hub and the catalog -/

/-- The hub, and the catalog of the adapter. -/
structure HubState where
  hub : PublicHub := {}
  catalog : InstrumentCatalog

/-- What happens to the hub: a command, or new instruments. -/
inductive HubStep
  | command (command : PublicHubCommand)
  | replaceInstruments (catalog : InstrumentCatalog)

/-- A task is started, whatever it is to subscribe to (`spawn_public_stream`). -/
def spawnPublicStream : SpawnOutcome := fun _ => none

namespace HubState

variable (context : CommandContext)

/-- The hub after a step; a stream always starts, whatever its subscription. -/
def next (s : HubState) : HubStep → HubState
  | .command command => { s with hub := s.hub.next context.venue (command, spawnPublicStream) }
  | .replaceInstruments catalog => { s with catalog }

/-- An acquire of what is refused is an error, and leaves leases, plan and streams alone. -/
def RefusalUndone (s : HubState) (leaseId : ℕ) (subscription : PublicSubscription) : Prop :=
  Refuses context.venue s.catalog subscription →
    ∃ error hub', s.hub.handle context.venue spawnPublicStream (.acquire leaseId subscription) =
        (some (.error error), hub') ∧
      hub'.active = s.hub.active ∧ hub'.currentStreams = s.hub.currentStreams ∧
        hub'.currentSubscriptions = s.hub.currentSubscriptions

/-- Every stream of the plan can be subscribed. -/
def AllAccepted (s : HubState) : Prop :=
  ∀ (route : PublicStreamRoute) (subscription : PublicSubscription),
    s.hub.currentSubscriptions[route]? = some subscription →
      (subscribeFrames context s.catalog subscription).isOk = true

/-- There is something to subscribe to. -/
def HasStreams (s : HubState) : Prop :=
  NamesInstrument (vals s.hub.active) ∧ (context.venue ≠ .binance ∨ AsksTopic (vals s.hub.active))

/-- No lease asks for what is refused. -/
def NoneRefused (s : HubState) : Prop :=
  ∀ subscription ∈ vals s.hub.active, ¬ Refuses context.venue s.catalog subscription

/-- Nothing is acquired that is refused, and what the leases have asked for stays accepted. -/
def Meets (s : HubState) : HubStep → Prop
  | .command (.acquire _ subscription) => ¬ Refuses context.venue s.catalog subscription
  | .command (.release _) => True
  | .replaceInstruments catalog => NoneRefused context { s with catalog }

variable {context}

/-- Starting a task does not fail. -/
theorem spawnReplacements_spawn (current : StreamPlan)
    (entries : List (PublicStreamRoute × PublicSubscription))
    (replacements : List (PublicStreamRoute × ℕ)) (tasks : StreamTasks) :
    ∃ replacements' tasks',
      spawnReplacements spawnPublicStream current entries replacements tasks =
        (.ok replacements', tasks') := by
  induction entries generalizing replacements tasks with
  | nil => exact ⟨_, _, rfl⟩
  | cons entry entries ih =>
    rw [spawnReplacements]
    split
    · exact ih _ _
    · exact ih _ _

theorem switchPublicStream_spawn (hub : PublicHub) (desired : StreamPlan) :
    ∃ hub', hub.switchPublicStream spawnPublicStream desired = (.ok (), hub') := by
  unfold PublicHub.switchPublicStream
  split
  · exact ⟨_, rfl⟩
  · obtain ⟨replacements, tasks, h⟩ := spawnReplacements_spawn hub.currentSubscriptions
      desired.toList [] hub.tasks
    rw [h]
    exact ⟨_, rfl⟩

/-- Every acquire succeeds. -/
theorem handle_acquire_spawn (venue : Venue) (hub : PublicHub) (leaseId : ℕ)
    (subscription : PublicSubscription) :
    ∃ hub', hub.handle venue spawnPublicStream (.acquire leaseId subscription) =
      (some (.ok ()), hub') ∧ hub'.active = hub.active.insert leaseId subscription := by
  obtain ⟨hub', h⟩ := switchPublicStream_spawn hub
    (routePublicSubscriptions venue (vals (hub.active.insert leaseId subscription)))
  refine ⟨{ hub' with active := hub.active.insert leaseId subscription }, ?_, rfl⟩
  simp only [PublicHub.handle]
  rw [h]

theorem refusalUndone_iff {s : HubState} {leaseId : ℕ} {subscription : PublicSubscription} :
    s.RefusalUndone context leaseId subscription ↔
      ¬ Refuses context.venue s.catalog subscription := by
  obtain ⟨hub', hhandle, -⟩ := handle_acquire_spawn context.venue s.hub leaseId subscription
  constructor
  · intro h hrefuses
    obtain ⟨error, hub'', heq, -⟩ := h hrefuses
    rw [hhandle] at heq
    cases heq
  · intro h hrefuses
    exact absurd hrefuses h

theorem failed_next (s : HubState) (step : HubStep) :
    (s.next context step).hub.tasks.failed = s.hub.tasks.failed := by
  cases step with
  | replaceInstruments catalog => rfl
  | command command =>
    cases command with
    | acquire leaseId subscription =>
      obtain ⟨hub', h⟩ := switchPublicStream_spawn s.hub (routePublicSubscriptions context.venue
        (vals (s.hub.active.insert leaseId subscription)))
      simp only [next, PublicHub.next, PublicHub.handle]
      rw [h]
      exact (PublicHub.switchPublicStream_ok h).2.2.1
    | release leaseId =>
      simp only [next, PublicHub.next, PublicHub.handle]
      split
      · obtain ⟨hub', h⟩ := switchPublicStream_spawn
          { s.hub with active := s.hub.active.erase leaseId }
          (routePublicSubscriptions context.venue (vals (s.hub.active.erase leaseId)))
        rw [h]
        exact (PublicHub.switchPublicStream_ok h).2.2.1
      · rfl

variable (context) in
/-- The plan is always that of the leases. -/
theorem planned_run (catalog : InstrumentCatalog) (steps : List HubStep) :
    let s := run (next context) { catalog } steps
    s.hub.currentSubscriptions = routePublicSubscriptions context.venue (vals s.hub.active) := by
  have hinv : PublicHub.Inv context.venue (run (next context) { catalog } steps).hub ∧
      (run (next context) { catalog } steps).hub.tasks.failed = 0 := by
    refine Visited.invariant (I := fun s : HubState =>
      PublicHub.Inv context.venue s.hub ∧ s.hub.tasks.failed = 0) (fun s step h => ⟨?_, ?_⟩)
      (visited_run _ _) ⟨PublicHub.inv_new _, rfl⟩
    · cases step with
      | replaceInstruments catalog => exact h.1
      | command command => exact h.1.next _
    · rw [failed_next]
      exact h.2
  exact hinv.1.exact hinv.2

/-- On Binance there is no stream without a topic. -/
theorem exists_topic_of_splitBinance {m r : PublicSubscription} {route : PublicStreamRoute}
    (h : (splitBinancePublicSubscription m)[route]? = some r) :
    ∃ topic : PublicTopic, m.asks topic = true := by
  by_contra hnone
  push Not at hnone
  have hintervals : m.klineIntervals.isEmpty = true := by
    by_contra hne
    obtain ⟨raw, hraw⟩ := List.isEmpty_eq_false_iff_exists_mem.1 (Bool.eq_false_iff.2 hne)
    exact hnone (.kline raw) (by simpa [PublicSubscription.asks] using hraw)
  have hflag : ∀ topic : PublicTopic, m.asks topic = false := fun topic =>
    Bool.eq_false_iff.2 (hnone topic)
  have hempty : splitBinancePublicSubscription m = ∅ := by
    unfold splitBinancePublicSubscription
    rw [show m.ticker = false from hflag .ticker, show m.trades = false from hflag .trades,
      show m.markPrice = false from hflag .markPrice,
      show m.fundingRate = false from hflag .fundingRate,
      show m.openInterest = false from hflag .openInterest,
      show m.liquidations = false from hflag .liquidations,
      show m.bookTop = false from hflag .bookTop,
      show m.orderBook = false from hflag .orderBook, hintervals]
    rfl
  rw [hempty] at h
  simp at h

/-- **What the streams can be subscribed to.**  All of them can exactly when there are none, or no
lease asks for what is refused. -/
theorem allAccepted_iff {s : HubState}
    (hplan : s.hub.currentSubscriptions =
      routePublicSubscriptions context.venue (vals s.hub.active)) :
    s.AllAccepted context ↔ (s.HasStreams context → s.NoneRefused context) := by
  unfold AllAccepted
  rw [hplan]
  simp only [isOk_subscribeFrames, List.all_eq_true, Bool.and_eq_true]
  constructor
  · rintro haccepted ⟨hnames, htopic⟩ subscription hmem
    -- an instrument that is unknown, or an interval that is not offered, is on some route
    rintro (⟨i, hi, hunknown⟩ | ⟨raw, hraw, hunsupported⟩)
    · obtain ⟨route, r, hroute, hir⟩ := carriesInstrument_route context.venue htopic hmem hi
      have hknown := (haccepted route r hroute i hir).1
      rw [hunknown] at hknown
      cases hknown
    · have hasks : subscription.asks (.kline raw) = true := by
        simpa [PublicSubscription.asks] using hraw
      obtain ⟨route, r, hroute, hkline, hall⟩ :=
        carriesTopic_route context.venue hnames hmem hasks
      obtain ⟨other, hother, hne⟩ := hnames
      obtain ⟨i, hi⟩ := List.exists_mem_of_ne_nil _ hne
      have hir := hall i (List.mem_flatMap.2 ⟨other, hother, hi⟩)
      have hsupported := (haccepted route r hroute i hir).2 raw
        (by simpa [PublicSubscription.asks] using hkline)
      rw [hunsupported] at hsupported
      cases hsupported
  -- what a route has, it has from one of the subscriptions
  · intro hnone route r hroute i hi
    cases hmerge : mergePublicSubscriptions (vals s.hub.active) with
    | none =>
      unfold routePublicSubscriptions at hroute
      rw [hmerge] at hroute
      simp at hroute
    | some m =>
      obtain ⟨hids, htopics⟩ := lookup_route hmerge hroute
      have hnames : NamesInstrument (vals s.hub.active) := by
        by_contra hno
        rw [mergePublicSubscriptions_eq_none.2 hno] at hmerge
        cases hmerge
      have htopic : context.venue ≠ .binance ∨ AsksTopic (vals s.hub.active) := by
        refine Classical.or_iff_not_imp_left.2 fun hvenue => ?_
        unfold routePublicSubscriptions at hroute
        rw [hmerge, not_not.1 hvenue] at hroute
        obtain ⟨topic, hasks⟩ := exists_topic_of_splitBinance hroute
        obtain ⟨subscription, hmem, hasks⟩ := (asks_mergePublicSubscriptions hmerge topic).1 hasks
        exact ⟨subscription, hmem, topic, hasks⟩
      have hnone := hnone ⟨hnames, htopic⟩
      constructor
      · rw [hids] at hi
        obtain ⟨subscription, hmem, hi⟩ := (instrumentIds_mergePublicSubscriptions hmerge i).1 hi
        rw [Option.isSome_iff_ne_none]
        intro hunknown
        exact hnone subscription hmem (.inl ⟨i, hi, hunknown⟩)
      · intro raw hraw
        have hkline : r.asks (.kline raw) = true := by
          simpa [PublicSubscription.asks] using hraw
        obtain ⟨subscription, hmem, hasks⟩ := (asks_mergePublicSubscriptions hmerge (.kline raw)).1
          ((htopics (.kline raw)).1 hkline).1
        by_contra hunsupported
        refine hnone subscription hmem (.inr ⟨raw, ?_, Bool.eq_false_iff.2 hunsupported⟩)
        simpa [PublicSubscription.asks] using hasks

/-- If nothing is acquired that is refused, no lease asks for it. -/
theorem NoneRefused.next {s : HubState} (h : s.NoneRefused context) {step : HubStep}
    (hmeets : s.Meets context step) : (s.next context step).NoneRefused context := by
  cases step with
  | replaceInstruments catalog => exact hmeets
  | command command =>
    cases command with
    | acquire leaseId subscription =>
      obtain ⟨hub', hhandle, hactive⟩ :=
        handle_acquire_spawn context.venue s.hub leaseId subscription
      intro other hother
      simp only [HubState.next, PublicHub.next] at hother ⊢
      rw [hhandle, hactive] at hother
      obtain ⟨k, hk⟩ := mem_vals.1 hother
      rw [lookup_insert] at hk
      split at hk
      · cases hk
        exact hmeets
      · exact h other (mem_vals.2 ⟨k, hk⟩)
    | release leaseId =>
      intro other hother
      refine h other ?_
      simp only [HubState.next, PublicHub.next, PublicHub.handle] at hother
      split at hother
      · rw [PublicHub.switchPublicStream_active] at hother
        obtain ⟨k, hk⟩ := mem_vals.1 hother
        rw [lookup_erase] at hk
        split at hk
        · cases hk
        · exact mem_vals.2 ⟨k, hk⟩
      · exact hother

theorem noneRefused_run {catalog : InstrumentCatalog} {steps : List HubStep}
    (h : StepsMeet (next context) (Meets context) { catalog } steps) :
    (run (next context) { catalog } steps).NoneRefused context := by
  refine Visited.invariant_of_stepsMeet (I := NoneRefused context)
    (fun s step hs hmeets => NoneRefused.next hs hmeets) (visited_run _ _) h ?_
  intro subscription hmem
  obtain ⟨k, hk⟩ := mem_vals.1 hmem
  simp at hk

end HubState

/-- **One lease cannot kill another, exactly.**  In every state of the hub an acquire is undone if
its subscription is refused exactly when it is not refused; all streams can be subscribed exactly
when there are none or no lease asks for what is refused; and so they are after every run that
acquires nothing that is refused. -/
theorem refused_acquire_undone_iff (context : CommandContext) (catalog : InstrumentCatalog)
    (steps : List HubStep) :
    let s := run (HubState.next context) { catalog } steps
    (∀ leaseId subscription, s.RefusalUndone context leaseId subscription ↔
        ¬ Refuses context.venue s.catalog subscription) ∧
      (s.AllAccepted context ↔ (s.HasStreams context → s.NoneRefused context)) ∧
      (StepsMeet (HubState.next context) (HubState.Meets context) { catalog } steps →
        s.AllAccepted context) := by
  intro s
  have haccepted := HubState.allAccepted_iff (HubState.planned_run context catalog steps)
  refine ⟨fun leaseId subscription => HubState.refusalUndone_iff, haccepted, fun h => ?_⟩
  exact haccepted.2 fun _ => HubState.noneRefused_run h

/-! ### A good lease and a bad one -/

/-- Tickers of BTC, which Bybit lists. -/
def bitcoinTicker : PublicSubscription := { instrumentIds := [⟨"BTC/USDT:USDT"⟩], ticker := true }

/-- Tickers of an instrument that Bybit does not list. -/
def unlistedTicker : PublicSubscription := { instrumentIds := [⟨"XYZ/USDT:USDT"⟩], ticker := true }

/-- Bybit with BTC alone. -/
def bitcoinOnly : InstrumentCatalog := .new [.active .bybit "BTC/USDT:USDT" "BTCUSDT" 2 3]

/-- The acquire of the second lease is accepted, and then the stream of the first is refused. -/
theorem refused_acquire_accepted :
    let s := run (HubState.next (restContext .bybit)) { catalog := bitcoinOnly }
      [.command (.acquire 1 bitcoinTicker)]
    s.AllAccepted (restContext .bybit) ∧
      ¬ s.RefusalUndone (restContext .bybit) 2 unlistedTicker ∧
      ¬ (s.next (restContext .bybit)
        (.command (.acquire 2 unlistedTicker))).AllAccepted (restContext .bybit) := by
  intro s
  have hunlisted : Refuses .bybit bitcoinOnly unlistedTicker := .inl ⟨_, List.mem_cons_self, rfl⟩
  have hbitcoin : ¬ Refuses .bybit bitcoinOnly bitcoinTicker := by
    rintro (⟨i, hi, hunknown⟩ | ⟨raw, hraw, -⟩)
    · obtain rfl := List.mem_singleton.1 hi
      cases hunknown
    · cases hraw
  have hplan (steps : List HubStep) :=
    HubState.planned_run (restContext .bybit) bitcoinOnly steps
  refine ⟨?_, ?_, ?_⟩
  · refine (HubState.allAccepted_iff (hplan _)).2 fun _ => HubState.noneRefused_run ?_
    exact ⟨hbitcoin, trivial⟩
  · intro hundone
    exact HubState.refusalUndone_iff.1 hundone hunlisted
  · intro haccepted
    have hlease : (s.next (restContext .bybit)
        (.command (.acquire 2 unlistedTicker))).hub.active[2]? = some unlistedTicker := by
      decide +kernel
    have hmem := mem_vals.2 ⟨2, hlease⟩
    have hnone := (HubState.allAccepted_iff (hplan
      [.command (.acquire 1 bitcoinTicker), .command (.acquire 2 unlistedTicker)])).1 haccepted
    exact hnone ⟨⟨_, hmem, by decide⟩, .inl (by decide)⟩ _ hmem hunlisted

end BatMarkets
