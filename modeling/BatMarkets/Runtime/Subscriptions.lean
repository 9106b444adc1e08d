import BatMarkets.Core.Types
import BatMarkets.Ordered.Map
import BatMarkets.Transition.Basic

/-!
# The public subscription hub

`run_public_hub` (`subscriptions.rs`) keeps the subscriptions of the active leases, merges them into
a plan with one subscription for each websocket route of the venue, and runs one stream for each
route of the plan.  `PublicHub.handle` is one turn of its loop.  Whether a stream can be spawned is
up to the environment (`SpawnOutcome`); the tasks spawned and aborted are counted (`StreamTasks`).

A release that cannot spawn the streams of the smaller plan leaves the old plan in place, so the
plan may be one of more subscriptions than the active ones.

## Main results

* `public_hub_coverage` : after every command, the streams and the plan have the same routes, the
  plan carries what the active leases ask for, a failed acquire changes nothing and aborts what it
  spawned, and the plan is that of the active leases unless a spawn has failed.
* `lease_without_instruments_not_covered` : a lease that names no instrument is active, and nothing
  carries its topic.
-/

namespace BatMarkets

open Ordered Std Transition

/-! ### Subscriptions -/

/-- Public market-data subscription plan for live websocket runners. -/
structure PublicSubscription where
  instrumentIds : List InstrumentId := []
  ticker : Bool := false
  trades : Bool := false
  bookTop : Bool := false
  orderBook : Bool := false
  markPrice : Bool := false
  fundingRate : Bool := false
  openInterest : Bool := false
  liquidations : Bool := false
  klineIntervals : List String := []
  deriving DecidableEq

/-- What a subscription may ask for. -/
inductive PublicTopic
  | ticker
  | trades
  | bookTop
  | orderBook
  | markPrice
  | fundingRate
  | openInterest
  | liquidations
  | kline (interval : String)
  deriving DecidableEq

/-- The subscription asks for the topic. -/
def PublicSubscription.asks (s : PublicSubscription) : PublicTopic → Bool
  | .ticker => s.ticker
  | .trades => s.trades
  | .bookTop => s.bookTop
  | .orderBook => s.orderBook
  | .markPrice => s.markPrice
  | .fundingRate => s.fundingRate
  | .openInterest => s.openInterest
  | .liquidations => s.liquidations
  | .kline interval => s.klineIntervals.contains interval

/-- Venue-specific public websocket route for shared live subscriptions. -/
inductive PublicStreamRoute
  | default
  | binanceMarket
  | binancePublic
  deriving DecidableEq

namespace PublicStreamRoute

/-- The place of the route in the order of the source. -/
def rank : PublicStreamRoute → ℕ
  | default => 0
  | binanceMarket => 1
  | binancePublic => 2

instance : Ord PublicStreamRoute := ⟨compareOn rank⟩

instance : TransOrd PublicStreamRoute := inferInstanceAs (TransCmp (compareOn rank))

instance : LawfulEqOrd PublicStreamRoute where
  eq_of_compare {a b} h := by
    have hrank : rank a = rank b := LawfulEqOrd.eq_of_compare h
    cases a <;> cases b <;> first | rfl | cases hrank

end PublicStreamRoute

/-- The subscriptions of the streams, by route. -/
abbrev StreamPlan := BTreeMap PublicStreamRoute PublicSubscription

/-- The instruments of a subscription, sorted and each once, and likewise its interval. -/
def normalizePublicSubscription (subscription : PublicSubscription) : PublicSubscription :=
  { subscription with
    instrumentIds :=
      (subscription.instrumentIds.mergeSort fun a b => (compare a b).isLE).destutter (· ≠ ·)
    klineIntervals :=
      (subscription.klineIntervals.mergeSort fun a b => (compare a b).isLE).destutter (· ≠ ·) }

/-- All that the subscriptions ask for, for all instruments that they name. -/
def mergePublicSubscriptions (subscriptions : List PublicSubscription) :
    Option PublicSubscription :=
  let instrumentIds := distinct (subscriptions.flatMap (·.instrumentIds))
  let klineIntervals := distinct (subscriptions.flatMap (·.klineIntervals))
  if instrumentIds = [] then none
  else some
    { instrumentIds
      ticker := subscriptions.any (·.ticker)
      trades := subscriptions.any (·.trades)
      bookTop := subscriptions.any (·.bookTop)
      orderBook := subscriptions.any (·.orderBook)
      markPrice := subscriptions.any (·.markPrice)
      fundingRate := subscriptions.any (·.fundingRate)
      openInterest := subscriptions.any (·.openInterest)
      liquidations := subscriptions.any (·.liquidations)
      klineIntervals }

/-- On Binance quotes and books have a route of their own. -/
def splitBinancePublicSubscription (subscription : PublicSubscription) : StreamPlan :=
  let market : StreamPlan :=
    if subscription.ticker || subscription.trades || subscription.markPrice ||
        subscription.fundingRate || subscription.openInterest || subscription.liquidations ||
        !subscription.klineIntervals.isEmpty then
      (∅ : StreamPlan).insert .binanceMarket
        { subscription with bookTop := false, orderBook := false }
    else ∅
  if subscription.bookTop || subscription.orderBook then
    market.insert .binancePublic
      { instrumentIds := subscription.instrumentIds, bookTop := subscription.bookTop,
        orderBook := subscription.orderBook }
  else market

/-- What each route of the venue subscribes to. -/
def routePublicSubscriptions (venue : Venue) (subscriptions : List PublicSubscription) :
    StreamPlan :=
  match mergePublicSubscriptions subscriptions with
  | none => ∅
  | some subscription =>
    match venue with
    | .binance => splitBinancePublicSubscription subscription
    | .bybit | .mexc => (∅ : StreamPlan).insert .default subscription

/-! ### What a plan carries -/

/-- Some subscription names an instrument. -/
def NamesInstrument (subscriptions : List PublicSubscription) : Prop :=
  ∃ s ∈ subscriptions, s.instrumentIds ≠ []

/-- Some subscription asks for a topic. -/
def AsksTopic (subscriptions : List PublicSubscription) : Prop :=
  ∃ s ∈ subscriptions, ∃ topic, s.asks topic = true

/-- Some route carries the topic, for every instrument in `instrumentIds`. -/
def CarriesTopic (plan : StreamPlan) (topic : PublicTopic)
    (instrumentIds : List InstrumentId) : Prop :=
  ∃ (route : PublicStreamRoute) (s : PublicSubscription), plan[route]? = some s ∧
    s.asks topic = true ∧ ∀ i ∈ instrumentIds, i ∈ s.instrumentIds

/-- Some route carries the instrument. -/
def CarriesInstrument (plan : StreamPlan) (instrumentId : InstrumentId) : Prop :=
  ∃ (route : PublicStreamRoute) (s : PublicSubscription), plan[route]? = some s ∧
    instrumentId ∈ s.instrumentIds

variable {subscriptions : List PublicSubscription} {s m : PublicSubscription}

theorem mergePublicSubscriptions_eq_none :
    mergePublicSubscriptions subscriptions = none ↔ ¬NamesInstrument subscriptions := by
  simp only [mergePublicSubscriptions, ite_eq_left_iff, reduceCtorEq, imp_false, not_not,
    distinct_eq_nil, NamesInstrument, List.flatMap_eq_nil_iff]
  push Not
  rfl

theorem asks_mergePublicSubscriptions (h : mergePublicSubscriptions subscriptions = some m)
    (topic : PublicTopic) : m.asks topic = true ↔ ∃ s ∈ subscriptions, s.asks topic = true := by
  simp only [mergePublicSubscriptions, Option.ite_none_left_eq_some, Option.some.injEq] at h
  obtain ⟨-, rfl⟩ := h
  cases topic <;> simp [PublicSubscription.asks, mem_distinct]

theorem instrumentIds_mergePublicSubscriptions
    (h : mergePublicSubscriptions subscriptions = some m) (i : InstrumentId) :
    i ∈ m.instrumentIds ↔ ∃ s ∈ subscriptions, i ∈ s.instrumentIds := by
  simp only [mergePublicSubscriptions, Option.ite_none_left_eq_some, Option.some.injEq] at h
  obtain ⟨-, rfl⟩ := h
  simp [mem_distinct]

/-- The route that carries a topic of Binance. -/
def PublicTopic.binanceRoute : PublicTopic → PublicStreamRoute
  | .bookTop | .orderBook => .binancePublic
  | .ticker | .trades | .markPrice | .fundingRate | .openInterest | .liquidations | .kline _ =>
    .binanceMarket

theorem lookup_split_public (h : (m.bookTop || m.orderBook) = true) :
    (splitBinancePublicSubscription m)[PublicStreamRoute.binancePublic]? =
      some { instrumentIds := m.instrumentIds, bookTop := m.bookTop,
             orderBook := m.orderBook } := by
  simp only [splitBinancePublicSubscription, if_pos h]
  rw [lookup_insert, if_pos rfl]

theorem lookup_split_market (h : (m.ticker || m.trades || m.markPrice || m.fundingRate ||
      m.openInterest || m.liquidations || !m.klineIntervals.isEmpty) = true) :
    (splitBinancePublicSubscription m)[PublicStreamRoute.binanceMarket]? =
      some { m with bookTop := false, orderBook := false } := by
  simp only [splitBinancePublicSubscription, if_pos h]
  split
  · rw [lookup_insert, if_neg (by decide), lookup_insert, if_pos rfl]
  · rw [lookup_insert, if_pos rfl]

theorem exists_splitBinancePublicSubscription {topic : PublicTopic} (h : m.asks topic = true) :
    ∃ s, (splitBinancePublicSubscription m)[topic.binanceRoute]? = some s ∧
      s.asks topic = true ∧ s.instrumentIds = m.instrumentIds := by
  cases topic with
  | bookTop | orderBook =>
    simp only [PublicSubscription.asks] at h
    exact ⟨_, lookup_split_public (by simp [h]), h, rfl⟩
  | kline interval =>
    have hne : m.klineIntervals.isEmpty = false := by
      rw [List.isEmpty_eq_false_iff_exists_mem]
      exact ⟨interval, by simpa [PublicSubscription.asks] using h⟩
    exact ⟨_, lookup_split_market (by simp [hne]), h, rfl⟩
  | ticker | trades | markPrice | fundingRate | openInterest | liquidations =>
    simp only [PublicSubscription.asks] at h
    exact ⟨_, lookup_split_market (by simp [h]), h, rfl⟩

/-- A plan carries every topic asked for, for all the instruments named, if any is named. -/
theorem carriesTopic_route (venue : Venue) (hnames : NamesInstrument subscriptions)
    (hs : s ∈ subscriptions) {topic : PublicTopic} (htopic : s.asks topic = true) :
    CarriesTopic (routePublicSubscriptions venue subscriptions) topic
      (subscriptions.flatMap (·.instrumentIds)) := by
  cases hmerge : mergePublicSubscriptions subscriptions with
  | none => exact absurd hnames (mergePublicSubscriptions_eq_none.1 hmerge)
  | some m =>
    have hasks := (asks_mergePublicSubscriptions hmerge topic).2 ⟨s, hs, htopic⟩
    have hall : ∀ i ∈ subscriptions.flatMap (·.instrumentIds), i ∈ m.instrumentIds := by
      intro i hi
      obtain ⟨s', hs', hi'⟩ := List.mem_flatMap.1 hi
      exact (instrumentIds_mergePublicSubscriptions hmerge i).2 ⟨s', hs', hi'⟩
    simp only [routePublicSubscriptions, hmerge]
    cases venue with
    | binance =>
      obtain ⟨s', hroute, hasks', hids⟩ := exists_splitBinancePublicSubscription hasks
      exact ⟨_, s', hroute, hasks', hids ▸ hall⟩
    | bybit | mexc => exact ⟨.default, m, by simp, hasks, hall⟩

/-- A plan carries every instrument named; on Binance, if any topic is asked for. -/
theorem carriesInstrument_route (venue : Venue)
    (htopic : venue ≠ .binance ∨ AsksTopic subscriptions) (hs : s ∈ subscriptions)
    {i : InstrumentId} (hi : i ∈ s.instrumentIds) :
    CarriesInstrument (routePublicSubscriptions venue subscriptions) i := by
  have hnames : NamesInstrument subscriptions := ⟨s, hs, List.ne_nil_of_mem hi⟩
  have hall : i ∈ subscriptions.flatMap (·.instrumentIds) := List.mem_flatMap.2 ⟨s, hs, hi⟩
  by_cases hasks : AsksTopic subscriptions
  · obtain ⟨s', hs', topic, hs'topic⟩ := hasks
    obtain ⟨route, r, hroute, -, hids⟩ := carriesTopic_route venue hnames hs' hs'topic
    exact ⟨route, r, hroute, hids i hall⟩
  · cases hmerge : mergePublicSubscriptions subscriptions with
    | none => exact absurd hnames (mergePublicSubscriptions_eq_none.1 hmerge)
    | some m =>
      have hm := (instrumentIds_mergePublicSubscriptions hmerge i).2 ⟨s, hs, hi⟩
      simp only [routePublicSubscriptions, hmerge]
      cases venue with
      | binance => exact absurd (htopic.resolve_left (by simp)) hasks
      | bybit | mexc => exact ⟨.default, m, by simp, hm⟩

/-! ### The hub -/

/-- The tasks of the streams, by number: how many have been spawned, which of them have been
aborted, and how many could not be spawned. -/
structure StreamTasks where
  spawned : ℕ := 0
  aborted : List ℕ := []
  failed : ℕ := 0
  deriving DecidableEq

/-- The task of the stream is aborted. -/
def StreamTasks.abort (tasks : StreamTasks) (stream : ℕ) : StreamTasks :=
  { tasks with aborted := tasks.aborted ++ [stream] }

/-- The hub of the public streams: its leases and the streams that serve them. -/
structure PublicHub where
  active : BTreeMap ℕ PublicSubscription := ∅
  currentSubscriptions : StreamPlan := ∅
  currentStreams : BTreeMap PublicStreamRoute ℕ := ∅
  tasks : StreamTasks := {}

/-- What is asked of the hub. -/
inductive PublicHubCommand
  | acquire (leaseId : ℕ) (subscription : PublicSubscription)
  | release (leaseId : ℕ)
  deriving DecidableEq

/-- The error with which `spawn_public_stream` ends for a route, if it does. -/
abbrev SpawnOutcome := PublicStreamRoute → Option MarketError

/-- Spawn a stream for each route whose subscription changes.  After an error the streams spawned
before are aborted. -/
def spawnReplacements (spawn : SpawnOutcome) (current : StreamPlan) :
    List (PublicStreamRoute × PublicSubscription) → List (PublicStreamRoute × ℕ) → StreamTasks →
      Except MarketError (List (PublicStreamRoute × ℕ)) × StreamTasks
  | [], replacements, tasks => (.ok replacements, tasks)
  | (route, subscription) :: rest, replacements, tasks =>
    if current[route]? = some subscription then
      spawnReplacements spawn current rest replacements tasks
    else
      match spawn route with
      | none =>
        spawnReplacements spawn current rest (replacements ++ [(route, tasks.spawned)])
          { tasks with spawned := tasks.spawned + 1 }
      | some error =>
        (.error error, replacements.foldl (fun tasks r => tasks.abort r.2)
          { tasks with failed := tasks.failed + 1 })

namespace PublicHub

/-- The stream of a route is taken out and aborted. -/
def removeStream (hub : PublicHub) (route : PublicStreamRoute) : PublicHub :=
  match hub.currentStreams[route]? with
  | some stream =>
    { hub with currentStreams := hub.currentStreams.erase route, tasks := hub.tasks.abort stream }
  | none => hub

/-- A stream is put in; the one it replaces is aborted. -/
def insertStream (hub : PublicHub) (replacement : PublicStreamRoute × ℕ) : PublicHub :=
  let tasks := match hub.currentStreams[replacement.1]? with
    | some existing => hub.tasks.abort existing
    | none => hub.tasks
  { hub with currentStreams := hub.currentStreams.insert replacement.1 replacement.2, tasks }

/-- The streams are replaced when what they subscribe to changes; if one cannot be started, the
old ones stay. -/
def switchPublicStream (hub : PublicHub) (spawn : SpawnOutcome) (desired : StreamPlan) :
    Except MarketError Unit × PublicHub :=
  if hub.currentSubscriptions = desired then (.ok (), hub)
  else
    match spawnReplacements spawn hub.currentSubscriptions desired.toList [] hub.tasks with
    | (.error error, tasks) => (.error error, { hub with tasks })
    | (.ok replacements, tasks) =>
      let staleRoutes := (hub.currentSubscriptions.toList.filter fun entry =>
        desired[entry.1]? ≠ some entry.2).map Prod.fst
      let hub := staleRoutes.foldl removeStream { hub with tasks }
      let hub := replacements.foldl insertStream hub
      (.ok (), { hub with currentSubscriptions := desired })

/-- One turn of the loop: the answer to an acquire, and the hub after it. -/
def handle (venue : Venue) (spawn : SpawnOutcome) (hub : PublicHub) :
    PublicHubCommand → Option (Except MarketError Unit) × PublicHub
  | .acquire leaseId subscription =>
    let candidate := hub.active.insert leaseId subscription
    let desired := routePublicSubscriptions venue (vals candidate)
    match hub.switchPublicStream spawn desired with
    | (.ok (), hub) => (some (.ok ()), { hub with active := candidate })
    | (.error error, hub) => (some (.error error), hub)
  | .release leaseId =>
    if leaseId ∈ hub.active then
      let active := hub.active.erase leaseId
      let desired := routePublicSubscriptions venue (vals active)
      (none, (({ hub with active } : PublicHub).switchPublicStream spawn desired).2)
    else (none, hub)

/-- The hub after a command, with the outcomes of the spawns it makes. -/
def next (venue : Venue) (hub : PublicHub) (step : PublicHubCommand × SpawnOutcome) : PublicHub :=
  (hub.handle venue step.2 step.1).2

end PublicHub

/-! ### Switching streams -/

section Spawn

variable {spawn : SpawnOutcome} {current : StreamPlan}
  {entries : List (PublicStreamRoute × PublicSubscription)}
  {replacements replacements' : List (PublicStreamRoute × ℕ)} {tasks tasks' : StreamTasks}

theorem spawnReplacements_ok
    (h : spawnReplacements spawn current entries replacements tasks = (.ok replacements', tasks')) :
    tasks'.failed = tasks.failed ∧ replacements'.map Prod.fst = replacements.map Prod.fst ++
      (entries.filter fun entry => current[entry.1]? ≠ some entry.2).map Prod.fst := by
  induction entries generalizing replacements tasks with
  | nil =>
    simp only [spawnReplacements, Prod.mk.injEq, Except.ok.injEq] at h
    obtain ⟨rfl, rfl⟩ := h
    simp
  | cons entry rest ih =>
    obtain ⟨route, subscription⟩ := entry
    rw [spawnReplacements] at h
    split at h
    · next hsame => simpa [hsame] using ih h
    · next hdiff =>
      split at h
      · simpa [hdiff] using ih h
      · cases h

theorem mem_aborted_foldl (tasks : StreamTasks) (replacements : List (PublicStreamRoute × ℕ))
    (id : ℕ) :
    id ∈ (replacements.foldl (fun tasks r => tasks.abort r.2) tasks).aborted ↔
      id ∈ tasks.aborted ∨ ∃ r ∈ replacements, r.2 = id := by
  induction replacements generalizing tasks with
  | nil => simp
  | cons r replacements ih =>
    rw [List.foldl_cons, ih]
    simp [StreamTasks.abort, or_assoc, eq_comm]

theorem foldl_abort_spawned (tasks : StreamTasks) (replacements : List (PublicStreamRoute × ℕ)) :
    (replacements.foldl (fun tasks r => tasks.abort r.2) tasks).spawned = tasks.spawned ∧
      (replacements.foldl (fun tasks r => tasks.abort r.2) tasks).failed = tasks.failed := by
  induction replacements generalizing tasks with
  | nil => exact ⟨rfl, rfl⟩
  | cons r replacements ih => exact ih (tasks.abort r.2)

/-- After an error, exactly the streams spawned on the way have been aborted. -/
theorem spawnReplacements_error {error : MarketError}
    (h : spawnReplacements spawn current entries replacements tasks = (.error error, tasks')) :
    tasks.spawned ≤ tasks'.spawned ∧ tasks'.failed = tasks.failed + 1 ∧
      ∀ id, id ∈ tasks'.aborted ↔ id ∈ tasks.aborted ∨ (∃ r ∈ replacements, r.2 = id) ∨
        tasks.spawned ≤ id ∧ id < tasks'.spawned := by
  induction entries generalizing replacements tasks with
  | nil => cases h
  | cons entry rest ih =>
    obtain ⟨route, subscription⟩ := entry
    rw [spawnReplacements] at h
    split at h
    · exact ih h
    · split at h
      · obtain ⟨hspawned, hfailed, haborted⟩ := ih h
        simp only at hspawned hfailed haborted
        refine ⟨by omega, hfailed, fun id => ?_⟩
        rw [haborted]
        simp only [List.mem_append, List.mem_singleton, or_and_right, exists_or,
          exists_eq_left]
        constructor
        · rintro (hold | (hr | rfl) | hnew)
          · exact .inl hold
          · exact .inr (.inl hr)
          · exact .inr (.inr (by omega))
          · exact .inr (.inr (by omega))
        · rintro (hold | hr | hnew)
          · exact .inl hold
          · exact .inr (.inl (.inl hr))
          · rcases Nat.eq_or_lt_of_le hnew.1 with rfl | hlt
            · exact .inr (.inl (.inr rfl))
            · exact .inr (.inr ⟨hlt, hnew.2⟩)
      · simp only [Prod.mk.injEq] at h
        obtain ⟨-, rfl⟩ := h
        obtain ⟨hspawned, hfailed⟩ := foldl_abort_spawned
          { tasks with failed := tasks.failed + 1 } replacements
        refine ⟨Nat.le_of_eq hspawned.symm, hfailed, fun id => ?_⟩
        rw [mem_aborted_foldl, hspawned]
        have hempty : ¬(tasks.spawned ≤ id ∧ id < tasks.spawned) := by omega
        simp only [hempty, or_false]

end Spawn

namespace PublicHub

variable {hub hub' : PublicHub} {spawn : SpawnOutcome} {desired : StreamPlan} {venue : Venue}

/-- Streams and plan have the same routes. -/
def SameRoutes (hub : PublicHub) : Prop :=
  ∀ route, route ∈ hub.currentStreams ↔ route ∈ hub.currentSubscriptions

theorem removeStream_spec (hub : PublicHub) (route : PublicStreamRoute) :
    (∀ a, a ∈ (hub.removeStream route).currentStreams ↔ a ∈ hub.currentStreams ∧ a ≠ route) ∧
      (hub.removeStream route).active = hub.active ∧
      (hub.removeStream route).tasks.failed = hub.tasks.failed := by
  rw [removeStream]
  split
  · refine ⟨fun a => ?_, rfl, rfl⟩
    rw [ExtTreeMap.mem_iff_isSome_getElem?, lookup_erase]
    by_cases ha : route = a
    · simp [ha]
    · simp [ha, Ne.symm ha]
  · next hnone =>
    refine ⟨fun a => ⟨fun ha => ⟨ha, ?_⟩, fun ha => ha.1⟩, rfl, rfl⟩
    rintro rfl
    rw [ExtTreeMap.mem_iff_isSome_getElem?, hnone] at ha
    cases ha

theorem foldl_removeStream_spec (routes : List PublicStreamRoute) (hub : PublicHub) :
    (∀ a, a ∈ (routes.foldl removeStream hub).currentStreams ↔
        a ∈ hub.currentStreams ∧ a ∉ routes) ∧
      (routes.foldl removeStream hub).active = hub.active ∧
      (routes.foldl removeStream hub).tasks.failed = hub.tasks.failed := by
  induction routes generalizing hub with
  | nil => simp
  | cons route routes ih =>
    obtain ⟨hmem, hactive, hfailed⟩ := ih (hub.removeStream route)
    obtain ⟨hmem₁, hactive₁, hfailed₁⟩ := hub.removeStream_spec route
    refine ⟨fun a => ?_, hactive.trans hactive₁, hfailed.trans hfailed₁⟩
    rw [List.foldl_cons, hmem, hmem₁]
    simp [and_assoc]

theorem foldl_insertStream_spec (replacements : List (PublicStreamRoute × ℕ)) (hub : PublicHub) :
    (∀ a, a ∈ (replacements.foldl insertStream hub).currentStreams ↔
        a ∈ hub.currentStreams ∨ a ∈ replacements.map Prod.fst) ∧
      (replacements.foldl insertStream hub).active = hub.active ∧
      (replacements.foldl insertStream hub).tasks.failed = hub.tasks.failed := by
  induction replacements generalizing hub with
  | nil => simp
  | cons r replacements ih =>
    obtain ⟨hmem, hactive, hfailed⟩ := ih (hub.insertStream r)
    refine ⟨fun a => ?_, hactive, hfailed.trans ?_⟩
    · rw [List.foldl_cons, hmem]
      show a ∈ hub.currentStreams.insert r.1 r.2 ∨ _ ↔ _
      rw [mem_insert_iff]
      simp only [List.map_cons, List.mem_cons]
      tauto
    · show (match hub.currentStreams[r.1]? with
        | some existing => hub.tasks.abort existing
        | none => hub.tasks).failed = _
      split <;> rfl

/-- The routes of some entries of a plan. -/
theorem mem_routes_filter {plan : StreamPlan} {p : PublicStreamRoute × PublicSubscription → Bool}
    {route : PublicStreamRoute} :
    route ∈ (plan.toList.filter p).map Prod.fst ↔
      ∃ s, plan[route]? = some s ∧ p (route, s) = true := by
  simp only [List.mem_map, List.mem_filter, Prod.exists, exists_and_right, exists_eq_right,
    ExtTreeMap.mem_toList_iff_getElem?_eq_some]

/-- A switch that succeeds installs the plan, and runs a stream for each of its routes. -/
theorem switchPublicStream_ok (h : hub.switchPublicStream spawn desired = (.ok (), hub')) :
    hub'.active = hub.active ∧ hub'.currentSubscriptions = desired ∧
      hub'.tasks.failed = hub.tasks.failed ∧ (hub.SameRoutes → hub'.SameRoutes) := by
  rw [switchPublicStream] at h
  split at h
  · next heq =>
    cases h
    exact ⟨rfl, heq, rfl, id⟩
  · split at h
    · cases h
    · next replacements tasks hspawn =>
      simp only [Prod.mk.injEq, true_and] at h
      subst h
      obtain ⟨hfailed, hroutes⟩ := spawnReplacements_ok hspawn
      obtain ⟨hmem, hactive, hfailed₁⟩ := foldl_removeStream_spec
        ((hub.currentSubscriptions.toList.filter fun entry =>
          desired[entry.1]? ≠ some entry.2).map Prod.fst) { hub with tasks }
      obtain ⟨hmem₂, hactive₂, hfailed₂⟩ := foldl_insertStream_spec replacements
        (((hub.currentSubscriptions.toList.filter fun entry =>
          desired[entry.1]? ≠ some entry.2).map Prod.fst).foldl removeStream { hub with tasks })
      refine ⟨hactive₂.trans hactive, rfl, hfailed₂.trans (hfailed₁.trans hfailed), ?_⟩
      intro hsame route
      show route ∈ (replacements.foldl insertStream _).currentStreams ↔ route ∈ desired
      rw [hmem₂, hmem, hroutes]
      show (route ∈ hub.currentStreams ∧ _) ∨ _ ↔ _
      rw [hsame route]
      simp only [List.map_nil, List.nil_append, mem_routes_filter, decide_eq_true_eq,
        ExtTreeMap.mem_iff_isSome_getElem?]
      -- a route of the old plan is stale or kept, one of the new plan is kept or replaced
      cases hcur : hub.currentSubscriptions[route]? with
      | none => cases hdes : desired[route]? <;> simp
      | some s =>
        cases hdes : desired[route]? with
        | none => simp
        | some s' =>
          by_cases hs : s' = s
          · simp [hs]
          · simp [hs, Ne.symm hs]

/-- A switch that fails leaves everything as it was, and aborts what it spawned. -/
theorem switchPublicStream_error {error : MarketError}
    (h : hub.switchPublicStream spawn desired = (.error error, hub')) :
    hub' = { hub with tasks := hub'.tasks } ∧ hub.tasks.failed < hub'.tasks.failed ∧
      ∀ id, id ∈ hub'.tasks.aborted ↔ id ∈ hub.tasks.aborted ∨
        hub.tasks.spawned ≤ id ∧ id < hub'.tasks.spawned := by
  rw [switchPublicStream] at h
  split at h
  · cases h
  · split at h
    · next tasks hspawn =>
      simp only [Prod.mk.injEq] at h
      obtain ⟨-, rfl⟩ := h
      obtain ⟨-, hfailed, haborted⟩ := spawnReplacements_error hspawn
      refine ⟨rfl, by simp only [hfailed]; omega, fun id => ?_⟩
      rw [haborted]
      simp
    · cases h

theorem switchPublicStream_active (hub : PublicHub) (spawn : SpawnOutcome)
    (desired : StreamPlan) : (hub.switchPublicStream spawn desired).2.active = hub.active := by
  generalize hswitch : hub.switchPublicStream spawn desired = switched
  obtain ⟨result, hub'⟩ := switched
  cases result with
  | ok u => exact (switchPublicStream_ok hswitch).1
  | error error => rw [(switchPublicStream_error hswitch).1]

/-- Nothing has to be spawned for the empty plan, so a switch to it succeeds. -/
theorem switchPublicStream_empty (hub : PublicHub) (spawn : SpawnOutcome) :
    (hub.switchPublicStream spawn ∅).2.currentSubscriptions = ∅ := by
  rw [switchPublicStream]
  split
  · next heq => exact heq
  · rfl

theorem handle_acquire_cases (venue : Venue) (spawn : SpawnOutcome) (hub : PublicHub)
    (leaseId : ℕ) (subscription : PublicSubscription) :
    (∃ hub', hub.handle venue spawn (.acquire leaseId subscription) = (some (.ok ()), hub') ∧
        hub'.active = hub.active.insert leaseId subscription) ∨
      ∃ error tasks, hub.handle venue spawn (.acquire leaseId subscription) =
        (some (.error error), { hub with tasks }) := by
  simp only [handle]
  generalize hswitch : hub.switchPublicStream spawn _ = switched
  obtain ⟨result, hub'⟩ := switched
  cases result with
  | ok u => exact .inl ⟨_, rfl, rfl⟩
  | error error =>
    obtain ⟨heq, -⟩ := switchPublicStream_error hswitch
    exact .inr ⟨error, hub'.tasks, by rw [heq]⟩

theorem mem_active_release (venue : Venue) (spawn : SpawnOutcome) (hub : PublicHub)
    (leaseId id : ℕ) : id ∈ (hub.handle venue spawn (.release leaseId)).2.active ↔
      id ∈ hub.active ∧ id ≠ leaseId := by
  simp only [handle]
  split
  · rw [switchPublicStream_active, ExtTreeMap.mem_iff_isSome_getElem?, lookup_erase]
    by_cases hid : leaseId = id
    · simp [hid]
    · simp [hid, Ne.symm hid]
  · next hmem => exact ⟨fun hid => ⟨hid, fun heq => hmem (heq ▸ hid)⟩, And.left⟩

/-! ### The invariant of the hub -/

/-- The streams and the plan have the same routes; the plan is that of some subscriptions, with all
the active ones among them, and that of the active ones unless a spawn has failed. -/
structure Inv (venue : Venue) (hub : PublicHub) : Prop where
  sameRoutes : hub.SameRoutes
  planned : ∃ subscriptions,
    hub.currentSubscriptions = routePublicSubscriptions venue subscriptions ∧
      ∀ s ∈ vals hub.active, s ∈ subscriptions
  exact : hub.tasks.failed = 0 →
    hub.currentSubscriptions = routePublicSubscriptions venue (vals hub.active)

/-- After a switch to the plan of its active subscriptions the hub is in order. -/
theorem inv_of_switched (hsame : hub.SameRoutes)
    (hplan : hub.currentSubscriptions = routePublicSubscriptions venue (vals hub.active)) :
    Inv venue hub :=
  ⟨hsame, ⟨_, hplan, fun _ hs => hs⟩, fun _ => hplan⟩

theorem inv_new (venue : Venue) : Inv venue {} := by
  refine inv_of_switched (fun route => Iff.rfl) ?_
  have hnone : mergePublicSubscriptions (vals (∅ : BTreeMap ℕ PublicSubscription)) = none := by
    rw [mergePublicSubscriptions_eq_none]
    rintro ⟨s, hs, -⟩
    obtain ⟨k, hk⟩ := mem_vals.1 hs
    simp at hk
  show ∅ = routePublicSubscriptions venue _
  simp only [routePublicSubscriptions, hnone]

/-- **One command** keeps the hub in order. -/
theorem Inv.next (h : Inv venue hub) (step : PublicHubCommand × SpawnOutcome) :
    Inv venue (hub.next venue step) := by
  obtain ⟨command, spawn⟩ := step
  cases command with
  | acquire leaseId subscription =>
    simp only [PublicHub.next, handle]
    split
    · next hub' hswitch =>
      obtain ⟨-, hplan, -, hsame⟩ := switchPublicStream_ok hswitch
      exact inv_of_switched (hsame h.sameRoutes) hplan
    · next error hub' hswitch =>
      obtain ⟨heq, hfailed, -⟩ := switchPublicStream_error hswitch
      rw [heq]
      exact ⟨h.sameRoutes, h.planned, fun hzero => absurd hzero (by simp only at hzero; omega)⟩
  | release leaseId =>
    simp only [PublicHub.next, handle]
    split
    · next hmem =>
      have hfewer : ∀ s ∈ vals (hub.active.erase leaseId), s ∈ vals hub.active := by
        intro s hs
        obtain ⟨k, hk⟩ := mem_vals.1 hs
        rw [lookup_erase] at hk
        split at hk
        · cases hk
        · exact mem_vals.2 ⟨k, hk⟩
      generalize hswitch : PublicHub.switchPublicStream { hub with active := _ } spawn _ = switched
      cases switched with
      | mk result hub' =>
        cases result with
        | ok u =>
          obtain ⟨hactive, hplan, -, hsame⟩ := switchPublicStream_ok hswitch
          refine inv_of_switched (hsame h.sameRoutes) ?_
          rw [hplan, hactive]
        | error error =>
          obtain ⟨heq, hfailed, -⟩ := switchPublicStream_error hswitch
          obtain ⟨subscriptions, hplan, hall⟩ := h.planned
          rw [heq]
          refine ⟨h.sameRoutes, ⟨subscriptions, hplan, fun s hs => hall s (hfewer s hs)⟩, ?_⟩
          exact fun hzero => absurd hzero (by simp only at hfailed hzero; omega)
    · exact h

theorem inv_run (venue : Venue) (steps : List (PublicHubCommand × SpawnOutcome)) :
    Inv venue (run (PublicHub.next venue) {} steps) :=
  Visited.invariant (fun _ _ h => h.next _) (visited_run _ _) (inv_new venue)

/-! ### Coverage -/

/-- The plan carries every topic of the active leases, for all the instruments they name, if they
name any; and every instrument of theirs, on Binance if they ask for any topic. -/
def CoversActive (venue : Venue) (hub : PublicHub) : Prop :=
  ∀ (leaseId : ℕ) (s : PublicSubscription), hub.active[leaseId]? = some s →
    (NamesInstrument (vals hub.active) → ∀ topic, s.asks topic = true →
      CarriesTopic hub.currentSubscriptions topic ((vals hub.active).flatMap (·.instrumentIds))) ∧
    (venue ≠ .binance ∨ AsksTopic (vals hub.active) → ∀ i ∈ s.instrumentIds,
      CarriesInstrument hub.currentSubscriptions i)

theorem Inv.coversActive (h : Inv venue hub) : CoversActive venue hub := by
  obtain ⟨subscriptions, hplan, hall⟩ := h.planned
  intro leaseId s hs
  have hmem := hall s (mem_vals.2 ⟨leaseId, hs⟩)
  rw [hplan]
  constructor
  · rintro ⟨s', hs', hids⟩ topic htopic
    obtain ⟨route, r, hroute, hasks, hcarried⟩ :=
      carriesTopic_route venue ⟨s', hall s' hs', hids⟩ hmem htopic
    refine ⟨route, r, hroute, hasks, fun i hi => hcarried i ?_⟩
    obtain ⟨s'', hs'', hi''⟩ := List.mem_flatMap.1 hi
    exact List.mem_flatMap.2 ⟨s'', hall s'' hs'', hi''⟩
  · intro htopic i hi
    refine carriesInstrument_route venue (htopic.imp id ?_) hmem hi
    rintro ⟨s', hs', topic, hasks⟩
    exact ⟨s', hall s' hs', topic, hasks⟩

/-- A failed acquire leaves the leases, the plan and the streams as they were, and aborts exactly
the streams it has spawned. -/
def FailedAcquireUndone (venue : Venue) (hub : PublicHub) : Prop :=
  ∀ leaseId subscription spawn error hub',
    hub.handle venue spawn (.acquire leaseId subscription) = (some (.error error), hub') →
      hub'.active = hub.active ∧ hub'.currentSubscriptions = hub.currentSubscriptions ∧
        hub'.currentStreams = hub.currentStreams ∧
        ∀ id, id ∈ hub'.tasks.aborted ↔ id ∈ hub.tasks.aborted ∨
          hub.tasks.spawned ≤ id ∧ id < hub'.tasks.spawned

theorem failedAcquireUndone (venue : Venue) (hub : PublicHub) : FailedAcquireUndone venue hub := by
  intro leaseId subscription spawn error hub' h
  simp only [handle] at h
  split at h
  · cases h
  · next hswitch =>
    simp only [Prod.mk.injEq, Option.some.injEq] at h
    obtain ⟨-, rfl⟩ := h
    obtain ⟨heq, -, haborted⟩ := switchPublicStream_error hswitch
    refine ⟨?_, ?_, ?_, haborted⟩ <;> rw [heq]

end PublicHub

/-- **Coverage.**  After every sequence of commands, whatever the outcomes of the spawns. -/
theorem public_hub_coverage (venue : Venue) (steps : List (PublicHubCommand × SpawnOutcome)) :
    let hub := run (PublicHub.next venue) {} steps
    hub.SameRoutes ∧ hub.CoversActive venue ∧ hub.FailedAcquireUndone venue ∧
      (hub.tasks.failed = 0 →
        hub.currentSubscriptions = routePublicSubscriptions venue (vals hub.active)) := by
  have hinv := PublicHub.inv_run venue steps
  exact ⟨hinv.sameRoutes, hinv.coversActive, PublicHub.failedAcquireUndone venue _, hinv.exact⟩

/-- A lease that names no instrument is active, and no route carries its topic. -/
theorem lease_without_instruments_not_covered :
    ¬∀ (venue : Venue) (steps : List (PublicHubCommand × SpawnOutcome)) (leaseId : ℕ)
      (s : PublicSubscription),
      (run (PublicHub.next venue) {} steps).active[leaseId]? = some s →
        ∀ topic, s.asks topic = true → ∃ (route : PublicStreamRoute) (r : PublicSubscription),
          (run (PublicHub.next venue) {} steps).currentSubscriptions[route]? = some r ∧
            r.asks topic = true := by
  intro h
  obtain ⟨route, r, hroute, -⟩ := h .bybit [(.acquire 1 { ticker := true }, fun _ => none)] 1
    { ticker := true } (by decide +kernel) .ticker rfl
  have hempty : (run (PublicHub.next .bybit) {}
      [(.acquire 1 { ticker := true }, fun _ => none)]).currentSubscriptions = ∅ := by
    decide +kernel
  rw [hempty] at hroute
  simp at hroute

end BatMarkets
