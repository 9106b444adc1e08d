import BatMarkets.Core.Interval
import BatMarkets.Interleaving.Broadcast
import BatMarkets.Runtime.Publication
import BatMarkets.Runtime.StreamTask
import BatMarkets.Transition.Views

/-!
# Watches

A watch (`stream.rs`) follows the broadcast channel of a lane.  It passes over the events that are
not of its kind or not about its instruments, and reads the others with the specification that the
catalog of the adapter has at that time.  The watches of a lane differ in nothing else, `Updates`.

`watchSystem` is a watch that is made at some time in a run of concurrent calls of the shared state
and goes on together with them.  The channels stay open, since the client whose watches these are
holds the senders.

## Main results

* `watch_accounts` : in every run, the readings that a watch has returned, and the events that it has
  passed over or missed, are all the events published since it was made, in their order; and the
  calls had applied them to the engine state.
* `watch_reads_all` : a watch that keeps up misses nothing.
* `watch_returns` : a call that waits returns the first event that it can read, if there is one.
-/

namespace BatMarkets

open Interleaving Transition

/-! ### Reading -/

/-- The instruments that a watch asks for; one alone is compared, more are looked up. -/
inductive InstrumentFilter
  | single (instrumentId : InstrumentId)
  | many (instrumentIds : List InstrumentId)

namespace InstrumentFilter

/-- One instrument alone is compared. -/
def fromVec : List InstrumentId → InstrumentFilter
  | [instrumentId] => single instrumentId
  | instrumentIds => many instrumentIds

/-- The watch asks for the instrument. -/
def contains : InstrumentFilter → InstrumentId → Bool
  | single candidate, instrumentId => candidate = instrumentId
  | many candidates, instrumentId => instrumentId ∈ candidates

/-- Both forms of the filter do the same. -/
theorem contains_fromVec (instrumentIds : List InstrumentId) (instrumentId : InstrumentId) :
    (fromVec instrumentIds).contains instrumentId = true ↔ instrumentId ∈ instrumentIds := by
  unfold fromVec
  split
  · simp [contains, eq_comm]
  · simp [contains]

end InstrumentFilter

/-- The error of a receive from a channel that is closed. -/
def receiveFailed (label : String) : MarketError where
  kind := .transportError
  message := label ++ " receive failed: channel closed"

/-- The instrument of an event, or an error that names the kind of the event. -/
def resolvePublicSpec (catalog : InstrumentCatalog) (instrumentId : InstrumentId)
    (eventName : String) : Except Failure InstrumentSpec :=
  match catalog.get instrumentId with
  | some spec => .ok spec
  | none => .error (.error {
      kind := .unsupported
      message := "unknown instrument " ++ instrumentId.asStr ++ " for " ++ eventName ++ " update" })

/-- The interval of a watch, or an error. -/
def parseWatchInterval (raw : String) : Except MarketError KlineInterval :=
  match KlineInterval.parse raw with
  | some interval => .ok interval
  | none => .error {
      kind := .unsupported, message := "unsupported OHLCV interval '" ++ raw ++ "'" }

/-- An interval that is known gets its usual name; another one is left as it is. -/
def normalizeIntervalBox (interval : String) : String :=
  ((KlineInterval.parse interval).map (·.asIntervalStr)).getD interval

/-- How a watch of a lane reads. -/
abbrev UpdateReader (stream : LiveStream) (α : Type) :=
  Reader stream.Event InstrumentCatalog (Except Failure α)

/-- An event that is asked for is read with the specification of its instrument. -/
def readWith {α : Type} (catalog : InstrumentCatalog) (eventName : String)
    (instrumentIds : List InstrumentId) (instrumentId : InstrumentId)
    (toUnified : InstrumentSpec → Except Failure α) : Option (Except Failure α) :=
  if (InstrumentFilter.fromVec instrumentIds).contains instrumentId then
    some (resolvePublicSpec catalog instrumentId eventName >>= toUnified)
  else none

/-! ### The watches of the public lane -/

section PublicLane

variable (instrumentIds : List InstrumentId)

/-- A watch of candles reads those of its instruments and its interval. -/
def OhlcvUpdates.recv (interval : String) : UpdateReader .publicStream Kline where
  refuses := match parseWatchInterval (normalizeIntervalBox interval) with
    | .ok _ => none
    | .error e => some (.error (.error e))
  reads catalog event :=
    match parseWatchInterval (normalizeIntervalBox interval), event with
    | .ok requestedInterval, .kline kline =>
      if KlineInterval.parse kline.interval = some requestedInterval then
        readWith catalog "kline" instrumentIds kline.instrumentId fun spec => do
          let unified ← kline.toUnified spec
          return { unified with interval := requestedInterval.asIntervalStr }
      else none
    | _, _ => none
  closed := .error (.error (receiveFailed "ohlcv subscription"))

/-- A watch of tickers reads those of its instruments. -/
def TickerUpdates.recv : UpdateReader .publicStream Ticker where
  reads catalog event := match event with
    | .ticker ticker => readWith catalog "ticker" instrumentIds ticker.instrumentId ticker.toUnified
    | _ => none
  closed := .error (.error (receiveFailed "ticker subscription"))

/-- A watch of trades reads those of its instruments. -/
def TradeUpdates.recv : UpdateReader .publicStream TradeTick where
  reads catalog event := match event with
    | .trade trade => readWith catalog "trade" instrumentIds trade.instrumentId trade.toUnified
    | _ => none
  closed := .error (.error (receiveFailed "trade subscription"))

/-- A watch of mark prices reads those of its instruments. -/
def MarkPriceUpdates.recv : UpdateReader .publicStream MarkPrice where
  reads catalog event := match event with
    | .markPrice markPrice =>
      readWith catalog "mark_price" instrumentIds markPrice.instrumentId markPrice.toUnified
    | _ => none
  closed := .error (.error (receiveFailed "mark_price subscription"))

/-- A watch of funding rates needs no conversion. -/
def FundingRateUpdates.recv : UpdateReader .publicStream FundingRate where
  reads _ event := match event with
    | .fundingRate fundingRate =>
      if (InstrumentFilter.fromVec instrumentIds).contains fundingRate.instrumentId then
        some (.ok fundingRate)
      else none
    | _ => none
  closed := .error (.error (receiveFailed "funding_rate subscription"))

/-- A watch of open interest needs no conversion. -/
def OpenInterestUpdates.recv : UpdateReader .publicStream OpenInterest where
  reads _ event := match event with
    | .openInterest openInterest =>
      if (InstrumentFilter.fromVec instrumentIds).contains openInterest.instrumentId then
        some (.ok openInterest)
      else none
    | _ => none
  closed := .error (.error (receiveFailed "open_interest subscription"))

/-- A watch of forced orders reads those of its instruments. -/
def LiquidationUpdates.recv : UpdateReader .publicStream Liquidation where
  reads catalog event := match event with
    | .liquidation liquidation =>
      readWith catalog "liquidation" instrumentIds liquidation.instrumentId liquidation.toUnified
    | _ => none
  closed := .error (.error (receiveFailed "liquidation subscription"))

/-- A watch of an order book reads the changes of its instrument. -/
def OrderBookUpdates.recv (instrumentId : InstrumentId) :
    UpdateReader .publicStream OrderBookDelta where
  reads catalog event := match event with
    | .orderBookDelta delta =>
      if delta.instrumentId = instrumentId then
        some (resolvePublicSpec catalog delta.instrumentId "order_book" >>= delta.toUnified)
      else none
    | _ => none
  closed := .error (.error (receiveFailed "order_book subscription"))

end PublicLane

/-! ### The watches of the private lane -/

/-- A watch of orders reads all of them. -/
def OrderUpdates.recv : UpdateReader .privateStream Order where
  reads _ event := match event with
    | .order order => some (.ok order)
    | _ => none
  closed := .error (.error (receiveFailed "order subscription"))

/-- A watch of executions reads all of them. -/
def ExecutionUpdates.recv : UpdateReader .privateStream Execution where
  reads _ event := match event with
    | .execution execution => some (.ok execution)
    | _ => none
  closed := .error (.error (receiveFailed "execution subscription"))

/-- A watch of positions reads all of them. -/
def PositionUpdates.recv : UpdateReader .privateStream Position where
  reads _ event := match event with
    | .position position => some (.ok position)
    | _ => none
  closed := .error (.error (receiveFailed "position subscription"))

/-- A watch of balances reads all of them. -/
def BalanceUpdates.recv : UpdateReader .privateStream Balance where
  reads _ event := match event with
    | .balance balance => some (.ok balance)
    | _ => none
  closed := .error (.error (receiveFailed "balance subscription"))

/-! ### All watches -/

/-- What a client may watch. -/
inductive Updates : LiveStream → Type
  | ohlcv (instrumentIds : List InstrumentId) (interval : String) : Updates .publicStream
  | tickers (instrumentIds : List InstrumentId) : Updates .publicStream
  | trades (instrumentIds : List InstrumentId) : Updates .publicStream
  | markPrices (instrumentIds : List InstrumentId) : Updates .publicStream
  | fundingRates (instrumentIds : List InstrumentId) : Updates .publicStream
  | openInterest (instrumentIds : List InstrumentId) : Updates .publicStream
  | liquidations (instrumentIds : List InstrumentId) : Updates .publicStream
  | orderBook (instrumentId : InstrumentId) : Updates .publicStream
  | orders : Updates .privateStream
  | executions : Updates .privateStream
  | positions : Updates .privateStream
  | balances : Updates .privateStream

namespace Updates

/-- What a watch reads. -/
abbrev Item : {stream : LiveStream} → Updates stream → Type
  | _, ohlcv .. => Kline
  | _, tickers _ => Ticker
  | _, trades _ => TradeTick
  | _, markPrices _ => MarkPrice
  | _, fundingRates _ => FundingRate
  | _, openInterest _ => OpenInterest
  | _, liquidations _ => Liquidation
  | _, orderBook _ => OrderBookDelta
  | _, orders => Order
  | _, executions => Execution
  | _, positions => Position
  | _, balances => Balance

/-- How a watch reads. -/
def reader : {stream : LiveStream} → (u : Updates stream) → UpdateReader stream u.Item
  | _, ohlcv ids interval => OhlcvUpdates.recv ids interval
  | _, tickers ids => TickerUpdates.recv ids
  | _, trades ids => TradeUpdates.recv ids
  | _, markPrices ids => MarkPriceUpdates.recv ids
  | _, fundingRates ids => FundingRateUpdates.recv ids
  | _, openInterest ids => OpenInterestUpdates.recv ids
  | _, liquidations ids => LiquidationUpdates.recv ids
  | _, orderBook id => OrderBookUpdates.recv id
  | _, orders => OrderUpdates.recv
  | _, executions => ExecutionUpdates.recv
  | _, positions => PositionUpdates.recv
  | _, balances => BalanceUpdates.recv

/-- The subscription that a watch of the public lane holds a lease of. -/
def subscription : Updates .publicStream → PublicSubscription
  | ohlcv ids interval => { instrumentIds := ids, klineIntervals := [normalizeIntervalBox interval] }
  | tickers ids => { instrumentIds := ids, ticker := true }
  | trades ids => { instrumentIds := ids, trades := true }
  | markPrices ids => { instrumentIds := ids, markPrice := true }
  | fundingRates ids => { instrumentIds := ids, fundingRate := true }
  | openInterest ids => { instrumentIds := ids, openInterest := true }
  | liquidations ids => { instrumentIds := ids, liquidations := true }
  | orderBook id => { instrumentIds := [id], orderBook := true }

/-- What a watch reads, its subscription keeps. -/
theorem retains_of_reads {u : Updates .publicStream} {catalog : InstrumentCatalog}
    {event : PublicLaneEvent} (h : (u.reader.reads catalog event).isSome) :
    u.subscription.retains event = true := by
  cases u with
  | ohlcv ids interval =>
    cases event with
    | kline kline => rfl
    | _ =>
      simp only [reader, OhlcvUpdates.recv] at h
      split at h <;> simp_all
  | _ =>
    cases event <;> first | rfl | cases h

end Updates

/-! ### The lanes of the shared state -/

namespace LiveStream

/-- What the channel of the lane has been sent. -/
def published : (stream : LiveStream) → SharedState → List stream.Event
  | publicStream, w => w.publicEvents
  | privateStream, w => w.privateEvents

/-- The events of the lane that have been applied. -/
def applied : (stream : LiveStream) → PublishingState → List stream.Event
  | publicStream, w => w.appliedPublic
  | privateStream, w => w.appliedPrivate

/-- The event, as something that a call sends. -/
def send : (stream : LiveStream) → stream.Event → Send
  | publicStream, event => .publicEvent event
  | privateStream, event => .privateEvent event

end LiveStream

section Lane

variable {stream : LiveStream} {p p' : PublicationPool} {a : Action}

/-- Nothing that has been applied is taken back. -/
theorem applied_serve {q : SharedCall} {w w' : PublishingState} {r : SharedReply q}
    {event : stream.Event} (hs : PublishingState.reply q w = (r, w'))
    (h : event ∈ stream.applied w) : event ∈ stream.applied w' := by
  obtain ⟨-, rfl⟩ := Prod.mk.inj hs
  cases q with
  | locked c => cases stream <;> exact List.mem_append_left _ h
  | send x => cases stream <;> exact h

/-- An event is published when it is sent. -/
theorem published_serve {q : SharedCall} {w w' : PublishingState} {r : SharedReply q}
    {event : stream.Event} (hs : PublishingState.reply q w = (r, w'))
    (h : event ∈ stream.published w'.toSharedState) :
    event ∈ stream.published w.toSharedState ∨ q = .send (stream.send event) := by
  obtain ⟨-, rfl⟩ := Prod.mk.inj hs
  cases q with
  | locked c => cases stream <;> exact .inl h
  | send x =>
    cases stream <;> cases x <;> first
      | exact .inl h
      | exact (List.mem_append.1 h).imp id fun h => by rw [List.mem_singleton.1 h]; rfl

theorem send_not_mem_healthSends (before after : HealthReport) (event : stream.Event) :
    stream.send event ∉ healthSends before after := by
  unfold healthSends
  cases stream <;> split <;> simp [LiveStream.send]

/-- A closure sends the events of its batch, which it has applied when it succeeds. -/
theorem applied_of_sends {c : Closure} {w : PublishingState} {event : stream.Event}
    (h : stream.send event ∈ c.sends (PublishingState.reply (.locked c) w).1) :
    event ∈ stream.applied (PublishingState.reply (.locked c) w).2 := by
  cases hr : c.body.run w.state with
  | error e s' =>
    cases e with
    | panic =>
      rw [sends_of_panic (by rw [hr]; rfl)] at h
      cases h
    | error e =>
      simp only [PublishingState.reply, SharedState.reply, hr, Closure.sends, resultOf,
        stateAfter] at h
      exact absurd h (send_not_mem_healthSends _ _ event)
  | ok u s' =>
    simp only [PublishingState.reply, SharedState.reply, hr, Closure.sends, resultOf,
      stateAfter] at h
    have hevent : stream.send event ∈ c.eventSends :=
      (List.mem_append.1 h).resolve_left (send_not_mem_healthSends _ _ event)
    cases stream with
    | publicStream => cases c with
      | publicBatch events =>
        have hmem : event ∈ events := by simpa [LiveStream.send, Closure.eventSends] using hevent
        refine List.mem_append_right _ ?_
        rw [appliedPublic_of_ok hr]
        exact hmem
      | mutate f => cases hevent
      | privateBatch events => simp [LiveStream.send, Closure.eventSends] at hevent
    | privateStream => cases c with
      | privateBatch events =>
        have hmem : event ∈ events := by simpa [LiveStream.send, Closure.eventSends] using hevent
        exact List.mem_append_right _ hmem
      | mutate f => cases hevent
      | publicBatch events => simp [LiveStream.send, Closure.eventSends] at hevent

variable (stream) in
/-- What one step of the calls publishes. -/
theorem published_step (h : publicationSystem.step p a p') :
    stream.published p'.world.toSharedState = stream.published p.world.toSharedState ∨
      ∃ event, stream.published p'.world.toSharedState =
        stream.published p.world.toSharedState ++ [event] := by
  cases h with
  | start ht => exact .inl rfl
  | env he => exact he.elim
  | @run i log q k r w' hi hs =>
    obtain ⟨rfl, rfl⟩ := Prod.mk.inj hs
    cases q with
    | locked c => cases stream <;> exact .inl rfl
    | send x => cases stream <;> cases x <;> first | exact .inl rfl | exact .inr ⟨_, rfl⟩

/-- All that is published, or about to be, has been applied. -/
structure OnlyApplied (stream : LiveStream) (p : PublicationPool) : Prop where
  published : ∀ event ∈ stream.published p.world.toSharedState, event ∈ stream.applied p.world
  outstanding : ∀ θ ∈ p.threads, ∀ event, stream.send event ∈ outstanding θ.prog →
    event ∈ stream.applied p.world

theorem OnlyApplied.step (h : OnlyApplied stream p) (hp : publicationSystem.Reachable p)
    (hst : publicationSystem.step p a p') : OnlyApplied stream p' := by
  cases hst with
  | start ht =>
    obtain ⟨task, rfl⟩ := ht
    refine ⟨h.published, fun θ hθ event hevent => ?_⟩
    rcases List.mem_append.1 hθ with hθ | hθ
    · exact h.outstanding θ hθ event hevent
    · rw [List.mem_singleton.1 hθ] at hevent
      rcases task.prog_cases with hnil | ⟨c, hc⟩
      · simp only [Thread.fresh, hnil, outstanding_sendAll] at hevent
        cases hevent
      · simp only [Thread.fresh, hc] at hevent
        cases hevent
  | env he => exact he.elim
  | @run i log q k r w' hi hs =>
    have hthread := List.mem_of_getElem? hi
    refine ⟨fun event hevent => ?_, fun θ hθ event hevent => ?_⟩
    · rcases published_serve hs hevent with hevent | rfl
      · exact applied_serve hs (h.published event hevent)
      · exact applied_serve hs (h.outstanding _ hthread event List.mem_cons_self)
    · rcases mem_threads_set hθ with hθ | rfl
      · exact applied_serve hs (h.outstanding θ hθ event hevent)
      · rcases prog_of_reachable hp hthread with ⟨c, hc⟩ | ⟨xs, hxs⟩
        · cases hc
          obtain ⟨rfl, rfl⟩ := Prod.mk.inj hs
          rw [outstanding_sendAll] at hevent
          exact applied_of_sends hevent
        · cases xs with
          | nil => cases hxs
          | cons x xs =>
            cases hxs
            exact applied_serve hs
              (h.outstanding _ hthread event (List.mem_cons_of_mem _ hevent))

theorem onlyApplied_of_reachable (hp : publicationSystem.Reachable p) : OnlyApplied stream p := by
  induction hp with
  | init hinit =>
    obtain ⟨⟨-, hpublic, hprivate, -, -⟩, hthreads⟩ := hinit
    refine ⟨fun event hevent => ?_, fun θ hθ => ?_⟩
    · cases stream with
      | publicStream => rw [LiveStream.published, hpublic] at hevent; cases hevent
      | privateStream => rw [LiveStream.published, hprivate] at hevent; cases hevent
    · rw [hthreads] at hθ
      cases hθ
  | step hp _ hst ih => exact ih.step hp hst

end Lane

/-! ### Watches over concurrent calls -/

/-- The number of events that a channel keeps. -/
def eventCapacity : ℕ := 4096

/-- Concurrent calls of the shared state, and a watch. -/
structure Watched {stream : LiveStream} (u : Updates stream) where
  calls : PublicationPool
  following : Following stream.Event InstrumentCatalog (Except Failure u.Item)

/-- What happens around a watch. -/
inductive WatchAction
  /-- A step of the calls. -/
  | calls (a : Action)
  /-- The catalog of the adapter is replaced. -/
  | refresh (catalog : InstrumentCatalog)
  /-- The client waits for the next update. -/
  | call
  | recv
  /-- The client waits no longer. -/
  | drop

section Watching

variable {stream : LiveStream} {u : Updates stream}

/-- The channel as the calls have left it. -/
def afterCalls (f : Following stream.Event InstrumentCatalog (Except Failure u.Item))
    (p : PublicationPool) : Following stream.Event InstrumentCatalog (Except Failure u.Item) :=
  { f with channel := { f.channel with sent := stream.published p.world.toSharedState } }

/-- The steps of a watch together with the calls. -/
inductive Watched.Step : Watched u → WatchAction → Watched u → Prop
  | calls {p p' : PublicationPool} {a : Action}
      {f : Following stream.Event InstrumentCatalog (Except Failure u.Item)} :
      publicationSystem.step p a p' → Step ⟨p, f⟩ (.calls a) ⟨p', afterCalls f p'⟩
  | refresh {w : Watched u} (catalog : InstrumentCatalog) :
      Step w (.refresh catalog) ⟨w.calls, w.following.step u.reader (.context catalog)⟩
  | call {w : Watched u} : Step w .call ⟨w.calls, w.following.step u.reader .call⟩
  | recv {w : Watched u} : Step w .recv ⟨w.calls, w.following.step u.reader .poll⟩
  | drop {w : Watched u} : Step w .drop ⟨w.calls, w.following.step u.reader .drop⟩

variable (u) in
/-- The channel of a lane, and a watch that has just been made. -/
def Watched.start (p : PublicationPool) (catalog : InstrumentCatalog) : Watched u where
  calls := p
  following := .subscribe ⟨eventCapacity, stream.published p.world.toSharedState, false⟩ catalog

variable (u) in
/-- The runs of a watch that is made after the calls have led to `p`. -/
def watchSystem (p : PublicationPool) (catalog : InstrumentCatalog) :
    System (Watched u) WatchAction where
  init w := w = .start u p catalog
  step := Watched.Step

/-- When the watch receives, the event at its position is still kept. -/
def Watched.KeepsUp (w : Watched u) (a : WatchAction) : Prop :=
  a = .recv → w.following.channel.oldest ≤ w.following.next

/-- The channel holds what the calls have published. -/
structure Watched.Connected (w : Watched u) : Prop where
  reachable : publicationSystem.Reachable w.calls
  sent : w.following.channel.sent = stream.published w.calls.world.toSharedState
  closed : w.following.channel.closed = false

variable {p : PublicationPool} {catalog : InstrumentCatalog} {w : Watched u}
  {ok : Watched u → WatchAction → Prop}

theorem connected_of_reachable (hp : publicationSystem.Reachable p)
    (hw : (watchSystem u p catalog).ReachableWhen ok w) : w.Connected := by
  have hmoved : ∀ {w : Watched u} {f : Following stream.Event InstrumentCatalog
      (Except Failure u.Item)}, w.Connected → f.channel = w.following.channel →
        Watched.Connected ⟨w.calls, f⟩ :=
    fun h hf => ⟨h.reachable, by rw [hf]; exact h.sent, by rw [hf]; exact h.closed⟩
  refine hw.invariant ?_ ?_
  · rintro w rfl
    exact ⟨hp, rfl, rfl⟩
  · rintro w a w' h - hst
    cases hst with
    | calls hcalls => exact ⟨h.reachable.step hcalls, rfl, h.closed⟩
    | refresh catalog => exact hmoved h rfl
    | drop => exact hmoved h rfl
    | call =>
      refine hmoved h ?_
      show (if w.following.waiting then w.following else w.following.call u.reader).channel = _
      split
      · rfl
      · exact Following.channel_call
    | recv =>
      refine hmoved h ?_
      show (if w.following.waiting then w.following.poll u.reader else w.following).channel = _
      split
      · exact Following.channel_poll
      · rfl

/-- For the watch, the calls are no more than senders. -/
theorem exists_turns (hp : publicationSystem.Reachable p)
    {G : Following stream.Event InstrumentCatalog (Except Failure u.Item) → Prop}
    (hw : (watchSystem u p catalog).ReachableWhen (fun w a => a = .recv → G w.following) w) :
    ∃ ts, StepsMeet (Following.step u.reader) (fun f t => t = .poll → G f)
        (Watched.start u p catalog).following ts ∧
      w.following = run (Following.step u.reader) (Watched.start u p catalog).following ts := by
  refine hw.exists_run (fun w hw => by rw [hw]) fun w a w' hw hok hst => ?_
  have hconnected := connected_of_reachable hp hw
  cases hst with
  | @calls p p' a f hcalls =>
    have hsent : f.channel.sent = stream.published p.world.toSharedState := hconnected.sent
    have hopen : f.channel.closed = false := hconnected.closed
    rcases published_step stream hcalls with hsame | ⟨event, hevent⟩
    · refine .inl ?_
      show afterCalls f p' = f
      rw [afterCalls, hsame, ← hsent]
    · refine .inr ⟨.send event, by simp, ?_⟩
      have hsend : f.channel.send event =
          { f.channel with sent := f.channel.sent ++ [event] } := if_neg (by simp [hopen])
      show afterCalls f p' = { f with channel := f.channel.send event }
      rw [afterCalls, hevent, ← hsent, hsend]
  | refresh catalog => exact .inr ⟨.context catalog, by simp, rfl⟩
  | call => exact .inr ⟨.call, by simp, rfl⟩
  | recv => exact .inr ⟨.poll, fun _ => hok rfl, rfl⟩
  | drop => exact .inr ⟨.drop, by simp, rfl⟩

/-! ### What a watch does -/

/-- What a watch has done since it was made accounts for what was published since then. -/
structure Watched.Accounts (p : PublicationPool) (w : Watched u) : Prop where
  following : w.following.Accounted u.reader (stream.published p.world.toSharedState).length
  sent : w.following.channel.sent = stream.published w.calls.world.toSharedState
  applied : ∀ event ∈ w.following.channel.sent, event ∈ stream.applied w.calls.world

/-- **A watch accounts for all events.**  In every run of a watch over concurrent calls, each event
published since the watch was made, and before its position, was taken once, in order, or missed
because the channel did not keep it; what the calls of the client have returned is what was read
off the events taken; and all of them had been applied to the engine state. -/
theorem watch_accounts (hp : publicationSystem.Reachable p)
    (hw : (watchSystem u p catalog).Reachable w) : w.Accounts p := by
  have hconnected := connected_of_reachable hp hw
  have hguarded : (watchSystem u p catalog).ReachableWhen (fun _ a => a = .recv → True) w := by
    refine hw.mono ?_
    intro _ _ _ _
    trivial
  obtain ⟨ts, -, hts⟩ := exists_turns hp (G := fun _ => True) hguarded
  refine ⟨?_, hconnected.sent, fun event hevent => ?_⟩
  · rw [hts]
    exact Following.accounted_run u.reader (Watched.start u p catalog).following.channel catalog ts
  · rw [hconnected.sent] at hevent
    exact (onlyApplied_of_reachable hconnected.reachable).published event hevent

/-- **A watch that keeps up** has read all the events published before its position, in their order,
each with the catalog of the time. -/
theorem watch_reads_all (hp : publicationSystem.Reachable p) (hrefuses : u.reader.refuses = none)
    (hw : (watchSystem u p catalog).ReachableWhen Watched.KeepsUp w) :
    let start := (stream.published p.world.toSharedState).length
    let catalogs := w.following.log.filterMap Entry.context?
    catalogs.length = w.following.next - start ∧
      w.following.results =
        (((stream.published w.calls.world.toSharedState).drop start).zip catalogs).filterMap
          fun x => u.reader.reads x.2 x.1 := by
  have hconnected := connected_of_reachable hp hw
  obtain ⟨ts, hkeeps, hts⟩ := exists_turns hp (G := fun f => f.channel.oldest ≤ f.next) hw
  have hclosed := hconnected.closed
  rw [← hconnected.sent]
  rw [hts] at hclosed ⊢
  exact Following.results_of_keepsUp hrefuses hkeeps hclosed

/-- Only the client goes on. -/
theorem reachable_replicate (hw : (watchSystem u p catalog).Reachable w) (n : ℕ) :
    (watchSystem u p catalog).Reachable ⟨w.calls,
      run (Following.step u.reader) w.following (.replicate n .poll)⟩ := by
  induction n generalizing w with
  | zero => exact hw
  | succ n ih => exact ih (hw.step .recv)

/-- **A call that waits returns** the reading of the first event that is kept and that it can read,
after polling at most two times more than there are unread events; it goes on waiting when all events
are passed over. -/
theorem watch_returns (hp : publicationSystem.Reachable p)
    (hw : (watchSystem u p catalog).Reachable w) (hwaiting : w.following.waiting = true) :
    ∃ n ≤ w.following.unread.length + 2, ∃ f,
      f = run (Following.step u.reader) w.following (.replicate n .poll) ∧
      (watchSystem u p catalog).Reachable ⟨w.calls, f⟩ ∧
      f.results = w.following.results ++
        (w.following.unread.findSome? (u.reader.reads w.following.context)).toList ∧
      (f.waiting = true → f.results = w.following.results ∧ f.unread = []) := by
  have hclosed := (connected_of_reachable hp hw).closed
  obtain ⟨n, hn, hsettles⟩ := Following.run_polls (R := u.reader) hwaiting
  have hreply : w.following.reply u.reader =
      w.following.unread.findSome? (u.reader.reads w.following.context) := by
    rw [Following.reply, hclosed, if_neg Bool.false_ne_true, Option.or_none]
  refine ⟨n, hn, _, rfl, reachable_replicate hw n, by rw [hsettles.results, hreply],
    fun hwaits => ?_⟩
  rw [hsettles.waiting, Option.isNone_iff_eq_none] at hwaits
  exact ⟨by rw [hsettles.results, hwaits]; exact List.append_nil _, hsettles.unread hwaits⟩

end Watching

/-! ### A watch that sees an order -/

/-- A new order of BTC. -/
def newOrder : Order := .unit "1" "BTC" .new 5

/-- A call that has applied an order and is about to publish it. -/
def aboutToPublish : PublicationPool :=
  List.foldl (Pool.move PublishingState.reply) ⟨freshlyPublished, []⟩
    (.start (SharedTask.applyPrivateEvents [.order newOrder]).prog :: List.replicate 3 (.run 0))

theorem reachable_aboutToPublish : publicationSystem.Reachable aboutToPublish := by
  refine reachable_moves (fun q w => rfl) (fun t ht => ?_) (.init ⟨⟨rfl, rfl, rfl, rfl, rfl⟩, rfl⟩)
  obtain rfl : t = (SharedTask.applyPrivateEvents [.order newOrder]).prog := by
    simpa [List.mem_replicate] using ht
  exact ⟨_, rfl⟩

/-- The watch of the orders that is made then, when the order has been published and the client
waits. -/
def waitingForOrder : Watched Updates.orders where
  calls := aboutToPublish.move PublishingState.reply (.run 0)
  following := Following.step Updates.orders.reader
    (afterCalls (Watched.start .orders aboutToPublish (.new [])).following
      (aboutToPublish.move PublishingState.reply (.run 0))) .call

theorem reachable_waitingForOrder :
    (watchSystem .orders aboutToPublish (.new [])).ReachableWhen Watched.KeepsUp waitingForOrder := by
  have hpublish : Watched.Step (Watched.start .orders aboutToPublish (.new [])) (.calls (.run 0))
      ⟨aboutToPublish.move PublishingState.reply (.run 0), afterCalls _ _⟩ :=
    .calls (step_of_canRun (fun q w => rfl) (by decide))
  exact .step (.step (.init rfl) (by simp [Watched.KeepsUp]) hpublish) (by simp [Watched.KeepsUp])
    .call

/-- The watch after the client has received. -/
def readOrder : Watched Updates.orders where
  calls := waitingForOrder.calls
  following := waitingForOrder.following.step Updates.orders.reader .poll

theorem reachable_readOrder :
    (watchSystem .orders aboutToPublish (.new [])).ReachableWhen Watched.KeepsUp readOrder :=
  reachable_waitingForOrder.step (fun _ => by decide) .recv

theorem watch_accounts_order :
    readOrder.Accounts aboutToPublish ∧ readOrder.following.results = [.ok newOrder] :=
  ⟨watch_accounts reachable_aboutToPublish reachable_readOrder.reachable, rfl⟩

/-- The watch has read all that was published. -/
theorem watch_reads_all_order : readOrder.following.results =
    (((LiveStream.published .privateStream readOrder.calls.world.toSharedState).drop
      (LiveStream.published .privateStream aboutToPublish.world.toSharedState).length).zip
        (readOrder.following.log.filterMap Entry.context?)).filterMap
          fun x => Updates.orders.reader.reads x.2 x.1 :=
  (watch_reads_all (u := Updates.orders) reachable_aboutToPublish rfl reachable_readOrder).2

theorem watch_returns_order : ∃ n ≤ 3, ∃ f,
    f = run (Following.step Updates.orders.reader) waitingForOrder.following (.replicate n .poll) ∧
      f.results = [.ok newOrder] := by
  obtain ⟨n, hn, f, hf, -, hresults, -⟩ :=
    watch_returns reachable_aboutToPublish reachable_waitingForOrder.reachable rfl
  exact ⟨n, hn, f, hf, hresults⟩

end BatMarkets
