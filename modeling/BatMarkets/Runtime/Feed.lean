import BatMarkets.Core.Exact
import BatMarkets.Runtime.Shared
import BatMarkets.Transition.Basic

/-!
# The public feed

A fast value does not carry its scale.  A stream task counts its units with the specification the
adapter has when the frame is parsed, the state reads them with the specification of its own table
when the batch is applied, and a watcher with the one the adapter has when it receives the event
(`stream.rs`).  `refresh_metadata` (`runtime.rs`) replaces the specifications of the adapter and
those of the state in two steps.

`FeedState` holds both tables, the frames and refreshes on their way and what the watchers have not
received yet, and `FeedState.next` is one step of any of these tasks, so that a list of labels is an
interleaving.  A fast event is kept together with the exact event and the specification it was
quantised with (`QuantizedEvent`), which the code does not record.

## Main results

* `values_rounded_of_scales_kept` : in a run whose steps all meet `KeepsScales`, all the market data
  stored or returned is exact market data, rounded at the scales it was quantised with.
* `refresh_misreads_values_in_flight` : a tick size that changes while an event is on its way makes
  the state store, and a watcher return, a tenth of the price.
-/

namespace BatMarkets

open Ordered Transition

/-! ### The adapter -/

/-- The specifications of the adapter (`catalog.rs`). -/
structure InstrumentCatalog where
  byId : Index InstrumentSpec.instrumentId
  idByNativeSymbol : BTreeMap String InstrumentId

namespace InstrumentCatalog

/-- The catalogue of these instruments; of two with the same native symbol the last one has it. -/
def new (specs : List InstrumentSpec) : InstrumentCatalog where
  byId := .collect specs
  idByNativeSymbol :=
    specs.foldl (fun m spec => m.insert spec.nativeSymbol spec.instrumentId) ∅

/-- The instrument with this id. -/
def get (catalog : InstrumentCatalog) (instrumentId : InstrumentId) : Option InstrumentSpec :=
  catalog.byId.get? instrumentId

/-- The instrument with this native symbol, as it is spelled. -/
def byNativeSymbol (catalog : InstrumentCatalog) (nativeSymbol : String) : Option InstrumentSpec :=
  catalog.idByNativeSymbol[nativeSymbol]?.bind catalog.get

end InstrumentCatalog

/-- The white space that `trim` removes. -/
def isWhiteSpace (c : Char) : Bool :=
  let n := c.toNat
  (9 ≤ n && n ≤ 13) || n == 0x20 || n == 0x85 || n == 0xA0 || n == 0x1680 ||
    (0x2000 ≤ n && n ≤ 0x200A) || n == 0x2028 || n == 0x2029 || n == 0x202F || n == 0x205F ||
    n == 0x3000

/-- The form in which the symbols of MEXC are stored. -/
def mexcCanonicalNativeSymbol (symbol : String) : String :=
  let trimmed := ((symbol.toList.dropWhile isWhiteSpace).reverse.dropWhile isWhiteSpace).reverse
  String.ofList ((trimmed.filter fun c => c != '_' && c != '-').map Char.toUpper)

/-- How the adapters look a native symbol up; MEXC tries its canonical form as well. -/
def resolveNativeSymbol (venue : Venue) (catalog : InstrumentCatalog) (nativeSymbol : String) :
    Option InstrumentSpec :=
  match venue with
  | .binance | .bybit => catalog.byNativeSymbol nativeSymbol
  | .mexc =>
    (catalog.byNativeSymbol nativeSymbol).or
      (catalog.byNativeSymbol (mexcCanonicalNativeSymbol nativeSymbol))

/-- The instrument with this native symbol, or an error. -/
def requireNativeSymbol (venue : Venue) (catalog : InstrumentCatalog) (nativeSymbol : String) :
    Except MarketError InstrumentSpec :=
  match resolveNativeSymbol venue catalog nativeSymbol with
  | some spec => .ok spec
  | none =>
    let message := match venue with
      | .binance | .bybit =>
        "unsupported " ++ venue.display ++ " symbol '" ++ nativeSymbol ++ "'"
      | .mexc => "unknown mexc symbol " ++ nativeSymbol
    .error (MarketError.withVenue { kind := .unsupported, message } venue .linearUsdt)

/-! ### Quantised events -/

/-- A fast event with the exact event and the specification it was quantised with. -/
structure QuantizedEvent where
  exact : ExactEvent
  spec : InstrumentSpec
  event : PublicLaneEvent
  quantized : exact.quantize spec = .ok event

namespace QuantizedEvent

/-- The event in the units of the instrument, with the evidence that it is. -/
def ofExact (spec : InstrumentSpec) (x : ExactEvent) : Except MarketError QuantizedEvent :=
  match h : x.quantize spec with
  | .ok event => .ok ⟨x, spec, event, h⟩
  | .error e => .error e

/-- `u` is the exact event, rounded at the scales it was quantised with. -/
def Rounded (τ : QuantizedEvent) (u : ExactEvent) : Prop :=
  RoundsAt τ.spec.priceScale τ.spec.qtyScale τ.exact u

/-- If the table knows the instrument of the event, it has the scales the event was quantised
with. -/
def ReadAlike (table : InstrumentId → Option InstrumentSpec) (τ : QuantizedEvent) : Prop :=
  ∀ id spec, τ.event.fastInstrumentId = some id → table id = some spec → spec.SameScales τ.spec

end QuantizedEvent

/-- What a watcher returns for an event, which it reads with the table unless the event carries
exact numbers; the watchers skip divergences. -/
def PublicLaneEvent.received (table : InstrumentId → Option InstrumentSpec) :
    PublicLaneEvent → Option ExactEvent
  | .fundingRate e => some (.fundingRate e)
  | .openInterest e => some (.openInterest e)
  | .divergence _ => none
  | e => do
    let id ← e.fastInstrumentId
    let spec ← table id
    (e.toUnified spec).toOption

/-! ### The tasks -/

/-- A stream task with a frame. -/
inductive FrameTask
  /-- Parsing: the groups of exact events still to be quantised, each with the native symbol that
  is looked up for it, and the events quantised so far. -/
  | parsing (rest : List (String × List ExactEvent)) (events : List QuantizedEvent)
  /-- The batch has been applied, and these events are still to be sent. -/
  | publishing (events : List QuantizedEvent)

/-- The fast events the task holds. -/
def FrameTask.events : FrameTask → List QuantizedEvent
  | .parsing _ events => events
  | .publishing events => events

/-- Both tables of specifications and everything on its way. -/
structure FeedState where
  adapter : InstrumentCatalog
  state : EngineState
  frames : List FrameTask := []
  /-- The refreshes that have replaced the adapter's specifications, but not those of the state. -/
  refreshes : List (List InstrumentSpec) := []
  /-- What each watcher has not received yet, oldest first. -/
  receivers : List (List QuantizedEvent) := []
  /-- All events quantised so far. -/
  parsed : List QuantizedEvent := []
  /-- All values returned by watchers so far. -/
  returned : List (QuantizedEvent × ExactEvent) := []

/-- A step of one of the tasks. -/
inductive FeedOp
  /-- A frame arrives. -/
  | frame (groups : List (String × List ExactEvent))
  /-- A stream task quantises the next group of its frame. -/
  | parse (i : Nat)
  /-- A stream task applies what its subscription keeps of the parsed frame. -/
  | apply (i : Nat) (keep : PublicLaneEvent → Bool)
  /-- A stream task sends an event to the watchers. -/
  | publish (i : Nat)
  /-- A refresh replaces the specifications of the adapter. -/
  | replaceAdapter (specs : List InstrumentSpec)
  /-- A refresh replaces the specifications of the state. -/
  | replaceState (i : Nat)
  /-- A watcher subscribes. -/
  | subscribe
  /-- A watcher passes over events, because it has lagged or does not wait for them. -/
  | skip (i n : Nat)
  /-- A watcher receives an event. -/
  | receive (i : Nat)

namespace FeedState

/-- The events of a group, quantised with the specification of its symbol. -/
def parseGroup (st : FeedState) (symbol : String) (xs : List ExactEvent) :
    Except MarketError (List QuantizedEvent) := do
  let spec ← requireNativeSymbol st.state.venue st.adapter symbol
  xs.mapM (QuantizedEvent.ofExact spec)

/-- One step.  A step of a task that is not there, or not ready for it, does nothing. -/
def next (st : FeedState) : FeedOp → FeedState
  | .frame groups => { st with frames := st.frames ++ [.parsing groups []] }
  | .parse i =>
    match st.frames[i]? with
    | some (.parsing ((symbol, xs) :: rest) events) =>
      match st.parseGroup symbol xs with
      | .ok group =>
        { st with
          frames := st.frames.set i (.parsing rest (events ++ group))
          parsed := st.parsed ++ group }
      | .error _ => { st with frames := st.frames.set i (.publishing []) }
    | _ => st
  | .apply i keep =>
    match st.frames[i]? with
    | some (.parsing [] events) =>
      let batch := events.filter fun τ => keep τ.event
      match (applyPublicBatch (batch.map (·.event))).run st.state with
      | .ok _ state => { st with state, frames := st.frames.set i (.publishing batch) }
      | .error _ state => { st with state, frames := st.frames.set i (.publishing []) }
    | _ => st
  | .publish i =>
    match st.frames[i]? with
    | some (.publishing (τ :: rest)) =>
      { st with
        frames := st.frames.set i (.publishing rest)
        receivers := st.receivers.map (· ++ [τ]) }
    | _ => st
  | .replaceAdapter specs =>
    { st with adapter := .new specs, refreshes := st.refreshes ++ [specs] }
  | .replaceState i =>
    match st.refreshes[i]? with
    | some specs =>
      { st with
        state := (st.state.replaceInstruments specs).markRestSuccess none
        refreshes := st.refreshes.eraseIdx i }
    | none => st
  | .subscribe => { st with receivers := st.receivers ++ [[]] }
  | .skip i n =>
    match st.receivers[i]? with
    | some events => { st with receivers := st.receivers.set i (events.drop n) }
    | none => st
  | .receive i =>
    match st.receivers[i]? with
    | some (τ :: rest) =>
      { st with
        receivers := st.receivers.set i rest
        returned := st.returned ++
          ((τ.event.received st.adapter.get).map fun u => (τ, u)).toList }
    | _ => st

/-- Nothing is on its way, and there is no market data yet. -/
structure Fresh (st : FeedState) : Prop where
  frames : st.frames = []
  receivers : st.receivers = []
  returned : st.returned = []
  stores : ∀ u, ¬ st.state.Stores u

/-- A fast event that waits to be applied. -/
def Unapplied (st : FeedState) (τ : QuantizedEvent) : Prop :=
  ∃ rest events, .parsing rest events ∈ st.frames ∧ τ ∈ events

/-- A fast event that a watcher may still receive. -/
def Unread (st : FeedState) (τ : QuantizedEvent) : Prop :=
  (∃ f ∈ st.frames, τ ∈ f.events) ∨ ∃ r ∈ st.receivers, τ ∈ r

end FeedState

/-- All the market data stored or returned is exact market data, rounded at the scales it was
quantised with. -/
structure ValuesRounded (st : FeedState) : Prop where
  stored : ∀ u, st.state.Stores u → ∃ τ ∈ st.parsed, τ.Rounded u
  returned : ∀ x ∈ st.returned, x.1 ∈ st.parsed ∧ x.1.Rounded x.2

/-- The step keeps the scales of what is on its way.  A frame is parsed only with scales the state
has too, if it knows the instrument, the adapter's specifications are replaced only by ones that
read all waiting events alike, and those of the state by ones that read the events alike that wait
to be applied. -/
def KeepsScales (st : FeedState) : FeedOp → Prop
  | .parse i =>
    match st.frames[i]? with
    | some (.parsing ((symbol, _) :: _) _) =>
      ∀ spec, resolveNativeSymbol st.state.venue st.adapter symbol = some spec →
        ∀ spec', st.state.instruments.get? spec.instrumentId = some spec' → spec'.SameScales spec
    | _ => True
  | .replaceAdapter specs =>
    ∀ τ, st.Unread τ → τ.ReadAlike (InstrumentCatalog.new specs).get
  | .replaceState i =>
    ∀ specs, st.refreshes[i]? = some specs →
      ∀ τ, st.Unapplied τ → τ.ReadAlike (st.state.replaceInstruments specs).instruments.get?
  | _ => True

/-! ### Reading with a table -/

theorem InstrumentCatalog.get_of_byNativeSymbol {catalog : InstrumentCatalog} {symbol : String}
    {spec : InstrumentSpec} (h : catalog.byNativeSymbol symbol = some spec) :
    catalog.get spec.instrumentId = some spec := by
  obtain ⟨id, -, hid⟩ := Option.bind_eq_some_iff.1 h
  rwa [Index.key_of_get? hid]

theorem get_of_resolveNativeSymbol {venue : Venue} {catalog : InstrumentCatalog} {symbol : String}
    {spec : InstrumentSpec} (h : resolveNativeSymbol venue catalog symbol = some spec) :
    catalog.get spec.instrumentId = some spec := by
  cases venue with
  | binance | bybit => exact InstrumentCatalog.get_of_byNativeSymbol h
  | mexc =>
    rcases Option.or_eq_some_iff.1 h with h | ⟨-, h⟩
    · exact InstrumentCatalog.get_of_byNativeSymbol h
    · exact InstrumentCatalog.get_of_byNativeSymbol h

namespace QuantizedEvent

variable {τ : QuantizedEvent} {spec : InstrumentSpec}

theorem spec_of_ofExact {x : ExactEvent} (h : ofExact spec x = .ok τ) : τ.spec = spec := by
  unfold ofExact at h
  split at h
  · rw [← Except.ok.inj h]
  · cases h

theorem spec_of_mem_mapM {xs : List ExactEvent} {τs : List QuantizedEvent}
    (h : xs.mapM (ofExact spec) = .ok τs) : ∀ τ ∈ τs, τ.spec = spec := by
  induction xs generalizing τs with
  | nil =>
    cases h
    exact fun _ hτ => by cases hτ
  | cons x xs ih =>
    simp only [List.mapM_cons, except_bind_eq_ok, except_pure_eq_ok] at h
    obtain ⟨τ, hτ, τs, hτs, rfl⟩ := h
    exact List.forall_mem_cons.2 ⟨spec_of_ofExact hτ, ih hτs⟩

/-- A table reads an event alike when it has its scales for the instrument it was quantised for. -/
theorem readAlike_of_spec {table : InstrumentId → Option InstrumentSpec}
    (h : ∀ spec', table τ.spec.instrumentId = some spec' → spec'.SameScales τ.spec) :
    τ.ReadAlike table := by
  intro id spec' hid hspec'
  rw [fastInstrumentId_of_quantize τ.quantized hid] at hspec'
  exact h spec' hspec'

/-- What is read alike is rounded. -/
theorem rounded_of_readsAs {table : InstrumentId → Option InstrumentSpec} {u : ExactEvent}
    (h : τ.ReadAlike table) (hu : τ.event.ReadsAs table u) : τ.Rounded u := by
  cases hu with
  | fast hid hspec hread => exact roundsAt_of_sameScales τ.quantized hread (h _ _ hid hspec)
  | exact hread => exact roundsAt_of_sameScales τ.quantized (hread τ.spec) ⟨rfl, rfl⟩

end QuantizedEvent

/-- What a watcher returns is the event as the table reads it. -/
theorem PublicLaneEvent.readsAs_of_received {table : InstrumentId → Option InstrumentSpec}
    {e : PublicLaneEvent} {u : ExactEvent} (h : e.received table = some u) : e.ReadsAs table u := by
  have hfast : ∀ {id : InstrumentId}, e.fastInstrumentId = some id →
      ((table id).bind fun spec => (e.toUnified spec).toOption) = some u → e.ReadsAs table u := by
    intro id hid h
    obtain ⟨spec, hspec, hu⟩ := Option.bind_eq_some_iff.1 h
    refine .fast hid hspec ?_
    cases hr : e.toUnified spec with
    | error x =>
      rw [hr] at hu
      cases hu
    | ok v =>
      rw [hr] at hu
      exact congrArg Except.ok (Option.some.inj hu)
  cases e with
  | ticker | trade | bookTop | orderBookDelta | kline | markPrice | liquidation =>
    exact hfast rfl h
  | fundingRate e | openInterest e => exact .exact fun _ => congrArg Except.ok (Option.some.inj h)
  | divergence => cases h

/-- No batch changes the instrument table. -/
theorem EngineState.table_applyPublicBatch (s : EngineState) (events : List PublicLaneEvent) :
    (stateAfter ((applyPublicBatch events).run s)).table = s.table := by
  by_cases h : ∃ event ∈ events, event.NamesUnknown s
  · obtain ⟨e, he⟩ := applyPublicBatch_run_of_unknown h
    rw [he]
    rfl
  · rw [applyPublicBatch_run_of_known fun e he hunknown => h ⟨e, he, hunknown⟩]
    exact table_forM_applyPublicEvent s events

/-- What a batch of public events adds to the market data. -/
theorem EngineState.stores_applyPublicBatch {s : EngineState} {events : List PublicLaneEvent}
    {u : ExactEvent} (hu : (stateAfter ((applyPublicBatch events).run s)).Stores u) :
    s.Stores u ∨ ∃ e ∈ events, e.ReadsAs s.instruments.get? u := by
  by_cases h : ∃ event ∈ events, event.NamesUnknown s
  · obtain ⟨e, he⟩ := applyPublicBatch_run_of_unknown h
    rw [he] at hu
    exact .inl hu
  · rw [applyPublicBatch_run_of_known fun e he hunknown => h ⟨e, he, hunknown⟩] at hu
    exact stores_forM_applyPublicEvent hu

/-! ### One step -/

/-- The invariant of the runs that keep the scales: both tables read alike what waits for them. -/
structure ScalesAgree (st : FeedState) : Prop where
  unapplied : ∀ τ, st.Unapplied τ → τ.ReadAlike st.state.instruments.get?
  unread : ∀ τ, st.Unread τ → τ.ReadAlike st.adapter.get
  parsed : ∀ τ, st.Unread τ → τ ∈ st.parsed
  values : ValuesRounded st

namespace FeedState

variable {st : FeedState} {τ : QuantizedEvent}

theorem Unapplied.unread (h : st.Unapplied τ) : st.Unread τ := by
  obtain ⟨rest, events, hf, hτ⟩ := h
  exact .inl ⟨_, hf, hτ⟩

/-- What waits after the task at `i` has moved on to `f`. -/
theorem unapplied_of_set {st' : FeedState} {i : ℕ} {f : FrameTask} (h : st'.Unapplied τ)
    (hframes : st'.frames = st.frames.set i f) :
    st.Unapplied τ ∨ ∃ rest events, f = .parsing rest events ∧ τ ∈ events := by
  obtain ⟨rest, events, hf, hτ⟩ := h
  rw [hframes] at hf
  rcases List.mem_or_eq_of_mem_set hf with hf | hf
  · exact .inl ⟨rest, events, hf, hτ⟩
  · exact .inr ⟨rest, events, hf.symm, hτ⟩

theorem unread_of_set {st' : FeedState} {i : ℕ} {f : FrameTask} (h : st'.Unread τ)
    (hframes : st'.frames = st.frames.set i f)
    (hreceivers : ∀ r ∈ st'.receivers, τ ∈ r → st.Unread τ) :
    st.Unread τ ∨ τ ∈ f.events := by
  rcases h with ⟨g, hg, hτ⟩ | ⟨r, hr, hτ⟩
  · rw [hframes] at hg
    rcases List.mem_or_eq_of_mem_set hg with hg | rfl
    · exact .inl (.inl ⟨g, hg, hτ⟩)
    · exact .inr hτ
  · exact .inl (hreceivers r hr hτ)

end FeedState

namespace ScalesAgree

variable {st : FeedState}

open FeedState

/-- A step that changes neither table and no market data, and adds nothing that waits. -/
theorem of_subset {st' : FeedState} (h : ScalesAgree st) (hstate : st'.state = st.state)
    (hadapter : st'.adapter = st.adapter) (hparsed : st'.parsed = st.parsed)
    (hreturned : ∀ x ∈ st'.returned, x.1 ∈ st.parsed ∧ x.1.Rounded x.2)
    (hunapplied : ∀ τ, st'.Unapplied τ → st.Unapplied τ)
    (hunread : ∀ τ, st'.Unread τ → st.Unread τ) : ScalesAgree st' where
  unapplied τ hτ := hstate ▸ h.unapplied τ (hunapplied τ hτ)
  unread τ hτ := hadapter ▸ h.unread τ (hunread τ hτ)
  parsed τ hτ := hparsed ▸ h.parsed τ (hunread τ hτ)
  values := ⟨fun u hu => hparsed ▸ h.values.stored u (hstate ▸ hu), hparsed ▸ hreturned⟩

theorem next_frame (h : ScalesAgree st) (groups : List (String × List ExactEvent)) :
    ScalesAgree (st.next (.frame groups)) := by
  have hold : ∀ f ∈ st.frames ++ [.parsing groups []], ∀ τ ∈ f.events, f ∈ st.frames := by
    intro f hf τ hτ
    rcases List.mem_append.1 hf with hf | hf
    · exact hf
    · rw [List.mem_singleton.1 hf] at hτ
      cases hτ
  refine h.of_subset rfl rfl rfl h.values.returned (fun τ hτ => ?_) fun τ hτ => ?_
  · obtain ⟨rest, events, hf, hτ⟩ := hτ
    exact ⟨rest, events, hold _ hf τ hτ, hτ⟩
  · exact hτ.imp_left fun ⟨f, hf, hτ⟩ => ⟨f, hold f hf τ hτ, hτ⟩

/-- A task gives up its frame. -/
theorem drop_frame (h : ScalesAgree st) (i : ℕ) :
    ScalesAgree { st with frames := st.frames.set i (.publishing []) } := by
  refine h.of_subset rfl rfl rfl h.values.returned (fun τ hτ => ?_) fun τ hτ => ?_
  · exact (unapplied_of_set hτ rfl).resolve_right fun ⟨_, _, hf, _⟩ => by cases hf
  · exact (unread_of_set hτ rfl fun r hr hτ => .inr ⟨r, hr, hτ⟩).resolve_right List.not_mem_nil

theorem next_parse (h : ScalesAgree st) {i : ℕ} (hok : KeepsScales st (.parse i)) :
    ScalesAgree (st.next (.parse i)) := by
  unfold FeedState.next
  dsimp only
  split
  · next symbol xs rest events hi =>
    split
    · next group hgroup =>
      have hf : FrameTask.parsing ((symbol, xs) :: rest) events ∈ st.frames :=
        List.mem_of_getElem? hi
      simp only [KeepsScales, hi] at hok
      obtain ⟨spec, hspec, hgroup⟩ := except_bind_eq_ok.1 hgroup
      have hresolve : resolveNativeSymbol st.state.venue st.adapter symbol = some spec := by
        unfold requireNativeSymbol at hspec
        split at hspec
        · next hresolve => rwa [Except.ok.inj hspec] at hresolve
        · cases hspec
      have hnew := QuantizedEvent.spec_of_mem_mapM hgroup
      -- what waits afterwards waited before, or belongs to the new group
      have hunapplied : ∀ τ, FeedState.Unapplied { st with
          frames := st.frames.set i (.parsing rest (events ++ group))
          parsed := st.parsed ++ group } τ → st.Unapplied τ ∨ τ ∈ group := by
        intro τ hτ
        rcases unapplied_of_set hτ rfl with hold | ⟨_, _, heq, hτ⟩
        · exact .inl hold
        · cases heq
          exact (List.mem_append.1 hτ).imp_left fun hτ => ⟨_, _, hf, hτ⟩
      have hunread : ∀ τ, FeedState.Unread { st with
          frames := st.frames.set i (.parsing rest (events ++ group))
          parsed := st.parsed ++ group } τ → st.Unread τ ∨ τ ∈ group := by
        intro τ hτ
        rcases unread_of_set hτ rfl fun r hr hτ => .inr ⟨r, hr, hτ⟩ with hold | hτ
        · exact .inl hold
        · exact (List.mem_append.1 hτ).imp_left fun hτ => .inl ⟨_, hf, hτ⟩
      refine ⟨fun τ hτ => ?_, fun τ hτ => ?_, fun τ hτ => ?_, fun u hu => ?_, fun x hx => ?_⟩
      · rcases hunapplied τ hτ with hold | hτ
        · exact h.unapplied τ hold
        · refine QuantizedEvent.readAlike_of_spec fun spec' hspec' => ?_
          rw [hnew τ hτ] at hspec' ⊢
          exact hok spec hresolve spec' hspec'
      · rcases hunread τ hτ with hold | hτ
        · exact h.unread τ hold
        · refine QuantizedEvent.readAlike_of_spec fun spec' hspec' => ?_
          rw [hnew τ hτ] at hspec' ⊢
          rw [← Option.some.inj ((get_of_resolveNativeSymbol hresolve).symm.trans hspec')]
          exact ⟨rfl, rfl⟩
      · exact (hunread τ hτ).elim (fun hold => List.mem_append_left _ (h.parsed τ hold))
          (List.mem_append_right _)
      · obtain ⟨τ, hτ, hrounded⟩ := h.values.stored u hu
        exact ⟨τ, List.mem_append_left _ hτ, hrounded⟩
      · exact (h.values.returned x hx).imp_left (List.mem_append_left _)
    · exact h.drop_frame i
  · exact h

theorem next_apply (h : ScalesAgree st) (i : ℕ) (keep : PublicLaneEvent → Bool) :
    ScalesAgree (st.next (.apply i keep)) := by
  unfold FeedState.next
  dsimp only
  split
  · next events hi =>
    have hf : FrameTask.parsing [] events ∈ st.frames := List.mem_of_getElem? hi
    have hbatch : ∀ τ ∈ events.filter fun τ => keep τ.event, τ ∈ events :=
      fun τ hτ => List.mem_of_mem_filter hτ
    generalize events.filter (fun τ => keep τ.event) = batch at hbatch
    have hstores := @EngineState.stores_applyPublicBatch st.state (batch.map (·.event))
    have htable := EngineState.table_applyPublicBatch st.state (batch.map (·.event))
    -- whatever the result, the tables are the old ones and the values those of the batch
    have hafter : ∀ (state : EngineState) (left : List QuantizedEvent),
        stateAfter ((applyPublicBatch (batch.map (·.event))).run st.state) = state →
        (∀ τ ∈ left, τ ∈ batch) →
        ScalesAgree { st with state, frames := st.frames.set i (.publishing left) } := by
      rintro state left rfl hleft
      have hunread : ∀ τ, FeedState.Unread { st with
          state := stateAfter ((applyPublicBatch (batch.map (·.event))).run st.state)
          frames := st.frames.set i (.publishing left) } τ → st.Unread τ := by
        intro τ hτ
        rcases unread_of_set hτ rfl fun r hr hτ => .inr ⟨r, hr, hτ⟩ with hold | hτ
        · exact hold
        · exact .inl ⟨_, hf, hbatch τ (hleft τ hτ)⟩
      refine ⟨fun τ hτ => ?_, fun τ hτ => h.unread τ (hunread τ hτ),
        fun τ hτ => h.parsed τ (hunread τ hτ), fun u hu => ?_, h.values.returned⟩
      · have hold := (unapplied_of_set hτ rfl).resolve_right
          fun ⟨_, _, hf, _⟩ => by cases hf
        have hread := h.unapplied τ hold
        rwa [← show _ = st.state.instruments from congrArg (·.2.2) htable] at hread
      · rcases hstores hu with hold | ⟨e, he, hreads⟩
        · exact h.values.stored u hold
        · obtain ⟨τ, hτ, rfl⟩ := List.mem_map.1 he
          have hmem := hbatch τ hτ
          exact ⟨τ, h.parsed τ (.inl ⟨_, hf, hmem⟩),
            QuantizedEvent.rounded_of_readsAs (h.unapplied τ ⟨_, _, hf, hmem⟩) hreads⟩
    split
    · next state hrun => exact hafter state batch (by rw [hrun]; rfl) fun _ hτ => hτ
    · next state hrun => exact hafter state [] (by rw [hrun]; rfl) fun _ hτ => by cases hτ
  · exact h

theorem next_publish (h : ScalesAgree st) (i : ℕ) : ScalesAgree (st.next (.publish i)) := by
  unfold FeedState.next
  dsimp only
  split
  · next τ rest hi =>
    have hf : FrameTask.publishing (τ :: rest) ∈ st.frames := List.mem_of_getElem? hi
    refine h.of_subset rfl rfl rfl h.values.returned (fun σ hσ => ?_) fun σ hσ => ?_
    · exact (unapplied_of_set hσ rfl).resolve_right fun ⟨_, _, hf, _⟩ => by cases hf
    · refine (unread_of_set hσ rfl fun r hr hσ => ?_).elim id fun hσ =>
        .inl ⟨_, hf, List.mem_cons_of_mem _ hσ⟩
      obtain ⟨queue, hqueue, rfl⟩ := List.mem_map.1 hr
      rcases List.mem_append.1 hσ with hσ | hσ
      · exact .inr ⟨queue, hqueue, hσ⟩
      · rw [List.mem_singleton.1 hσ]
        exact .inl ⟨_, hf, List.mem_cons_self⟩
  · exact h

theorem next_replaceAdapter (h : ScalesAgree st) {specs : List InstrumentSpec}
    (hok : KeepsScales st (.replaceAdapter specs)) :
    ScalesAgree (st.next (.replaceAdapter specs)) :=
  ⟨h.unapplied, hok, h.parsed, h.values.stored, h.values.returned⟩

theorem next_replaceState (h : ScalesAgree st) {i : ℕ} (hok : KeepsScales st (.replaceState i)) :
    ScalesAgree (st.next (.replaceState i)) := by
  unfold FeedState.next
  dsimp only
  split
  · next specs hi =>
    exact ⟨hok specs hi, h.unread, h.parsed,
      fun u hu => h.values.stored u (EngineState.stores_replaceInstruments hu), h.values.returned⟩
  · exact h

/-- A watcher moves on in its queue, and returns what it has read alike. -/
theorem set_receiver (h : ScalesAgree st) {i : ℕ} {events rest : List QuantizedEvent}
    (hi : st.receivers[i]? = some events) (hrest : ∀ τ ∈ rest, τ ∈ events)
    {returned : List (QuantizedEvent × ExactEvent)}
    (hreturned : ∀ x ∈ returned, x.1 ∈ st.parsed ∧ x.1.Rounded x.2) :
    ScalesAgree { st with receivers := st.receivers.set i rest, returned } := by
  refine h.of_subset rfl rfl rfl hreturned (fun τ hτ => hτ) fun τ hτ => hτ.imp_right ?_
  rintro ⟨r, hr, hmem⟩
  rcases List.mem_or_eq_of_mem_set hr with hr | hr
  · exact ⟨r, hr, hmem⟩
  · exact ⟨events, List.mem_of_getElem? hi, hrest τ (hr ▸ hmem)⟩

theorem next_skip (h : ScalesAgree st) (i n : ℕ) : ScalesAgree (st.next (.skip i n)) := by
  unfold FeedState.next
  dsimp only
  split
  · next events hi => exact h.set_receiver hi (fun τ hτ => List.mem_of_mem_drop hτ) h.values.returned
  · exact h

theorem next_subscribe (h : ScalesAgree st) : ScalesAgree (st.next .subscribe) := by
  refine h.of_subset rfl rfl rfl h.values.returned (fun τ hτ => hτ) fun τ hτ => hτ.imp_right ?_
  rintro ⟨r, hr, hτ⟩
  rcases List.mem_append.1 hr with hr | hr
  · exact ⟨r, hr, hτ⟩
  · rw [List.mem_singleton.1 hr] at hτ
    cases hτ

theorem next_receive (h : ScalesAgree st) (i : ℕ) : ScalesAgree (st.next (.receive i)) := by
  unfold FeedState.next
  dsimp only
  split
  · next τ rest hi =>
    refine h.set_receiver hi (fun σ hσ => List.mem_cons_of_mem _ hσ) fun x hx => ?_
    rcases List.mem_append.1 hx with hx | hx
    · exact h.values.returned x hx
    · have hτ : st.Unread τ := .inr ⟨_, List.mem_of_getElem? hi, List.mem_cons_self⟩
      obtain ⟨u, hu, rfl⟩ := Option.map_eq_some_iff.1 (Option.mem_toList.1 hx)
      exact ⟨h.parsed τ hτ, QuantizedEvent.rounded_of_readsAs (h.unread τ hτ)
        (PublicLaneEvent.readsAs_of_received hu)⟩
  · exact h

/-- **One step** that keeps the scales keeps the invariant. -/
theorem next (h : ScalesAgree st) {op : FeedOp} (hok : KeepsScales st op) :
    ScalesAgree (st.next op) := by
  cases op with
  | frame groups => exact h.next_frame groups
  | parse i => exact h.next_parse hok
  | apply i keep => exact h.next_apply i keep
  | publish i => exact h.next_publish i
  | replaceAdapter specs => exact h.next_replaceAdapter hok
  | replaceState i => exact h.next_replaceState hok
  | subscribe => exact h.next_subscribe
  | skip i n => exact h.next_skip i n
  | receive i => exact h.next_receive i

end ScalesAgree

/-! ### Whole runs -/

theorem FeedState.Fresh.scalesAgree {st : FeedState} (h : st.Fresh) : ScalesAgree st := by
  have hunread : ∀ τ, ¬ st.Unread τ := by
    rintro τ (⟨f, hf, -⟩ | ⟨r, hr, -⟩)
    · rw [h.frames] at hf
      cases hf
    · rw [h.receivers] at hr
      cases hr
  refine ⟨fun τ hτ => absurd hτ.unread (hunread τ), fun τ hτ => absurd hτ (hunread τ),
    fun τ hτ => absurd hτ (hunread τ), fun u hu => absurd hu (h.stores u), fun x hx => ?_⟩
  rw [h.returned] at hx
  cases hx

/-- **Values are read at the scales they were quantised with.**  In every interleaving of frames,
refreshes and watchers whose steps all keep the scales of what is on its way, every value stored or
returned in any state of the run is a value of the venue, rounded at the scales of the
specification it was quantised with. -/
theorem values_rounded_of_scales_kept {st t : FeedState} {ops : List FeedOp} (hst : st.Fresh)
    (hok : StepsMeet FeedState.next KeepsScales st ops) (ht : Visited FeedState.next st ops t) :
    ValuesRounded t :=
  (ht.invariant_of_stepsMeet (fun _ _ h hok => ScalesAgree.next h hok) hok hst.scalesAgree).values

/-! ### A tick size that changes -/

/-- An instrument whose prices have the given number of decimal places. -/
def tickSizeSpec (priceScale : Nat) : InstrumentSpec :=
  .active .binance "BTC/USDT:USDT" "BTCUSDT" priceScale 0

/-- A trade of BTC at this price. -/
def tradeAt (price : Price) : TradeTick where
  instrumentId := ⟨"BTC/USDT:USDT"⟩
  tradeId := ⟨"1"⟩
  price := price
  quantity := ⟨.ofNat 1 Decimal.one_fits⟩
  aggressorSide := .buyer
  eventTime := 1

/-- The price 100.5. -/
def tenths : Price := ⟨⟨1005, 1, by decide, by decide⟩⟩

/-- The units of 100.5, read as hundredths. -/
def hundredths : Price := ⟨⟨1005, 2, by decide, by decide⟩⟩

/-- A new Binance engine that knows prices with one decimal place. -/
def freshFeed : FeedState where
  adapter := .new [tickSizeSpec 1]
  state := .new .binance .linearUsdt ⟨16, 16⟩ [tickSizeSpec 1]

theorem fresh_freshFeed : freshFeed.Fresh := by
  refine ⟨rfl, rfl, rfl, fun u hu => ?_⟩
  cases u with
  | orderBookDelta | divergence => exact hu
  | ticker | trade | bookTop | kline | markPrice | fundingRate | openInterest | liquidation =>
    obtain ⟨id, hu⟩ := hu
    simp [freshFeed, EngineState.new] at hu

/-- The refresh runs after the trade has been parsed and before it is applied. -/
def refreshBeforeApply : List FeedOp :=
  [.frame [("BTCUSDT", [.trade (tradeAt tenths)])], .parse 0, .replaceAdapter [tickSizeSpec 2],
    .replaceState 0, .apply 0 fun _ => true]

/-- The refresh runs after the trade has been sent and before the watcher receives it. -/
def refreshBeforeReceive : List FeedOp :=
  [.subscribe, .frame [("BTCUSDT", [.trade (tradeAt tenths)])], .parse 0, .apply 0 fun _ => true,
    .publish 0, .replaceAdapter [tickSizeSpec 2], .receive 0]

/-- Read as hundredths, the tenths are 100.5 rounded at no scale. -/
theorem not_roundsAt_hundredths (p q : ℕ) :
    ¬ RoundsAt p q (.trade (tradeAt tenths)) (.trade (tradeAt hundredths)) := by
  intro h
  obtain ⟨hprice, -⟩ := List.forall₂_cons.1 h.prices
  have hq : tenths.quantize 1 = .ok ⟨1005⟩ := rfl
  have hb : (⟨1005⟩ : FastPrice).toPrice 2 = .ok hundredths := rfl
  exact toDecimal_of_quantize_ne (by decide) hq hb (by decide) (by decide) p hprice

/-- A refresh between parsing and applying makes the state store a tenth of the price, and one
between sending and receiving makes the watcher return it. -/
theorem refresh_misreads_values_in_flight :
    (¬ ∀ (st t : FeedState) (ops : List FeedOp), st.Fresh → Visited FeedState.next st ops t →
      ∀ u, t.state.Stores u → ∃ τ ∈ t.parsed, ∃ p q, RoundsAt p q τ.exact u) ∧
    ¬ ∀ (st t : FeedState) (ops : List FeedOp), st.Fresh → Visited FeedState.next st ops t →
      ∀ x ∈ t.returned, ∃ p q, RoundsAt p q x.1.exact x.2 := by
  constructor
  · intro h
    have hparsed : (run FeedState.next freshFeed refreshBeforeApply).parsed.map (·.exact) =
        [.trade (tradeAt tenths)] := by decide
    have hstored : tradeAt hundredths ∈ (run FeedState.next freshFeed
        refreshBeforeApply).state.recentTrades[(⟨"BTC/USDT:USDT"⟩ : InstrumentId)]?.getD [] := by
      decide
    obtain ⟨τ, hτ, p, q, hr⟩ := h _ _ _ fresh_freshFeed (visited_run _ refreshBeforeApply)
      (.trade (tradeAt hundredths)) ⟨_, hstored⟩
    have hexact := List.mem_map_of_mem (f := (·.exact)) hτ
    rw [hparsed, List.mem_singleton] at hexact
    exact not_roundsAt_hundredths p q (hexact ▸ hr)
  · intro h
    have hreturned : ((run FeedState.next freshFeed refreshBeforeReceive).returned.map
        fun x => (x.1.exact, x.2)) =
        [(.trade (tradeAt tenths), .trade (tradeAt hundredths))] := by decide
    obtain ⟨x, hx, hexact⟩ := List.mem_map.1 (hreturned ▸ List.mem_singleton.2 rfl)
    obtain ⟨p, q, hr⟩ := h _ _ _ fresh_freshFeed (visited_run _ refreshBeforeReceive) x hx
    rw [(Prod.mk.inj hexact).1, (Prod.mk.inj hexact).2] at hr
    exact not_roundsAt_hundredths p q hr

/-- The refresh runs after the watcher has received the trade. -/
def refreshAfterReceive : List FeedOp :=
  [.subscribe, .frame [("BTCUSDT", [.trade (tradeAt tenths)])], .parse 0, .apply 0 fun _ => true,
    .publish 0, .receive 0, .replaceAdapter [tickSizeSpec 2], .replaceState 0]

theorem stepsMeet_refreshAfterReceive :
    StepsMeet FeedState.next KeepsScales freshFeed refreshAfterReceive := by
  have hempty : ∀ st : FeedState,
      (st.frames.flatMap (·.events) ++ st.receivers.flatten).isEmpty = true → ∀ τ, ¬ st.Unread τ := by
    rintro st h τ hτ
    have hmem : τ ∈ st.frames.flatMap (·.events) ++ st.receivers.flatten := by
      rwa [List.mem_append, List.mem_flatMap, List.mem_flatten]
    rw [List.isEmpty_iff.1 h] at hmem
    cases hmem
  refine ⟨trivial, trivial, ?_, trivial, trivial, trivial, ?_, ?_, trivial⟩
  · intro spec hspec spec' hspec'
    have h : resolveNativeSymbol .binance freshFeed.adapter "BTCUSDT" = some (tickSizeSpec 1) := by
      decide
    have h' : freshFeed.state.instruments.get? (tickSizeSpec 1).instrumentId =
        some (tickSizeSpec 1) := by decide
    obtain rfl := Option.some.inj (h.symm.trans hspec)
    rw [← Option.some.inj (h'.symm.trans hspec')]
    exact ⟨rfl, rfl⟩
  · exact fun τ hτ => absurd hτ (hempty _ (by decide) τ)
  · exact fun _ _ τ hτ => absurd hτ.unread (hempty _ (by decide) τ)

theorem values_rounded_of_scales_kept_refreshed :
    ValuesRounded (run FeedState.next freshFeed refreshAfterReceive) :=
  values_rounded_of_scales_kept fresh_freshFeed stepsMeet_refreshAfterReceive (visited_run _ _)

end BatMarkets
