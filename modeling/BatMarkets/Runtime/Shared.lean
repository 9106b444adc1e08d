import BatMarkets.Core.State
import BatMarkets.Interleaving.Prog

/-!
# The shared state

`SharedState` (`client.rs`) puts the engine state behind a lock and publishes what changes: health
reports through a watch that keeps the latest one, and events through broadcast channels.  A call
is a program whose steps are the ones another task can see: the closure that runs under the lock,
and each send after the lock is released.  A closure that panics unwinds through the call, so that
nothing is sent; what it wrote before stays written, since the lock does not poison.

`SharedState.reply` gives the steps their meaning for one call that runs alone.

## Main results

* `exec_write` : what one write does.
* `applyPublicEvents_all_or_nothing` : a batch of public events is applied and published as a
  whole, or fails without a trace.
-/

namespace BatMarkets

open Interleaving Ordered

/-! ### The closures -/

/-- The instrument an event is about, for the events whose application can fail. -/
def falliblePublicEventInstrumentId : PublicLaneEvent → Option InstrumentId
  | .ticker ticker => some ticker.instrumentId
  | .trade trade => some trade.instrumentId
  | .bookTop bookTop => some bookTop.instrumentId
  | .kline kline => some kline.instrumentId
  | .markPrice markPrice => some markPrice.instrumentId
  | .liquidation liquidation => some liquidation.instrumentId
  | .orderBookDelta _ | .fundingRate _ | .openInterest _ | .divergence _ => none

/-- The error for an event of an instrument that the state does not know. -/
def unknownPublicEventError (s : EngineState) (instrumentId : InstrumentId) : MarketError where
  kind := .configError
  message := "unknown instrument " ++ instrumentId.asStr ++ " for " ++ s.venue.display ++ " " ++
    s.product.display

/-- The check of one event of a batch. -/
def checkPublicEvent (event : PublicLaneEvent) : EngineM Unit := do
  let s ← get
  match falliblePublicEventInstrumentId event with
  | none => pure ()
  | some instrumentId =>
    if s.instrumentSpecs.any (·.instrumentId = instrumentId) then pure ()
    else throw (.error (unknownPublicEventError s instrumentId))

/-- The closure of a batch of public events: more than one event is checked before the first is
applied. -/
def applyPublicBatch (events : List PublicLaneEvent) : EngineM Unit := do
  if 1 < events.length then
    forM events checkPublicEvent
  forM events EngineState.applyPublicEvent

/-- The closure of a batch of private events. -/
def applyPrivateBatch (events : List PrivateLaneEvent) : EngineM Unit :=
  modify fun s => events.foldl EngineState.applyPrivateEvent s

/-- What runs under the write lock; the batches are told apart from other closures since their
events are published. -/
inductive Closure
  | mutate (f : EngineM Unit)
  | publicBatch (events : List PublicLaneEvent)
  | privateBatch (events : List PrivateLaneEvent)

/-- What the closure does to the engine state. -/
def Closure.body : Closure → EngineM Unit
  | .mutate f => f
  | .publicBatch events => applyPublicBatch events
  | .privateBatch events => applyPrivateBatch events

/-! ### The calls -/

/-- What is sent after the lock is released. -/
inductive Send
  /-- Replace the report in the health watch. -/
  | health (report : HealthReport)
  /-- Broadcast a health notification. -/
  | notifyHealth (notification : HealthNotification)
  /-- Broadcast a public event. -/
  | publicEvent (event : PublicLaneEvent)
  /-- Broadcast a private event. -/
  | privateEvent (event : PrivateLaneEvent)

/-- The steps of a call that others can see. -/
inductive SharedCall
  /-- Run a closure under the write lock. -/
  | locked (closure : Closure)
  | send (x : Send)

/-- What a step answers: the closure's result together with the health report before and after
it, and nothing for the sends. -/
abbrev SharedReply : SharedCall → Type
  | .locked _ => HealthReport × HealthReport × Except Failure Unit
  | .send _ => Unit

/-- Calls of the shared state. -/
abbrev SharedM := Prog SharedCall SharedReply

namespace SharedM

/-- The closure runs under the lock, between two looks at health. -/
abbrev locked (closure : Closure) :
    SharedM (HealthReport × HealthReport × Except Failure Unit) :=
  .perform (SharedCall.locked closure)

/-- Something is sent on its channel. -/
abbrev send (x : Send) : SharedM Unit := .perform (SharedCall.send x)

end SharedM

open SharedM

/-- Whether a change of the health report is published: all fields count but the times of the last
messages and the age of the snapshot. -/
def shouldPublishHealthChange (before after : HealthReport) : Bool :=
  before.status != after.status
    || before.restOk != after.restOk
    || before.wsPublicOk != after.wsPublicOk
    || before.wsPrivateOk != after.wsPrivateOk
    || before.clockSkewMs != after.clockSkewMs
    || before.reconnectCount != after.reconnectCount
    || before.stateDivergence != after.stateDivergence
    || before.degradedReason != after.degradedReason

/-- Send the health report when it has changed. -/
def publishHealth (before after : HealthReport) : SharedM Unit :=
  if shouldPublishHealthChange before after then do
    send (.health after)
    send (.notifyHealth ⟨before, after⟩)
  else pure ()

/-- Run a closure on the state and publish the change of health. -/
def write (closure : Closure) : SharedM (Except Failure Unit) := do
  let (before, after, result) ← locked closure
  match result with
  | .error .panic => return result
  | .ok () | .error (.error _) =>
    publishHealth before after
    return result

/-- A batch of public events is checked and applied as a whole, and then published. -/
def applyPublicEvents (events : List PublicLaneEvent) : SharedM (Except Failure Unit) := do
  if events = [] then
    return .ok ()
  match ← write (.publicBatch events) with
  | .error e => return .error e
  | .ok () =>
    forM events fun event => send (.publicEvent event)
    return .ok ()

/-- A batch of private events is applied as a whole, and then published. -/
def applyPrivateEvents (events : List PrivateLaneEvent) : SharedM (Except Failure Unit) := do
  if events = [] then
    return .ok ()
  match ← write (.privateBatch events) with
  | .error e => return .error e
  | .ok () =>
    forM events fun event => send (.privateEvent event)
    return .ok ()

/-! ### A call that runs alone -/

/-- The engine state and everything that has been published, oldest first. -/
structure SharedState where
  state : EngineState
  healthWatch : HealthReport
  healthNotifications : List HealthNotification := []
  publicEvents : List PublicLaneEvent := []
  privateEvents : List PrivateLaneEvent := []

/-- The shared state after something has been sent. -/
def SharedState.publish (w : SharedState) : Send → SharedState
  | .health report => { w with healthWatch := report }
  | .notifyHealth notification =>
    { w with healthNotifications := w.healthNotifications ++ [notification] }
  | .publicEvent event => { w with publicEvents := w.publicEvents ++ [event] }
  | .privateEvent event => { w with privateEvents := w.privateEvents ++ [event] }

/-- The answer to a step, and the shared state after it. -/
def SharedState.reply : (q : SharedCall) → SharedState → SharedReply q × SharedState
  | .locked closure, w =>
    let r := closure.body.run w.state
    ((w.state.health, (stateAfter r).health, resultOf r), { w with state := stateAfter r })
  | .send x, w => ((), w.publish x)

/-! ### The closure of a batch -/

theorem namesUnknown_iff_fallible {s : EngineState} {event : PublicLaneEvent} :
    event.NamesUnknown s ↔
      ∃ id, falliblePublicEventInstrumentId event = some id ∧ id ∉ s.instruments := by
  cases event <;> simp [PublicLaneEvent.NamesUnknown, falliblePublicEventInstrumentId]

theorem any_instrumentSpecs_iff {s : EngineState} {id : InstrumentId} :
    s.instrumentSpecs.any (·.instrumentId = id) = true ↔ id ∈ s.instruments := by
  rw [List.any_eq_true, Index.mem_iff]
  constructor
  · rintro ⟨spec, hspec, hid⟩
    exact ⟨spec, of_decide_eq_true hid ▸ Index.mem_toVals_iff.1 hspec⟩
  · rintro ⟨spec, hspec⟩
    have hid := Index.key_of_get? hspec
    exact ⟨spec, Index.mem_toVals_iff.2 (hid ▸ hspec), decide_eq_true hid⟩

theorem checkPublicEvent_run (event : PublicLaneEvent) (s : EngineState) :
    (checkPublicEvent event).run s = match falliblePublicEventInstrumentId event with
      | none => .ok () s
      | some id =>
        if id ∈ s.instruments then .ok () s
        else .error (.error (unknownPublicEventError s id)) s := by
  simp only [checkPublicEvent, EStateM.run_bind, EStateM.run_get]
  cases falliblePublicEventInstrumentId event with
  | none => rfl
  | some id =>
    simp only [any_instrumentSpecs_iff]
    split <;> rfl

theorem checkPublicEvents_run_of_known {s : EngineState} {events : List PublicLaneEvent}
    (h : ∀ event ∈ events, ¬ event.NamesUnknown s) :
    (forM events checkPublicEvent).run s = .ok () s := by
  induction events with
  | nil => rfl
  | cons event events ih =>
    have hevent : (checkPublicEvent event).run s = .ok () s := by
      have hk := h event (List.mem_cons_self ..)
      rw [namesUnknown_iff_fallible] at hk
      rw [checkPublicEvent_run]
      cases hid : falliblePublicEventInstrumentId event with
      | none => rfl
      | some id =>
        have hmem : id ∈ s.instruments := not_not.1 fun hn => hk ⟨id, hid, hn⟩
        simp only [hmem, ↓reduceIte]
    rw [List.forM_cons, EStateM.run_bind, hevent]
    exact ih fun e he => h e (List.mem_cons_of_mem _ he)

theorem checkPublicEvents_run_of_unknown {s : EngineState} {events : List PublicLaneEvent}
    (h : ∃ event ∈ events, event.NamesUnknown s) :
    ∃ e, (forM events checkPublicEvent).run s = .error (.error e) s := by
  induction events with
  | nil =>
    obtain ⟨event, hevent, -⟩ := h
    cases hevent
  | cons event events ih =>
    simp only [List.forM_cons, EStateM.run_bind]
    rw [checkPublicEvent_run]
    by_cases hk : event.NamesUnknown s
    · obtain ⟨id, hid, hmem⟩ := namesUnknown_iff_fallible.1 hk
      simp only [hid, hmem, ↓reduceIte]
      exact ⟨_, rfl⟩
    · obtain ⟨e, he, heu⟩ := h
      have htail : ∃ e ∈ events, e.NamesUnknown s := by
        rcases List.mem_cons.1 he with rfl | he
        · exact absurd heu hk
        · exact ⟨e, he, heu⟩
      rw [namesUnknown_iff_fallible] at hk
      cases hid : falliblePublicEventInstrumentId event with
      | none => exact ih htail
      | some id =>
        have hmem : id ∈ s.instruments := not_not.1 fun hn => hk ⟨id, hid, hn⟩
        simp only [hmem, ↓reduceIte]
        exact ih htail

/-- The closure of a batch that names an unknown instrument fails before it applies anything. -/
theorem applyPublicBatch_run_of_unknown {s : EngineState} {events : List PublicLaneEvent}
    (h : ∃ event ∈ events, event.NamesUnknown s) :
    ∃ e, (applyPublicBatch events).run s = .error (.error e) s := by
  unfold applyPublicBatch
  split
  · obtain ⟨e, he⟩ := checkPublicEvents_run_of_unknown h
    exact ⟨e, by rw [EStateM.run_bind, he]⟩
  · next hlen =>
    -- a batch of one event is not checked, but its only step fails without effect
    obtain ⟨event, hevent, hu⟩ := h
    obtain ⟨rfl⟩ : events = [event] := by
      match events, hlen with
      | [e], _ => rw [List.mem_singleton.1 hevent]
      | _ :: _ :: _, hlen => simp at hlen
    obtain ⟨e, he⟩ := EngineState.applyPublicEvent_of_namesUnknown hu
    refine ⟨e, ?_⟩
    change (forM [event] EngineState.applyPublicEvent).run s = _
    rw [List.forM_cons, EStateM.run_bind, he]

theorem applyPublicBatch_run_of_known {s : EngineState} {events : List PublicLaneEvent}
    (h : ∀ event ∈ events, ¬ event.NamesUnknown s) :
    (applyPublicBatch events).run s = (forM events EngineState.applyPublicEvent).run s := by
  unfold applyPublicBatch
  split
  · rw [EStateM.run_bind, checkPublicEvents_run_of_known h]
  · rfl

theorem onlyPanics_forM_applyPublicEvent {s : EngineState} {events : List PublicLaneEvent}
    (h : ∀ event ∈ events, ¬ event.NamesUnknown s) :
    OnlyPanics (resultOf ((forM events EngineState.applyPublicEvent).run s)) := by
  induction events generalizing s with
  | nil => exact onlyPanics_ok _
  | cons event events ih =>
    have hevent := EngineState.onlyPanics_applyPublicEvent (h event (List.mem_cons_self ..))
    have htable := EngineState.table_applyPublicEvent s event
    rw [List.forM_cons, EStateM.run_bind]
    cases hr : (EngineState.applyPublicEvent event).run s with
    | ok u s' =>
      rw [hr] at htable
      change s'.table = s.table at htable
      refine ih fun e he => ?_
      rw [EngineState.namesUnknown_congr htable]
      exact h e (List.mem_cons_of_mem _ he)
    | error e s' =>
      rw [hr] at hevent
      exact hevent

/-! ### The run of a batch -/

theorem shouldPublishHealthChange_self (h : HealthReport) :
    shouldPublishHealthChange h h = false := by
  simp [shouldPublishHealthChange]

/-- The shared state after the health report has been published. -/
def SharedState.publishHealth (w : SharedState) (before after : HealthReport) : SharedState :=
  if shouldPublishHealthChange before after then
    { w with
      healthWatch := after
      healthNotifications := w.healthNotifications ++ [⟨before, after⟩] }
  else w

theorem exec_publishHealth (before after : HealthReport) (w : SharedState) :
    (BatMarkets.publishHealth before after).exec SharedState.reply w =
      ((), w.publishHealth before after) := by
  unfold BatMarkets.publishHealth SharedState.publishHealth
  split <;> rfl

theorem exec_write (closure : Closure) (w : SharedState) :
    (write closure).exec SharedState.reply w = match closure.body.run w.state with
      | .error .panic s => (.error .panic, { w with state := s })
      | .error (.error e) s =>
        (.error (.error e), { w with state := s }.publishHealth w.state.health s.health)
      | .ok () s => (.ok (), { w with state := s }.publishHealth w.state.health s.health) := by
  simp only [write, locked, Prog.perform_bind, Prog.exec_call, SharedState.reply]
  cases closure.body.run w.state with
  | ok u s =>
    simp only [resultOf, stateAfter, Prog.exec_bind, exec_publishHealth]
    rfl
  | error e s =>
    cases e with
    | panic => rfl
    | error e =>
      simp only [resultOf, stateAfter, Prog.exec_bind, exec_publishHealth]
      rfl

theorem exec_forM_sendPublic (events : List PublicLaneEvent) (w : SharedState) :
    (forM events fun event => send (.publicEvent event)).exec SharedState.reply w =
      ((), { w with publicEvents := w.publicEvents ++ events }) := by
  induction events generalizing w with
  | nil => simp
  | cons event events ih =>
    simp only [List.forM_cons, send, Prog.perform_bind, Prog.exec_call, SharedState.reply,
      SharedState.publish]
    simp [ih]

@[simp] theorem SharedState.state_publishHealth (w : SharedState) (before after : HealthReport) :
    (w.publishHealth before after).state = w.state := by
  unfold SharedState.publishHealth
  split <;> rfl

@[simp] theorem SharedState.publicEvents_publishHealth (w : SharedState)
    (before after : HealthReport) :
    (w.publishHealth before after).publicEvents = w.publicEvents := by
  unfold SharedState.publishHealth
  split <;> rfl

/-- A batch that names an unknown instrument returns an error and leaves no trace. -/
theorem exec_applyPublicEvents_of_unknown {w : SharedState} {events : List PublicLaneEvent}
    (h : ∃ event ∈ events, event.NamesUnknown w.state) :
    ∃ e, (applyPublicEvents events).exec SharedState.reply w = (.error (.error e), w) := by
  obtain ⟨e, he⟩ := applyPublicBatch_run_of_unknown h
  have hne : events ≠ [] := by
    rintro rfl
    obtain ⟨_, hmem, -⟩ := h
    cases hmem
  refine ⟨e, ?_⟩
  simp only [applyPublicEvents, hne, ↓reduceIte, Prog.exec_bind, exec_write, Closure.body, he,
    SharedState.publishHealth, shouldPublishHealthChange_self]
  rfl

/-- Any other batch ends like the fold of its events, and is published when the fold succeeds. -/
theorem exec_applyPublicEvents_of_known {w : SharedState} {events : List PublicLaneEvent}
    (h : ∀ event ∈ events, ¬ event.NamesUnknown w.state) :
    let fold := (forM events EngineState.applyPublicEvent).run w.state
    let out := (applyPublicEvents events).exec SharedState.reply w
    out.1 = resultOf fold ∧ out.2.state = stateAfter fold ∧
      out.2.publicEvents = w.publicEvents ++ if out.1 = .ok () then events else [] := by
  dsimp only
  by_cases hne : events = []
  · subst hne
    exact ⟨rfl, rfl, by simp [applyPublicEvents]⟩
  have hpanics := onlyPanics_forM_applyPublicEvent h
  simp only [applyPublicEvents, hne, ↓reduceIte, Prog.exec_bind, exec_write, Closure.body,
    applyPublicBatch_run_of_known h]
  cases hr : (forM events EngineState.applyPublicEvent).run w.state with
  | ok u s =>
    simp only [Prog.exec_bind, exec_forM_sendPublic]
    exact ⟨rfl, by simp [stateAfter], by simp⟩
  | error e s =>
    cases e with
    | panic => exact ⟨rfl, rfl, by simp⟩
    | error e => exact absurd (by rw [hr]; rfl) (hpanics e)

/-- **Batches of public events are all or nothing.**  A batch returns an error exactly when it
names an unknown instrument, and then nothing has changed and nothing is published.  Otherwise the
result and the state are those of applying the events one after the other, and exactly the events,
in order, are published when that succeeds. -/
theorem applyPublicEvents_all_or_nothing (w : SharedState) (events : List PublicLaneEvent) :
    let fold := (forM events EngineState.applyPublicEvent).run w.state
    let out := (applyPublicEvents events).exec SharedState.reply w
    ((∃ e, out.1 = .error (.error e)) ↔ ∃ event ∈ events, event.NamesUnknown w.state) ∧
      ((∃ e, out.1 = .error (.error e)) → out.2 = w) ∧
      ((¬ ∃ e, out.1 = .error (.error e)) →
        out.1 = resultOf fold ∧ out.2.state = stateAfter fold ∧
          out.2.publicEvents = w.publicEvents ++ if out.1 = .ok () then events else []) := by
  by_cases h : ∃ event ∈ events, event.NamesUnknown w.state
  · obtain ⟨e, he⟩ := exec_applyPublicEvents_of_unknown h
    dsimp only
    rw [he]
    exact ⟨⟨fun _ => h, fun _ => ⟨e, rfl⟩⟩, fun _ => rfl, fun hn => absurd ⟨e, rfl⟩ hn⟩
  · have hk : ∀ event ∈ events, ¬ event.NamesUnknown w.state := fun e he hu => h ⟨e, he, hu⟩
    have hrun := exec_applyPublicEvents_of_known hk
    have hnone : ¬ ∃ e,
        ((applyPublicEvents events).exec SharedState.reply w).1 = .error (.error e) := by
      rintro ⟨e, he⟩
      exact onlyPanics_forM_applyPublicEvent hk e (hrun.1 ▸ he)
    exact ⟨⟨fun hex => absurd hex hnone, fun hex => absurd hex h⟩,
      fun hex => absurd hex hnone, fun _ => hrun⟩

end BatMarkets
