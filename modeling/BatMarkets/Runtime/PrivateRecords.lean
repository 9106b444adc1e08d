import BatMarkets.Core.State
import BatMarkets.Replication.CatchUp
import BatMarkets.Transition.Basic

/-!
# Positions and orders of a venue

The venue has positions and orders that change over time, and the engine state holds copies of
them.  Both are compared through what they show: a position that is held, under its instrument, and
an order that is open, under its id.  The other fields (times, profits, the leverage) are decoded
differently from a stream message and from a REST reply.  Numbers are compared as numbers, whatever
their scale.

A change of the venue, and what a private event or a snapshot does to the engine state, are changes
of what is shown, in the sense of `BatMarkets.Replication.CatchUp`.

## Main results

* `VenueState.shows_run` : what the venue shows after changes that are in step with the engine's
  table of positions, which has one position for each instrument.
* `EngineState.shows_streamed` : a change that arrives as a stream event is a change of what the
  engine shows.
* `EngineState.shows_replacePositions`, `EngineState.shows_replaceOpenOrders`,
  `EngineState.shows_mergeOrderHistory` : so are the writes of snapshots.
-/

namespace BatMarkets

open Ordered Replication Transition

/-! ### What is shown -/

/-- What identifies a record: the instrument of a position, the id of an order. -/
inductive Slot
  | position (instrumentId : InstrumentId)
  | order (orderId : OrderId)
  deriving DecidableEq

/-- The part of a position that streams and replies agree on. -/
structure PositionView where
  positionId : PositionId
  instrumentId : InstrumentId
  direction : PositionDirection
  size : ℚ
  deriving DecidableEq

/-- The part of an order that streams and replies agree on. -/
structure OrderView where
  orderId : OrderId
  clientOrderId : Option ClientOrderId
  instrumentId : InstrumentId
  side : Side
  orderType : OrderType
  status : OrderStatus
  price : Option ℚ
  quantity : ℚ
  filledQuantity : ℚ
  deriving DecidableEq

/-- What is shown in a slot. -/
inductive RecordView
  | position (view : PositionView)
  | order (view : OrderView)
  deriving DecidableEq

/-- What streams and replies agree on of a position. -/
def Position.view (p : Position) : PositionView where
  positionId := p.positionId
  instrumentId := p.instrumentId
  direction := p.direction
  size := p.size.value.toRat

/-- What streams and replies agree on of an order. -/
def Order.view (o : Order) : OrderView where
  orderId := o.orderId
  clientOrderId := o.clientOrderId
  instrumentId := o.instrumentId
  side := o.side
  orderType := o.orderType
  status := o.status
  price := o.price.map (·.value.toRat)
  quantity := o.quantity.value.toRat
  filledQuantity := o.filledQuantity.value.toRat

/-- The position is not one of size zero. -/
def PositionView.held (v : PositionView) : Bool := v.size != 0

/-- A position is shown while it is held. -/
def PositionView.shown (v : PositionView) : Option RecordView :=
  if v.held then some (.position v) else none

/-- An order is shown while it is open. -/
def OrderView.shown (v : OrderView) : Option RecordView :=
  if v.status.isOpen then some (.order v) else none

/-- What the engine state shows. -/
def EngineState.shows (s : EngineState) : Slot → Option RecordView
  | .position instrumentId => (s.positionsById.get? instrumentId).bind (·.view.shown)
  | .order orderId => (s.ordersById.get? orderId).bind (·.view.shown)

/-! ### The venue -/

/-- The positions and orders of the account at the venue. -/
structure VenueState where
  positions : Index Position.positionId
  orders : Index Order.orderId

/-- A change of one record of the account. -/
inductive VenueChange
  | position (position : Position)
  | order (order : Order)

namespace VenueState

/-- The account after a change. -/
def apply (v : VenueState) : VenueChange → VenueState
  | .position p => { v with positions := v.positions.insert p }
  | .order o => { v with orders := v.orders.insert o }

/-- What the venue shows; of the positions of an instrument, only the first one that is held. -/
def shows (v : VenueState) : Slot → Option RecordView
  | .position i =>
    (v.positions.toVals.find? fun p => p.view.held && p.instrumentId = i).bind (·.view.shown)
  | .order orderId => (v.orders.get? orderId).bind (·.view.shown)

/-- No instrument has two positions that are held. -/
def OneLeg (v : VenueState) : Prop :=
  ∀ p ∈ v.positions.toVals, ∀ q ∈ v.positions.toVals, p.view.held = true → q.view.held = true →
    p.instrumentId = q.instrumentId → p = q

end VenueState

/-- The private events that a stream message about the change is parsed into: the Bybit adapter
skips positions of size zero. -/
def streamEvents (venue : Venue) : VenueChange → List PrivateLaneEvent
  | .position p => if venue = .bybit ∧ p.view.held = false then [] else [.position p]
  | .order o => [.order o]

/-- The change of what is shown. -/
def VenueChange.effect : VenueChange → Change Slot RecordView
  | .position p => ⟨.position p.instrumentId, p.view.shown⟩
  | .order o => ⟨.order o.orderId, o.view.shown⟩

/-- The change of a position is one the engine can follow: its instrument has no other position
that is held, and a Bybit position is not closed. -/
def InStep (venue : Venue) (v : VenueState) : VenueChange → Prop
  | .position p => (venue = .bybit → p.view.held = true) ∧
      ∀ q ∈ v.positions.toVals, q.view.held = true →
        (q.instrumentId = p.instrumentId ↔ q.positionId = p.positionId)
  | .order _ => True

/-! ### What the venue shows -/

namespace VenueState

variable {v : VenueState}

theorem shows_position_iff (hleg : v.OneLeg) {i : InstrumentId} {r : RecordView} :
    v.shows (.position i) = some r ↔
      ∃ p ∈ v.positions.toVals, p.view.held = true ∧ p.instrumentId = i ∧ r = .position p.view := by
  simp only [shows, Option.bind_eq_some_iff]
  constructor
  · rintro ⟨p, hp, hr⟩
    have hfound := List.find?_some hp
    simp only [Bool.and_eq_true, decide_eq_true_eq] at hfound
    rw [PositionView.shown, if_pos hfound.1] at hr
    exact ⟨p, List.mem_of_find?_eq_some hp, hfound.1, hfound.2, (Option.some.inj hr).symm⟩
  · rintro ⟨p, hp, hheld, rfl, rfl⟩
    cases hf : v.positions.toVals.find? fun q => q.view.held && q.instrumentId = p.instrumentId with
    | none =>
      have hnone := List.find?_eq_none.1 hf p hp
      simp [hheld] at hnone
    | some q =>
      have hfound := List.find?_some hf
      simp only [Bool.and_eq_true, decide_eq_true_eq] at hfound
      obtain rfl := hleg q (List.mem_of_find?_eq_some hf) p hp hfound.1 hheld hfound.2
      exact ⟨q, rfl, by rw [PositionView.shown, if_pos hheld]⟩

theorem mem_insert_position {p q : Position} :
    q ∈ (v.positions.insert p).toVals ↔
      q = p ∨ q ∈ v.positions.toVals ∧ q.positionId ≠ p.positionId := by
  rw [Index.mem_toVals_iff, Index.get?_insert, Index.mem_toVals_iff]
  by_cases h : p.positionId = q.positionId
  · simp [h, eq_comm]
  · have hne : q ≠ p := fun heq => h (heq ▸ rfl)
    simp [h, hne, Ne.symm h]

theorem oneLeg_apply {venue : Venue} {c : VenueChange} (hleg : v.OneLeg) (hc : InStep venue v c) :
    (v.apply c).OneLeg := by
  cases c with
  | order o => exact hleg
  | position p =>
    intro a ha b hb hheld hheld' hsame
    rcases mem_insert_position.1 ha with rfl | ⟨ha', hne⟩ <;>
      rcases mem_insert_position.1 hb with rfl | ⟨hb', hne'⟩
    · rfl
    · exact absurd ((hc.2 b hb' hheld').1 hsame.symm) hne'
    · exact absurd ((hc.2 a ha' hheld).1 hsame) hne
    · exact hleg a ha' b hb' hheld hheld' hsame

/-- A change of the venue changes what it shows in one slot. -/
theorem shows_apply {venue : Venue} {c : VenueChange} (hleg : v.OneLeg) (hc : InStep venue v c) :
    (v.apply c).shows = c.effect.apply v.shows := by
  funext k
  cases c with
  | order o =>
    cases k with
    | position i => rfl
    | order id =>
      simp only [shows, apply, VenueChange.effect, Change.apply, Function.update_apply,
        Index.get?_insert, Slot.order.injEq, eq_comm (a := id)]
      split <;> rfl
  | position p =>
    cases k with
    | order id => rfl
    | position i =>
      simp only [VenueChange.effect, Change.apply, Function.update_apply, Slot.position.injEq]
      ext r
      rw [shows_position_iff (oneLeg_apply hleg hc)]
      simp only [apply, mem_insert_position]
      split
      · next hi =>
        -- the position is the only one of its instrument that may be held
        rw [PositionView.shown]
        constructor
        · rintro ⟨q, rfl | ⟨hq, hne⟩, hheld, hqi, rfl⟩
          · rw [if_pos hheld]
          · exact absurd ((hc.2 q hq hheld).1 (hqi.trans hi)) hne
        · intro hr
          split at hr
          · next hheld => exact ⟨p, .inl rfl, hheld, hi.symm, (Option.some.inj hr).symm⟩
          · cases hr
      · next hi =>
        rw [shows_position_iff hleg]
        constructor
        · rintro ⟨q, rfl | ⟨hq, -⟩, hheld, hqi, rfl⟩
          · exact absurd hqi.symm hi
          · exact ⟨q, hq, hheld, hqi, rfl⟩
        · rintro ⟨q, hq, hheld, hqi, rfl⟩
          refine ⟨q, .inr ⟨hq, fun heq => hi ?_⟩, hheld, hqi, rfl⟩
          exact hqi.symm.trans ((hc.2 q hq hheld).2 heq)

/-- What the venue shows after a list of changes. -/
theorem shows_run {venue : Venue} {cs : List VenueChange} (hleg : v.OneLeg)
    (hcs : StepsMeet apply (InStep venue) v cs) :
    (run apply v cs).OneLeg ∧ (run apply v cs).shows = replay v.shows (cs.map (·.effect)) := by
  induction cs generalizing v with
  | nil => exact ⟨hleg, rfl⟩
  | cons c cs ih =>
    obtain ⟨hleg', hshows⟩ := ih (oneLeg_apply hleg hcs.1) hcs.2
    exact ⟨hleg', by rw [run_cons, hshows, shows_apply hleg hcs.1, List.map_cons, replay_cons]⟩

end VenueState

/-! ### What the engine shows -/

namespace EngineState

variable {s : EngineState}

theorem shows_observeLatest (s : EngineState) (timestamp : Option TimestampMs) :
    (s.observeLatest timestamp).shows = s.shows := by
  cases timestamp <;> rfl

/-- A change that arrives as a stream event changes what the engine shows. -/
theorem shows_streamed {venue : Venue} {v : VenueState} {c : VenueChange}
    (hc : InStep venue v c) :
    ((streamEvents venue c).foldl applyPrivateEvent s).shows = c.effect.apply s.shows := by
  funext k
  cases c with
  | order o =>
    cases k with
    | position i => rfl
    | order id =>
      simp only [streamEvents, List.foldl_cons, List.foldl_nil, shows, applyPrivateEvent,
        observePrivateMessage, VenueChange.effect, Change.apply, Function.update_apply,
        Index.get?_insert, Slot.order.injEq, eq_comm (a := id)]
      split <;> rfl
  | position p =>
    have hevents : streamEvents venue (.position p) = [.position p] := by
      refine if_neg fun h => ?_
      rw [hc.1 h.1] at h
      exact absurd h.2 (by decide)
    rw [hevents]
    cases k with
    | order id => rfl
    | position i =>
      simp only [List.foldl_cons, List.foldl_nil, shows, applyPrivateEvent,
        observePrivateMessage, VenueChange.effect, Change.apply, Function.update_apply,
        Index.get?_insert, Slot.position.injEq, eq_comm (a := i)]
      split <;> rfl

theorem shows_replacePositions (ps : List Position) (k : Slot) :
    (s.replacePositions ps).shows k = match k with
      | .position i => (lastOf Position.instrumentId i ps).bind (·.view.shown)
      | .order _ => s.shows k := by
  rw [replacePositions, shows_observeLatest]
  cases k with
  | position i => simp only [shows, Index.get?_collect]
  | order id => rfl

theorem shows_replaceOpenOrders (os : List Order) (k : Slot) :
    (s.replaceOpenOrders os).shows k = match k with
      | .position _ => s.shows k
      | .order id => (lastOf Order.orderId id os).bind (·.view.shown) := by
  cases k with
  | position i =>
    rw [replaceOpenOrders, shows_observeLatest]
    rfl
  | order id =>
    simp only [shows, get?_replaceOpenOrders]
    cases lastOf Order.orderId id os with
    | some o => rfl
    | none =>
      -- what is kept is closed, and shows nothing
      cases hid : s.ordersById.get? id with
      | none => rfl
      | some o =>
        cases ho : o.status.isOpen <;>
          simp [Option.filter, ho, OrderView.shown, Order.view]

theorem shows_mergeOrderHistory (os : List Order) (k : Slot) :
    (s.mergeOrderHistory os).shows k = match k with
      | .position _ => s.shows k
      | .order id => match lastOf Order.orderId id os with
        | some o => o.view.shown
        | none => s.shows k := by
  rw [mergeOrderHistory, shows_observeLatest]
  cases k with
  | position i => rfl
  | order id =>
    simp only [shows, Index.get?_insertAll]
    cases lastOf Order.orderId id os <;> rfl

end EngineState

/-! ### What a reply shows -/

namespace VenueState

variable {v : VenueState}

/-- The list has the positions that are held, and no others. -/
structure ListsPositions (v : VenueState) (ps : List Position) : Prop where
  sound : ∀ p ∈ ps, p.view.held = true ∧ ∃ q ∈ v.positions.toVals, q.view = p.view
  complete : ∀ q ∈ v.positions.toVals, q.view.held = true → ∃ p ∈ ps, p.view = q.view

/-- The order shows what the venue shows of it. -/
def ShowsOrder (v : VenueState) (o : Order) : Prop := o.view.shown = v.shows (.order o.orderId)

/-- The list has all open orders of the kind. -/
def ListsOpen (v : VenueState) (kind : OrderId → Prop) (os : List Order) : Prop :=
  ∀ q ∈ v.orders.toVals, q.status.isOpen = true → kind q.orderId → ∃ o ∈ os, o.orderId = q.orderId

theorem ListsPositions.shows {ps : List Position} (h : v.ListsPositions ps) (hleg : v.OneLeg)
    (i : InstrumentId) :
    (lastOf Position.instrumentId i ps).bind (·.view.shown) = v.shows (.position i) := by
  symm
  cases hl : lastOf Position.instrumentId i ps with
  | some p =>
    obtain ⟨hp, rfl⟩ := lastOf_eq_some hl
    obtain ⟨hheld, q, hq, hview⟩ := h.sound p hp
    rw [Option.bind_some, PositionView.shown, if_pos hheld, shows_position_iff hleg]
    exact ⟨q, hq, hview ▸ hheld, congrArg PositionView.instrumentId hview, by rw [hview]⟩
  | none =>
    rw [Option.bind_none, Option.eq_none_iff_forall_ne_some]
    intro r hr
    obtain ⟨q, hq, hheld, hqi, -⟩ := (shows_position_iff hleg).1 hr
    obtain ⟨p, hp, hview⟩ := h.complete q hq hheld
    exact lastOf_eq_none.1 hl p hp ((congrArg PositionView.instrumentId hview).trans hqi)

theorem shows_of_lastOf {os : List Order} (hos : ∀ o ∈ os, v.ShowsOrder o) {id : OrderId} {o : Order}
    (hl : lastOf Order.orderId id os = some o) : o.view.shown = v.shows (.order id) := by
  obtain ⟨ho, rfl⟩ := lastOf_eq_some hl
  exact hos o ho

theorem ListsOpen.shows {kind : OrderId → Prop} {os : List Order} (h : v.ListsOpen kind os)
    (hos : ∀ o ∈ os, v.ShowsOrder o) {id : OrderId} (hid : kind id) :
    (lastOf Order.orderId id os).bind (·.view.shown) = v.shows (.order id) := by
  cases hl : lastOf Order.orderId id os with
  | some o => exact shows_of_lastOf hos hl
  | none =>
    symm
    rw [VenueState.shows]
    cases hq : v.orders.get? id with
    | none => rfl
    | some q =>
      obtain rfl := Index.key_of_get? hq
      refine if_neg fun hopen => ?_
      obtain ⟨o, ho, heq⟩ := h q (Index.mem_toVals_iff.2 hq) hopen hid
      exact lastOf_eq_none.1 hl o ho heq

end VenueState

/-! ### Agreement -/

/-- The engine has the positions that are held at the venue, and its open orders. -/
structure EngineState.Agrees (s : EngineState) (v : VenueState) : Prop where
  positions : ∀ view : PositionView, view.held = true →
    (view ∈ s.positions.map Position.view ↔ view ∈ v.positions.toVals.map Position.view)
  openOrders : ∀ view : OrderView, view.status.isOpen = true →
    (view ∈ s.openOrders.map Order.view ↔ view ∈ v.orders.toVals.map Order.view)

theorem mem_positions_iff_shows {s : EngineState} {view : PositionView} (hheld : view.held = true) :
    view ∈ s.positions.map Position.view ↔
      s.shows (.position view.instrumentId) = some (.position view) := by
  simp only [EngineState.shows, Option.bind_eq_some_iff, List.mem_map, EngineState.positions,
    Index.mem_toVals_iff]
  constructor
  · rintro ⟨p, hp, rfl⟩
    exact ⟨p, hp, if_pos hheld⟩
  · rintro ⟨p, hp, hr⟩
    unfold PositionView.shown at hr
    split at hr
    · obtain rfl := RecordView.position.inj (Option.some.inj hr)
      exact ⟨p, hp, rfl⟩
    · cases hr

theorem VenueState.mem_positions_iff_shows {v : VenueState} (hleg : v.OneLeg) {view : PositionView}
    (hheld : view.held = true) :
    view ∈ v.positions.toVals.map Position.view ↔
      v.shows (.position view.instrumentId) = some (.position view) := by
  rw [shows_position_iff hleg, List.mem_map]
  constructor
  · rintro ⟨p, hp, rfl⟩
    exact ⟨p, hp, hheld, rfl, rfl⟩
  · rintro ⟨p, hp, -, -, hview⟩
    exact ⟨p, hp, (RecordView.position.inj hview).symm⟩

theorem mem_orders_iff_shown {m : Index Order.orderId} {view : OrderView}
    (hopen : view.status.isOpen = true) :
    view ∈ m.toVals.map Order.view ↔
      (m.get? view.orderId).bind (·.view.shown) = some (.order view) := by
  simp only [Option.bind_eq_some_iff, List.mem_map, Index.mem_toVals_iff]
  constructor
  · rintro ⟨o, ho, rfl⟩
    exact ⟨o, ho, if_pos hopen⟩
  · rintro ⟨o, ho, hr⟩
    unfold OrderView.shown at hr
    split at hr
    · obtain rfl := RecordView.order.inj (Option.some.inj hr)
      exact ⟨o, ho, rfl⟩
    · cases hr

theorem mem_openOrders_iff_shows {s : EngineState} {view : OrderView}
    (hopen : view.status.isOpen = true) :
    view ∈ s.openOrders.map Order.view ↔
      s.shows (.order view.orderId) = some (.order view) := by
  rw [EngineState.shows, ← mem_orders_iff_shown hopen, EngineState.openOrders, List.mem_map,
    List.mem_map]
  refine exists_congr fun o => ⟨fun ⟨ho, h⟩ => ⟨(List.mem_filter.1 ho).1, h⟩, ?_⟩
  rintro ⟨ho, rfl⟩
  exact ⟨List.mem_filter.2 ⟨ho, hopen⟩, rfl⟩

/-- What is shown in a slot: the view of a position that is held, or of an open order. -/
inductive ShownIn : Slot → RecordView → Prop
  | position {view : PositionView} : view.held = true →
      ShownIn (.position view.instrumentId) (.position view)
  | order {view : OrderView} : view.status.isOpen = true →
      ShownIn (.order view.orderId) (.order view)

theorem shownIn_of_position {p : Position} {r : RecordView} (h : p.view.shown = some r) :
    ShownIn (.position p.instrumentId) r := by
  unfold PositionView.shown at h
  split at h
  · next hheld =>
    obtain rfl := Option.some.inj h
    exact .position hheld
  · cases h

theorem shownIn_of_order {o : Order} {r : RecordView} (h : o.view.shown = some r) :
    ShownIn (.order o.orderId) r := by
  unfold OrderView.shown at h
  split at h
  · next hopen =>
    obtain rfl := Option.some.inj h
    exact .order hopen
  · cases h

theorem EngineState.shownIn_of_shows {s : EngineState} {k : Slot} {r : RecordView}
    (h : s.shows k = some r) : ShownIn k r := by
  cases k with
  | position i =>
    obtain ⟨p, hp, hr⟩ := Option.bind_eq_some_iff.1 h
    exact Index.key_of_get? hp ▸ shownIn_of_position hr
  | order id =>
    obtain ⟨o, ho, hr⟩ := Option.bind_eq_some_iff.1 h
    exact Index.key_of_get? ho ▸ shownIn_of_order hr

theorem VenueState.shownIn_of_shows {v : VenueState} {k : Slot} {r : RecordView}
    (h : v.shows k = some r) : ShownIn k r := by
  cases k with
  | position i =>
    obtain ⟨p, hp, hr⟩ := Option.bind_eq_some_iff.1 h
    have hfound := List.find?_some hp
    simp only [Bool.and_eq_true, decide_eq_true_eq] at hfound
    exact hfound.2 ▸ shownIn_of_position hr
  | order id =>
    obtain ⟨o, ho, hr⟩ := Option.bind_eq_some_iff.1 h
    exact Index.key_of_get? ho ▸ shownIn_of_order hr

/-- An engine that agrees with the venue shows the same, and the venue has one leg only. -/
theorem agrees_iff {s : EngineState} {v : VenueState} :
    s.Agrees v ↔ v.OneLeg ∧ s.shows = v.shows := by
  constructor
  · intro h
    have hleg : v.OneLeg := by
      -- the engine has one position for each instrument
      intro p hp q hq hheld hheld' hsame
      obtain ⟨p', hp', hview⟩ := List.mem_map.1
        ((h.positions p.view hheld).2 (List.mem_map_of_mem hp))
      obtain ⟨q', hq', hview'⟩ := List.mem_map.1
        ((h.positions q.view hheld').2 (List.mem_map_of_mem hq))
      have hinstrument : p'.instrumentId = q'.instrumentId :=
        (congrArg PositionView.instrumentId hview).trans
          (hsame.trans (congrArg PositionView.instrumentId hview').symm)
      have hpq : p' = q' := by
        rw [EngineState.positions, Index.mem_toVals_iff] at hp' hq'
        rw [hinstrument, hq'] at hp'
        exact (Option.some.inj hp').symm
      have hviews : p.view = q.view := by rw [← hview, hpq, hview']
      have hid : p.positionId = q.positionId := congrArg PositionView.positionId hviews
      rw [Index.mem_toVals_iff] at hp hq
      rw [hid, hq] at hp
      exact (Option.some.inj hp).symm
    refine ⟨hleg, funext fun k => Option.ext fun r => ⟨fun hr => ?_, fun hr => ?_⟩⟩
    · cases s.shownIn_of_shows hr with
      | position hheld =>
        exact (v.mem_positions_iff_shows hleg hheld).1
          ((h.positions _ hheld).1 ((mem_positions_iff_shows hheld).2 hr))
      | order hopen =>
        exact (mem_orders_iff_shown hopen).1
          ((h.openOrders _ hopen).1 ((mem_openOrders_iff_shows hopen).2 hr))
    · cases v.shownIn_of_shows hr with
      | position hheld =>
        exact (mem_positions_iff_shows hheld).1
          ((h.positions _ hheld).2 ((v.mem_positions_iff_shows hleg hheld).2 hr))
      | order hopen =>
        exact (mem_openOrders_iff_shows hopen).1
          ((h.openOrders _ hopen).2 ((mem_orders_iff_shown hopen).2 hr))
  · rintro ⟨hleg, hshows⟩
    refine ⟨fun view hheld => ?_, fun view hopen => ?_⟩
    · rw [mem_positions_iff_shows hheld, v.mem_positions_iff_shows hleg hheld, hshows]
    · rw [mem_openOrders_iff_shows hopen, mem_orders_iff_shown hopen, hshows]
      rfl

end BatMarkets
