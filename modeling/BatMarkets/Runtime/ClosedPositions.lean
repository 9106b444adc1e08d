import BatMarkets.Binance.Private
import BatMarkets.Bybit.Private
import BatMarkets.Commands.Create
import BatMarkets.Mexc.Private

/-!
# Positions that are closed

The private streams report positions (`parse_private` of the adapters), the state keeps the last one
of each instrument, and `close_position` takes it from there when it is not of size zero
(`resolve_close_position`).

The adapters of Binance and MEXC store the position that a message reports closed, with size zero.
The adapter of Bybit skips a record whose size is written as `0`, so the position that was open
stays in the state.

## Main results

* `closed_position_leaves_iff` : after any messages, a position that is reported closed is gone
  exactly when the last report that the adapter stores says so.
* `skipped_close_leaves_position` : a Bybit position that is opened and closed again stays.
-/

namespace BatMarkets

open CommandM Interleaving Ordered

/-- A private message, with the instruments the adapter knows and the clock when it arrives. -/
structure PrivateDelivery where
  catalog : InstrumentCatalog
  nowMs : TimestampMs
  payload : Payload

namespace PrivateDelivery

variable (venue : Venue) (m : PrivateDelivery)

/-- The events of the message, by the adapter of the venue. -/
def parsePrivate : Except Failure (List PrivateLaneEvent) :=
  match venue with
  | .binance => (Binance.parsePrivate m.catalog m.payload).mapError .error
  | .bybit => (Bybit.parsePrivate m.catalog m.payload).mapError .error
  | .mexc => Mexc.parsePrivate m.catalog m.nowMs m.payload

/-- What the message says about positions. -/
def positionMessage : PositionMessage :=
  match venue with
  | .binance => Binance.positionMessage m.catalog m.payload
  | .bybit => Bybit.positionMessage m.catalog m.payload
  | .mexc => Mexc.positionMessage m.catalog m.payload

theorem decodedAs_parsePrivate : (m.positionMessage venue).DecodedAs (m.parsePrivate venue) := by
  have hmap : ∀ x : Except MarketError (List PrivateLaneEvent),
      (x.mapError Failure.error).toOption = x.toOption := by
    intro x
    cases x <;> rfl
  cases venue with
  | binance =>
    have h := Binance.decodedAs_parsePrivate m.catalog m.payload
    rw [PositionMessage.DecodedAs, ← hmap] at h
    exact h
  | bybit =>
    have h := Bybit.decodedAs_parsePrivate m.catalog m.payload
    rw [PositionMessage.DecodedAs, ← hmap] at h
    exact h
  | mexc => exact Mexc.decodedAs_parsePrivate m.catalog m.nowMs m.payload

end PrivateDelivery

/-- Apply the events of a message; one that cannot be decoded changes nothing. -/
def EngineState.deliver (venue : Venue) (s : EngineState) (m : PrivateDelivery) : EngineState :=
  match m.parsePrivate venue with
  | .ok events => events.foldl EngineState.applyPrivateEvent s
  | .error _ => s

/-! ### What the state holds -/

section Runs

variable {venue : Venue} {s : EngineState} {messages : List PrivateDelivery} {i : InstrumentId}

/-- The reports about positions that the adapter stores. -/
def storedReports (venue : Venue) (messages : List PrivateDelivery) : List PositionReport :=
  messages.flatMap fun m => (m.positionMessage venue).stored

/-- One message replaces the positions it stores. -/
theorem get?_positionsById_deliver (m : PrivateDelivery) :
    (s.deliver venue m).positionsById.get? i =
      (lastOf Position.instrumentId i (((m.parsePrivate venue).toOption.getD []).filterMap
        PrivateLaneEvent.position?)).or (s.positionsById.get? i) := by
  unfold EngineState.deliver
  cases m.parsePrivate venue with
  | error e => rfl
  | ok events => exact get?_positionsById_foldl events s i

/-- After any messages, the state holds the position of the last stored report about an
instrument, and otherwise the one it held before. -/
theorem get?_positionsById_foldl_deliver (s : EngineState) (messages : List PrivateDelivery)
    (i : InstrumentId) :
    ∃ ps, List.Forall₂ PositionReport.StoredAs (storedReports venue messages) ps ∧
      (messages.foldl (EngineState.deliver venue) s).positionsById.get? i =
        (lastOf Position.instrumentId i ps).or (s.positionsById.get? i) := by
  induction messages generalizing s with
  | nil => exact ⟨[], .nil, rfl⟩
  | cons m messages ih =>
    obtain ⟨ps, hps, hget⟩ := ih (s.deliver venue m)
    have hm := m.decodedAs_parsePrivate venue
    refine ⟨_ ++ ps, List.rel_append hm hps, ?_⟩
    rw [List.foldl_cons, hget, get?_positionsById_deliver, lastOf_append, Option.or_assoc]

/-- The state holds no open position of the instrument. -/
def Flat (s : EngineState) (i : InstrumentId) : Prop :=
  ∀ p ∈ s.positions, p.instrumentId = i → p.size.value.isZero = true

theorem flat_iff : Flat s i ↔ ∀ p, s.positionsById.get? i = some p → p.size.value.isZero = true := by
  constructor
  · intro h p hp
    have hi : p.instrumentId = i := Index.key_of_get? hp
    exact h p (Index.mem_toVals_iff.2 (hi ▸ hp)) hi
  · rintro h p hp rfl
    exact h p (Index.mem_toVals_iff.1 hp)

/-- The last report that the adapter stores says that the position is closed; without such a
report, the position was not open before. -/
def CloseStored (venue : Venue) (s : EngineState) (messages : List PrivateDelivery)
    (i : InstrumentId) : Prop :=
  match lastOf PositionReport.instrumentId (some i) (storedReports venue messages) with
  | some r => r.closes = true
  | none => Flat s i

theorem flat_foldl_deliver_iff :
    Flat (messages.foldl (EngineState.deliver venue) s) i ↔ CloseStored venue s messages i := by
  obtain ⟨ps, hps, hget⟩ := @get?_positionsById_foldl_deliver venue s messages i
  have hlast := PositionMessage.lastOf_stored hps i
  rw [flat_iff, hget, CloseStored]
  generalize lastOf PositionReport.instrumentId (some i) (storedReports venue messages) = r at hlast
  generalize lastOf Position.instrumentId i ps = p at hlast
  cases hlast with
  | none =>
    show (∀ p, Option.or none _ = some p → _) ↔ _
    rw [Option.none_or]
    exact flat_iff.symm
  | @some r p hr =>
    show _ ↔ r.closes = true
    rw [hr.closes]
    constructor
    · exact fun h => h p rfl
    · rintro h q hq
      obtain rfl : p = q := Option.some.inj hq
      exact h

end Runs

/-! ### Closing a position -/

/-- `close_position` takes a position from the state `s`, without asking the venue. -/
def ActsOnCache (context : CommandContext) (request : ClosePositionRequest) (s : EngineState) :
    Prop :=
  ∃ p, (resolveClosePosition context request).run.Ends [] [⟨CommandCall.readState, s⟩] (.ok p)

/-- `close_position` takes the position `p` from the state `s`, without asking the venue. -/
def TakesFromState (context : CommandContext) (request : ClosePositionRequest) (s : EngineState)
    (p : Position) : Prop :=
  (resolveClosePosition context request).run.Ends [] [⟨CommandCall.readState, s⟩] (.ok p)

/-- It takes the position of the instrument, if that one can be closed as the request says. -/
theorem takesFromState_iff {s : EngineState} {context : CommandContext}
    {request : ClosePositionRequest} {p : Position} :
    TakesFromState context request s p ↔
      (s.positions.find? (·.instrumentId = request.instrumentId)).filter
        (closePositionCacheIsActionable · request) = some p := by
  obtain ⟨q, k, hrefresh⟩ : ∃ q k,
      (liftRuntime (refreshPositions context.toLiveContext)).run = Prog.call q k := by
    obtain ⟨⟨venue, product, staleAfterMs⟩, wsOrderEntry, websocketOnly⟩ := context
    cases venue <;> exact ⟨_, _, rfl⟩
  unfold TakesFromState
  rw [resolveClosePosition, ExceptT.run_bind]
  constructor
  · intro hp
    cases hp with
    | call hp =>
      rename_i state
      have hread : [(⟨CommandCall.readState, state⟩ : Event CommandCall CommandReply)] =
          [⟨CommandCall.readState, s⟩] := hp.suffix.eq_of_length rfl
      obtain rfl : state = s := by simpa using hread
      cases hfind : (state.positions.find? (·.instrumentId = request.instrumentId)).filter
          (closePositionCacheIsActionable · request) with
      | some position =>
        simp only [Prog.bind, Function.comp_apply, hfind] at hp
        cases hp
        rfl
      | none =>
        simp only [Prog.bind, Function.comp_apply, hfind, ExceptT.run_bind, hrefresh,
          Prog.call_bind] at hp
        -- the refresh makes a call of its own
        cases hp with
        | call hp =>
          have hlonger := hp.suffix.length_le
          simp at hlonger
  · intro hfind
    refine .call (r := s) ?_
    simp only [Prog.bind, Function.comp_apply, hfind]
    exact .ret _ _

/-- Without an open position in the state, the venue is asked for one. -/
theorem not_actsOnCache_of_flat {s : EngineState} {context : CommandContext}
    {request : ClosePositionRequest} (hflat : Flat s request.instrumentId) :
    ¬ActsOnCache context request s := by
  rintro ⟨p, hp⟩
  obtain ⟨hfind, hactionable⟩ := Option.filter_eq_some_iff.1 (takesFromState_iff.1 hp)
  have hid : p.instrumentId = request.instrumentId := by simpa using List.find?_some hfind
  have hzero := hflat p (List.mem_of_find?_eq_some hfind) hid
  simp [closePositionCacheIsActionable, hzero] at hactionable

/-- If the last report about the instrument says that the position is closed, the state holds no
open position of it, and `close_position` does not act on what the state holds. -/
def ClosedPositionLeaves (venue : Venue) (s : EngineState) (messages : List PrivateDelivery)
    (i : InstrumentId) : Prop :=
  (∃ r, lastOf PositionReport.instrumentId (some i)
      (messages.flatMap fun m => (m.positionMessage venue).reports) = some r ∧ r.closes = true) →
    let after := messages.foldl (EngineState.deliver venue) s
    Flat after i ∧ ∀ context request, request.instrumentId = i →
      ¬ActsOnCache context request after

/-- **When a closed position leaves.**  After any messages, a position that is reported closed is
gone exactly when the last report that the adapter stores says so: the message can be decoded, and
Bybit does not write the size as `0`. -/
theorem closed_position_leaves_iff {venue : Venue} {s : EngineState}
    {messages : List PrivateDelivery} {i : InstrumentId} :
    ClosedPositionLeaves venue s messages i ↔
      ((∃ r, lastOf PositionReport.instrumentId (some i)
        (messages.flatMap fun m => (m.positionMessage venue).reports) = some r ∧
          r.closes = true) → CloseStored venue s messages i) := by
  refine forall_congr' fun _ => ?_
  rw [← flat_foldl_deliver_iff]
  constructor
  · exact fun h => h.1
  · intro hflat
    refine ⟨hflat, ?_⟩
    rintro context request rfl
    exact not_actsOnCache_of_flat hflat

/-- BTC as the adapter of Bybit knows it. -/
def bybitBtc : InstrumentSpec := .active .bybit "BTC/USDT:USDT" "BTCUSDT" 2 3

/-- A message of Bybit about the position of BTC. -/
def bybitPosition (side size : String) : PrivateDelivery where
  catalog := .new [bybitBtc]
  nowMs := 0
  payload := .json (.object [("topic", .string "position"), ("creationTime", .integer 1),
    ("data", .array [.object [("symbol", .string "BTCUSDT"), ("side", .string side),
      ("size", .string size), ("entryPrice", .string "65000"), ("unrealisedPnl", .string "0"),
      ("tradeMode", .integer 0), ("positionIdx", .integer 0), ("leverage", .string "10")]])])

/-- The position that is opened and then closed stays in the state. -/
theorem skipped_close_leaves_position :
    ¬ ∀ (venue : Venue) (s : EngineState) (messages : List PrivateDelivery) (i : InstrumentId),
      ClosedPositionLeaves venue s messages i := by
  intro h
  have hclosed := h .bybit (.new .bybit .linearUsdt ⟨10, 10⟩ [bybitBtc])
    [bybitPosition "Buy" "0.010", bybitPosition "" "0"] ⟨"BTC/USDT:USDT"⟩ ⟨_, rfl, by decide⟩
  have hstored := flat_foldl_deliver_iff.1 hclosed.1
  -- the last report that is stored is the first message
  have hlast : (lastOf PositionReport.instrumentId (some ⟨"BTC/USDT:USDT"⟩) (storedReports .bybit
      [bybitPosition "Buy" "0.010", bybitPosition "" "0"])).map (·.closes) = some false := by decide
  obtain ⟨r, hr, hopen⟩ := Option.map_eq_some_iff.1 hlast
  rw [CloseStored, hr] at hstored
  exact absurd (hstored.symm.trans hopen) (by decide)

end BatMarkets
