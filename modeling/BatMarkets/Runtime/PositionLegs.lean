import BatMarkets.Runtime.ClosedPositions

/-!
# The legs of a position

In hedge mode a venue has two positions of one instrument, its legs, and the adapters give them
different position ids.  The engine state keeps positions by their instruments, so the last leg that
arrives takes the place of the other one, whether the legs come in a snapshot or as events.

## Main results

* `Binance.mem_accountPositions` : which positions an account snapshot of Binance is decoded to.
* `Binance.legs_of_snapshots`, `Binance.legs_of_updates`, `Bybit.legs_of_records` : the records of
  both sides of a symbol are decoded into legs.
* `legs_kept_iff` : positions with different ids all stay exactly when their instruments differ, and
  `close_position` takes the last one of an instrument.
* `hedge_legs_overwritten` : a long and a short leg of Bybit in one message.
-/

namespace BatMarkets

open CommandM Interleaving Ordered

/-! ### The records -/

/-- Two positions of one instrument with ids of their own. -/
structure Legs (p p' : Position) : Prop where
  instrumentId : p.instrumentId = p'.instrumentId
  positionId : p.positionId ≠ p'.positionId

namespace Binance

/-- A position in the account of Binance. -/
structure AccountPositionSnapshot where
  symbol : String
  positionAmount : String
  entryPrice : Option String
  unrealizedProfit : Option String
  leverage : Option String
  marginType : Option String
  isolated : Option Bool
  isolatedMargin : Option String
  isolatedWallet : Option String
  positionSide : String

/-- The margin mode of a position: it may be named, flagged, or follow from its margin. -/
def parseMarginModeSnapshot (raw : Option String) (isolated : Option Bool)
    (isolatedMargin isolatedWallet : Option String) : Except MarketError MarginMode :=
  match raw, isolated with
  | some raw, _ => parseMarginMode raw
  | none, some isolated => .ok (if isolated then .isolated else .cross)
  | none, none => do
    let isolatedMargin ← parseOptionalDecimal isolatedMargin
    let isolatedWallet ← parseOptionalDecimal isolatedWallet
    if isolatedMargin.isSome || isolatedWallet.isSome then
      return if (isolatedMargin.getD 0).isZero && (isolatedWallet.getD 0).isZero then .cross
        else .isolated
    else .error (decodeFailure "missing binance margin mode in account snapshot")

/-- The position of an account snapshot. -/
def positionFromAccountSnapshot (catalog : InstrumentCatalog) (position : AccountPositionSnapshot)
    (observedAt : TimestampMs) (size : Decimal) : Except MarketError Position := do
  let spec ← requireNativeSymbol .binance catalog position.symbol
  let entryPrice ← parseOptionalDecimal position.entryPrice
  let unrealizedPnl ← position.unrealizedProfit.mapM balanceAmount
  let leverage ← parseOptionalDecimal position.leverage
  let marginMode ← parseMarginModeSnapshot position.marginType position.isolated
    position.isolatedMargin position.isolatedWallet
  return {
    positionId := ⟨"binance:" ++ position.symbol ++ ":" ++ position.positionSide⟩
    instrumentId := spec.instrumentId
    direction := decimalDirection size
    size := ⟨size.abs⟩
    entryPrice := entryPrice.map DecimalValue.mk
    markPrice := none
    unrealizedPnl
    leverage := leverage.map DecimalValue.mk
    marginMode
    positionMode := parsePositionMode position.positionSide
    updatedAt := observedAt }

/-- The positions of an account snapshot; those without a size are left out. -/
def accountPositions (catalog : InstrumentCatalog) (positions : List AccountPositionSnapshot)
    (observedAt : TimestampMs) : Except MarketError (List Position) :=
  positions.filterMapM fun position => do
    let size ← parseDecimal position.positionAmount
    if size.isZero then return none
    else return some (← positionFromAccountSnapshot catalog position observedAt size)

variable {catalog : InstrumentCatalog} {observedAt : TimestampMs} {size size' : Decimal}
  {p p' : Position}

/-- The ids of the two sides of a symbol differ. -/
theorem positionId_ne {symbol side side' : String} (hside : side ≠ side') :
    (⟨"binance:" ++ symbol ++ ":" ++ side⟩ : PositionId) ≠
      ⟨"binance:" ++ symbol ++ ":" ++ side'⟩ := by
  intro h
  have htext := congrArg StringId.asStr h
  exact hside ((String.append_right_inj _).1 htext)

/-- The instrument and the id of a position of a snapshot. -/
theorem of_positionFromAccountSnapshot {position : AccountPositionSnapshot}
    (h : positionFromAccountSnapshot catalog position observedAt size = .ok p) :
    (∃ spec, requireNativeSymbol .binance catalog position.symbol = .ok spec ∧
      p.instrumentId = spec.instrumentId) ∧
    p.positionId = ⟨"binance:" ++ position.symbol ++ ":" ++ position.positionSide⟩ := by
  obtain ⟨spec, hspec, h⟩ := except_bind_eq_ok.1 h
  obtain ⟨entryPrice, -, h⟩ := except_bind_eq_ok.1 h
  obtain ⟨unrealizedPnl, -, h⟩ := except_bind_eq_ok.1 h
  obtain ⟨leverage, -, h⟩ := except_bind_eq_ok.1 h
  obtain ⟨marginMode, -, h⟩ := except_bind_eq_ok.1 h
  obtain rfl := Except.ok.inj h
  exact ⟨⟨spec, hspec, rfl⟩, rfl⟩

/-- The instrument and the id of a position of an account update. -/
theorem of_positionFromUpdate {position : AccountPosition}
    (h : positionFromUpdate catalog observedAt position = .ok p) :
    (∃ spec, requireNativeSymbol .binance catalog position.symbol = .ok spec ∧
      p.instrumentId = spec.instrumentId) ∧
    p.positionId = ⟨"binance:" ++ position.symbol ++ ":" ++ position.positionSide⟩ := by
  obtain ⟨spec, hspec, h⟩ := except_bind_eq_ok.1 h
  obtain ⟨size, -, h⟩ := except_bind_eq_ok.1 h
  obtain ⟨entryPrice, -, h⟩ := except_bind_eq_ok.1 h
  obtain ⟨unrealizedPnl, -, h⟩ := except_bind_eq_ok.1 h
  obtain ⟨marginMode, -, h⟩ := except_bind_eq_ok.1 h
  obtain rfl := Except.ok.inj h
  exact ⟨⟨spec, hspec, rfl⟩, rfl⟩

/-- The positions of an account snapshot are decoded from its records, each by itself. -/
theorem mem_accountPositions {positions : List AccountPositionSnapshot} {ps : List Position}
    (h : accountPositions catalog positions observedAt = .ok ps) :
    p ∈ ps ↔ ∃ position ∈ positions, ∃ size, parseDecimal position.positionAmount = .ok size ∧
      size.isZero = false ∧ positionFromAccountSnapshot catalog position observedAt size = .ok p := by
  refine (mem_of_filterMapM h).trans (exists_congr fun position => and_congr_right fun _ => ?_)
  rw [except_bind_eq_ok]
  refine exists_congr fun size => and_congr_right fun _ => ?_
  cases hzero : size.isZero with
  | true => exact ⟨fun h => (nomatch h), fun h => (nomatch h.1)⟩
  | false =>
    simp only [Bool.false_eq_true, if_false, except_bind_eq_ok, true_and]
    constructor
    · rintro ⟨x, hx, hp⟩
      cases hp
      exact hx
    · exact fun hp => ⟨p, hp, rfl⟩

/-- An account snapshot has a leg for each side of a symbol. -/
theorem legs_of_snapshots {position position' : AccountPositionSnapshot}
    (h : positionFromAccountSnapshot catalog position observedAt size = .ok p)
    (h' : positionFromAccountSnapshot catalog position' observedAt size' = .ok p')
    (hsymbol : position.symbol = position'.symbol)
    (hside : position.positionSide ≠ position'.positionSide) : Legs p p' := by
  obtain ⟨⟨spec, hspec, hi⟩, hid⟩ := of_positionFromAccountSnapshot h
  obtain ⟨⟨spec', hspec', hi'⟩, hid'⟩ := of_positionFromAccountSnapshot h'
  rw [← hsymbol] at hspec' hid'
  obtain rfl := Except.ok.inj (hspec.symm.trans hspec')
  refine ⟨hi.trans hi'.symm, ?_⟩
  rw [hid, hid']
  exact positionId_ne hside

/-- An account update has a leg for each side of a symbol. -/
theorem legs_of_updates {position position' : AccountPosition}
    (h : positionFromUpdate catalog observedAt position = .ok p)
    (h' : positionFromUpdate catalog observedAt position' = .ok p')
    (hsymbol : position.symbol = position'.symbol)
    (hside : position.positionSide ≠ position'.positionSide) : Legs p p' := by
  obtain ⟨⟨spec, hspec, hi⟩, hid⟩ := of_positionFromUpdate h
  obtain ⟨⟨spec', hspec', hi'⟩, hid'⟩ := of_positionFromUpdate h'
  rw [← hsymbol] at hspec' hid'
  obtain rfl := Except.ok.inj (hspec.symm.trans hspec')
  refine ⟨hi.trans hi'.symm, ?_⟩
  rw [hid, hid']
  exact positionId_ne hside

end Binance

namespace Bybit

variable {catalog : InstrumentCatalog} {observedAt : TimestampMs} {p p' : Position}

/-- The instrument and the id of a position, in a snapshot or in a message. -/
theorem of_positionFromSnapshot {position : PositionData}
    (h : positionFromSnapshot catalog position observedAt = .ok p) :
    (∃ spec, requireNativeSymbol .bybit catalog position.symbol = .ok spec ∧
      p.instrumentId = spec.instrumentId) ∧
    p.positionId = ⟨"bybit:" ++ position.symbol ++ ":" ++ toString position.positionIdx⟩ := by
  obtain ⟨spec, hspec, h⟩ := except_bind_eq_ok.1 h
  obtain ⟨side, -, h⟩ := except_bind_eq_ok.1 h
  obtain ⟨size, -, h⟩ := except_bind_eq_ok.1 h
  obtain ⟨entryPrice, -, h⟩ := except_bind_eq_ok.1 h
  obtain ⟨unrealizedPnl, -, h⟩ := except_bind_eq_ok.1 h
  obtain ⟨leverage, -, h⟩ := except_bind_eq_ok.1 h
  obtain rfl := Except.ok.inj h
  exact ⟨⟨spec, hspec, rfl⟩, rfl⟩

/-- The records of a symbol with different position indexes are decoded into legs. -/
theorem legs_of_records {position position' : PositionData}
    (h : positionFromSnapshot catalog position observedAt = .ok p)
    (h' : positionFromSnapshot catalog position' observedAt = .ok p')
    (hsymbol : position.symbol = position'.symbol)
    (hindex : position.positionIdx ≠ position'.positionIdx) : Legs p p' := by
  obtain ⟨⟨spec, hspec, hi⟩, hid⟩ := of_positionFromSnapshot h
  obtain ⟨⟨spec', hspec', hi'⟩, hid'⟩ := of_positionFromSnapshot h'
  rw [← hsymbol] at hspec' hid'
  obtain rfl := Except.ok.inj (hspec.symm.trans hspec')
  refine ⟨hi.trans hi'.symm, ?_⟩
  rw [hid, hid']
  intro heq
  have htext := (String.append_right_inj _).1 (congrArg StringId.asStr heq)
  exact hindex (UInt8.toNat_inj.1 (Text.toString_nat_injective htext))

end Bybit

/-! ### The engine state -/

namespace EngineState

/-- Apply positions as private events. -/
def applyPositions (s : EngineState) (ps : List Position) : EngineState :=
  (ps.map PrivateLaneEvent.position).foldl applyPrivateEvent s

theorem get?_replacePositions (s : EngineState) (ps : List Position) (i : InstrumentId) :
    (s.replacePositions ps).positionsById.get? i = lastOf Position.instrumentId i ps := by
  have hkept : (s.replacePositions ps).positionsById = .collect ps := by
    unfold replacePositions observeLatest
    split <;> rfl
  rw [hkept, Index.get?_collect]

theorem get?_applyPositions {s : EngineState} (hs : s.positions = []) (ps : List Position)
    (i : InstrumentId) :
    (s.applyPositions ps).positionsById.get? i = lastOf Position.instrumentId i ps := by
  have hnone : s.positionsById.get? i = none := by
    rw [Option.eq_none_iff_forall_ne_some]
    intro p hp
    have hkey := Index.key_of_get? hp
    have hmem : p ∈ s.positions := Index.mem_toVals_iff.2 (by rwa [hkey])
    rw [hs] at hmem
    cases hmem
  rw [applyPositions, get?_positionsById_foldl, PositionMessage.filterMap_position?_position, hnone,
    Option.or_none]

end EngineState

/-- The state holds all the positions, and `close_position` for one of them does not take another
one because it is gone. -/
structure LegsKept (s : EngineState) (ps : List Position) : Prop where
  held : ∀ p ∈ ps, p ∈ s.positions
  closed : ∀ p ∈ ps, ∀ context request q, request.instrumentId = p.instrumentId →
    TakesFromState context request s q → q = p ∨ p ∈ s.positions

section Legs

variable {ps : List Position} {s : EngineState}

/-- A state that has stored the list holds all of it exactly when the instruments differ. -/
theorem legsKept_iff (hids : (ps.map Position.positionId).Nodup)
    (hs : ∀ i, s.positionsById.get? i = lastOf Position.instrumentId i ps) :
    LegsKept s ps ↔ (ps.map Position.instrumentId).Nodup := by
  have hheld : (∀ p ∈ ps, p ∈ s.positions) ↔ (ps.map Position.instrumentId).Nodup := by
    rw [← forall_lastOf_iff_nodup hids.of_map]
    refine forall₂_congr fun p _ => ?_
    rw [EngineState.positions, Index.mem_toVals_iff, hs]
  rw [← hheld]
  exact ⟨fun h => h.held, fun h => ⟨h, fun p hp _ _ _ _ _ => .inr (h p hp)⟩⟩

/-- What `close_position` takes from such a state is the last one of the instrument. -/
theorem lastOf_of_takesFromState {context : CommandContext} {request : ClosePositionRequest}
    {q : Position} (hs : ∀ i, s.positionsById.get? i = lastOf Position.instrumentId i ps)
    (h : TakesFromState context request s q) :
    lastOf Position.instrumentId request.instrumentId ps = some q := by
  obtain ⟨hfind, -⟩ := Option.filter_eq_some_iff.1 (takesFromState_iff.1 h)
  have hid : q.instrumentId = request.instrumentId := by simpa using List.find?_some hfind
  have hheld : q ∈ s.positions := List.mem_of_find?_eq_some hfind
  rw [EngineState.positions, Index.mem_toVals_iff, hs, hid] at hheld
  exact hheld

end Legs

/-- **When no leg is lost.**  Positions with different ids that are stored as a snapshot, or as
events in a state without positions, are all kept exactly when their instruments differ; otherwise
`close_position` takes the last one of the instrument. -/
theorem legs_kept_iff {ps : List Position} (hids : (ps.map Position.positionId).Nodup) :
    (∀ s : EngineState,
      (LegsKept (s.replacePositions ps) ps ↔ (ps.map Position.instrumentId).Nodup) ∧
        ∀ context request q, TakesFromState context request (s.replacePositions ps) q →
          lastOf Position.instrumentId request.instrumentId ps = some q) ∧
    ∀ s : EngineState, s.positions = [] →
      (LegsKept (s.applyPositions ps) ps ↔ (ps.map Position.instrumentId).Nodup) ∧
        ∀ context request q, TakesFromState context request (s.applyPositions ps) q →
          lastOf Position.instrumentId request.instrumentId ps = some q := by
  refine ⟨fun s => ?_, fun s hs => ?_⟩
  · have hstored := s.get?_replacePositions ps
    exact ⟨legsKept_iff hids hstored, fun _ _ _ => lastOf_of_takesFromState hstored⟩
  · have hstored := EngineState.get?_applyPositions hs ps
    exact ⟨legsKept_iff hids hstored, fun _ _ _ => lastOf_of_takesFromState hstored⟩

/-! ### Two legs of Bybit -/

/-- A record of one side of BTC. -/
def bybitLeg (side : String) (positionIdx : UInt8) : Bybit.PositionData where
  symbol := "BTCUSDT"
  side := side
  size := "1"
  entryPrice := "65000"
  unrealisedPnl := "0"
  tradeMode := 0
  positionIdx := positionIdx
  leverage := none
  seq := none

theorem entryPrice_fits : 65000 < 2 ^ 96 := by decide

/-- The position of a leg. -/
def hedgeLeg (direction : PositionDirection) (positionId : String) : Position where
  positionId := ⟨positionId⟩
  instrumentId := ⟨"BTC/USDT:USDT"⟩
  direction := direction
  size := ⟨.ofNat 1 Decimal.one_fits⟩
  entryPrice := some ⟨.ofNat 65000 entryPrice_fits⟩
  markPrice := none
  unrealizedPnl := some ⟨.ofNat 0 Decimal.zero_fits⟩
  leverage := none
  marginMode := .cross
  positionMode := .hedge
  updatedAt := 1

/-- Both legs of a position in hedge mode. -/
def hedgeLegs : List Position :=
  [hedgeLeg .long "bybit:BTCUSDT:1", hedgeLeg .short "bybit:BTCUSDT:2"]

/-- The legs of two instruments are all kept. -/
theorem legs_kept_iff_apart :
    LegsKept ((EngineState.new .bybit .linearUsdt ⟨10, 10⟩ []).applyPositions
        [hedgeLeg .long "bybit:BTCUSDT:1", { hedgeLeg .short "bybit:ETHUSDT:2" with
          instrumentId := ⟨"ETH/USDT:USDT"⟩ }])
      [hedgeLeg .long "bybit:BTCUSDT:1", { hedgeLeg .short "bybit:ETHUSDT:2" with
        instrumentId := ⟨"ETH/USDT:USDT"⟩ }] :=
  ((legs_kept_iff (by decide)).2 _ (by decide +kernel)).1.2 (by decide)

/-- The adapter decodes both legs, and only the one that comes last is kept. -/
theorem hedge_legs_overwritten :
    [bybitLeg "Buy" 1, bybitLeg "Sell" 2].mapM
        (Bybit.positionFromSnapshot (.new [bybitBtc]) · 1) = .ok hedgeLegs ∧
      (hedgeLegs.map Position.positionId).Nodup ∧
      ¬ LegsKept ((EngineState.new .bybit .linearUsdt ⟨10, 10⟩ [bybitBtc]).replacePositions
        hedgeLegs) hedgeLegs := by
  refine ⟨by decide +kernel, by decide, ?_⟩
  rw [legsKept_iff (by decide) (EngineState.get?_replacePositions _ _)]
  decide

end BatMarkets
