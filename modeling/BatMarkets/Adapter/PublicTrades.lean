import BatMarkets.Binance.Private
import BatMarkets.Bybit.Private
import BatMarkets.Mexc.Private
import BatMarkets.Ordered.Coalesce

/-!
# Public trades

The trades in the public messages of the three venues (`parse_public`), and the window of recent
trades that the engine keeps of them.  Binance sends one trade in a message and Bybit and MEXC send
several; a message of another kind has no trades here.  The trades of MEXC have no ids: the adapter
makes one up from the time of the trade and its place in the message.  For a trade without a time
the clock is read twice.

What is the same trade is known to the venue alone.  A `TradeFrame` therefore comes with the trades
of the venue that its records are about, which no code looks at.

## Main results

* `recentTrades_foldl_applyTrade` : the window of an instrument skips a trade with the id of the
  newest one.
* `recent_trades_faithful` : it holds the last distinct trades of the venue whenever, of two trades
  that follow each other, the second has the id of the first exactly when it has been delivered
  before; and if it has room for two trades, only then.
-/

namespace BatMarkets

open EngineState Ordered Wire

/-! ### Binance -/

namespace Binance

/-- A trade in a message of Binance. -/
structure AggTradeEvent where
  eventTime : TimestampMs
  symbol : String
  aggTradeId : Int64
  price : String
  quantity : String
  tradeTime : TimestampMs
  isBuyerMaker : Bool

/-- All fields of a trade of Binance are required. -/
def AggTradeEvent.read (value : Json) : Option AggTradeEvent := do
  let fields ← value.record ["E", "s", "a", "p", "q", "T", "m"]
  return {
    eventTime := ← Json.required fields "E" Json.asInt64
    symbol := ← Json.required fields "s" Json.asStr
    aggTradeId := ← Json.required fields "a" Json.asInt64
    price := ← Json.required fields "p" Json.asStr
    quantity := ← Json.required fields "q" Json.asStr
    tradeTime := ← Json.required fields "T" Json.asInt64
    isBuyerMaker := ← Json.required fields "m" Json.asBool }

/-- The message is read as the open interest of an instrument, before all else. -/
def isOpenInterestSnapshot (message : Json) : Bool :=
  ((do
    let fields ← message.record ["symbol", "openInterest", "time"]
    let _ ← Json.required fields "symbol" Json.asStr
    let _ ← Json.required fields "openInterest" Json.asStr
    Json.required fields "time" Json.asI64) : Option Int).isSome

/-- A trade of Binance in the units of its instrument. -/
def fastTrade (catalog : InstrumentCatalog) (event : AggTradeEvent) :
    Except MarketError FastTrade := do
  let spec ← requireNativeSymbol .binance catalog event.symbol
  let price ← (⟨← parseDecimal event.price⟩ : Price).quantize spec.priceScale
  let quantity ← (⟨← parseDecimal event.quantity⟩ : Quantity).quantize spec.qtyScale
  return {
    instrumentId := spec.instrumentId, tradeId := ⟨toString event.aggTradeId.toInt⟩, price,
    quantity, aggressorSide := if event.isBuyerMaker then .seller else .buyer
    eventTime := event.tradeTime }

/-- The trade in a message of Binance, if it is about one. -/
def parsePublicTrades (catalog : InstrumentCatalog) (message : Json) :
    Except MarketError (List FastTrade) :=
  if isOpenInterestSnapshot message then .ok []
  else match message.tagged "e" with
    | some ("aggTrade", record) =>
      match AggTradeEvent.read record with
      | some event => return [← fastTrade catalog event]
      | none => .error <| ((decodeFailure "failed to parse binance public payload").withVenue
          .binance .linearUsdt).withOperation "binance.parse_native_public"
    | _ => .ok []

end Binance

/-! ### Bybit -/

namespace Bybit

/-- A trade in a message of Bybit. -/
structure PublicTradeData where
  tradeTime : TimestampMs
  symbol : String
  side : String
  quantity : String
  price : String
  tradeId : String

/-- All fields of a trade of Bybit are required. -/
def PublicTradeData.read (value : Json) : Option PublicTradeData := do
  let fields ← value.record ["T", "s", "S", "v", "p", "i"]
  return {
    tradeTime := ← Json.required fields "T" Json.asInt64
    symbol := ← Json.required fields "s" Json.asStr
    side := ← Json.required fields "S" Json.asStr
    quantity := ← Json.required fields "v" Json.asStr
    price := ← Json.required fields "p" Json.asStr
    tradeId := ← Json.required fields "i" Json.asStr }

/-- The topic and the data of a public message. -/
def readPublicEnvelope (value : Json) : Option (String × Json) := do
  let fields ← value.recordOf ["topic", "type", "ts", "data"] 4
  let topic ← Json.required fields "topic" Json.asStr
  let _ ← Json.optional fields "type" Json.asStr
  let _ ← Json.defaulted fields "ts" Json.asInt64 0
  return (topic, ← Json.required fields "data" some)

/-- The side that took liquidity, as Bybit writes it. -/
def parseAggressor (raw : String) : Except MarketError AggressorSide :=
  match raw with
  | "Buy" => .ok .buyer
  | "Sell" => .ok .seller
  | other => .error (unsupportedWord "trade side" other)

/-- A trade of Bybit in the units of its instrument. -/
def fastTrade (catalog : InstrumentCatalog) (trade : PublicTradeData) :
    Except MarketError FastTrade := do
  let spec ← requireNativeSymbol .bybit catalog trade.symbol
  let price ← (⟨← parseDecimal trade.price⟩ : Price).quantize spec.priceScale
  let quantity ← (⟨← parseDecimal trade.quantity⟩ : Quantity).quantize spec.qtyScale
  let aggressorSide ← parseAggressor trade.side
  return {
    instrumentId := spec.instrumentId, tradeId := ⟨trade.tradeId⟩, price, quantity, aggressorSide
    eventTime := trade.tradeTime }

/-- The trades in a message of Bybit; one bad trade refuses the message. -/
def parsePublicTrades (catalog : InstrumentCatalog) (message : Json) :
    Except MarketError (List FastTrade) :=
  match readPublicEnvelope message with
  | none => .error <| ((decodeFailure "failed to parse bybit public payload").withVenue
      .bybit .linearUsdt).withOperation "bybit.parse_native_public"
  | some (topic, data) =>
    if topic.startsWith "publicTrade." then do
      let trades ← fromValue (Json.each PublicTradeData.read) data
      trades.mapM (fastTrade catalog)
    else .ok []

end Bybit

/-! ### MEXC -/

namespace Mexc

/-- A deal in a message of MEXC, whose numbers have several spellings. -/
structure DealData where
  price : Json
  quantity : Json
  side : Int64
  time : Option TimestampMs

/-- A deal needs no time. -/
def DealData.read (value : Json) : Option DealData := do
  let fields ← value.record ["p", "v", "T", "t"]
  return {
    price := ← Json.required fields "p" some
    quantity := ← Json.required fields "v" some
    side := ← Json.required fields "T" Json.asInt64
    time := ← Json.optional fields "t" Json.asInt64 }

/-- The trade of a record; `now` are the times of the clock when it is asked for the id, and when it
is asked for the time of the trade. -/
def tradeToUnified (deal : DealData) (spec : InstrumentSpec) (index : ℕ)
    (now : TimestampMs × TimestampMs) : Except Failure TradeTick := do
  let price ← decimalFromValue deal.price
  let quantity ← decimalFromValue deal.quantity
  return {
    instrumentId := spec.instrumentId
    tradeId := ⟨toString (deal.time.getD now.1).toInt ++ "-" ++ toString index⟩
    price := ⟨price⟩
    quantity := ⟨quantity⟩
    aggressorSide := if deal.side = 1 then .buyer else .seller
    eventTime := deal.time.getD now.2 }

/-- A deal of MEXC in the units of its instrument. -/
def fastTrade (deal : DealData) (spec : InstrumentSpec) (index : ℕ)
    (now : TimestampMs × TimestampMs) : Except Failure FastTrade := do
  let trade ← tradeToUnified deal spec index now
  let price ← (trade.price.quantize spec.priceScale).mapError .error
  let quantity ← (trade.quantity.quantize spec.qtyScale).mapError .error
  return {
    instrumentId := trade.instrumentId, tradeId := trade.tradeId, price, quantity
    aggressorSide := trade.aggressorSide, eventTime := trade.eventTime }

/-- The records of a message: a list of them, or a single one. -/
def decodeMexcWsDeals (data : Json) : Except MarketError (List DealData) :=
  match data with
  | .array items =>
    match items.mapM DealData.read with
    | some deals => .ok deals
    | none => .error (decodeMessage "failed to decode mexc deal ws array")
  | value =>
    match DealData.read value with
    | some deal => .ok [deal]
    | none => .error (decodeMessage "failed to decode mexc deal ws")

/-- The trades in a message of MEXC.  The clock is that of each deal in turn. -/
def parsePublicTrades (catalog : InstrumentCatalog) (clock : ℕ → TimestampMs × TimestampMs)
    (message : Json) : Except Failure (List FastTrade) :=
  match PublicEnvelope.read message with
  | none => .error (.error (decodeMessage "failed to parse mexc public payload"))
  | some envelope =>
    if envelope.channel = "push.deal" then
      match envelope.symbol with
      | none => .error (.error (decodeMessage "mexc deal websocket payload missing symbol"))
      | some symbol => do
        let spec ← Mexc.requireNativeSymbol catalog symbol
        let deals ← (decodeMexcWsDeals envelope.data).mapError .error
        deals.zipIdx.mapM fun (deal, index) => fastTrade deal spec index (clock index)
    else .ok []

end Mexc

/-! ### Frames -/

/-- A public message with the times of the clock while it is parsed, and with the trades of the
venue that its records are about, in order. -/
structure TradeFrame (ι : Type) where
  message : Json
  clock : ℕ → TimestampMs × TimestampMs
  trade : ℕ → ι

/-- The trades in a message, by venue. -/
def parsePublicTrades (venue : Venue) (catalog : InstrumentCatalog)
    (clock : ℕ → TimestampMs × TimestampMs) (message : Json) : Except Failure (List FastTrade) :=
  match venue with
  | .binance => (Binance.parsePublicTrades catalog message).mapError .error
  | .bybit => (Bybit.parsePublicTrades catalog message).mapError .error
  | .mexc => Mexc.parsePublicTrades catalog clock message

/-- The trades of a frame that can be parsed. -/
def TradeFrame.trades {ι : Type} (frame : TradeFrame ι) (venue : Venue)
    (catalog : InstrumentCatalog) : List (ι × FastTrade) :=
  (((parsePublicTrades venue catalog frame.clock frame.message).toOption.getD []).zipIdx).map
    fun (trade, index) => (frame.trade index, trade)

/-! ### The window of the engine -/

/-- Apply a trade; one that cannot be applied changes nothing. -/
def applyTrade (s : EngineState) (trade : FastTrade) : EngineState :=
  stateAfter ((applyPublicEvent (.trade trade)).run s)

/-- What the engine stores of a trade, if it can. -/
def storedTick (instruments : Index InstrumentSpec.instrumentId) (trade : FastTrade) :
    Option TradeTick :=
  (instruments.get? trade.instrumentId).bind fun spec => (trade.toUnified spec).toOption

/-- What the engine stores of the trades of an instrument. -/
def ticksTo (instruments : Index InstrumentSpec.instrumentId) (i : InstrumentId)
    (trades : List FastTrade) : List TradeTick :=
  (trades.filterMap (storedTick instruments)).filter (·.instrumentId = i)

/-- The same, with the trades of the venue. -/
def deliveredTo {ι : Type} (instruments : Index InstrumentSpec.instrumentId)
    (i : InstrumentId) (trades : List (ι × FastTrade)) : List (ι × TradeTick) :=
  (trades.filterMap fun delivered => (storedTick instruments delivered.2).map (delivered.1, ·)).filter
    (·.2.instrumentId = i)

theorem map_snd_deliveredTo {ι : Type} (instruments : Index InstrumentSpec.instrumentId)
    (i : InstrumentId) (trades : List (ι × FastTrade)) :
    (deliveredTo instruments i trades).map (·.2) = ticksTo instruments i (trades.map (·.2)) := by
  induction trades with
  | nil => rfl
  | cons delivered trades ih =>
    unfold deliveredTo ticksTo at ih ⊢
    cases htick : storedTick instruments delivered.2 with
    | none => simpa [htick] using ih
    | some tick =>
      by_cases hi : tick.instrumentId = i
      · simpa [htick, hi] using ih
      · simpa [htick, hi] using ih

section Window

variable {s : EngineState} {i : InstrumentId}

/-- The window of an instrument, which is empty at first. -/
abbrev window (s : EngineState) (i : InstrumentId) : List TradeTick := s.recentTrades[i]?.getD []

theorem window_pushTrade (j : InstrumentId) (tick : TradeTick) :
    window (pushTrade j tick s) i =
      if j = i then coalesce TradeTick.tradeId s.statePolicy.recentTradeCapacity (window s i) tick
      else window s i := by
  by_cases hj : j = i
  · subst hj
    rw [if_pos rfl]
    by_cases hnewest : (window s j).getLast?.map (·.tradeId) = some tick.tradeId
    · rw [coalesce_of_eq hnewest, pushTrade, if_pos hnewest]
    · rw [coalesce_of_ne hnewest, pushTrade, if_neg hnewest]
      simp [window]
  · rw [if_neg hj]
    unfold pushTrade
    dsimp only
    split
    · rfl
    · simp [window, Std.ExtTreeMap.getElem?_insert, hj]

theorem instrumentId_of_toUnified {trade : FastTrade} {spec : InstrumentSpec} {tick : TradeTick}
    (h : trade.toUnified spec = .ok tick) : tick.instrumentId = trade.instrumentId := by
  unfold FastTrade.toUnified at h
  obtain ⟨price, -, h⟩ := except_bind_eq_ok.1 h
  obtain ⟨quantity, -, h⟩ := except_bind_eq_ok.1 h
  obtain rfl := Except.ok.inj h
  rfl

/-- What a trade does to the window of an instrument. -/
theorem window_applyTrade (trade : FastTrade) :
    window (applyTrade s trade) i = (ticksTo s.instruments i [trade]).foldl
      (coalesce TradeTick.tradeId s.statePolicy.recentTradeCapacity) (window s i) := by
  have hrun : (applyPublicEvent (.trade trade)).run s = _ := applyFast_run
  unfold applyTrade
  rw [hrun]
  cases hspec : s.instruments.get? trade.instrumentId with
  | none =>
    have hticks : ticksTo s.instruments i [trade] = [] := by simp [ticksTo, storedTick, hspec]
    rw [hticks]
    rfl
  | some spec =>
    cases htick : trade.toUnified spec with
    | error e =>
      have hticks : ticksTo s.instruments i [trade] = [] := by
        simp [ticksTo, storedTick, hspec, htick, Except.toOption]
      simp only [hticks, htick]
      rfl
    | ok tick =>
      have hid := instrumentId_of_toUnified htick
      have hstored : storedTick s.instruments trade = some tick := by
        simp [storedTick, hspec, htick, Except.toOption]
      have hticks : ticksTo s.instruments i [trade] =
          if trade.instrumentId = i then [tick] else [] := by
        by_cases hi : trade.instrumentId = i <;> simp [ticksTo, hstored, hid, hi]
      simp only [htick]
      show window (pushTrade trade.instrumentId tick (s.observePublicMessage trade.eventTime)) i = _
      rw [window_pushTrade, hticks]
      split <;> rfl

/-- A trade changes neither the instruments nor the sizes of the windows. -/
theorem applyTrade_keeps (s : EngineState) (trade : FastTrade) :
    (applyTrade s trade).instruments = s.instruments ∧
      (applyTrade s trade).statePolicy = s.statePolicy := by
  refine stateAfter_applyFast (P := fun t => t.instruments = s.instruments ∧
    t.statePolicy = s.statePolicy) ⟨rfl, rfl⟩ fun _ _ _ _ => ?_
  unfold pushTrade
  dsimp only
  split <;> exact ⟨rfl, rfl⟩

theorem ticksTo_cons (instruments : Index InstrumentSpec.instrumentId) (trade : FastTrade)
    (trades : List FastTrade) :
    ticksTo instruments i (trade :: trades) =
      ticksTo instruments i [trade] ++ ticksTo instruments i trades := by
  unfold ticksTo
  rw [← List.filter_append, ← List.filterMap_append]
  rfl

/-- **What trades do to the window**: each that is stored is appended, unless it has the id of the
newest one. -/
theorem recentTrades_foldl_applyTrade (trades : List FastTrade) :
    window (trades.foldl applyTrade s) i = (ticksTo s.instruments i trades).foldl
      (coalesce TradeTick.tradeId s.statePolicy.recentTradeCapacity) (window s i) := by
  induction trades generalizing s with
  | nil => rfl
  | cons trade trades ih =>
    obtain ⟨hinstruments, hpolicy⟩ := applyTrade_keeps s trade
    rw [List.foldl_cons, ih, window_applyTrade, hinstruments, hpolicy, ← List.foldl_append,
      ← ticksTo_cons]

end Window

/-! ### The recent trades of a venue -/

section Faithful

variable {ι : Type} [DecidableEq ι] (venue : Venue) (product : Product) (policy : StatePolicy)
  (specs : List InstrumentSpec) (i : InstrumentId) (frames : List (TradeFrame ι))

/-- All trades of the frames, in the order in which they are delivered. -/
def deliveries : List (ι × FastTrade) :=
  frames.flatMap fun frame => frame.trades venue (.new specs)

/-- After every trade that is delivered, the recent trades of the instrument are the last of its
distinct trades, in the order in which they were delivered first. -/
def RecentTradesFaithful : Prop :=
  ∀ trades, trades <+: deliveries venue specs frames →
    window ((trades.map (·.2)).foldl applyTrade (.new venue product policy specs)) i =
      trimFront policy.recentTradeCapacity
        ((firsts (·.1) (deliveredTo (.collect specs) i trades)).map (·.2))

/-- Of two trades of the instrument that follow each other, the second has the id of the first
exactly when it has been delivered before. -/
def TradesCoalesce : Prop :=
  Coalesces (TradeTick.tradeId ∘ Prod.snd) Prod.fst
    (deliveredTo (.collect specs) i (deliveries venue specs frames))

variable {venue product policy specs i frames}

omit [DecidableEq ι] in
theorem deliveredTo_isPrefix {trades trades' : List (ι × FastTrade)} (h : trades <+: trades') :
    deliveredTo (.collect specs) i trades <+: deliveredTo (.collect specs) i trades' :=
  (h.filterMap _).filter _

omit [DecidableEq ι] in
theorem exists_prefix_deliveredTo {trades : List (ι × FastTrade)} {ticks : List (ι × TradeTick)}
    (h : ticks <+: deliveredTo (.collect specs) i trades) :
    ∃ trades', trades' <+: trades ∧ deliveredTo (.collect specs) i trades' = ticks := by
  obtain ⟨some', hsome, rfl⟩ := List.prefix_filter_iff.1 h
  obtain ⟨trades', htrades, rfl⟩ := List.prefix_filterMap_iff.1 hsome
  exact ⟨trades', htrades, rfl⟩

/-- **When the recent trades are faithful.** -/
theorem recent_trades_faithful (hcap : 1 ≤ policy.recentTradeCapacity) :
    (TradesCoalesce venue specs i frames →
      RecentTradesFaithful venue product policy specs i frames) ∧
    (2 ≤ policy.recentTradeCapacity → RecentTradesFaithful venue product policy specs i frames →
      TradesCoalesce venue specs i frames) := by
  have hwindow : ∀ trades : List (ι × FastTrade),
      window ((trades.map (·.2)).foldl applyTrade (.new venue product policy specs)) i =
        ((deliveredTo (.collect specs) i trades).map (·.2)).foldl
          (coalesce TradeTick.tradeId policy.recentTradeCapacity) [] := by
    intro trades
    rw [recentTrades_foldl_applyTrade, map_snd_deliveredTo]
    rfl
  constructor
  · intro h trades htrades
    have hkeys := foldl_coalesce hcap (h.of_prefix (deliveredTo_isPrefix htrades))
    rw [hwindow, ← map_trimFront, ← hkeys, map_foldl_coalesce]
    rfl
  · intro htwo h
    refine coalesces_of_foldl Prod.snd htwo fun ticks hticks => ?_
    obtain ⟨trades, htrades, rfl⟩ := exists_prefix_deliveredTo hticks
    rw [← h trades htrades, hwindow]

end Faithful

/-! ### Two trades in one millisecond -/

/-- A message of MEXC about one trade of BTC at the time 1000. -/
def mexcDeal (price : Int) : Json :=
  .object [("channel", .string "push.deal"), ("symbol", .string "BTC_USDT"),
    ("data", .object [("p", .integer price), ("v", .integer 1), ("T", .integer 1),
      ("t", .integer 1000)])]

/-- Two trades of the venue, with the numbers 1 and 2, in two messages. -/
def dealFrames : List (TradeFrame ℕ) :=
  [⟨mexcDeal 100, fun _ => (0, 0), fun _ => 1⟩, ⟨mexcDeal 101, fun _ => (0, 0), fun _ => 2⟩]

/-- BTC at MEXC, with one digit of price and three of quantity. -/
def mexcListed : InstrumentSpec := .active .mexc "BTC/USDT:USDT" "BTCUSDT" 1 3

/-- Of two trades of MEXC in one millisecond, in messages of their own, the second is lost. -/
theorem same_millisecond_trades_merged :
    ¬ ∀ (venue : Venue) (product : Product) (policy : StatePolicy) (specs : List InstrumentSpec)
      (i : InstrumentId) (frames : List (TradeFrame ℕ)), 1 ≤ policy.recentTradeCapacity →
        RecentTradesFaithful venue product policy specs i frames := by
  intro h
  have hfaithful := h .mexc .linearUsdt ⟨16, 16⟩ [mexcListed] ⟨"BTC/USDT:USDT"⟩ dealFrames
    (by decide) _ (List.prefix_refl _)
  have hone : (window (((deliveries .mexc [mexcListed] dealFrames).map (·.2)).foldl applyTrade
      (.new .mexc .linearUsdt ⟨16, 16⟩ [mexcListed])) ⟨"BTC/USDT:USDT"⟩).length = 1 := by
    decide +kernel
  rw [hfaithful] at hone
  revert hone
  decide +kernel

/-- A message of Binance about one trade. -/
def binanceAggTrade (id price : Int) : Json :=
  .object [("e", .string "aggTrade"), ("E", .integer 1), ("s", .string "BTCUSDT"),
    ("a", .integer id), ("p", .string (toString price)), ("q", .string "1"), ("T", .integer 1),
    ("m", .bool false)]

/-- A trade of Binance that is delivered twice. -/
def repeatedFrames : List (TradeFrame ℕ) :=
  List.replicate 2 ⟨binanceAggTrade 7 100, fun _ => (0, 0), fun _ => 7⟩

/-- A trade that is delivered twice in a row is kept once. -/
theorem recent_trades_faithful_repeated :
    RecentTradesFaithful .binance .linearUsdt ⟨16, 16⟩
      [.active .binance "BTC/USDT:USDT" "BTCUSDT" 1 3] ⟨"BTC/USDT:USDT"⟩ repeatedFrames := by
  have hsame : ∀ delivered ∈ deliveredTo
      (.collect [.active .binance "BTC/USDT:USDT" "BTCUSDT" 1 3]) ⟨"BTC/USDT:USDT"⟩
      (deliveries .binance [.active .binance "BTC/USDT:USDT" "BTCUSDT" 1 3] repeatedFrames),
      delivered.1 = 7 ∧ delivered.2.tradeId = ⟨"7"⟩ := by
    decide +kernel
  refine (recent_trades_faithful (by decide)).1 fun ys x y hpre => ?_
  have hx := hsame x (hpre.subset (by simp))
  have hy := hsame y (hpre.subset (by simp))
  simp [hx, hy]

end BatMarkets
