import BatMarkets.Mexc.Exactness

/-!
# Decoding on MEXC

The adapter of MEXC has a function for each kind of reply and for the messages of the two streams
(`ParseCall`).  None is to panic, whatever the payload is, and the decimals that it returns are to be
the numbers in the payload; the specifications are to have scales with which later events can be
read.

`ParseCall.outcome` is the product of the outcomes of the records in the payload, in the order in
which they are read.

## Main results

* `Mexc.decoding_sound_iff` : a call does not panic and returns only what is right, exactly if its
  outcome is good.
* `Mexc.large_exponent_panics` : a price with an exponent of 40.
-/

namespace BatMarkets

open Decoding Wire

namespace Mexc

/-! ### Reading replies -/

/-- The data of a successful reply. -/
def replyData {α : Type} (readData : Json → Option α) (payload : Payload) : Option α := do
  let response ← payload.value?.bind (RestResponse.read readData)
  if response.success ∧ response.code = 0 then some response.data else none

theorem reads_responseData {α : Type} (readData : Json → Option α) (what : String)
    (payload : Payload) :
    Reads Failure.panic (responseData readData what payload) (replyData readData payload) := by
  unfold responseData replyData
  cases payload.value?.bind (RestResponse.read readData) with
  | none => exact ⟨_, by simp, rfl⟩
  | some response =>
    simp only [ensureSuccess, bind, Option.bind]
    split
    · exact rfl
    · exact ⟨_, by simp, rfl⟩

theorem reads_decodeRecord {α : Type} (read : Json → Option α) (what : String) (value : Json) :
    Reads Failure.panic (decodeRecord read what value) (read value) := by
  unfold decodeRecord
  cases read value with
  | none => exact ⟨_, by simp, rfl⟩
  | some a => rfl

theorem reads_fromValue {α : Type} (read : Json → Option α) (what : String) (value : Json) :
    Reads Failure.panic (fromValue read what value) (read value) := by
  unfold fromValue
  cases read value with
  | none => exact ⟨_, by simp, rfl⟩
  | some a => rfl

theorem reads_parseNativePublic (payload : Payload) :
    Reads Failure.panic (parseNativePublic payload)
      (payload.value?.bind PublicEnvelope.read) := by
  unfold parseNativePublic
  cases payload.value?.bind PublicEnvelope.read with
  | none => exact ⟨_, by simp, rfl⟩
  | some envelope => rfl

/-! ### Public data -/

section Replies

variable (catalog : InstrumentCatalog) (spec : InstrumentSpec) (payload : Payload)

/-- The contracts in a successful reply. -/
def replyContracts : Option (List ContractInfo) := do
  let response ← payload.value?.bind ContractsResponse.read
  if response.success ∧ response.code = 0 then some (accepted response.data) else none

/-- What decoding the metadata of a reply should give. -/
def metadataOutcome : Outcome :=
  (replyContracts payload).elim .refused fun contracts => (contracts.map ContractInfo.outcome).prod

theorem follows_parseMetadataSnapshot :
    Follows .panic (parseMetadataSnapshot payload) (metadataOutcome payload) fun specs =>
      ∃ contracts, replyContracts payload = some contracts ∧
        List.Forall₂ ContractInfo.Shows contracts specs := by
  unfold parseMetadataSnapshot metadataOutcome replyContracts
  cases payload.value?.bind ContractsResponse.read with
  | none => exact .refuse (by simp)
  | some response =>
    have hcontracts : Follows .panic (contractSpecs response.data)
        ((accepted response.data).map ContractInfo.outcome).prod
        (List.Forall₂ ContractInfo.Shows (accepted response.data)) :=
      .mapM fun contract _ => follows_contractToSpec contract
    by_cases hsuccess : response.success = true ∧ response.code = 0
    · simp only [ensureSuccess, bind, Option.bind, if_pos hsuccess, Option.elim, Option.some.injEq,
        exists_eq_left']
      exact hcontracts
    · simp only [ensureSuccess, bind, Option.bind, if_neg hsuccess, Option.elim]
      exact .refuse (by simp)

/-- The record of the instrument, in a reply with one or with several. -/
def replyTicker : Option TickerData := do
  let data ← replyData some payload
  let item ← (findSymbolObject data (mexcWireSymbol spec)).toOption
  TickerData.read item

/-- What decoding the ticker of a reply should give. -/
def tickerOutcome : Outcome := (replyTicker spec payload).elim .refused TickerData.outcome

theorem follows_parseTickerSnapshot (nowMs : TimestampMs) :
    Follows .panic (parseTickerSnapshot spec nowMs payload) (tickerOutcome spec payload) fun t =>
      ∃ ticker, replyTicker spec payload = some ticker ∧ ticker.Shows t :=
  (reads_responseData some "ticker" payload).chain fun data _ =>
    (reads_mapError (findSymbolObject data _)).chain fun item _ =>
      (reads_decodeRecord TickerData.read "ticker data" item).bind fun ticker _ =>
        follows_tickerToUnified ticker spec nowMs

/-- The tickers of the instruments in a list, with their specifications. -/
def listedTickers (specs : List InstrumentSpec) (data : Json) :
    List (TickerData × InstrumentSpec) :=
  (tickerItems data).filterMap (tickerWithSpec specs)

/-- What decoding the listed tickers of a reply should give. -/
def tickersOutcome (specs : List InstrumentSpec) : Outcome :=
  (replyData some payload).elim .refused fun data =>
    ((listedTickers specs data).map fun x => x.1.outcome).prod

theorem follows_parseTickersSnapshot (specs : List InstrumentSpec) (clock : ℕ → TimestampMs) :
    Follows .panic (parseTickersSnapshot specs clock payload) (tickersOutcome payload specs)
      fun ts => ∃ data, replyData some payload = some data ∧
        List.Forall₂ (fun x t => x.1.Shows t) (listedTickers specs data) ts :=
  (reads_responseData some "tickers" payload).bind fun _ _ =>
    .mapM_zipIdx fun (x : TickerData × InstrumentSpec) i =>
      follows_tickerToUnified x.1 x.2 (clock i)

/-- The deals in a reply. -/
def replyDeals : Option (List DealData) := replyData (Json.each DealData.read) payload

/-- What decoding the trades of a reply should give. -/
def tradesOutcome : Outcome :=
  (replyDeals payload).elim .refused fun deals => (deals.map DealData.outcome).prod

theorem follows_parseTradesSnapshot (clock : ℕ → TimestampMs × TimestampMs) :
    Follows .panic (parseTradesSnapshot spec clock payload) (tradesOutcome payload) fun ts =>
      ∃ deals, replyDeals payload = some deals ∧ List.Forall₂ DealData.Shows deals ts :=
  (reads_responseData _ _ payload).bind fun _ _ =>
    .mapM_zipIdx fun deal i => follows_tradeToUnified deal spec i (clock i)

/-- The bids are read before the asks. -/
def DepthData.outcome (depth : DepthData) : Outcome :=
  [(depth.bids.map levelOutcome).prod, (depth.asks.map levelOutcome).prod].prod

/-- The book has the numbers of the record, level by level. -/
@[mk_iff]
structure DepthData.Shows (depth : DepthData) (book : OrderBookSnapshot) : Prop where
  bids : List.Forall₂ LevelShows depth.bids book.bids
  asks : List.Forall₂ LevelShows depth.asks book.asks

/-- What decoding the book of a reply should give. -/
def orderBookOutcome : Outcome :=
  (replyData DepthData.read payload).elim .refused DepthData.outcome

theorem follows_parseOrderBookSnapshot (nowMs : TimestampMs) :
    Follows .panic (parseOrderBookSnapshot spec nowMs payload) (orderBookOutcome payload)
      fun book => ∃ depth, replyData DepthData.read payload = some depth ∧ depth.Shows book := by
  refine (reads_responseData _ _ payload).bind fun depth _ => ?_
  have hlevels (levels : List (List Json)) : Follows .panic (levels.mapM levelToBookLevel)
      (levels.map levelOutcome).prod (List.Forall₂ LevelShows levels) :=
    .mapM fun level _ => follows_levelToBookLevel level
  refine ⟨(hlevels _).describes.bind fun _ _ => (hlevels _).describes.bind fun _ _ => .ok _,
    fun book h => ?_⟩
  obtain ⟨bids, h₁, h⟩ := except_bind_eq_ok.1 h
  obtain ⟨asks, h₂, h⟩ := except_bind_eq_ok.1 h
  obtain rfl := Except.ok.inj h
  rw [DepthData.shows_iff, (hlevels _).right_iff _ h₁, (hlevels _).right_iff _ h₂]
  simp [DepthData.outcome]

/-- The interval and the entries, for a request that the adapter accepts. -/
def replyKlines (request : FetchOhlcvRequest) : Option (KlineInterval × List KlineEntry) := do
  let instrumentId ← request.singleInstrumentId.toOption
  let _ ← catalog.get instrumentId
  let interval ← klineInterval? request.interval
  let data ← replyData KlineRestData.read payload
  if data.consistent then some (interval, data.entries) else none

/-- What decoding the candles of a reply should give. -/
def ohlcvOutcome (request : FetchOhlcvRequest) : Outcome :=
  (replyKlines catalog payload request).elim .refused fun x =>
    (x.2.map (KlineEntry.outcome x.1)).prod

theorem toOption_parseKlineInterval (raw : String) :
    (parseKlineInterval raw).toOption = klineInterval? raw := by
  unfold parseKlineInterval
  cases klineInterval? raw <;> rfl

theorem follows_parseOhlcvSnapshot (request : FetchOhlcvRequest) :
    Follows .panic (parseOhlcvSnapshot catalog request payload)
      (ohlcvOutcome catalog payload request) fun klines =>
      ∃ x, replyKlines catalog payload request = some x ∧
        List.Forall₂ KlineEntry.Shows x.2 klines := by
  refine (reads_mapError request.singleInstrumentId).chain fun instrumentId _ => ?_
  dsimp only
  cases catalog.get instrumentId with
  | none => exact .refuse (by simp)
  | some spec =>
    have hinterval := reads_mapError (parseKlineInterval request.interval)
    rw [toOption_parseKlineInterval] at hinterval
    refine hinterval.chain fun interval _ => (reads_responseData _ _ payload).chain fun data _ => ?_
    have hentries : Follows .panic (data.entries.mapM (klineFromEntry instrumentId interval))
        (data.entries.map (KlineEntry.outcome interval)).prod
        (List.Forall₂ KlineEntry.Shows data.entries) :=
      .mapM fun entry _ => follows_klineFromEntry instrumentId interval entry
    cases hconsistent : data.consistent with
    | false => exact .refuse (by simp)
    | true =>
      simp only [if_true, Option.elim, Option.some.injEq, exists_eq_left']
      exact hentries

/-- What decoding the funding rate of a reply should give. -/
def fundingRateOutcome : Outcome :=
  (replyData FundingRateData.read payload).elim .refused fun data => valueOutcome data.fundingRate

theorem follows_parseFundingRateSnapshot (nowMs : TimestampMs) :
    Follows .panic (parseFundingRateSnapshot spec nowMs payload) (fundingRateOutcome payload)
      fun rate => ∃ data, replyData FundingRateData.read payload = some data ∧
        Denotes data.fundingRate rate.value.value :=
  (reads_responseData _ _ payload).bind fun data _ =>
    (follows_decimalFromValue data.fundingRate).last _ fun _ _ => .rfl

/-- The volume that is held; an absent one is nothing. -/
def openInterestOutcome : Outcome :=
  (replyTicker spec payload).elim .refused fun ticker => optionalOutcome ticker.holdVol

theorem follows_parseOpenInterestSnapshot (nowMs : TimestampMs) :
    Follows .panic (parseOpenInterestSnapshot spec nowMs payload)
      (openInterestOutcome spec payload) fun interest =>
      ∃ ticker, replyTicker spec payload = some ticker ∧
        Denotes (ticker.holdVol.getD .null) interest.value.value := by
  refine (reads_responseData _ _ payload).chain fun data _ =>
    (reads_mapError (findSymbolObject data _)).chain fun item _ =>
      (reads_decodeRecord TickerData.read _ item).bind fun ticker _ =>
        (follows_mapM_decimalFromValue ticker.holdVol).last _ fun value hvalue => ?_
  cases hheld : ticker.holdVol with
  | none =>
    rw [hheld] at hvalue
    obtain rfl : none = value := Except.ok.inj hvalue
    have hzero : (0 : Decimal).toRat = valueNumber .null := by decide +kernel
    exact iff_of_true hzero .none
  | some held =>
    rw [hheld] at hvalue
    obtain ⟨d, -, rfl⟩ := except_map_eq_ok.1 hvalue
    exact ⟨.some, fun h => by simpa using h⟩

/-! ### Private data -/

/-- The assets in a reply. -/
def replyAssets : Option (List AccountAsset) := replyData (Json.each AccountAsset.read) payload

/-- The totals begin with nothing. -/
def accountSnapshotOutcome : Outcome :=
  (replyAssets payload).elim .refused (accountOutcome ⟨0, 0, 0⟩)

theorem follows_parseAccountSnapshot (observedAt : TimestampMs) :
    Follows .panic (parseAccountSnapshot observedAt payload) (accountSnapshotOutcome payload)
      fun snapshot => ∃ assets, replyAssets payload = some assets ∧
        List.Forall₂ AccountAsset.Shows assets snapshot.balances := by
  refine (reads_responseData _ _ payload).bind fun assets _ => ?_
  have hzero : AccountTotals.numbers ⟨0, 0, 0⟩ = ⟨0, 0, 0⟩ := by
    simp [AccountTotals.numbers, Decimal.isZero_iff.1 (rfl : Decimal.isZero 0 = true)]
  have hbalances : Follows .panic (balancesOfAssets observedAt ⟨0, 0, 0⟩ assets)
    (accountOutcome (AccountTotals.numbers ⟨0, 0, 0⟩) assets)
    fun r => List.Forall₂ AccountAsset.Shows assets r.2 := follows_balancesOfAssets
  rw [hzero] at hbalances
  exact hbalances.last _ fun _ _ => .rfl

/-- The positions in a reply. -/
def replyPositions : Option (List PositionData) := replyData (Json.each PositionData.read) payload

/-- What decoding the open positions of a reply should give. -/
def positionsOutcome : Outcome :=
  (replyPositions payload).elim .refused fun positions =>
    (positions.map (PositionData.openOutcome catalog)).prod

/-- The positions whose size is not zero. -/
def openPositions (positions : List PositionData) : List PositionData :=
  positions.filter fun position => valueNumber (position.holdVol.getD .null) ≠ 0

/-- The sizes are numbers that decimals can be, and the open positions are shown. -/
structure PositionsShown (positions : List PositionData) (shown : List Position) : Prop where
  sizes : ∀ position ∈ positions, ¬ Unrepresentable (position.holdVol.getD .null)
  shown : List.Forall₂ PositionData.Shows (openPositions positions) shown

/-- The positions are shown one by one. -/
theorem positionsShown_iff {observedAt : TimestampMs} {positions : List PositionData}
    {opened : List (Option Position)}
    (h : List.Forall₂ (fun position o => openPosition catalog observedAt position = .ok o)
      positions opened) :
    PositionsShown positions opened.reduceOption ↔
      List.Forall₂ PositionData.ShowsOpen positions opened := by
  induction h with
  | nil => exact iff_of_true ⟨by simp, .nil⟩ .nil
  | @cons position o positions opened hopen _ ih =>
    rw [List.forall₂_cons, ← ih]
    cases o with
    | none =>
      rw [List.reduceOption_cons_of_none]
      have hclosed (hsize : ¬ Unrepresentable (position.holdVol.getD .null)) :
          openPositions (position :: positions) = openPositions positions := by
        have hzero := (isNone_openPosition hopen hsize).1 rfl
        simp [openPositions, hzero]
      constructor
      · intro h
        obtain ⟨hsize, hsizes⟩ := List.forall_mem_cons.1 h.sizes
        exact ⟨hsize, hsizes, hclosed hsize ▸ h.shown⟩
      · intro h
        exact ⟨List.forall_mem_cons.2 ⟨h.1, h.2.sizes⟩, (hclosed h.1).symm ▸ h.2.shown⟩
    | some p =>
      rw [List.reduceOption_cons_of_some]
      have hkept (hsize : ¬ Unrepresentable (position.holdVol.getD .null)) :
          openPositions (position :: positions) = position :: openPositions positions := by
        have hzero : valueNumber (position.holdVol.getD .null) ≠ 0 := fun hzero => by
          cases (isNone_openPosition hopen hsize).2 hzero
        simp [openPositions, hzero]
      constructor
      · intro h
        obtain ⟨hsize, hsizes⟩ := List.forall_mem_cons.1 h.sizes
        have hshown := h.shown
        rw [hkept hsize, List.forall₂_cons] at hshown
        exact ⟨hshown.1, hsizes, hshown.2⟩
      · intro h
        have hsize : ¬ Unrepresentable (position.holdVol.getD .null) := fun hnone =>
          hnone.2 (h.1.1 ▸ Decimal.representable_toRat _)
        exact ⟨List.forall_mem_cons.2 ⟨hsize, h.2.sizes⟩,
          (hkept hsize).symm ▸ List.forall₂_cons.2 ⟨h.1, h.2.shown⟩⟩

theorem follows_parsePositionsSnapshot (observedAt : TimestampMs) :
    Follows .panic (parsePositionsSnapshot catalog observedAt payload)
      (positionsOutcome catalog payload) fun shown =>
      ∃ positions, replyPositions payload = some positions ∧ PositionsShown positions shown :=
  (reads_responseData _ _ payload).bind fun _ _ =>
    (Follows.mapM fun _ _ => follows_openPosition).last List.reduceOption fun _ h =>
      positionsShown_iff catalog (mapM_eq_ok_iff.1 h)

/-- The orders in a reply with a list or a page of them. -/
def replyOrders : Option (List OrderData) := do
  let data ← replyData some payload
  match data with
  | .array items => Json.each OrderData.read (.array items)
  | data => readOrderPage data

theorem reads_parseOrderListPayload :
    Reads Failure.panic (parseOrderListPayload payload) (replyOrders payload) := by
  refine (reads_responseData some "order list" payload).andThen fun data => ?_
  cases data with
  | array items => exact reads_decodeRecord (Json.each OrderData.read) "order list" _
  | _ => exact reads_decodeRecord readOrderPage "order page" _

/-- What decoding the orders of a reply should give. -/
def ordersOutcome : Outcome :=
  (replyOrders payload).elim .refused fun orders => (orders.map (OrderData.outcome catalog)).prod

theorem follows_parseOpenOrdersSnapshot (observedAt : TimestampMs) :
    Follows .panic (parseOpenOrdersSnapshot catalog observedAt payload)
      (ordersOutcome catalog payload) fun os =>
      ∃ orders, replyOrders payload = some orders ∧ List.Forall₂ OrderData.Shows orders os := by
  refine (reads_parseOrderListPayload payload).bind fun orders _ => ?_
  exact .mapM fun order _ => follows_orderFromData catalog order observedAt

/-- The order in a successful reply. -/
def replyOrder : Option OrderData := do
  let response ← payload.value?.bind OrderResponse.read
  if response.success ∧ response.code = 0 then some response.data else none

/-- What decoding the one order of a reply should give. -/
def orderOutcome : Outcome := (replyOrder payload).elim .refused (OrderData.outcome catalog)

theorem follows_parseOrderSnapshot (observedAt : TimestampMs) :
    Follows .panic (parseOrderSnapshot catalog payload observedAt) (orderOutcome catalog payload)
      fun o => ∃ order, replyOrder payload = some order ∧ order.Shows o := by
  unfold parseOrderSnapshot orderOutcome replyOrder
  cases payload.value?.bind OrderResponse.read with
  | none => exact .refuse (by simp)
  | some response =>
    have horder := follows_orderFromData catalog response.data observedAt
    by_cases hsuccess : response.success = true ∧ response.code = 0
    · simp only [ensureSuccess, bind, Option.bind, if_pos hsuccess, Option.elim, Option.some.injEq,
        exists_eq_left']
      exact horder
    · simp only [ensureSuccess, bind, Option.bind, if_neg hsuccess, Option.elim]
      exact .refuse (by simp)

/-- The executions in a reply. -/
def replyExecutions : Option (List ExecutionData) :=
  replyData (Json.each ExecutionData.read) payload

/-- What decoding the executions of a reply should give. -/
def executionsOutcome : Outcome :=
  (replyExecutions payload).elim .refused fun executions =>
    (executions.map (ExecutionData.outcome catalog)).prod

theorem follows_parseExecutionsSnapshot (clock : ℕ → TimestampMs) :
    Follows .panic (parseExecutionsSnapshot catalog clock payload)
      (executionsOutcome catalog payload) fun es =>
      ∃ executions, replyExecutions payload = some executions ∧
        List.Forall₂ ExecutionData.Shows executions es :=
  (reads_responseData _ _ payload).bind fun _ _ =>
    .mapM_zipIdx fun execution i => follows_executionFromData catalog execution (clock i)

/-! ### The public stream -/

/-- The envelope of a message. -/
def messageEnvelope : Option PublicEnvelope := payload.value?.bind PublicEnvelope.read

/-- What decoding a ticker of a message should give. -/
def tickerEventOutcome (ticker : TickerData) : Outcome :=
  (resolveNativeSymbol .mexc catalog ticker.symbol).elim .refused ticker.fastOutcome

/-- The event is a ticker that shows the record. -/
def TickerEventShows (ticker : TickerData) (event : PublicLaneEvent) : Prop :=
  ∃ spec, resolveNativeSymbol .mexc catalog ticker.symbol = some spec ∧
    ∃ t, event = .ticker t ∧ ticker.FastShows spec t

theorem follows_tickerEvent (clock : ℕ → TimestampMs × TimestampMs) (ticker : TickerData)
    (index : ℕ) :
    Follows .panic (tickerEvent catalog clock ticker index) (tickerEventOutcome catalog ticker)
      (TickerEventShows catalog ticker) :=
  (reads_requireNativeSymbol catalog ticker.symbol).bind fun spec _ =>
    (follows_fastTicker ticker spec _).map PublicLaneEvent.ticker (by simp)

/-- What the records of a message come to, by the kind of the message. -/
def publicOutcome (clock : ℕ → TimestampMs × TimestampMs) (envelope : PublicEnvelope) :
    PublicChannel → Outcome
  | .ticker => (TickerData.read envelope.data).elim .refused (tickerEventOutcome catalog)
  | .tickers => (Json.each TickerData.read envelope.data).elim .refused fun tickers =>
      (tickers.map (tickerEventOutcome catalog)).prod
  | .deal =>
      (envelope.symbol.bind (resolveNativeSymbol .mexc catalog)).elim .refused fun spec =>
        (decodeMexcWsDeals envelope.data).toOption.elim .refused fun deals =>
          (deals.map (DealData.fastOutcome spec)).prod
  | .depth => (DepthData.read envelope.data).elim .refused fun depth =>
      (envelope.symbol.bind (resolveNativeSymbol .mexc catalog)).elim .refused fun spec =>
        [(depth.bids.map (fastLevelOutcome spec)).prod,
          (depth.asks.map (fastLevelOutcome spec)).prod].prod
  | .kline => (KlineData.read envelope.data).elim .refused fun kline =>
      ((kline.symbol.or envelope.symbol).bind (resolveNativeSymbol .mexc catalog)).elim .refused
        fun spec => (fastInterval kline.interval).toOption.elim .refused
          (kline.outcome spec (clock 0).1)
  | .ack => .exact

/-- What the events have to show of the records of a message. -/
def PublicShows (envelope : PublicEnvelope) : PublicChannel → List PublicLaneEvent → Prop
  | .ticker, events => ∃ ticker, TickerData.read envelope.data = some ticker ∧
      ∃ event, events = [event] ∧ TickerEventShows catalog ticker event
  | .tickers, events => ∃ tickers, Json.each TickerData.read envelope.data = some tickers ∧
      List.Forall₂ (TickerEventShows catalog) tickers events
  | .deal, events =>
      ∃ spec, envelope.symbol.bind (resolveNativeSymbol .mexc catalog) = some spec ∧
        ∃ deals, (decodeMexcWsDeals envelope.data).toOption = some deals ∧
          List.Forall₂ (fun deal event => ∃ t, event = .trade t ∧ deal.FastShows spec t) deals
            events
  | .depth, events => ∃ depth, DepthData.read envelope.data = some depth ∧
      ∃ spec, envelope.symbol.bind (resolveNativeSymbol .mexc catalog) = some spec ∧
        ∃ delta, events = [.orderBookDelta delta] ∧
          List.Forall₂ (FastLevelShows spec) depth.bids delta.bids ∧
            List.Forall₂ (FastLevelShows spec) depth.asks delta.asks
  | .kline, events => ∃ kline, KlineData.read envelope.data = some kline ∧
      ∃ spec, (kline.symbol.or envelope.symbol).bind (resolveNativeSymbol .mexc catalog) =
          some spec ∧
        ∃ k, events = [.kline k] ∧ kline.Shows spec k
  | .ack, _ => True

section Messages

variable (clock : ℕ → TimestampMs × TimestampMs) (envelope : PublicEnvelope)

theorem reads_messageSymbol (what : String) (symbol : Option String) :
    Reads Failure.panic ((messageSymbol what symbol).mapError Failure.error) symbol := by
  cases symbol with
  | some symbol => rfl
  | none => exact ⟨_, by simp, rfl⟩

theorem follows_parseTickerMessage :
    Follows .panic (parseTickerMessage catalog clock envelope)
      (publicOutcome catalog clock envelope .ticker) (PublicShows catalog envelope .ticker) :=
  (reads_fromValue TickerData.read "ticker" envelope.data).bind fun ticker _ =>
    (follows_tickerEvent catalog clock ticker 0).map List.singleton fun event _ => by
      simp [List.singleton]

theorem follows_parseTickersMessage :
    Follows .panic (parseTickersMessage catalog clock envelope)
      (publicOutcome catalog clock envelope .tickers) (PublicShows catalog envelope .tickers) :=
  (reads_fromValue (Json.each TickerData.read) "tickers" envelope.data).bind fun _ _ =>
    .mapM_zipIdx fun ticker i => follows_tickerEvent catalog clock ticker i

theorem follows_parseDealMessage :
    Follows .panic (parseDealMessage catalog clock envelope)
      (publicOutcome catalog clock envelope .deal) (PublicShows catalog envelope .deal) := by
  refine (reads_messageSymbol "deal" envelope.symbol).chain fun symbol _ =>
    (reads_requireNativeSymbol catalog symbol).bind fun spec _ =>
      (reads_mapError (decodeMexcWsDeals envelope.data)).bind fun deals _ => ?_
  exact .mapM_zipIdx fun deal i =>
    (follows_fastTrade deal spec i (clock i)).map PublicLaneEvent.trade (by simp)

theorem follows_parseDepthMessage :
    Follows .panic (parseDepthMessage catalog clock envelope)
      (publicOutcome catalog clock envelope .depth) (PublicShows catalog envelope .depth) := by
  refine (reads_fromValue DepthData.read "depth" envelope.data).bind fun depth _ =>
    (reads_messageSymbol "depth" envelope.symbol).chain fun symbol _ =>
      (reads_requireNativeSymbol catalog symbol).bind fun spec _ => ?_
  have hlevels (levels : List (List Json)) : Follows .panic (levels.mapM (fastBookTuple spec))
      (levels.map (fastLevelOutcome spec)).prod (List.Forall₂ (FastLevelShows spec) levels) :=
    .mapM fun level _ => follows_fastBookTuple spec level
  refine ⟨(hlevels _).describes.bind fun _ _ => (hlevels _).describes.bind fun _ _ => .ok _,
    fun events h => ?_⟩
  obtain ⟨bids, h₁, h⟩ := except_bind_eq_ok.1 h
  obtain ⟨asks, h₂, h⟩ := except_bind_eq_ok.1 h
  obtain rfl := Except.ok.inj h
  simp [(hlevels _).right_iff _ h₁, (hlevels _).right_iff _ h₂]

theorem follows_parseKlineMessage :
    Follows .panic (parseKlineMessage catalog clock envelope)
      (publicOutcome catalog clock envelope .kline) (PublicShows catalog envelope .kline) :=
  (reads_fromValue KlineData.read "kline" envelope.data).bind fun kline _ =>
    (reads_messageSymbol "kline" (kline.symbol.or envelope.symbol)).chain fun symbol _ =>
      (reads_requireNativeSymbol catalog symbol).bind fun spec _ =>
        (follows_fastKline kline spec (clock 0).1).last _ (by simp)

end Messages

/-- The envelope and the kind of a public message. -/
def publicMessage : Option (PublicEnvelope × PublicChannel) := do
  let envelope ← messageEnvelope payload
  let channel ← (PublicChannel.of envelope.channel).toOption
  return (envelope, channel)

/-- What decoding a payload of the public stream should give. -/
def publicPayloadOutcome (clock : ℕ → TimestampMs × TimestampMs) : Outcome :=
  (publicMessage payload).elim .refused fun x => publicOutcome catalog clock x.1 x.2

theorem follows_parsePublic (clock : ℕ → TimestampMs × TimestampMs) :
    Follows .panic (parsePublic catalog clock payload)
      (publicPayloadOutcome catalog payload clock)
      fun events => ∃ x, publicMessage payload = some x ∧ PublicShows catalog x.1 x.2 events := by
  refine (reads_parseNativePublic payload).chain fun envelope _ =>
    (reads_mapError (PublicChannel.of envelope.channel)).chain fun channel _ => ?_
  refine Follows.congr (?_ : Follows Failure.panic _ (publicOutcome catalog clock envelope channel)
    (PublicShows catalog envelope channel)) fun events _ => by simp
  cases channel with
  | ticker => exact follows_parseTickerMessage catalog clock envelope
  | tickers => exact follows_parseTickersMessage catalog clock envelope
  | deal => exact follows_parseDealMessage catalog clock envelope
  | depth => exact follows_parseDepthMessage catalog clock envelope
  | kline => exact follows_parseKlineMessage catalog clock envelope
  | ack => exact .ok []

/-! ### The private stream -/

/-- What the record of a message comes to, by the channel of the message. -/
def privateOutcome (envelope : PublicEnvelope) : Outcome :=
  match envelope.channel with
  | "push.personal.asset" => (AssetData.read envelope.data).elim .refused fun asset =>
      [valueOutcome asset.wallet, valueOutcome asset.availableValue].prod
  | "push.personal.position" => (PositionData.read envelope.data).elim .refused
      (PositionData.outcome catalog)
  | "push.personal.order" => (OrderData.read envelope.data).elim .refused
      (OrderData.outcome catalog)
  | "push.personal.order.deal" => (ExecutionData.read envelope.data).elim .refused
      (ExecutionData.outcome catalog)
  | "rs.login" | "pong" => .exact
  | _ => .refused

/-- What the events have to show of the record of a message. -/
def PrivateShows (envelope : PublicEnvelope) (events : List PrivateLaneEvent) : Prop :=
  match envelope.channel with
  | "push.personal.asset" => ∃ asset, AssetData.read envelope.data = some asset ∧
      ∃ balance, events = [.balance balance] ∧ asset.Shows balance
  | "push.personal.position" => ∃ position, PositionData.read envelope.data = some position ∧
      ∃ p, events = [.position p] ∧ position.Shows p
  | "push.personal.order" => ∃ order, OrderData.read envelope.data = some order ∧
      ∃ o, events = [.order o] ∧ order.Shows o
  | "push.personal.order.deal" => ∃ execution, ExecutionData.read envelope.data = some execution ∧
      ∃ e, events = [.execution e] ∧ execution.Shows e
  | _ => True

/-- What decoding a payload of the private stream should give. -/
def privatePayloadOutcome : Outcome :=
  (messageEnvelope payload).elim .refused (privateOutcome catalog)

theorem follows_parsePrivate (nowMs : TimestampMs) :
    Follows .panic (parsePrivate catalog nowMs payload) (privatePayloadOutcome catalog payload)
      fun events => ∃ envelope, messageEnvelope payload = some envelope ∧
        PrivateShows envelope events := by
  refine (reads_parseNativePublic payload).bind fun envelope _ => ?_
  obtain ⟨channel, symbol, data, ts⟩ := envelope
  unfold privateOutcome PrivateShows
  dsimp only
  split
  · refine (reads_fromValue AssetData.read "asset" data).bind fun asset _ => ?_
    have hvalue := follows_decimalFromOptionalValue
    refine ⟨(hvalue _).describes.bind fun _ _ => (hvalue _).describes.bind fun _ _ => .ok _,
      fun events h => ?_⟩
    obtain ⟨wallet, h₁, h⟩ := except_bind_eq_ok.1 h
    obtain ⟨available, h₂, h⟩ := except_bind_eq_ok.1 h
    obtain rfl := Except.ok.inj h
    have hwallet : Denotes asset.wallet wallet ↔ valueOutcome asset.wallet = .exact :=
      (hvalue _).right_iff _ h₁
    have havailable : Denotes asset.availableValue available ↔
        valueOutcome asset.availableValue = .exact := (hvalue _).right_iff _ h₂
    simp [AssetData.shows_iff, hwallet, havailable]
  · refine (reads_fromValue PositionData.read "position" data).bind fun position _ => ?_
    have hevent : Follows .panic ((decimalFromOptionalValue position.holdVol >>=
          positionFromData catalog position (ts.getD nowMs)) >>=
          fun p => pure [PrivateLaneEvent.position p]) (position.outcome catalog)
        fun events => ∃ p, events = [.position p] ∧ position.Shows p :=
      follows_position.last _ (by simp)
    rw [bind_assoc] at hevent
    exact hevent
  · exact (reads_fromValue OrderData.read "order" data).bind fun order _ =>
      (follows_orderFromData catalog order (ts.getD nowMs)).last _ (by simp)
  · exact (reads_fromValue ExecutionData.read "execution" data).bind fun execution _ =>
      (follows_executionFromData catalog execution nowMs).last _ (by simp)
  · exact .ok []
  · exact .ok []
  · -- no channel of the adapter
    split <;> first | contradiction | exact .refuse (by simp)

end Replies

/-! ### Calls -/

/-- The calls of the parse functions, with what they return.  The clock is an argument where it is
read. -/
inductive ParseCall : Type → Type
  | metadata (payload : Payload) : ParseCall (List InstrumentSpec)
  | ticker (spec : InstrumentSpec) (nowMs : TimestampMs) (payload : Payload) : ParseCall Ticker
  | tickers (specs : List InstrumentSpec) (clock : ℕ → TimestampMs) (payload : Payload) :
    ParseCall (List Ticker)
  | trades (spec : InstrumentSpec) (clock : ℕ → TimestampMs × TimestampMs) (payload : Payload) :
    ParseCall (List TradeTick)
  | orderBook (spec : InstrumentSpec) (nowMs : TimestampMs) (payload : Payload) :
    ParseCall OrderBookSnapshot
  | ohlcv (catalog : InstrumentCatalog) (request : FetchOhlcvRequest) (payload : Payload) :
    ParseCall (List Kline)
  | fundingRate (spec : InstrumentSpec) (nowMs : TimestampMs) (payload : Payload) :
    ParseCall FundingRate
  | openInterest (spec : InstrumentSpec) (nowMs : TimestampMs) (payload : Payload) :
    ParseCall OpenInterest
  | account (observedAt : TimestampMs) (payload : Payload) : ParseCall AccountSnapshot
  | positions (catalog : InstrumentCatalog) (observedAt : TimestampMs) (payload : Payload) :
    ParseCall (List Position)
  | openOrders (catalog : InstrumentCatalog) (observedAt : TimestampMs) (payload : Payload) :
    ParseCall (List Order)
  | order (catalog : InstrumentCatalog) (observedAt : TimestampMs) (payload : Payload) :
    ParseCall Order
  | executions (catalog : InstrumentCatalog) (clock : ℕ → TimestampMs) (payload : Payload) :
    ParseCall (List Execution)
  | publicStream (catalog : InstrumentCatalog) (clock : ℕ → TimestampMs × TimestampMs)
    (payload : Payload) : ParseCall (List PublicLaneEvent)
  | privateStream (catalog : InstrumentCatalog) (nowMs : TimestampMs) (payload : Payload) :
    ParseCall (List PrivateLaneEvent)

namespace ParseCall

variable {α : Type}

/-- The decoder that is called. -/
def run : ParseCall α → Except Failure α
  | metadata payload => parseMetadataSnapshot payload
  | ticker spec nowMs payload => parseTickerSnapshot spec nowMs payload
  | tickers specs clock payload => parseTickersSnapshot specs clock payload
  | trades spec clock payload => parseTradesSnapshot spec clock payload
  | orderBook spec nowMs payload => parseOrderBookSnapshot spec nowMs payload
  | ohlcv catalog request payload => parseOhlcvSnapshot catalog request payload
  | fundingRate spec nowMs payload => parseFundingRateSnapshot spec nowMs payload
  | openInterest spec nowMs payload => parseOpenInterestSnapshot spec nowMs payload
  | account observedAt payload => parseAccountSnapshot observedAt payload
  | positions catalog observedAt payload => parsePositionsSnapshot catalog observedAt payload
  | openOrders catalog observedAt payload => parseOpenOrdersSnapshot catalog observedAt payload
  | order catalog observedAt payload => parseOrderSnapshot catalog payload observedAt
  | executions catalog clock payload => parseExecutionsSnapshot catalog clock payload
  | publicStream catalog clock payload => parsePublic catalog clock payload
  | privateStream catalog nowMs payload => parsePrivate catalog nowMs payload

/-- What the payload comes to, read as the code reads it. -/
def outcome : ParseCall α → Outcome
  | metadata payload => metadataOutcome payload
  | ticker spec _ payload => tickerOutcome spec payload
  | tickers specs _ payload => tickersOutcome payload specs
  | trades _ _ payload => tradesOutcome payload
  | orderBook _ _ payload => orderBookOutcome payload
  | ohlcv catalog request payload => ohlcvOutcome catalog payload request
  | fundingRate _ _ payload => fundingRateOutcome payload
  | openInterest spec _ payload => openInterestOutcome spec payload
  | account _ payload => accountSnapshotOutcome payload
  | positions catalog _ payload => positionsOutcome catalog payload
  | openOrders catalog _ payload => ordersOutcome catalog payload
  | order catalog _ payload => orderOutcome catalog payload
  | executions catalog _ payload => executionsOutcome catalog payload
  | publicStream catalog clock payload => publicPayloadOutcome catalog payload clock
  | privateStream catalog _ payload => privatePayloadOutcome catalog payload

/-- What is returned shows the records in the payload. -/
def Exact : ParseCall α → α → Prop
  | metadata payload, specs => ∃ contracts, replyContracts payload = some contracts ∧
      List.Forall₂ ContractInfo.Shows contracts specs
  | ticker spec _ payload, t => ∃ ticker, replyTicker spec payload = some ticker ∧ ticker.Shows t
  | tickers specs _ payload, ts => ∃ data, replyData some payload = some data ∧
      List.Forall₂ (fun x t => x.1.Shows t) (listedTickers specs data) ts
  | trades _ _ payload, ts => ∃ deals, replyDeals payload = some deals ∧
      List.Forall₂ DealData.Shows deals ts
  | orderBook _ _ payload, book => ∃ depth, replyData DepthData.read payload = some depth ∧
      depth.Shows book
  | ohlcv catalog request payload, klines => ∃ x, replyKlines catalog payload request = some x ∧
      List.Forall₂ KlineEntry.Shows x.2 klines
  | fundingRate _ _ payload, rate => ∃ data, replyData FundingRateData.read payload = some data ∧
      Denotes data.fundingRate rate.value.value
  | openInterest spec _ payload, interest => ∃ ticker, replyTicker spec payload = some ticker ∧
      Denotes (ticker.holdVol.getD .null) interest.value.value
  | account _ payload, snapshot => ∃ assets, replyAssets payload = some assets ∧
      List.Forall₂ AccountAsset.Shows assets snapshot.balances
  | positions _ _ payload, shown => ∃ positions, replyPositions payload = some positions ∧
      PositionsShown positions shown
  | openOrders _ _ payload, os => ∃ orders, replyOrders payload = some orders ∧
      List.Forall₂ OrderData.Shows orders os
  | order _ _ payload, o => ∃ order, replyOrder payload = some order ∧ order.Shows o
  | executions _ _ payload, es => ∃ executions, replyExecutions payload = some executions ∧
      List.Forall₂ ExecutionData.Shows executions es
  | publicStream catalog _ payload, events => ∃ x, publicMessage payload = some x ∧
      PublicShows catalog x.1 x.2 events
  | privateStream _ _ payload, events => ∃ envelope, messageEnvelope payload = some envelope ∧
      PrivateShows envelope events

theorem follows (call : ParseCall α) : Follows .panic call.run call.outcome call.Exact := by
  cases call with
  | metadata payload => exact follows_parseMetadataSnapshot payload
  | ticker spec nowMs payload => exact follows_parseTickerSnapshot spec payload nowMs
  | tickers specs clock payload => exact follows_parseTickersSnapshot payload specs clock
  | trades spec clock payload => exact follows_parseTradesSnapshot spec payload clock
  | orderBook spec nowMs payload => exact follows_parseOrderBookSnapshot spec payload nowMs
  | ohlcv catalog request payload => exact follows_parseOhlcvSnapshot catalog payload request
  | fundingRate spec nowMs payload => exact follows_parseFundingRateSnapshot spec payload nowMs
  | openInterest spec nowMs payload => exact follows_parseOpenInterestSnapshot spec payload nowMs
  | account observedAt payload => exact follows_parseAccountSnapshot payload observedAt
  | positions catalog observedAt payload =>
    exact follows_parsePositionsSnapshot catalog payload observedAt
  | openOrders catalog observedAt payload =>
    exact follows_parseOpenOrdersSnapshot catalog payload observedAt
  | order catalog observedAt payload => exact follows_parseOrderSnapshot catalog payload observedAt
  | executions catalog clock payload => exact follows_parseExecutionsSnapshot catalog payload clock
  | publicStream catalog clock payload => exact follows_parsePublic catalog payload clock
  | privateStream catalog nowMs payload => exact follows_parsePrivate catalog payload nowMs

end ParseCall

/-- **When decoding is total and exact.**  A call returns without a panic, and only what is right,
exactly if reading its payload comes to a good outcome: every value that is reached is read as what
it is, up to one that is refused. -/
theorem decoding_sound_iff {α : Type} (call : ParseCall α) :
    (call.run ≠ .error .panic ∧ ∀ result, call.run = .ok result → call.Exact result) ↔
      call.outcome.Good :=
  call.follows.sound_iff

/-- A reply with the ticker of BTC at a price with an exponent of 40. -/
def hugePrice : Payload :=
  .json (.object [("success", .bool true), ("code", .integer 0), ("data", .object [
    ("symbol", .string "BTC_USDT"), ("lastPrice", .string "1e40")])])

theorem large_exponent_panics :
    ¬ ∀ (α : Type) (call : ParseCall α), call.run ≠ .error .panic ∧
      ∀ result, call.run = .ok result → call.Exact result := by
  intro h
  have hpanic : (ParseCall.ticker (.active .mexc "BTC/USDT:USDT" "BTC_USDT" 1 0) 0
      hugePrice).run = .error .panic := by
    show parseTickerSnapshot _ _ _ = _
    decide +kernel
  exact (h _ _).1 hpanic

end Mexc

end BatMarkets
