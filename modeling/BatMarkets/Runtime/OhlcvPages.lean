import BatMarkets.Adapter.Values
import BatMarkets.Ordered.Pages
import BatMarkets.Runtime.Ohlcv

/-!
# Pages of candles

A venue keeps a history of candles for each instrument and lists a page of those a request asks
about: Binance the earliest of them, Bybit the latest, as many as the request's limit says.  A
request to MEXC carries no limit; it gets the earliest candles, up to a number of the venue's own.
The times of a request to MEXC are whole seconds, cut off towards zero.

## Main results

* `admits_of_fetchOhlcvPage` : what is fetched without an error was asked for.
* `fetchOhlcvPage_spec` : a page has the candles of the rows that the venue lists.
* `windowStep_spec` : what one turn of the loop over a window reads.
-/

namespace BatMarkets

open Ordered OhlcvClient

/-! ### The histories of a venue -/

/-- The milliseconds in the unit of the open times a venue lists. -/
def Venue.timeUnit : Venue → ℤ
  | .mexc => 1000
  | _ => 1

/-- The open time of a row, in milliseconds. -/
def KlineRow.openMs (venue : Venue) (row : KlineRow) : ℤ := row.time.toInt * venue.timeUnit

/-- A row of a candle whose open and close are times. -/
structure KlineRow.Sound (venue : Venue) (interval : KlineInterval) (row : KlineRow) : Prop where
  representable : -2 ^ 63 ≤ row.openMs venue ∧ row.openMs venue < 2 ^ 63
  closes : ∃ closeMs, interval.Closes (row.openMs venue) closeMs

/-- The candles of an instrument. -/
structure KlineHistory (venue : Venue) (interval : KlineInterval) (origin : ℤ) where
  rows : List KlineRow
  ascending : rows.Pairwise fun a b => a.time < b.time
  sound : ∀ row ∈ rows, row.Sound venue interval
  onGrid : ∀ row ∈ rows, interval.OnGrid origin (row.openMs venue)

/-- The rows a request asks about. -/
def rowsBetween (startTime endTime : Int64) (rows : List KlineRow) : List KlineRow :=
  rows.filter fun row => startTime ≤ row.time ∧ row.time ≤ endTime

/-- The place of a row in the order of time. -/
def KlineRow.place (row : KlineRow) : ℤ := row.time.toInt

/-- The place of a row in the order back in time. -/
def KlineRow.placeFromEnd (row : KlineRow) : ℤᵒᵈ := OrderDual.toDual row.time.toInt

/-- The page of the rows asked about. -/
def pageRows (venue : Venue) (mexcPage limit : ℕ) (rows : List KlineRow) : List KlineRow :=
  match venue with
  | .binance => firstPage KlineRow.place limit rows
  | .bybit => firstPage KlineRow.placeFromEnd limit rows
  | .mexc => firstPage KlineRow.place mexcPage rows

/-- The venue answers with pages of the histories, in any order. -/
def ServesPages (client : OhlcvClient) {interval : KlineInterval} {origin : ℤ} (mexcPage : ℕ)
    (histories : InstrumentId → KlineHistory client.context.venue interval origin) : Prop :=
  ∀ instrumentId spec request query startTime endTime limit,
    client.resolveInstrument instrumentId = some spec →
    klineQuery client.context.venue spec interval request = .ok query →
    query.startTime = some startTime → query.endTime = some endTime →
    request.limit = some limit →
    ∃ rows, client.publicGet query = .ok rows ∧
      rows.Perm (pageRows client.context.venue mexcPage limit
        (rowsBetween startTime endTime (histories instrumentId).rows))

/-! ### The candle of a row -/

/-- The end of a candle, where it has one. -/
def KlineInterval.endOf (interval : KlineInterval) (openTime : TimestampMs) : TimestampMs :=
  match interval.closeTimeMs openTime with
  | .ok (some closeTime) => closeTime
  | _ => openTime

/-- The candle of a sound row. -/
def KlineRow.kline (venue : Venue) (interval : KlineInterval) (instrumentId : InstrumentId)
    (row : KlineRow) : Kline :=
  match venue with
  | .binance => row.candle interval instrumentId row.time row.closeTime row.elapsed
  | .bybit => row.candle interval instrumentId row.time (interval.endOf row.time) row.elapsed
  | .mexc =>
    let openTime := Int64.ofInt (row.time.toInt * 1000)
    row.candle interval instrumentId openTime (interval.endOf openTime) true

variable {venue : Venue} {interval : KlineInterval} {origin : ℤ} {i : InstrumentId}
variable {row : KlineRow} {rows : List KlineRow}

@[simp] theorem instrumentId_kline : (row.kline venue interval i).instrumentId = i := by
  cases venue <;> rfl

theorem openTime_kline (h : row.Sound venue interval) :
    (row.kline venue interval i).openTime.toInt = row.openMs venue := by
  obtain ⟨⟨hlow, hhigh⟩, _⟩ := h
  unfold KlineRow.openMs at *
  cases venue with
  | binance => exact (mul_one _).symm
  | bybit => exact (mul_one _).symm
  | mexc => exact Int64.toInt_ofInt_of_le hlow hhigh

theorem closeTimeMs_endOf {openTime : TimestampMs} {closeMs : ℤ}
    (h : interval.Closes openTime.toInt closeMs) :
    interval.closeTimeMs openTime = .ok (some (interval.endOf openTime)) := by
  obtain ⟨closeTime, hclose, -⟩ := h.exists_closeTimeMs
  rw [KlineInterval.endOf, hclose]

theorem parseKlineRow_eq (h : row.Sound venue interval) :
    parseKlineRow venue interval i row = .ok (row.kline venue interval i) := by
  obtain ⟨hrange, closeMs, hcloses⟩ := h
  unfold KlineRow.openMs at hrange hcloses
  cases venue with
  | binance => rfl
  | bybit =>
    simp only [Venue.timeUnit, mul_one] at hcloses
    rw [parseKlineRow, closeTimeMs_endOf hcloses]
    rfl
  | mexc =>
    have hopen := KlineInterval.checkedI64_eq _ hrange
    rw [← Int64.toInt_ofInt_of_le hrange.1 hrange.2] at hcloses
    simp only [Venue.timeUnit] at hopen hcloses
    simp only [parseKlineRow, hopen, bind, Except.bind, closeTimeMs_endOf hcloses]
    rfl

/-- The adapter makes the candle of each row of a reply. -/
theorem parseOhlcvSnapshot_spec (hsound : ∀ row ∈ rows, row.Sound venue interval) :
    ∃ klines, parseOhlcvSnapshot venue interval i rows = .ok klines ∧
      ∀ k, k ∈ klines ↔ ∃ row ∈ rows, row.kline venue interval i = k := by
  have hmapM : rows.mapM (parseKlineRow venue interval i) =
      .ok (rows.map (KlineRow.kline venue interval i)) := by
    rw [mapM_eq_ok_iff, List.forall₂_map_right_iff, List.forall₂_same]
    exact fun row hrow => parseKlineRow_eq (hsound row hrow)
  unfold parseOhlcvSnapshot
  rw [hmapM]
  cases venue with
  | binance => exact ⟨_, rfl, fun k => by rw [List.mem_mergeSort, List.mem_map]⟩
  | bybit => exact ⟨_, rfl, fun k => by rw [List.mem_mergeSort, List.mem_map]⟩
  | mexc => exact ⟨_, rfl, fun k => List.mem_map⟩

/-! ### One page of each instrument -/

/-- A time as a request spells it. -/
def Venue.timeParam (venue : Venue) (time : TimestampMs) : Int64 :=
  match venue with
  | .mexc => time / 1000
  | _ => time

/-- The client asks the venue for the instruments and the interval of a request. -/
structure Admits (client : OhlcvClient) (request : FetchOhlcvRequest) (interval : KlineInterval) :
    Prop where
  few : request.instrumentIds.length ≤ fetchOhlcvMaxInstrumentsPerCall
  known : ∀ i ∈ request.instrumentIds, (client.resolveInstrument i).isSome
  offered : client.context.venue = .mexc → (mexcIntervalStr interval).isOk

theorem validInstrumentIds_eq_ok_iff {request : FetchOhlcvRequest} {ids : List InstrumentId} :
    request.validInstrumentIds = .ok ids ↔
      ids = request.instrumentIds ∧ ids ≠ [] ∧ ids.length ≤ fetchOhlcvMaxInstrumentsPerCall := by
  unfold FetchOhlcvRequest.validInstrumentIds
  split
  next hempty =>
    simp only [reduceCtorEq, false_iff]
    rintro ⟨rfl, hne, -⟩
    exact hne hempty
  next hne =>
    split
    next hmany =>
      simp only [reduceCtorEq, false_iff]
      rintro ⟨rfl, -, hfew⟩
      exact absurd hfew (not_le.2 hmany)
    next hfew =>
      rw [Except.ok.injEq]
      constructor
      · rintro rfl
        exact ⟨rfl, hne, not_lt.1 hfew⟩
      · exact fun h => h.1.symm

section Page

variable {client : OhlcvClient} {request : FetchOhlcvRequest} {spec : InstrumentSpec}

theorem singleInstrumentId_eq (h : request.instrumentIds = [i]) :
    request.singleInstrumentId = .ok i := by
  have hvalid : request.validInstrumentIds = .ok [i] :=
    validInstrumentIds_eq_ok_iff.2 ⟨h.symm, by simp, by simp [fetchOhlcvMaxInstrumentsPerCall]⟩
  rw [FetchOhlcvRequest.singleInstrumentId, hvalid]
  rfl

/-- One request for each instrument. -/
theorem fetchOhlcvPage_eq {ids : List InstrumentId} (h : request.validInstrumentIds = .ok ids) :
    client.fetchOhlcvPage request =
      List.flatten <$> ids.mapM fun i =>
        client.fetchOhlcvSingle { request with instrumentIds := [i] } := by
  rw [fetchOhlcvPage, h]
  show (if ids.length = 1 then client.fetchOhlcvSingle request else _) = _
  split
  next hone =>
    obtain ⟨i, rfl⟩ := List.length_eq_one_iff.1 hone
    have hsame : { request with instrumentIds := [i] } = request := by
      rw [(validInstrumentIds_eq_ok_iff.1 h).1]
    rw [List.mapM_cons, hsame]
    cases client.fetchOhlcvSingle request with
    | error e => rfl
    | ok klines => exact congrArg Except.ok (List.append_nil klines).symm
  next =>
    cases ids.mapM fun i => client.fetchOhlcvSingle { request with instrumentIds := [i] } <;> rfl

variable (hparse : KlineInterval.parse request.interval = some interval)
include hparse

/-- Of one instrument, the venue is asked what the query says, and the candles of its rows are the
result. -/
theorem fetchOhlcvSingle_eq (hi : request.instrumentIds = [i]) :
    client.fetchOhlcvSingle request =
      ((client.requireSpec i).mapError .error >>= fun spec =>
        (klineQuery client.context.venue spec interval request).mapError .error >>= fun query =>
          client.publicGet query >>=
            parseOhlcvSnapshot client.context.venue interval i) := by
  rw [fetchOhlcvSingle, singleInstrumentId_eq hi, parseKlineInterval, hparse]
  rfl

variable (request) in
/-- What is fetched without an error was asked for. -/
theorem known_of_fetchOhlcvSingle (hi : request.instrumentIds = [i])
    (hok : (client.fetchOhlcvSingle request).isOk) :
    (client.resolveInstrument i).isSome ∧
      (client.context.venue = .mexc → (mexcIntervalStr interval).isOk) := by
  rw [fetchOhlcvSingle_eq hparse hi, OhlcvClient.requireSpec] at hok
  cases hspec : client.resolveInstrument i with
  | none =>
    rw [hspec] at hok
    cases hok
  | some spec =>
    refine ⟨rfl, fun hmexc => ?_⟩
    rw [hspec, hmexc] at hok
    cases hname : mexcIntervalStr interval with
    | ok name => rfl
    | error e =>
      simp only [klineQuery, hname] at hok
      cases hok

variable (request) in
/-- The client admits what is fetched without an error. -/
theorem admits_of_fetchOhlcvPage (hids : request.instrumentIds ≠ [])
    (hok : (client.fetchOhlcvPage request).isOk) : Admits client request interval := by
  cases hvalid : request.validInstrumentIds with
  | error e =>
    rw [fetchOhlcvPage, hvalid] at hok
    cases hok
  | ok ids =>
    rw [fetchOhlcvPage_eq hvalid, isOk_map, isOk_mapM, List.all_eq_true] at hok
    obtain ⟨rfl, -, hfew⟩ := validInstrumentIds_eq_ok_iff.1 hvalid
    have hknown := fun j hj =>
      known_of_fetchOhlcvSingle { request with instrumentIds := [j] } hparse rfl (hok j hj)
    obtain ⟨j, hj⟩ := List.exists_mem_of_ne_nil _ hids
    exact ⟨hfew, fun j hj => (hknown j hj).1, (hknown j hj).2⟩

end Page

/-- The rows of a history that are asked about for a window of time. -/
def askedRows (histories : InstrumentId → KlineHistory venue interval origin)
    (startTime endTime : TimestampMs) (i : InstrumentId) : List KlineRow :=
  rowsBetween (venue.timeParam startTime) (venue.timeParam endTime) (histories i).rows

theorem mem_of_mem_pageRows {mexcPage limit : ℕ} (h : row ∈ pageRows venue mexcPage limit rows) :
    row ∈ rows := by
  cases venue <;> exact List.mem_of_mem_filter h

/-- The query for a window asks about the window. -/
theorem exists_klineQuery {request : FetchOhlcvRequest} (spec : InstrumentSpec)
    {startTime endTime : TimestampMs} (hoffered : venue = .mexc → (mexcIntervalStr interval).isOk)
    (hstart : request.startTime = some startTime) (hend : request.endTime = some endTime) :
    ∃ query, klineQuery venue spec interval request = .ok query ∧
      query.startTime = some (venue.timeParam startTime) ∧
      query.endTime = some (venue.timeParam endTime) := by
  cases venue with
  | binance => exact ⟨_, rfl, hstart, hend⟩
  | bybit => exact ⟨_, rfl, hstart, hend⟩
  | mexc =>
    cases hname : mexcIntervalStr interval with
    | error e =>
      have hok := hoffered rfl
      rw [hname] at hok
      cases hok
    | ok name =>
      rw [klineQuery, hname, hstart, hend]
      exact ⟨_, rfl, rfl, rfl⟩

section Served

variable {client : OhlcvClient} {request : FetchOhlcvRequest} {mexcPage limit : ℕ}
variable {histories : InstrumentId → KlineHistory client.context.venue interval origin}
variable {startTime endTime : TimestampMs}
variable (hserves : ServesPages client mexcPage histories)
variable (hparse : KlineInterval.parse request.interval = some interval)
variable (hlimit : request.limit = some limit)
variable (hstart : request.startTime = some startTime) (hend : request.endTime = some endTime)
include hserves hparse hlimit hstart hend

variable (request) in
/-- A page of one instrument. -/
theorem fetchOhlcvSingle_spec (hi : request.instrumentIds = [i])
    (hknown : (client.resolveInstrument i).isSome)
    (hoffered : client.context.venue = .mexc → (mexcIntervalStr interval).isOk) :
    ∃ klines, client.fetchOhlcvSingle request = .ok klines ∧
      ∀ k, k ∈ klines ↔ ∃ row ∈ pageRows client.context.venue mexcPage limit
        (askedRows histories startTime endTime i),
          row.kline client.context.venue interval i = k := by
  obtain ⟨spec, hspec⟩ := Option.isSome_iff_exists.1 hknown
  obtain ⟨query, hquery, hfrom, hto⟩ := exists_klineQuery spec hoffered hstart hend
  obtain ⟨rows, hget, hperm⟩ := hserves i spec request query _ _ limit hspec hquery hfrom hto hlimit
  have hsound : ∀ row ∈ rows, row.Sound client.context.venue interval := fun row hrow =>
    (histories i).sound row
      (List.mem_of_mem_filter (mem_of_mem_pageRows (hperm.mem_iff.1 hrow)))
  obtain ⟨klines, hparsed, hmem⟩ := parseOhlcvSnapshot_spec (i := i) hsound
  refine ⟨klines, ?_, fun k => ?_⟩
  · rw [fetchOhlcvSingle_eq hparse hi, OhlcvClient.requireSpec, hspec]
    show ((klineQuery client.context.venue spec interval request).mapError Failure.error >>= _) = _
    rw [hquery]
    show (client.publicGet query >>= _) = _
    rw [hget]
    exact hparsed
  · rw [hmem]
    exact exists_congr fun row => and_congr_left fun _ => hperm.mem_iff

variable (request) in
/-- A page of all instruments. -/
theorem fetchOhlcvPage_spec (hids : request.instrumentIds ≠ [])
    (hadmits : Admits client request interval) :
    ∃ page, client.fetchOhlcvPage request = .ok page ∧
      ∀ k, k ∈ page ↔ ∃ i ∈ request.instrumentIds,
        ∃ row ∈ pageRows client.context.venue mexcPage limit
          (askedRows histories startTime endTime i),
            row.kline client.context.venue interval i = k := by
  have hvalid := validInstrumentIds_eq_ok_iff.2 ⟨rfl, hids, hadmits.few⟩
  have hsingle := fun i (hi : i ∈ request.instrumentIds) =>
    fetchOhlcvSingle_spec { request with instrumentIds := [i] }
      hserves hparse hlimit hstart hend rfl (hadmits.known i hi) hadmits.offered
  have hok : (request.instrumentIds.mapM fun i =>
      client.fetchOhlcvSingle { request with instrumentIds := [i] }).isOk := by
    rw [isOk_mapM, List.all_eq_true]
    intro i hi
    obtain ⟨klines, hklines, -⟩ := hsingle i hi
    rw [hklines]
    rfl
  rw [fetchOhlcvPage_eq hvalid]
  cases hpages : request.instrumentIds.mapM fun i =>
      client.fetchOhlcvSingle { request with instrumentIds := [i] } with
  | error e =>
    rw [hpages] at hok
    cases hok
  | ok pages =>
    refine ⟨pages.flatten, rfl, fun k => ?_⟩
    rw [List.mem_flatten]
    constructor
    · rintro ⟨klines, hmem, hk⟩
      obtain ⟨i, hi, hfetched⟩ := (mem_of_mapM hpages).1 hmem
      obtain ⟨klines', hfetched', hspec⟩ := hsingle i hi
      rw [hfetched, Except.ok.injEq] at hfetched'
      subst hfetched'
      exact ⟨i, hi, (hspec k).1 hk⟩
    · rintro ⟨i, hi, hrow⟩
      obtain ⟨klines, hfetched, hspec⟩ := hsingle i hi
      exact ⟨klines, (mem_of_mapM hpages).2 ⟨i, hi, hfetched⟩, (hspec k).2 hrow⟩

end Served

/-! ### Reading a page -/

/-- A candle that opens in a window. -/
def Kline.OpensIn (startTime endTime : TimestampMs) (k : Kline) : Prop :=
  startTime ≤ k.openTime ∧ k.openTime ≤ endTime

/-- The candles kept of each requested instrument. -/
def Keeps (ids : List InstrumentId) (kept : InstrumentId → Kline → Prop)
    (candles : CandlesByInstrument) : Prop :=
  ∀ i ∈ ids, ∃ klines, candles[i]? = some klines ∧ ∀ k, k ∈ klines ↔ kept i k

/-- The candles of a page that open in the window moved the last and the first open time. -/
structure Moves (startTime endTime : TimestampMs) (page : List Kline) (before read : PageState) :
    Prop where
  before_le : before.maxOpenTime.toInt ≤ read.maxOpenTime.toInt
  le_max : ∀ k ∈ page, k.OpensIn startTime endTime → k.openTime.toInt ≤ read.maxOpenTime.toInt
  max_eq : read.maxOpenTime = before.maxOpenTime ∨
    ∃ k ∈ page, k.OpensIn startTime endTime ∧ k.openTime = read.maxOpenTime
  le_before : read.minOpenTime.toInt ≤ before.minOpenTime.toInt
  min_le : ∀ k ∈ page, k.OpensIn startTime endTime → read.minOpenTime.toInt ≤ k.openTime.toInt
  min_eq : read.minOpenTime = before.minOpenTime ∨
    ∃ k ∈ page, k.OpensIn startTime endTime ∧ k.openTime = read.minOpenTime

section Read

variable {startTime endTime : TimestampMs} {page page' : List Kline} {ids : List InstrumentId}
variable {before read read' : PageState} {k : Kline} {kept : InstrumentId → Kline → Prop}

theorem Moves.trans (h : Moves startTime endTime page before read)
    (h' : Moves startTime endTime page' read read') :
    Moves startTime endTime (page ++ page') before read' where
  before_le := h.before_le.trans h'.before_le
  le_max k hk hin := by
    rcases List.mem_append.1 hk with hk | hk
    · exact (h.le_max k hk hin).trans h'.before_le
    · exact h'.le_max k hk hin
  max_eq := by
    rcases h'.max_eq with heq | ⟨k, hk, hin, heq⟩
    · rcases h.max_eq with heq' | ⟨k, hk, hin, heq'⟩
      · exact .inl (heq.trans heq')
      · exact .inr ⟨k, List.mem_append_left _ hk, hin, heq'.trans heq.symm⟩
    · exact .inr ⟨k, List.mem_append_right _ hk, hin, heq⟩
  le_before := h'.le_before.trans h.le_before
  min_le k hk hin := by
    rcases List.mem_append.1 hk with hk | hk
    · exact h'.le_before.trans (h.min_le k hk hin)
    · exact h'.min_le k hk hin
  min_eq := by
    rcases h'.min_eq with heq | ⟨k, hk, hin, heq⟩
    · rcases h.min_eq with heq' | ⟨k, hk, hin, heq'⟩
      · exact .inl (heq.trans heq')
      · exact .inr ⟨k, List.mem_append_left _ hk, hin, heq'.trans heq.symm⟩
    · exact .inr ⟨k, List.mem_append_right _ hk, hin, heq⟩

variable (startTime endTime before) in
/-- One candle of a page. -/
theorem takeCandle_spec (hk : k.instrumentId ∈ ids) (h : Keeps ids kept before.candlesByInstrument) :
    ∃ read, takeCandle startTime endTime before k = .ok read ∧
      Keeps ids (fun i k' => kept i k' ∨
        k' = k ∧ k.OpensIn startTime endTime ∧ k.instrumentId = i) read.candlesByInstrument ∧
      Moves startTime endTime [k] before read := by
  unfold takeCandle
  split
  next hout =>
    have hnot : ¬ k.OpensIn startTime endTime := by
      rintro ⟨hge, hle⟩
      rw [Int64.le_iff_toInt_le] at hge hle
      rw [Int64.lt_iff_toInt_lt, Int64.lt_iff_toInt_lt] at hout
      omega
    refine ⟨before, rfl, fun i hi => ?_, ?_⟩
    · obtain ⟨klines, hklines, hmem⟩ := h i hi
      exact ⟨klines, hklines, fun k' => by rw [hmem]; tauto⟩
    · constructor <;> simp [hnot]
  next hin =>
    have hopens : k.OpensIn startTime endTime := by
      rw [Int64.lt_iff_toInt_lt, Int64.lt_iff_toInt_lt] at hin
      constructor <;> rw [Int64.le_iff_toInt_le] <;> omega
    obtain ⟨klines, hklines, hmem⟩ := h _ hk
    rw [hklines]
    refine ⟨_, rfl, fun i hi => ?_, ?_⟩
    · dsimp only
      by_cases hsame : k.instrumentId = i
      · subst hsame
        refine ⟨klines ++ [k], by rw [lookup_insert, if_pos rfl], fun k' => ?_⟩
        rw [List.mem_append, hmem, List.mem_singleton]
        tauto
      · obtain ⟨klines', hklines', hmem'⟩ := h i hi
        refine ⟨klines', by rw [lookup_insert, if_neg hsame, hklines'], fun k' => ?_⟩
        rw [hmem']
        tauto
    · constructor
      · simp only [toInt_max, le_max_left]
      · simp only [List.mem_singleton, toInt_max, forall_eq, le_max_right, implies_true]
      · dsimp only
        by_cases hle : before.maxOpenTime ≤ k.openTime
        · exact .inr ⟨k, List.mem_singleton_self k, hopens, (if_pos hle).symm⟩
        · exact .inl (if_neg hle)
      · simp only [toInt_min, min_le_left]
      · simp only [List.mem_singleton, toInt_min, forall_eq, min_le_right, implies_true]
      · dsimp only
        by_cases hle : before.minOpenTime ≤ k.openTime
        · exact .inl (if_pos hle)
        · exact .inr ⟨k, List.mem_singleton_self k, hopens, (if_neg hle).symm⟩

variable (startTime endTime before) in
/-- The candles of a page. -/
theorem takeCandles_spec (hpage : ∀ k ∈ page, k.instrumentId ∈ ids)
    (h : Keeps ids kept before.candlesByInstrument) :
    ∃ read, page.foldlM (takeCandle startTime endTime) before = .ok read ∧
      Keeps ids (fun i k => kept i k ∨
        k ∈ page ∧ k.OpensIn startTime endTime ∧ k.instrumentId = i) read.candlesByInstrument ∧
      Moves startTime endTime page before read := by
  induction page generalizing before kept with
  | nil => exact ⟨before, rfl, by simpa [Keeps] using h, by constructor <;> simp⟩
  | cons k page ih =>
    obtain ⟨next, hnext, hkeeps, hmoves⟩ :=
      takeCandle_spec startTime endTime before (hpage k List.mem_cons_self) h
    obtain ⟨read, hread, hkeeps', hmoves'⟩ :=
      ih next (fun k hk => hpage k (List.mem_cons_of_mem _ hk)) hkeeps
    refine ⟨read, ?_, fun i hi => ?_, hmoves.trans hmoves'⟩
    · rw [List.foldlM_cons, hnext]
      exact hread
    · obtain ⟨klines, hklines, hmem⟩ := hkeeps' i hi
      refine ⟨klines, hklines, fun k' => ?_⟩
      rw [hmem]
      dsimp only
      rw [List.mem_cons]
      constructor
      · rintro ((hk | ⟨rfl, hin, hi⟩) | ⟨hk, hin, hi⟩)
        · exact .inl hk
        · exact .inr ⟨.inl rfl, hin, hi⟩
        · exact .inr ⟨.inr hk, hin, hi⟩
      · rintro (hk | ⟨rfl | hk, hin, hi⟩)
        · exact .inl (.inl hk)
        · exact .inl (.inr ⟨rfl, hin, hi⟩)
        · exact .inr ⟨hk, hin, hi⟩

end Read

/-! ### One turn -/

/-- A row of a candle that opens in a window. -/
def KlineRow.Inside (venue : Venue) (startTime endTime : TimestampMs) (row : KlineRow) : Prop :=
  startTime.toInt ≤ row.openMs venue ∧ row.openMs venue ≤ endTime.toInt

/-- The candles kept are those of some rows of each instrument. -/
def KeepsRows (venue : Venue) (interval : KlineInterval) (ids : List InstrumentId)
    (got : InstrumentId → KlineRow → Prop) (candles : CandlesByInstrument) : Prop :=
  Keeps ids (fun i k => ∃ row, got i row ∧ row.kline venue interval i = k) candles

/-- The last and the first open time after the pages of some instruments. -/
structure Spans (venue : Venue) (startTime endTime : TimestampMs) (ids : List InstrumentId)
    (pages : InstrumentId → List KlineRow) (nextStart : TimestampMs) (read : PageState) : Prop where
  start_le : nextStart.toInt ≤ read.maxOpenTime.toInt
  le_max : ∀ i ∈ ids, ∀ row ∈ pages i, row.Inside venue startTime endTime →
    row.openMs venue ≤ read.maxOpenTime.toInt
  max_eq : read.maxOpenTime = nextStart ∨ ∃ i ∈ ids, ∃ row ∈ pages i,
    row.Inside venue startTime endTime ∧ row.openMs venue = read.maxOpenTime.toInt
  min_le : ∀ i ∈ ids, ∀ row ∈ pages i, row.Inside venue startTime endTime →
    read.minOpenTime.toInt ≤ row.openMs venue
  min_eq : read.minOpenTime = Int64.maxValue ∨ ∃ i ∈ ids, ∃ row ∈ pages i,
    row.Inside venue startTime endTime ∧ row.openMs venue = read.minOpenTime.toInt

section Turn

variable {client : OhlcvClient} {request : FetchOhlcvRequest} {mexcPage limit : ℕ}
variable {histories : InstrumentId → KlineHistory client.context.venue interval origin}
variable {startTime endTime : TimestampMs} {w : WindowState}
variable {got : InstrumentId → KlineRow → Prop}

/-- The page of an instrument that is asked for next. -/
def nextPage (histories : InstrumentId → KlineHistory venue interval origin) (mexcPage limit : ℕ)
    (w : WindowState) (i : InstrumentId) : List KlineRow :=
  pageRows venue mexcPage limit (askedRows histories w.nextStart w.nextEnd i)

theorem sound_of_mem_nextPage
    {histories : InstrumentId → KlineHistory venue interval origin}
    (h : row ∈ nextPage histories mexcPage limit w i) : row.Sound venue interval :=
  (histories i).sound row (List.mem_of_mem_filter (mem_of_mem_pageRows h))

theorem opensIn_kline (h : row.Sound venue interval) :
    (row.kline venue interval i).OpensIn startTime endTime ↔
      row.Inside venue startTime endTime := by
  rw [Kline.OpensIn, Int64.le_iff_toInt_le, Int64.le_iff_toInt_le, openTime_kline h]
  rfl

variable (hserves : ServesPages client mexcPage histories)
variable (hparse : KlineInterval.parse request.interval = some interval)
variable (hlimit : request.limit = some limit) (hids : request.instrumentIds ≠ [])
include hserves hparse hlimit hids

variable (startTime endTime) in
/-- A turn reads the next page of each instrument. -/
theorem windowStep_spec (hadmits : Admits client request interval)
    (hkeeps : KeepsRows client.context.venue interval request.instrumentIds got
      w.candlesByInstrument) :
    ((∀ i ∈ request.instrumentIds, nextPage histories mexcPage limit w i = []) ∧
      client.windowStep request interval startTime endTime w = .ok (w, false)) ∨
    ((∃ i ∈ request.instrumentIds, nextPage histories mexcPage limit w i ≠ []) ∧
      ∃ read, KeepsRows client.context.venue interval request.instrumentIds
          (fun i row => got i row ∨ row ∈ nextPage histories mexcPage limit w i ∧
            row.Inside client.context.venue startTime endTime) read.candlesByInstrument ∧
        Spans client.context.venue startTime endTime request.instrumentIds
          (nextPage histories mexcPage limit w) w.nextStart read ∧
        client.windowStep request interval startTime endTime w =
          client.advanceWindow request interval startTime endTime w read) := by
  obtain ⟨page, hpage, hmem⟩ := fetchOhlcvPage_spec
    { request with startTime := some w.nextStart, endTime := some w.nextEnd }
    hserves hparse hlimit rfl rfl hids ⟨hadmits.few, hadmits.known, hadmits.offered⟩
  have hrows : ∀ {i}, i ∈ request.instrumentIds → ∀ {row},
      row ∈ nextPage histories mexcPage limit w i →
      row.kline client.context.venue interval i ∈ page := by
    intro i hi row hrow
    exact (hmem _).2 ⟨i, hi, row, hrow, rfl⟩
  unfold windowStep
  rw [hpage]
  -- an empty page ends the loop, and is the answer when no instrument has a row left
  by_cases hempty : page = []
  · refine .inl ⟨fun i hi => ?_, by rw [hempty]; rfl⟩
    by_contra hne
    obtain ⟨row, hrow⟩ := List.exists_mem_of_ne_nil _ hne
    have hk := hrows hi hrow
    rw [hempty] at hk
    cases hk
  · have hinstruments : ∀ k ∈ page, k.instrumentId ∈ request.instrumentIds := by
      intro k hk
      obtain ⟨i, hi, row, hrow, rfl⟩ := (hmem k).1 hk
      rwa [instrumentId_kline]
    obtain ⟨read, hread, hkeeps', hmoves⟩ := takeCandles_spec startTime endTime
      ⟨w.candlesByInstrument, w.nextStart, Int64.maxValue⟩ hinstruments hkeeps
    refine .inr ⟨?_, read, fun i hi => ?_, ?_, ?_⟩
    · obtain ⟨k, hk⟩ := List.exists_mem_of_ne_nil _ hempty
      obtain ⟨i, hi, row, hrow, -⟩ := (hmem k).1 hk
      exact ⟨i, hi, List.ne_nil_of_mem hrow⟩
    · obtain ⟨klines, hklines, hiff⟩ := hkeeps' i hi
      refine ⟨klines, hklines, fun k => (hiff k).trans ?_⟩
      dsimp only
      constructor
      · rintro (⟨row, hgot, rfl⟩ | ⟨hk, hin, rfl⟩)
        · exact ⟨row, .inl hgot, rfl⟩
        · obtain ⟨j, hj, row, hrow, rfl⟩ := (hmem k).1 hk
          rw [instrumentId_kline]
          exact ⟨row, .inr ⟨hrow, (opensIn_kline (sound_of_mem_nextPage hrow)).1 hin⟩, rfl⟩
      · rintro ⟨row, hgot | ⟨hrow, hin⟩, rfl⟩
        · exact .inl ⟨row, hgot, rfl⟩
        · exact .inr ⟨hrows hi hrow, (opensIn_kline (sound_of_mem_nextPage hrow)).2 hin,
            instrumentId_kline⟩
    -- the cursors are about the rows within the window, and those are the candles taken
    · have hopens : ∀ i ∈ request.instrumentIds, ∀ row ∈ nextPage histories mexcPage limit w i,
          row.Inside client.context.venue startTime endTime →
          ∃ k ∈ page, k.OpensIn startTime endTime ∧
            k.openTime.toInt = row.openMs client.context.venue := fun i hi row hrow hin =>
        have hsound := sound_of_mem_nextPage hrow
        ⟨_, hrows hi hrow, (opensIn_kline hsound).2 hin, openTime_kline hsound⟩
      have hrow : ∀ k ∈ page, k.OpensIn startTime endTime → ∃ i ∈ request.instrumentIds,
          ∃ row ∈ nextPage histories mexcPage limit w i,
            row.Inside client.context.venue startTime endTime ∧
            row.openMs client.context.venue = k.openTime.toInt := by
        intro k hk hin
        obtain ⟨i, hi, row, hrow, rfl⟩ := (hmem k).1 hk
        have hsound := sound_of_mem_nextPage hrow
        exact ⟨i, hi, row, hrow, (opensIn_kline hsound).1 hin, (openTime_kline hsound).symm⟩
      constructor
      · exact hmoves.before_le
      · intro i hi row hr hin
        obtain ⟨k, hk, hopen, htime⟩ := hopens i hi row hr hin
        exact htime ▸ hmoves.le_max k hk hopen
      · refine hmoves.max_eq.imp_right fun ⟨k, hk, hin, hmax⟩ => ?_
        exact hmax ▸ hrow k hk hin
      · intro i hi row hr hin
        obtain ⟨k, hk, hopen, htime⟩ := hopens i hi row hr hin
        exact htime ▸ hmoves.min_le k hk hopen
      · refine hmoves.min_eq.imp_right fun ⟨k, hk, hin, hmin⟩ => ?_
        exact hmin ▸ hrow k hk hin
    · show (if page = [] then _ else _) = _
      rw [if_neg hempty, hread]
      rfl

end Turn

end BatMarkets
