import BatMarkets.Adapter.PublicTrades
import BatMarkets.Mexc.Snapshots

/-!
# Candles in the replies of the venues

What the adapters make of a reply with candles (`parse_ohlcv_snapshot` of the three adapters).  A
candle has the time at which it ends, and says whether it is closed.  Binance sends the end of a
candle, the adapters of Bybit and MEXC compute it.  Binance and Bybit compare it with the clock,
which is read once for each row: `clock i` is what it shows for the `i`-th row.  On MEXC every candle
is closed.

## Main results

* `candles_closed_iff` : when the candles are closed exactly if they are over.
* `forming_candle_closed` : a candle of MEXC that is not over yet.
-/

namespace BatMarkets

open Wire

/-- A price, rounded to the units of the instrument. -/
def roundedPrice (spec : InstrumentSpec) (value : Except MarketError Decimal) :
    Except Failure Price := do
  let value ← value.mapError .error
  spec.priceFromFast (← ((⟨value⟩ : Price).quantize spec.priceScale).mapError .error)

/-- A quantity, rounded to the units of the instrument. -/
def roundedQuantity (spec : InstrumentSpec) (value : Except MarketError Decimal) :
    Except Failure Quantity := do
  let value ← value.mapError .error
  spec.quantityFromFast (← ((⟨value⟩ : Quantity).quantize spec.qtyScale).mapError .error)

/-- The candles in the order of their opening; candles that open together stay as they are. -/
def sortByOpenTime (klines : List Kline) : List Kline :=
  klines.mergeSort fun a b => a.openTime ≤ b.openTime

/-- The interval of a request to the venue. -/
def requireInterval (venue : Venue) (request : FetchOhlcvRequest) :
    Except MarketError KlineInterval :=
  match KlineInterval.parse request.interval with
  | some interval => .ok interval
  | none => .error (MarketError.withVenue
      { kind := .unsupported
        message := "unsupported " ++ venue.display ++ " OHLCV interval '" ++ request.interval ++
          "'" }
      venue .linearUsdt)

/-- The one instrument of a request to the venue. -/
def requireInstrument (venue : Venue) (catalog : InstrumentCatalog) (request : FetchOhlcvRequest) :
    Except MarketError InstrumentSpec := do
  let instrumentId ← request.singleInstrumentId
  match catalog.get instrumentId with
  | some spec => return spec
  | none => throw (MarketError.withVenue
      { kind := .unsupported
        message := "unsupported " ++ venue.display ++ " instrument '" ++ instrumentId.asStr ++ "'" }
      venue .linearUsdt)

/-! ### Binance -/

namespace Binance

/-- The error for a value of a kline row. -/
def rowError (message : String) : MarketError :=
  (decodeFailure message).withVenue .binance .linearUsdt

/-- An integer of a row of Binance, written as a number or as a text. -/
def parseI64Value (value : Json) (label : String) : Except MarketError Int64 :=
  match value with
  | .number number =>
    match (Json.number number).asInt64 with
    | some n => .ok n
    | none => .error (rowError ("invalid numeric value for binance " ++ label))
  | .string raw =>
    match Text.parseInt (-2 ^ 63) (2 ^ 63 - 1) raw.toList with
    | .ok n => .ok (.ofInt n)
    | .error e =>
      .error (rowError ("invalid i64 '" ++ raw ++ "' for binance " ++ label ++ ": " ++ e))
  | other =>
    .error (rowError ("unsupported binance " ++ label ++ " representation: " ++ other.display))

/-- A text of a row of Binance. -/
def parseStrValue (value : Json) (label : String) : Except MarketError String :=
  match value with
  | .string raw => .ok raw
  | other =>
    .error (rowError ("unsupported binance " ++ label ++ " representation: " ++ other.display))

/-- A decimal of a kline row. -/
def rowDecimal (value : Json) (label : String) : Except MarketError Decimal := do
  parseDecimal (← parseStrValue value label)

/-- A candle from a row of Binance; it is closed when its close time is over. -/
def parseKlineRow (spec : InstrumentSpec) (interval : KlineInterval) (now : TimestampMs)
    (row : List Json) : Except Failure Kline :=
  match row with
  | openTime :: openPrice :: high :: low :: close :: volume :: closeTime :: _ => do
    let openTime ← (parseI64Value openTime "open_time").mapError .error
    let closeTime ← (parseI64Value closeTime "close_time").mapError .error
    let openPrice ← roundedPrice spec (rowDecimal openPrice "open")
    let high ← roundedPrice spec (rowDecimal high "high")
    let low ← roundedPrice spec (rowDecimal low "low")
    let close ← roundedPrice spec (rowDecimal close "close")
    let volume ← roundedQuantity spec (rowDecimal volume "volume")
    return {
      instrumentId := spec.instrumentId, interval := interval.asIntervalStr, openPrice, high, low,
      close, volume, openTime, closeTime, closed := closeTime < now }
  | row => .error (.error (rowError ("binance kline row has " ++ toString row.length ++
      " fields, expected at least 7")))

/-- The rows of a reply. -/
def readKlineRows (payload : Payload) : Option (List (List Json)) :=
  payload.value?.bind (Json.each (Json.each some))

/-- The candles in the order of the reply. -/
def listedKlines (catalog : InstrumentCatalog) (clock : ℕ → TimestampMs)
    (request : FetchOhlcvRequest) (payload : Payload) : Except Failure (List Kline) := do
  let interval ← (requireInterval .binance request).mapError .error
  let spec ← (requireInstrument .binance catalog request).mapError .error
  match readKlineRows payload with
  | none => throw (.error ((rowError "failed to parse binance klines snapshot").withOperation
      "binance.parse_ohlcv_snapshot"))
  | some rows => rows.zipIdx.mapM fun x => parseKlineRow spec interval (clock x.2) x.1

/-- The candles in a reply of Binance. -/
def parseOhlcvSnapshot (catalog : InstrumentCatalog) (clock : ℕ → TimestampMs)
    (request : FetchOhlcvRequest) (payload : Payload) : Except Failure (List Kline) :=
  sortByOpenTime <$> listedKlines catalog clock request payload

end Binance

/-! ### Bybit -/

namespace Bybit

/-- Seven texts: the open time, the prices, the volume, and the turnover. -/
abbrev KlineRow := Vector String 7

/-- The reply of Bybit about candles, with its rows. -/
structure KlineListResponse where
  retCode : Int64
  retMsg : String
  list : List KlineRow

/-- A row of Bybit has exactly seven texts. -/
def readKlineRow (value : Json) : Option KlineRow :=
  (Json.each Json.asStr value).bind fun texts =>
    if h : texts.toArray.size = 7 then some ⟨texts.toArray, h⟩ else none

/-- The reply is read with all its rows, or not at all. -/
def KlineListResponse.read (value : Json) : Option KlineListResponse := do
  let fields ← value.record ["retCode", "retMsg", "result"]
  let retCode ← Json.required fields "retCode" Json.asInt64
  let retMsg ← Json.required fields "retMsg" Json.asStr
  let result ← Json.required fields "result" some
  let fields ← result.record ["list"]
  let list ← Json.required fields "list" (Json.each readKlineRow)
  return { retCode, retMsg, list }

/-- The open time of a row of Bybit, which is a text. -/
def parseOpenTime (raw : String) : Except MarketError TimestampMs :=
  match Text.parseInt (-2 ^ 63) (2 ^ 63 - 1) raw.toList with
  | .ok n => .ok (.ofInt n)
  | .error e => .error ((decodeFailure ("failed to decode bybit kline startTime: " ++ e)).withVenue
      .bybit .linearUsdt)

/-- A candle from a row of Bybit, whose end is the one that the interval gives. -/
def parseKlineRow (spec : InstrumentSpec) (interval : KlineInterval) (now : TimestampMs)
    (row : KlineRow) : Except Failure Kline := do
  let openTime ← (parseOpenTime (row.get 0)).mapError .error
  match ← interval.closeTimeMs openTime with
  | none => throw (.error ((decodeFailure
      ("failed to derive bybit kline close time for interval '" ++ interval.asIntervalStr ++
        "'")).withVenue .bybit .linearUsdt))
  | some closeTime =>
    let openPrice ← roundedPrice spec (parseDecimal (row.get 1))
    let high ← roundedPrice spec (parseDecimal (row.get 2))
    let low ← roundedPrice spec (parseDecimal (row.get 3))
    let close ← roundedPrice spec (parseDecimal (row.get 4))
    let volume ← roundedQuantity spec (parseDecimal (row.get 5))
    return {
      instrumentId := spec.instrumentId, interval := interval.asIntervalStr, openPrice, high, low,
      close, volume, openTime, closeTime, closed := closeTime < now }

/-- The candles in the order of the reply. -/
def listedKlines (catalog : InstrumentCatalog) (clock : ℕ → TimestampMs)
    (request : FetchOhlcvRequest) (payload : Payload) : Except Failure (List Kline) := do
  let interval ← (requireInterval .bybit request).mapError .error
  let spec ← (requireInstrument .bybit catalog request).mapError .error
  match payload.value?.bind KlineListResponse.read with
  | none => throw (.error decodeError)
  | some response =>
    if response.retCode ≠ 0 then
      throw (.error (exchangeReject response.retCode response.retMsg))
    response.list.zipIdx.mapM fun x => parseKlineRow spec interval (clock x.2) x.1

/-- The candles in a reply of Bybit. -/
def parseOhlcvSnapshot (catalog : InstrumentCatalog) (clock : ℕ → TimestampMs)
    (request : FetchOhlcvRequest) (payload : Payload) : Except Failure (List Kline) :=
  sortByOpenTime <$> listedKlines catalog clock request payload

end Bybit

/-! ### All venues -/

/-- The interval of a request, as the venue reads it. -/
def Venue.klineInterval? (venue : Venue) (raw : String) : Option KlineInterval :=
  match venue with
  | .binance | .bybit => KlineInterval.parse raw
  | .mexc => Mexc.klineInterval? raw

section Venues

variable (venue : Venue) (catalog : InstrumentCatalog) (clock : ℕ → TimestampMs)
  (request : FetchOhlcvRequest) (payload : Payload)

/-- The candles of a reply, in its order. -/
def listedKlines : Except Failure (List Kline) :=
  match venue with
  | .binance => Binance.listedKlines catalog clock request payload
  | .bybit => Bybit.listedKlines catalog clock request payload
  | .mexc => Mexc.parseOhlcvSnapshot catalog request payload

/-- `parse_ohlcv_snapshot` of the venue. -/
def ohlcvSnapshot : Except Failure (List Kline) :=
  match venue with
  | .binance => Binance.parseOhlcvSnapshot catalog clock request payload
  | .bybit => Bybit.parseOhlcvSnapshot catalog clock request payload
  | .mexc => Mexc.parseOhlcvSnapshot catalog request payload

end Venues

/-! ### When candles are closed -/

/-- The candle has the end of its interval, and is closed if and only if it is over. -/
structure Kline.ClosedWhenOver (interval : KlineInterval) (now : TimestampMs) (kline : Kline) :
    Prop where
  closeTime : interval.closeTimeMs kline.openTime = .ok (some kline.closeTime)
  closed : kline.closed = true ↔ kline.closeTime < now

/-- Binance sends the end of the candle that opens when the row says. -/
def Binance.EndTold (interval : KlineInterval) (row : List Json) : Prop :=
  ∀ openTime closeTime : TimestampMs,
    row[0]?.map (Binance.parseI64Value · "open_time") = some (.ok openTime) →
    row[6]?.map (Binance.parseI64Value · "close_time") = some (.ok closeTime) →
    interval.Closes openTime.toInt closeTime.toInt

/-- The candle of MEXC that opens at this time has ended. -/
def Mexc.IsOver (interval : KlineInterval) (now : TimestampMs) (entry : Mexc.KlineEntry) : Prop :=
  ∃ closeMs, interval.Closes (entry.time.toInt * 1000) closeMs ∧ closeMs < now.toInt

/-- What the adapter takes from the reply is so: on Binance, the ends of the candles; on MEXC, that
all candles are over. -/
def EndsInTime (venue : Venue) (interval : KlineInterval) (clock : ℕ → TimestampMs)
    (payload : Payload) : Prop :=
  match venue with
  | .binance => ∀ rows, Binance.readKlineRows payload = some rows →
      ∀ (i : ℕ) row, rows[i]? = some row → Binance.EndTold interval row
  | .bybit => True
  | .mexc => ∀ data, Mexc.responseData Mexc.KlineRestData.read "kline response" payload = .ok data →
      ∀ (i : ℕ) entry, data.entries[i]? = some entry → Mexc.IsOver interval (clock i) entry

section Rows

variable {spec : InstrumentSpec} {interval : KlineInterval} {now : TimestampMs} {kline : Kline}

theorem Binance.closedWhenOver_iff {row : List Json}
    (h : Binance.parseKlineRow spec interval now row = .ok kline) :
    kline.ClosedWhenOver interval now ↔ Binance.EndTold interval row := by
  unfold Binance.parseKlineRow at h
  split at h
  · next openTime _ _ _ _ _ closeTime _ =>
    obtain ⟨o, ho, h⟩ := except_bind_eq_ok.1 h
    obtain ⟨c, hc, h⟩ := except_bind_eq_ok.1 h
    obtain ⟨_, -, h⟩ := except_bind_eq_ok.1 h
    obtain ⟨_, -, h⟩ := except_bind_eq_ok.1 h
    obtain ⟨_, -, h⟩ := except_bind_eq_ok.1 h
    obtain ⟨_, -, h⟩ := except_bind_eq_ok.1 h
    obtain ⟨_, -, h⟩ := except_bind_eq_ok.1 h
    cases h
    have ho := mapError_eq_ok.1 ho
    have hc := mapError_eq_ok.1 hc
    constructor
    · rintro ⟨hend, -⟩ o' c' ho' hc'
      obtain rfl : o = o' := Except.ok.inj (ho.symm.trans (Option.some.inj ho'))
      obtain rfl : c = c' := Except.ok.inj (hc.symm.trans (Option.some.inj hc'))
      exact KlineInterval.closeTimeMs_eq_iff.1 hend
    · intro hold
      have hcloses := hold o c (congrArg some ho) (congrArg some hc)
      exact ⟨KlineInterval.closeTimeMs_eq_iff.2 hcloses, by simp⟩
  · cases h

theorem Bybit.closedWhenOver {row : Bybit.KlineRow}
    (h : Bybit.parseKlineRow spec interval now row = .ok kline) :
    kline.ClosedWhenOver interval now := by
  unfold Bybit.parseKlineRow at h
  obtain ⟨openTime, -, h⟩ := except_bind_eq_ok.1 h
  obtain ⟨closeTime?, hclose, h⟩ := except_bind_eq_ok.1 h
  cases closeTime? with
  | none => cases h
  | some closeTime =>
    dsimp only at h
    obtain ⟨_, -, h⟩ := except_bind_eq_ok.1 h
    obtain ⟨_, -, h⟩ := except_bind_eq_ok.1 h
    obtain ⟨_, -, h⟩ := except_bind_eq_ok.1 h
    obtain ⟨_, -, h⟩ := except_bind_eq_ok.1 h
    obtain ⟨_, -, h⟩ := except_bind_eq_ok.1 h
    cases h
    exact ⟨hclose, by simp⟩

theorem Mexc.closedWhenOver_iff {instrumentId : InstrumentId} {entry : Mexc.KlineEntry}
    (h : Mexc.klineFromEntry instrumentId interval entry = .ok kline) :
    kline.ClosedWhenOver interval now ↔ Mexc.IsOver interval now entry := by
  unfold Mexc.klineFromEntry at h
  obtain ⟨openTime, hopen, h⟩ := except_bind_eq_ok.1 h
  obtain ⟨_, -, h⟩ := except_bind_eq_ok.1 h
  obtain ⟨_, -, h⟩ := except_bind_eq_ok.1 h
  obtain ⟨_, -, h⟩ := except_bind_eq_ok.1 h
  obtain ⟨_, -, h⟩ := except_bind_eq_ok.1 h
  obtain ⟨_, -, h⟩ := except_bind_eq_ok.1 h
  obtain ⟨closeTime?, hclose, h⟩ := except_bind_eq_ok.1 h
  cases h
  have hms := KlineInterval.toInt_checkedI64 hopen
  unfold Mexc.IsOver
  rw [← hms]
  constructor
  · rintro ⟨hend, hclosed⟩
    refine ⟨_, KlineInterval.closeTimeMs_eq_iff.1 hend, ?_⟩
    rw [← Int64.lt_iff_toInt_lt]
    exact hclosed.1 rfl
  · rintro ⟨closeMs, hcloses, hlt⟩
    obtain ⟨closeTime, hend, rfl⟩ := hcloses.exists_closeTimeMs
    rw [hclose] at hend
    obtain rfl := Except.ok.inj hend
    refine ⟨hclose, iff_of_true rfl ?_⟩
    rw [Int64.lt_iff_toInt_lt]
    exact hlt

end Rows

/-! ### Replies -/

/-- What holds of the candle of each row, when it holds of the row. -/
theorem forall_listed_iff {ε α β : Type} {f : ℕ → α → Except ε β} {xs : List α} {ys : List β}
    (h : xs.zipIdx.mapM (fun x => f x.2 x.1) = .ok ys) {P : ℕ → β → Prop} {Q : ℕ → α → Prop}
    (hPQ : ∀ i x y, f i x = .ok y → (P i y ↔ Q i x)) :
    (∀ (i : ℕ) y, ys[i]? = some y → P i y) ↔ ∀ (i : ℕ) x, xs[i]? = some x → Q i x := by
  obtain ⟨hlength, hrows⟩ := List.forall₂_iff_get.1 (mapM_eq_ok_iff.1 h)
  rw [List.length_zipIdx] at hlength
  have hrow : ∀ (i : ℕ) (hx : i < xs.length) (hy : i < ys.length), f i xs[i] = .ok ys[i] := by
    intro i hx hy
    simpa using hrows i (by simpa using hx) hy
  constructor
  · intro hall i x hx
    obtain ⟨hi, rfl⟩ := List.getElem?_eq_some_iff.1 hx
    have hy : i < ys.length := hlength ▸ hi
    exact (hPQ i _ _ (hrow i hi hy)).1 (hall i _ (List.getElem?_eq_getElem hy))
  · intro hall i y hy
    obtain ⟨hi, rfl⟩ := List.getElem?_eq_some_iff.1 hy
    have hx : i < xs.length := hlength ▸ hi
    exact (hPQ i _ _ (hrow i hx hi)).2 (hall i _ (List.getElem?_eq_getElem hx))

theorem mapM_zipIdx {ε α β : Type} (f : α → Except ε β) (xs : List α) :
    xs.zipIdx.mapM (fun x => f x.1) = xs.mapM f := by
  have hmap : ∀ k, (xs.zipIdx k).mapM (fun x => f x.1) = xs.mapM f := by
    induction xs with
    | nil => exact fun _ => rfl
    | cons x xs ih =>
      intro k
      rw [List.zipIdx_cons, List.mapM_cons, List.mapM_cons, ih]
  exact hmap 0

theorem parse_of_requireInterval {venue : Venue} {request : FetchOhlcvRequest}
    {interval : KlineInterval} (h : requireInterval venue request = .ok interval) :
    KlineInterval.parse request.interval = some interval := by
  unfold requireInterval at h
  split at h
  · next hparse => rw [hparse, Except.ok.inj h]
  · cases h

theorem Mexc.klineInterval_of_parse {raw : String} {interval : KlineInterval}
    (h : Mexc.parseKlineInterval raw = .ok interval) : Mexc.klineInterval? raw = some interval := by
  unfold Mexc.parseKlineInterval at h
  split at h
  · next hparse => rw [hparse, Except.ok.inj h]
  · cases h

section Replies

variable {venue : Venue} {catalog : InstrumentCatalog} {clock : ℕ → TimestampMs}
  {request : FetchOhlcvRequest} {payload : Payload} {klines listed : List Kline}

/-- The candles of each row are closed when they are over. -/
def AllClosedWhenOver (interval : KlineInterval) (clock : ℕ → TimestampMs) (listed : List Kline) :
    Prop :=
  ∀ (i : ℕ) kline, listed[i]? = some kline → kline.ClosedWhenOver interval (clock i)

theorem Binance.listed_closed_iff
    (h : Binance.listedKlines catalog clock request payload = .ok listed) :
    ∃ interval, KlineInterval.parse request.interval = some interval ∧
      (AllClosedWhenOver interval clock listed ↔ EndsInTime .binance interval clock payload) := by
  obtain ⟨interval, hinterval, h⟩ := except_bind_eq_ok.1 h
  obtain ⟨spec, -, h⟩ := except_bind_eq_ok.1 h
  refine ⟨interval, parse_of_requireInterval (mapError_eq_ok.1 hinterval), ?_⟩
  unfold EndsInTime
  cases hrows : readKlineRows payload with
  | none =>
    rw [hrows] at h
    cases h
  | some rows =>
    rw [hrows] at h
    simp only [Option.some.injEq, forall_eq']
    exact forall_listed_iff h fun i row kline hrow => Binance.closedWhenOver_iff hrow

theorem Bybit.listed_closed (h : Bybit.listedKlines catalog clock request payload = .ok listed) :
    ∃ interval, KlineInterval.parse request.interval = some interval ∧
      AllClosedWhenOver interval clock listed := by
  obtain ⟨interval, hinterval, h⟩ := except_bind_eq_ok.1 h
  obtain ⟨spec, -, h⟩ := except_bind_eq_ok.1 h
  refine ⟨interval, parse_of_requireInterval (mapError_eq_ok.1 hinterval), ?_⟩
  cases hresponse : payload.value?.bind KlineListResponse.read with
  | none =>
    rw [hresponse] at h
    cases h
  | some response =>
    rw [hresponse] at h
    dsimp only at h
    split at h
    · cases h
    · intro i kline hkline
      have hclosed := forall_listed_iff (f := fun i row => parseKlineRow spec interval (clock i) row)
        (P := fun i kline => kline.ClosedWhenOver interval (clock i)) (Q := fun _ _ => True) h
        fun i row kline hrow => iff_of_true (Bybit.closedWhenOver hrow) trivial
      exact hclosed.2 (fun _ _ _ => trivial) i kline hkline

theorem Mexc.listed_closed_iff (h : Mexc.parseOhlcvSnapshot catalog request payload = .ok listed) :
    ∃ interval, Mexc.klineInterval? request.interval = some interval ∧
      (AllClosedWhenOver interval clock listed ↔ EndsInTime .mexc interval clock payload) := by
  obtain ⟨instrumentId, -, h⟩ := except_bind_eq_ok.1 h
  dsimp only at h
  split at h
  · cases h
  · obtain ⟨interval, hinterval, h⟩ := except_bind_eq_ok.1 h
    obtain ⟨data, hdata, h⟩ := except_bind_eq_ok.1 h
    split at h
    · cases h
    · refine ⟨interval, klineInterval_of_parse (mapError_eq_ok.1 hinterval), ?_⟩
      unfold EndsInTime
      rw [hdata]
      simp only [Except.ok.injEq, forall_eq']
      -- The clock is not read here: the reading of each row stands beside it.
      have hlisted := (mapM_zipIdx (klineFromEntry instrumentId interval) data.entries).trans h
      exact forall_listed_iff (f := fun _ entry => klineFromEntry instrumentId interval entry)
        (P := fun i kline => kline.ClosedWhenOver interval (clock i))
        (Q := fun i entry => Mexc.IsOver interval (clock i) entry) hlisted
        fun i entry kline hrow => Mexc.closedWhenOver_iff hrow

/-- **When the candles of a reply are closed.** -/
theorem candles_closed_iff
    (h : ohlcvSnapshot venue catalog clock request payload = .ok klines) :
    ∃ interval listed, venue.klineInterval? request.interval = some interval ∧
      listedKlines venue catalog clock request payload = .ok listed ∧ klines.Perm listed ∧
      (AllClosedWhenOver interval clock listed ↔ EndsInTime venue interval clock payload) := by
  cases venue with
  | binance =>
    obtain ⟨listed, hlisted, rfl⟩ := except_map_eq_ok.1 h
    obtain ⟨interval, hinterval, hiff⟩ := Binance.listed_closed_iff hlisted
    exact ⟨interval, listed, hinterval, hlisted, List.mergeSort_perm .., hiff⟩
  | bybit =>
    obtain ⟨listed, hlisted, rfl⟩ := except_map_eq_ok.1 h
    obtain ⟨interval, hinterval, hall⟩ := Bybit.listed_closed hlisted
    exact ⟨interval, listed, hinterval, hlisted, List.mergeSort_perm .., iff_of_true hall trivial⟩
  | mexc =>
    obtain ⟨interval, hinterval, hiff⟩ := Mexc.listed_closed_iff h
    exact ⟨interval, klines, hinterval, h, .refl _, hiff⟩

end Replies

/-- A reply of MEXC with the candle of one minute, open since 60 s. -/
def minuteReply : Payload :=
  .json (.object [("success", .bool true), ("code", .integer 0), ("data", .object [
    ("time", .array [.integer 60]), ("open", .array [.integer 1]), ("close", .array [.integer 1]),
    ("high", .array [.integer 1]), ("low", .array [.integer 1]), ("vol", .array [.integer 1])])])

/-- A request for the minute candles of one instrument. -/
def minuteRequest : FetchOhlcvRequest := ⟨[⟨"BTC/USDT:USDT"⟩], "1m", none, none, none⟩

/-- MEXC with that instrument alone. -/
def minuteCatalog : InstrumentCatalog :=
  .new [.active .mexc "BTC/USDT:USDT" "BTC_USDT" 1 0]

/-- The candle from 60 s to 120 s. -/
def minuteKline : Kline where
  instrumentId := ⟨"BTC/USDT:USDT"⟩
  interval := "1m"
  openPrice := ⟨.ofNat 1 Decimal.one_fits⟩
  high := ⟨.ofNat 1 Decimal.one_fits⟩
  low := ⟨.ofNat 1 Decimal.one_fits⟩
  close := ⟨.ofNat 1 Decimal.one_fits⟩
  volume := ⟨.ofNat 1 Decimal.one_fits⟩
  openTime := 60000
  closeTime := 119999
  closed := true

theorem minuteReply_klines (clock : ℕ → TimestampMs) :
    ohlcvSnapshot .mexc minuteCatalog clock minuteRequest minuteReply = .ok [minuteKline] := by
  show Mexc.parseOhlcvSnapshot minuteCatalog minuteRequest minuteReply = _
  decide +kernel

theorem candles_closed_iff_minute :
    ∃ interval listed, Venue.klineInterval? .mexc minuteRequest.interval = some interval ∧
      listedKlines .mexc minuteCatalog (fun _ => 90000) minuteRequest minuteReply = .ok listed ∧
        [minuteKline].Perm listed ∧
          (AllClosedWhenOver interval (fun _ => 90000) listed ↔
            EndsInTime .mexc interval (fun _ => 90000) minuteReply) :=
  candles_closed_iff (minuteReply_klines _)

/-- Half a minute before its end, the candle is closed. -/
theorem forming_candle_closed :
    ¬ ∀ (venue : Venue) (catalog : InstrumentCatalog) (now : TimestampMs)
      (request : FetchOhlcvRequest) (payload : Payload) (klines : List Kline)
      (interval : KlineInterval), venue.klineInterval? request.interval = some interval →
        ohlcvSnapshot venue catalog (fun _ => now) request payload = .ok klines →
          ∀ kline ∈ klines, kline.ClosedWhenOver interval now := by
  intro h
  have hclosed := h .mexc minuteCatalog 90000 minuteRequest minuteReply [minuteKline] .minute1
    (by decide) (minuteReply_klines _) minuteKline (List.mem_singleton_self _)
  have hover : minuteKline.closeTime < 90000 := hclosed.closed.1 rfl
  exact absurd hover (by decide)

end BatMarkets
