import BatMarkets.Core.Candles
import BatMarkets.Runtime.OhlcvComplete

/-!
# Panics while a window of candles is fetched

`fetch_ohlcv_window` of `facade.rs` takes pages of candles as they arrive, whatever is on them.  Two
of its steps could panic: the candles of an instrument are taken out of the map once for each time
the instrument is requested, and the end of the last candle is computed from the open time that the
venue gives.  The steps of the cursor are taken here with their overflow checks.

## Main results

* `OhlcvClient.windowLoop_eq_windowPages` : the loop of `fetch_ohlcv_window` is a run over the pages
  that are fetched.
* `OhlcvClient.windowPages_cases` : a run over pages does not panic when the ends of the candles fit,
  and ends with an entry for each instrument.
* `fetch_ohlcv_window_never_panics_iff` : the requests for which no pages lead to a panic.
-/

namespace BatMarkets

open Ordered

namespace OhlcvClient

variable (client : OhlcvClient)

/-- Where the window goes on after a page, with the steps of the cursor checked. -/
def moveWindow (request : FetchOhlcvRequest) (interval : KlineInterval)
    (startTime endTime : TimestampMs) (w : WindowState) (read : PageState) :
    Except Failure (WindowState × Bool) := do
  let w := { w with candlesByInstrument := read.candlesByInstrument }
  match client.context.venue with
  | .binance | .mexc =>
    match ← interval.closeTimeMs read.maxOpenTime with
    | none => throw (.error {
        kind := .decodeError
        message := "failed to derive OHLCV close time for interval '" ++ request.interval ++ "'" })
    | some maxCloseTime =>
      if endTime ≤ maxCloseTime then
        return (w, false)
      return ({ w with nextStart := ← checkedI64 (maxCloseTime.toInt + 1) }, true)
  | .bybit =>
    if read.minOpenTime ≤ startTime ∨ read.minOpenTime = Int64.maxValue then
      return (w, false)
    return ({ w with nextEnd := ← checkedI64 (read.minOpenTime.toInt - 1) }, true)

/-- A turn of the loop, once its page has arrived. -/
def takePage (request : FetchOhlcvRequest) (interval : KlineInterval)
    (startTime endTime : TimestampMs) (w : WindowState) (page : List Kline) :
    Except Failure (WindowState × Bool) := do
  if page = [] then
    return (w, false)
  let read ← page.foldlM (takeCandle startTime endTime)
    ⟨w.candlesByInstrument, w.nextStart, Int64.maxValue⟩
  client.moveWindow request interval startTime endTime w read

/-- The loop over the pages that arrive, if it ends with them. -/
def windowPages (request : FetchOhlcvRequest) (interval : KlineInterval)
    (startTime endTime : TimestampMs) :
    List (Except MarketError (List Kline)) → WindowState →
      Option (Except Failure CandlesByInstrument)
  | [], _ => none
  | .error e :: _, _ => some (.error (.error e))
  | .ok page :: pages, w =>
    match client.takePage request interval startTime endTime w page with
    | .error e => some (.error e)
    | .ok (w, true) => windowPages request interval startTime endTime pages w
    | .ok (w, false) => some (.ok w.candlesByInstrument)

/-- `fetch_ohlcv_window` over the pages that arrive. -/
def fetchOhlcvPages (request : FetchOhlcvRequest) (pages : List (Except MarketError (List Kline))) :
    Option (Except Failure (List Kline)) :=
  match request.validInstrumentIds with
  | .error e => some (.error (.error e))
  | .ok instrumentIds =>
    match request.startTime with
    | none => some (.error (.error {
        kind := .configError, message := "fetch_ohlcv requires request.start_time" }))
    | some startTime =>
      match request.endTime with
      | none => some (.error (.error {
          kind := .configError, message := "fetch_ohlcv requires request.end_time" }))
      | some endTime =>
        if endTime < startTime then some (.error (.error {
          kind := .configError, message := "fetch_ohlcv requires end_time >= start_time" }))
        else match KlineInterval.parse request.interval with
          | none => some (.error (.error {
              kind := .unsupported
              message := "unsupported OHLCV interval '" ++ request.interval ++ "'" }))
          | some interval =>
            (client.windowPages request interval startTime endTime pages
              (firstState instrumentIds startTime endTime)).map fun candles => do
                flattenCandles (← candles) instrumentIds

variable {client : OhlcvClient} {request : FetchOhlcvRequest} {interval : KlineInterval}
variable {startTime endTime : TimestampMs}

/-! ### The loop and its pages -/

/-- The steps of the cursor do not overflow: they are taken before the end and after the start of
the window. -/
theorem moveWindow_eq (w : WindowState) (read : PageState) :
    client.moveWindow request interval startTime endTime w read =
      client.advanceWindow request interval startTime endTime w read := by
  unfold moveWindow advanceWindow
  have hprev : ¬ (read.minOpenTime ≤ startTime ∨ read.minOpenTime = Int64.maxValue) →
      checkedI64 (read.minOpenTime.toInt - 1) = .ok (read.minOpenTime - 1) := by
    intro h
    exact checkedI64_prev (Int64.not_le.1 fun hle => h (.inl hle))
  have hnext : ∀ maxCloseTime : TimestampMs, ¬ endTime ≤ maxCloseTime →
      checkedI64 (maxCloseTime.toInt + 1) = .ok (maxCloseTime + 1) := by
    intro maxCloseTime h
    exact checkedI64_next (Int64.not_le.1 h)
  cases client.context.venue with
  | bybit =>
    dsimp only
    split
    next => rfl
    next h =>
      rw [hprev h]
      rfl
  | binance | mexc =>
    dsimp only
    cases interval.closeTimeMs read.maxOpenTime with
    | error e => rfl
    | ok closeTime =>
      cases closeTime with
      | none => rfl
      | some maxCloseTime =>
        by_cases h : endTime ≤ maxCloseTime
        · simp [h, bind, Except.bind]
        · simp [h, hnext maxCloseTime h, bind, Except.bind]

theorem windowStep_eq (w : WindowState) :
    client.windowStep request interval startTime endTime w =
      client.fetchOhlcvPage
          { request with startTime := some w.nextStart, endTime := some w.nextEnd } >>=
        client.takePage request interval startTime endTime w := by
  unfold windowStep takePage
  simp only [moveWindow_eq]

/-- The loop is a run over the pages it fetches, if none of the fetches panics. -/
theorem windowLoop_eq_windowPages (hpages : ∀ page, client.fetchOhlcvPage page ≠ .error .panic)
    (turns : ℕ) (w : WindowState) :
    ∃ pages, client.windowPages request interval startTime endTime pages w =
      client.windowLoop request interval startTime endTime turns w := by
  induction turns generalizing w with
  | zero => exact ⟨[], rfl⟩
  | succ turns ih =>
    rw [windowLoop, windowStep_eq]
    cases hpage : client.fetchOhlcvPage
        { request with startTime := some w.nextStart, endTime := some w.nextEnd } with
    | error e =>
      cases e with
      | error e => exact ⟨[.error e], rfl⟩
      | panic => exact absurd hpage (hpages _)
    | ok page =>
      have htake : (Except.ok page >>= client.takePage request interval startTime endTime w) =
          client.takePage request interval startTime endTime w page := rfl
      rw [htake]
      cases hstep : client.takePage request interval startTime endTime w page with
      | error e => exact ⟨[.ok page], by rw [windowPages, hstep]⟩
      | ok next =>
        obtain ⟨w', goes⟩ := next
        cases goes with
        | false => exact ⟨[.ok page], by rw [windowPages, hstep]⟩
        | true =>
          obtain ⟨pages, hrest⟩ := ih w'
          refine ⟨.ok page :: pages, ?_⟩
          rw [windowPages, hstep]
          exact hrest

/-! ### The cursor and the map -/

/-- The map has an entry for each of the instruments. -/
def HasAll (ids : List InstrumentId) (candles : CandlesByInstrument) : Prop :=
  ∀ i ∈ ids, candles[i]? ≠ none

/-- The end of a candle that opens in the window is a time. -/
def EndsFit (venue : Venue) (interval : KlineInterval) (endTime : TimestampMs) : Prop :=
  venue ≠ .bybit → ∀ durationMs, interval.durationMs = some durationMs →
    endTime.toInt + durationMs < 2 ^ 63

/-- What holds between two pages. -/
structure Safe (ids : List InstrumentId) (endTime : TimestampMs) (w : WindowState) : Prop where
  keys : HasAll ids w.candlesByInstrument
  cursor : w.nextStart ≤ endTime

section Page

variable (startTime endTime) (ids : List InstrumentId)

/-- A candle of the page moves the last open time inside the window, and no entry is lost. -/
theorem takeCandle_cases (page : PageState) (candle : Kline) :
    (∃ read, takeCandle startTime endTime page candle = .ok read ∧
        (page.maxOpenTime ≤ endTime → read.maxOpenTime ≤ endTime) ∧
        (HasAll ids page.candlesByInstrument → HasAll ids read.candlesByInstrument)) ∨
      ∃ e, takeCandle startTime endTime page candle = .error (.error e) := by
  unfold takeCandle
  by_cases hout : candle.openTime < startTime ∨ endTime < candle.openTime
  · rw [if_pos hout]
    exact .inl ⟨page, rfl, id, id⟩
  · rw [if_neg hout]
    cases hlookup : page.candlesByInstrument[candle.instrumentId]? with
    | none => exact .inr ⟨_, rfl⟩
    | some candles =>
      refine .inl ⟨_, rfl, fun hmax => ?_, fun hkeys i hi => ?_⟩
      · have hin : candle.openTime ≤ endTime := Int64.not_lt.1 fun h => hout (.inr h)
        rw [Int64.le_iff_toInt_le] at hmax hin ⊢
        rw [toInt_max]
        exact max_le hmax hin
      · rw [lookup_insert]
        split
        · exact fun h => nomatch h
        · exact hkeys i hi

theorem foldlM_takeCandle_cases (candles : List Kline) (page : PageState) :
    (∃ read, candles.foldlM (takeCandle startTime endTime) page = .ok read ∧
        (page.maxOpenTime ≤ endTime → read.maxOpenTime ≤ endTime) ∧
        (HasAll ids page.candlesByInstrument → HasAll ids read.candlesByInstrument)) ∨
      ∃ e, candles.foldlM (takeCandle startTime endTime) page = .error (.error e) := by
  induction candles generalizing page with
  | nil => exact .inl ⟨page, rfl, id, id⟩
  | cons candle candles ih =>
    rw [List.foldlM_cons]
    obtain ⟨read, hread, hmax, hkeys⟩ | ⟨e, herror⟩ :=
      takeCandle_cases startTime endTime ids page candle
    · rw [hread]
      obtain ⟨read', hread', hmax', hkeys'⟩ | ⟨e, herror⟩ := ih read
      · exact .inl ⟨read', hread', hmax' ∘ hmax, hkeys' ∘ hkeys⟩
      · exact .inr ⟨e, herror⟩
    · rw [herror]
      exact .inr ⟨e, rfl⟩

end Page

variable {ids : List InstrumentId}

/-- After a page the window is left, or it goes on inside; nothing panics if the ends of its candles
are times. -/
theorem moveWindow_cases (hfit : EndsFit client.context.venue interval endTime) {w : WindowState}
    (hw : Safe ids endTime w) {read : PageState} (hmax : read.maxOpenTime ≤ endTime)
    (hkeys : HasAll ids read.candlesByInstrument) :
    (∃ w' goes, client.moveWindow request interval startTime endTime w read = .ok (w', goes) ∧
        Safe ids endTime w') ∨
      ∃ e, client.moveWindow request interval startTime endTime w read = .error (.error e) := by
  rw [moveWindow_eq]
  unfold advanceWindow
  unfold EndsFit at hfit
  cases hvenue : client.context.venue with
  | bybit =>
    dsimp only
    split
    next => exact .inl ⟨_, _, rfl, hkeys, hw.cursor⟩
    next => exact .inl ⟨_, _, rfl, hkeys, hw.cursor⟩
  | binance | mexc =>
    rw [hvenue] at hfit
    have hends : ∀ durationMs, interval.durationMs = some durationMs →
        read.maxOpenTime.toInt + durationMs < 2 ^ 63 := by
      intro durationMs hduration
      have hsum := hfit (by decide) durationMs hduration
      have hle := Int64.le_iff_toInt_le.1 hmax
      omega
    obtain ⟨closeTime, hclose⟩ := KlineInterval.computes_iff.2 hends
    dsimp only
    rw [hclose]
    cases closeTime with
    | none => exact .inr ⟨_, rfl⟩
    | some maxCloseTime =>
      by_cases hend : endTime ≤ maxCloseTime
      · refine .inl ⟨_, false, if_pos hend, hkeys, hw.cursor⟩
      · refine .inl ⟨_, true, if_neg hend, hkeys, ?_⟩
        have hlt := Int64.not_le.1 hend
        rw [Int64.lt_iff_toInt_lt] at hlt
        rw [Int64.le_iff_toInt_le]
        dsimp only
        rw [toInt_add_one (Int64.lt_iff_toInt_lt.2 hlt)]
        omega

theorem takePage_cases (hfit : EndsFit client.context.venue interval endTime) {w : WindowState}
    (hw : Safe ids endTime w) (page : List Kline) :
    (∃ w' goes, client.takePage request interval startTime endTime w page = .ok (w', goes) ∧
        Safe ids endTime w') ∨
      ∃ e, client.takePage request interval startTime endTime w page = .error (.error e) := by
  unfold takePage
  by_cases hpage : page = []
  · rw [if_pos hpage]
    exact .inl ⟨w, false, rfl, hw⟩
  · rw [if_neg hpage]
    obtain ⟨read, hread, hmax, hkeys⟩ | ⟨e, herror⟩ := foldlM_takeCandle_cases startTime endTime ids
      page ⟨w.candlesByInstrument, w.nextStart, Int64.maxValue⟩
    · rw [hread]
      exact moveWindow_cases hfit hw (hmax hw.cursor) (hkeys hw.keys)
    · rw [herror]
      exact .inr ⟨e, rfl⟩

/-- A run over pages does not panic, and ends with an entry for each instrument. -/
theorem windowPages_cases (hfit : EndsFit client.context.venue interval endTime)
    (pages : List (Except MarketError (List Kline))) {w : WindowState} (hw : Safe ids endTime w) :
    client.windowPages request interval startTime endTime pages w = none ∨
      (∃ e, client.windowPages request interval startTime endTime pages w =
        some (.error (.error e))) ∨
      ∃ candles, client.windowPages request interval startTime endTime pages w =
        some (.ok candles) ∧ HasAll ids candles := by
  induction pages generalizing w with
  | nil => exact .inl rfl
  | cons page pages ih =>
    cases page with
    | error e => exact .inr (.inl ⟨e, rfl⟩)
    | ok page =>
      rw [windowPages]
      obtain ⟨w', goes, hstep, hsafe⟩ | ⟨e, hstep⟩ := takePage_cases hfit hw page
      · rw [hstep]
        cases goes with
        | true => exact ih hsafe
        | false => exact .inr (.inr ⟨_, rfl, hsafe.keys⟩)
      · rw [hstep]
        exact .inr (.inl ⟨e, rfl⟩)

/-! ### Taking the candles out of the map -/

/-- The candles are taken out without a panic exactly if each instrument is there and requested
once. -/
theorem flattenCandles_panics_iff (candles : CandlesByInstrument) (ids : List InstrumentId) :
    flattenCandles candles ids = .error .panic ↔ ¬ (ids.Nodup ∧ HasAll ids candles) := by
  induction ids generalizing candles with
  | nil =>
    refine iff_of_false (by simp [flattenCandles]) (not_not_intro ⟨List.nodup_nil, ?_⟩)
    exact fun i hi => absurd hi List.not_mem_nil
  | cons i ids ih =>
    rw [flattenCandles]
    cases hlookup : candles[i]? with
    | none =>
      refine iff_of_true rfl fun h => ?_
      exact h.2 i List.mem_cons_self hlookup
    | some klines =>
      have hrest : HasAll ids (candles.erase i) ↔ i ∉ ids ∧ HasAll ids candles := by
        constructor
        · intro h
          have hne : ∀ j ∈ ids, i ≠ j := by
            rintro j hj rfl
            exact h i hj (by rw [lookup_erase, if_pos rfl])
          refine ⟨fun hi => hne i hi rfl, fun j hj => ?_⟩
          have hj' := h j hj
          rwa [lookup_erase, if_neg (hne j hj)] at hj'
        · rintro ⟨hi, h⟩ j hj
          have hne : i ≠ j := by
            rintro rfl
            exact hi hj
          rw [lookup_erase, if_neg hne]
          exact h j hj
      have hall : HasAll (i :: ids) candles ↔ HasAll ids candles := by
        constructor
        · intro h j hj
          exact h j (List.mem_cons_of_mem _ hj)
        · intro h j hj
          obtain rfl | hj := List.mem_cons.1 hj
          · simp [hlookup]
          · exact h j hj
      have hflat := ih (candles.erase i)
      rw [hrest] at hflat
      rw [List.nodup_cons, hall]
      dsimp only
      cases hflatten : flattenCandles (candles.erase i) ids with
      | error e =>
        rw [hflatten] at hflat
        refine Iff.trans ?_ (hflat.trans (not_congr (by tauto)))
        rfl
      | ok flattened =>
        rw [hflatten] at hflat
        refine iff_of_false (by simp) fun h => ?_
        exact absurd (hflat.2 (by tauto)) (by simp)

/-- The loop begins with an entry for each instrument. -/
theorem hasAll_firstState (ids : List InstrumentId) :
    HasAll ids (firstState ids startTime endTime).candlesByInstrument := by
  intro i hi
  have hkeeps : KeepsRows .binance .minute1 ids (fun _ _ => False)
      (firstState ids startTime endTime).candlesByInstrument := keepsRows_firstState
  obtain ⟨klines, hklines, -⟩ := hkeeps i hi
  rw [hklines]
  exact fun h => nomatch h

/-! ### Requests -/

theorem fetchOhlcvPages_eq (hids : request.validInstrumentIds = .ok ids)
    (hstart : request.startTime = some startTime) (hend : request.endTime = some endTime)
    (hle : startTime ≤ endTime) (hparse : KlineInterval.parse request.interval = some interval)
    (pages : List (Except MarketError (List Kline))) :
    client.fetchOhlcvPages request pages =
      (client.windowPages request interval startTime endTime pages
        (firstState ids startTime endTime)).map (· >>= fun candles => flattenCandles candles ids) := by
  have hnotLt : ¬ endTime < startTime := Int64.not_lt.2 hle
  unfold fetchOhlcvPages
  rw [hids, hstart, hend]
  dsimp only
  rw [if_neg hnotLt, hparse]

/-- Without a page no candle is there to be taken out twice, but the instrument is. -/
theorem fetchOhlcvPages_empty (hids : request.validInstrumentIds = .ok ids)
    (hstart : request.startTime = some startTime) (hend : request.endTime = some endTime)
    (hle : startTime ≤ endTime) (hparse : KlineInterval.parse request.interval = some interval) :
    client.fetchOhlcvPages request [.ok []] =
      some (flattenCandles (firstState ids startTime endTime).candlesByInstrument ids) := by
  rw [fetchOhlcvPages_eq hids hstart hend hle hparse]
  rfl

/-- A candle that opens with the end of the window. -/
def lastCandle (interval : KlineInterval) (instrumentId : InstrumentId) (endTime : TimestampMs) :
    Kline :=
  (flatRow 0).candle interval instrumentId endTime endTime true

/-- If the end of a candle that opens with the end of the window is no time, a page with such a
candle leads to a panic. -/
theorem fetchOhlcvPages_lastCandle (hids : request.validInstrumentIds = .ok ids)
    (hstart : request.startTime = some startTime) (hend : request.endTime = some endTime)
    (hle : startTime ≤ endTime) (hparse : KlineInterval.parse request.interval = some interval)
    {i : InstrumentId} (hi : i ∈ ids)
    (hfit : ¬ EndsFit client.context.venue interval endTime) :
    client.fetchOhlcvPages request [.ok [lastCandle interval i endTime]] =
      some (.error .panic) := by
  rw [fetchOhlcvPages_eq hids hstart hend hle hparse, windowPages]
  have hpanic : client.takePage request interval startTime endTime
      (firstState ids startTime endTime) [lastCandle interval i endTime] = .error .panic := by
    have hin : ¬ ((lastCandle interval i endTime).openTime < startTime ∨
        endTime < (lastCandle interval i endTime).openTime) := by
      rintro (h | h)
      · exact Int64.not_lt.2 hle h
      · exact Int64.lt_irrefl h
    have hall : HasAll ids (firstState ids startTime endTime).candlesByInstrument :=
      hasAll_firstState ids
    obtain ⟨klines, hklines⟩ := Option.ne_none_iff_exists'.1 (hall i hi)
    have hklines : (firstState ids startTime endTime).candlesByInstrument[
        (lastCandle interval i endTime).instrumentId]? = some klines := hklines
    have hmax : max startTime (lastCandle interval i endTime).openTime = endTime := if_pos hle
    unfold takePage
    rw [if_neg (by simp), List.foldlM_cons, takeCandle, if_neg hin]
    dsimp only
    rw [hklines]
    obtain ⟨durationMs, hvenue, hduration, hlarge⟩ : ∃ durationMs,
        client.context.venue ≠ .bybit ∧ interval.durationMs = some durationMs ∧
          ¬ endTime.toInt + durationMs < 2 ^ 63 := by
      simp only [EndsFit, not_forall] at hfit
      obtain ⟨hvenue, durationMs, hduration, hlarge⟩ := hfit
      exact ⟨durationMs, hvenue, hduration, hlarge⟩
    have hclose := KlineInterval.closeTimeMs_panics hduration hlarge
    show client.moveWindow request interval startTime endTime _
      ⟨_, max startTime (lastCandle interval i endTime).openTime, _⟩ = _
    rw [hmax]
    unfold moveWindow
    cases hbybit : client.context.venue with
    | bybit => exact absurd hbybit hvenue
    | binance | mexc =>
      dsimp only
      rw [hclose]
      rfl
  rw [hpanic]
  rfl

end OhlcvClient

/-- **When fetching a window never panics.**  For a request with valid instruments and a window, no
pages lead to a panic exactly if the interval is not supported, or each instrument is requested once
and, on Binance and MEXC, a candle that opens with the end of the window would have an end. -/
theorem fetch_ohlcv_window_never_panics_iff {client : OhlcvClient} {request : FetchOhlcvRequest}
    {ids : List InstrumentId} {startTime endTime : TimestampMs}
    (hids : request.validInstrumentIds = .ok ids) (hstart : request.startTime = some startTime)
    (hend : request.endTime = some endTime) (hle : startTime ≤ endTime) :
    (∀ pages, client.fetchOhlcvPages request pages ≠ some (.error .panic)) ↔
      ∀ interval, KlineInterval.parse request.interval = some interval →
        ids.Nodup ∧ OhlcvClient.EndsFit client.context.venue interval endTime := by
  have hne : ∃ i, i ∈ ids := by
    refine List.exists_mem_of_ne_nil ids fun hnil => ?_
    unfold FetchOhlcvRequest.validInstrumentIds at hids
    split_ifs at hids with hempty hmany
    exact hempty ((Except.ok.inj hids).trans hnil)
  constructor
  · intro hpages interval hparse
    refine ⟨?_, ?_⟩
    · by_contra hdup
      refine hpages [.ok []] ?_
      rw [OhlcvClient.fetchOhlcvPages_empty hids hstart hend hle hparse]
      refine congrArg some ((OhlcvClient.flattenCandles_panics_iff _ _).2 fun h => hdup h.1)
    · by_contra hfit
      obtain ⟨i, hi⟩ := hne
      exact hpages _ (OhlcvClient.fetchOhlcvPages_lastCandle hids hstart hend hle hparse hi hfit)
  · intro h pages
    cases hparse : KlineInterval.parse request.interval with
    | none =>
      have hnotLt : ¬ endTime < startTime := Int64.not_lt.2 hle
      unfold OhlcvClient.fetchOhlcvPages
      rw [hids, hstart, hend]
      dsimp only
      rw [if_neg hnotLt, hparse]
      exact fun h => nomatch h
    | some interval =>
      obtain ⟨hnodup, hfit⟩ := h interval hparse
      rw [OhlcvClient.fetchOhlcvPages_eq hids hstart hend hle hparse]
      have hsafe : OhlcvClient.Safe ids endTime (firstState ids startTime endTime) :=
        ⟨OhlcvClient.hasAll_firstState ids, hle⟩
      obtain hnone | ⟨e, herror⟩ | ⟨candles, hok, hkeys⟩ :=
        OhlcvClient.windowPages_cases hfit pages hsafe
      · rw [hnone]
        exact fun h => nomatch h
      · rw [herror]
        exact fun h => nomatch h
      · rw [hok]
        intro hpanic
        have hflat := Option.some.inj hpanic
        exact (OhlcvClient.flattenCandles_panics_iff _ _).1 hflat ⟨hnodup, hkeys⟩

theorem fetch_ohlcv_window_never_panics_iff_three :
    (threeMinutes 2).validInstrumentIds = .ok [⟨"BTCUSDT"⟩, ⟨"ETHUSDT"⟩] ∧
      ∀ pages, listedLaterClient.fetchOhlcvPages (threeMinutes 2) pages ≠ some (.error .panic) := by
  have hids : (threeMinutes 2).validInstrumentIds = .ok [⟨"BTCUSDT"⟩, ⟨"ETHUSDT"⟩] := rfl
  refine ⟨hids, (fetch_ohlcv_window_never_panics_iff hids rfl rfl (by decide)).2
    fun interval hparse => ⟨by decide, fun _ durationMs hduration => ?_⟩⟩
  have hbound := (KlineInterval.durationMs_eq_some hduration).2.1
  have hend : (180000 : Int64).toInt = 180000 := rfl
  omega

/-- An instrument that is requested twice, and a window up to the last time there is. -/
theorem repeated_instrument_panics :
    listedLaterClient.fetchOhlcvPages
        { threeMinutes 2 with instrumentIds := [⟨"BTCUSDT"⟩, ⟨"BTCUSDT"⟩] } [.ok []] =
      some (.error .panic) ∧
    listedLaterClient.fetchOhlcvPages { threeMinutes 2 with endTime := some Int64.maxValue }
        [.ok [OhlcvClient.lastCandle .minute1 ⟨"BTCUSDT"⟩ Int64.maxValue]] =
      some (.error .panic) := by
  constructor
  · have hempty : listedLaterClient.fetchOhlcvPages
        { threeMinutes 2 with instrumentIds := [⟨"BTCUSDT"⟩, ⟨"BTCUSDT"⟩] } [.ok []] =
          some (OhlcvClient.flattenCandles
            (firstState [⟨"BTCUSDT"⟩, ⟨"BTCUSDT"⟩] 0 180000).candlesByInstrument
            [⟨"BTCUSDT"⟩, ⟨"BTCUSDT"⟩]) :=
      OhlcvClient.fetchOhlcvPages_empty rfl rfl rfl (show (0 : Int64) ≤ 180000 by decide)
        (show KlineInterval.parse "1m" = some .minute1 by decide)
    rw [hempty]
    refine congrArg some ((OhlcvClient.flattenCandles_panics_iff _ _).2 fun h => ?_)
    exact absurd h.1 (by decide)
  · have hids : FetchOhlcvRequest.validInstrumentIds
        { threeMinutes 2 with endTime := some Int64.maxValue } =
          .ok [⟨"BTCUSDT"⟩, ⟨"ETHUSDT"⟩] := rfl
    refine OhlcvClient.fetchOhlcvPages_lastCandle hids rfl rfl
      (show (0 : Int64) ≤ Int64.maxValue by decide)
      (show KlineInterval.parse "1m" = some .minute1 by decide) (by decide) ?_
    intro hfit
    exact absurd (hfit (by decide) 60000 rfl) (by decide)

end BatMarkets
