import BatMarkets.Runtime.OhlcvWindow

/-!
# Which windows of candles are complete

The candles that `fetch_ohlcv_window` returns are those of the rows the loop kept, each instrument's
in the order of time.

## Main results

* `fetch_ohlcv_window_complete_iff` : the call ends and returns exactly the candles of the window
  when the client admits the request and the pages of the instruments are in step.
* `gap_between_pages_missed` : two instruments, one of which is passed over.
-/

namespace BatMarkets

open Ordered OhlcvClient

/-! ### The candles returned -/

section Returned

variable {venue : Venue} {interval : KlineInterval} {origin : ℤ}
variable {histories : InstrumentId → KlineHistory venue interval origin}
variable {got : InstrumentId → KlineRow → Prop} {candles : CandlesByInstrument}
variable {ids : List InstrumentId} {i : InstrumentId} {row row' : KlineRow}

open Classical in
/-- The candles of some rows of an instrument. -/
noncomputable def candlesOf (histories : InstrumentId → KlineHistory venue interval origin)
    (got : InstrumentId → KlineRow → Prop) (i : InstrumentId) : List Kline :=
  ((histories i).rows.filter fun row => decide (got i row)).map (KlineRow.kline venue interval i)

theorem mem_candlesOf {k : Kline} : k ∈ candlesOf histories got i ↔
    ∃ row ∈ (histories i).rows, got i row ∧ row.kline venue interval i = k := by
  simp [candlesOf, and_assoc]

theorem pairwise_candlesOf : (candlesOf histories got i).Pairwise
    fun a b => a.openTime.toInt < b.openTime.toInt := by
  rw [candlesOf, List.pairwise_map]
  refine ((histories i).ascending.sublist List.filter_sublist).imp_of_mem fun ha hb hlt => ?_
  have hsound := (histories i).sound
  rw [openTime_kline (hsound _ (List.mem_of_mem_filter ha)),
    openTime_kline (hsound _ (List.mem_of_mem_filter hb)), openMs_lt_iff]
  exact Int64.lt_iff_toInt_lt.1 hlt

/-- The rows of an instrument have candles of their own. -/
theorem kline_injOn (h : row ∈ (histories i).rows) (h' : row' ∈ (histories i).rows)
    (heq : row.kline venue interval i = row'.kline venue interval i) : row = row' := by
  have hopen := congrArg (fun k => k.openTime.toInt) heq
  rw [openTime_kline ((histories i).sound row h), openTime_kline ((histories i).sound row' h')]
    at hopen
  have hle := (openMs_le_iff venue).1 hopen.le
  have hge := (openMs_le_iff venue).1 hopen.ge
  exact List.inj_on_of_nodup_map (histories i).nodup_place h h' (le_antisymm hle hge)

theorem sortedOnce_eq {klines stream : List Kline} (hmem : ∀ k, k ∈ klines ↔ k ∈ stream)
    (hstream : stream.Pairwise fun a b => a.openTime.toInt < b.openTime.toInt) :
    (klines.mergeSort fun a b => a.openTime ≤ b.openTime).destutter
      (fun a b => a.openTime ≠ b.openTime) = stream := by
  have h : (klines.mergeSort fun a b => decide (a.openTime.toInt ≤ b.openTime.toInt)).destutter
      (fun a b => a.openTime.toInt ≠ b.openTime.toInt) = stream :=
    destutter_mergeSort_eq hmem hstream
  simpa only [Int64.le_iff_toInt_le, ne_eq, Int64.toInt_inj] using h

/-- Each instrument's candles, sorted and each once. -/
theorem flattenCandles_eq (hnodup : ids.Nodup) (hkeeps : KeepsRows venue interval ids got candles)
    (hgot : ∀ i ∈ ids, ∀ row, got i row → row ∈ (histories i).rows) :
    flattenCandles candles ids = .ok (ids.flatMap (candlesOf histories got)) := by
  induction ids generalizing candles with
  | nil => rfl
  | cons i ids ih =>
    obtain ⟨hi, hrest⟩ := List.nodup_cons.1 hnodup
    obtain ⟨klines, hklines, hmem⟩ := hkeeps i List.mem_cons_self
    have hmem' : ∀ k, k ∈ klines ↔ k ∈ candlesOf histories got i := by
      intro k
      rw [hmem, mem_candlesOf]
      constructor
      · rintro ⟨row, hrow, rfl⟩
        exact ⟨row, hgot i List.mem_cons_self row hrow, hrow, rfl⟩
      · rintro ⟨row, -, hrow, rfl⟩
        exact ⟨row, hrow, rfl⟩
    have herased : KeepsRows venue interval ids got (candles.erase i) := by
      intro j hj
      obtain ⟨klines', hklines', hmem'⟩ := hkeeps j (List.mem_cons_of_mem _ hj)
      have hne : i ≠ j := by
        rintro rfl
        exact hi hj
      exact ⟨klines', by rw [lookup_erase, if_neg hne, hklines'], hmem'⟩
    rw [flattenCandles, hklines, List.flatMap_cons, ← sortedOnce_eq hmem' pairwise_candlesOf]
    dsimp only
    rw [ih hrest herased fun j hj => hgot j (List.mem_cons_of_mem _ hj)]
    rfl

/-- What is returned is the candles of some rows exactly if those are the rows kept. -/
theorem flatMap_candlesOf_eq_iff {wanted : InstrumentId → KlineRow → Prop}
    (hgot : ∀ i ∈ ids, ∀ row, got i row → row ∈ (histories i).rows ∧ wanted i row) :
    ids.flatMap (candlesOf histories got) = ids.flatMap (candlesOf histories wanted) ↔
      ∀ i ∈ ids, ∀ row ∈ (histories i).rows, wanted i row → got i row := by
  constructor
  · intro h i hi row hrow hwanted
    have hmem : row.kline venue interval i ∈ ids.flatMap (candlesOf histories wanted) :=
      List.mem_flatMap.2 ⟨i, hi, mem_candlesOf.2 ⟨row, hrow, hwanted, rfl⟩⟩
    rw [← h] at hmem
    obtain ⟨j, hj, hmem⟩ := List.mem_flatMap.1 hmem
    obtain ⟨row', hrow', hgot', heq⟩ := mem_candlesOf.1 hmem
    have hown : (row'.kline venue interval j).instrumentId = j := instrumentId_kline
    rw [heq, instrumentId_kline] at hown
    subst hown
    exact kline_injOn hrow' hrow heq ▸ hgot'
  · intro h
    refine List.flatMap_congr fun i hi => ?_
    rw [candlesOf, candlesOf]
    congr 1
    refine List.filter_congr fun row hrow => ?_
    rw [decide_eq_decide]
    exact ⟨fun hg => (hgot i hi row hg).2, h i hi row hrow⟩

end Returned

/-! ### The call -/

section Steps

variable {venue : Venue} {interval : KlineInterval} {origin : ℤ} {mexcPage limit : ℕ}
variable {histories : InstrumentId → KlineHistory venue interval origin}
variable {startTime endTime : TimestampMs} {ids : List InstrumentId}

theorem pagesInStep_forward (hvenue : venue ≠ .bybit) :
    PagesInStep histories mexcPage limit startTime endTime ids ↔
      Lockstep KlineRow.place (venue.pageSize mexcPage limit)
        (windowRows histories startTime endTime) ids := by
  cases venue with
  | binance => rfl
  | bybit => exact absurd rfl hvenue
  | mexc => rfl

theorem pagesInStep_backward (hvenue : venue = .bybit) :
    PagesInStep histories mexcPage limit startTime endTime ids ↔
      Lockstep KlineRow.placeFromEnd limit (windowRows histories startTime endTime) ids := by
  subst hvenue
  rfl

theorem pageSize_pos (hmexc : venue = .mexc → 2 ≤ mexcPage) (hpos : 1 ≤ limit) :
    0 < venue.pageSize mexcPage limit := by
  cases venue with
  | binance => exact hpos
  | bybit => exact hpos
  | mexc => exact Nat.zero_lt_of_lt (hmexc rfl)

/-- The rows of a window that open from its start on. -/
theorem inside_iff {i : InstrumentId} {row : KlineRow} :
    row ∈ windowRows histories startTime endTime i ∧ startTime.toInt ≤ row.openMs venue ↔
      row ∈ (histories i).rows ∧ row.Inside venue startTime endTime := by
  rw [mem_windowRows]
  constructor
  · rintro ⟨⟨hrow, -, hle⟩, hge⟩
    exact ⟨hrow, hge, hle⟩
  · rintro ⟨hrow, hge, hle⟩
    exact ⟨⟨hrow, timeParam_le hge, hle⟩, hge⟩

end Steps

section Call

variable {client : OhlcvClient} {request : FetchOhlcvRequest} {interval : KlineInterval} {origin : ℤ}
variable {startTime endTime : TimestampMs} {mexcPage limit : ℕ}
variable {histories : InstrumentId → KlineHistory client.context.venue interval origin}

/-- The candles of a window, each instrument's in the order of time. -/
def windowCandles {venue : Venue}
    (histories : InstrumentId → KlineHistory venue interval origin)
    (startTime endTime : TimestampMs) (ids : List InstrumentId) : List Kline :=
  ids.flatMap fun i =>
    ((histories i).rows.filter fun row =>
      startTime.toInt ≤ row.openMs venue ∧ row.openMs venue ≤ endTime.toInt).map
        (KlineRow.kline venue interval i)

theorem windowCandles_eq {ids : List InstrumentId} :
    windowCandles histories startTime endTime ids =
      ids.flatMap (candlesOf histories fun _ => KlineRow.Inside client.context.venue startTime
        endTime) := by
  refine List.flatMap_congr fun i _ => congrArg (List.map _) (List.filter_congr fun row _ => ?_)
  rw [decide_eq_decide]
  rfl

/-- What a request for a window needs, to be answered with all of it. -/
structure ReadsWhole (client : OhlcvClient) (request : FetchOhlcvRequest)
    (histories : InstrumentId → KlineHistory client.context.venue interval origin)
    (mexcPage limit : ℕ) (startTime endTime : TimestampMs) : Prop where
  admits : Admits client request interval
  /-- If no candle opens in the window but some candle is listed, which only happens on MEXC for one
  that opens in the same second as the window starts or ends, a candle that opened at the start would
  have an end. -/
  closes : (∀ i ∈ request.instrumentIds, ∀ row ∈ (histories i).rows,
      ¬ row.Inside client.context.venue startTime endTime) →
    (∃ i ∈ request.instrumentIds, askedRows histories startTime endTime i ≠ []) →
      ∃ closeMs, interval.Closes startTime.toInt closeMs
  lockstep : PagesInStep histories mexcPage limit startTime endTime request.instrumentIds

theorem windowLoop_mono {turns turns' : ℕ} {w : WindowState}
    {result : Except Failure CandlesByInstrument}
    (h : client.windowLoop request interval startTime endTime turns w = some result)
    (hle : turns ≤ turns') :
    client.windowLoop request interval startTime endTime turns' w = some result := by
  induction turns generalizing turns' w with
  | zero => cases h
  | succ turns ih =>
    obtain ⟨turns', rfl⟩ := Nat.exists_eq_add_one.2 (Nat.zero_lt_of_lt hle)
    rw [windowLoop] at h ⊢
    split at h
    next => exact h
    next => exact ih h (Nat.le_of_succ_le_succ hle)
    next => exact h

/-- The loop ends in one way, however many turns it has. -/
theorem windowLoop_unique {turns turns' : ℕ} {w : WindowState}
    {result result' : Except Failure CandlesByInstrument}
    (h : client.windowLoop request interval startTime endTime turns w = some result)
    (h' : client.windowLoop request interval startTime endTime turns' w = some result') :
    result = result' := by
  rcases le_total turns turns' with hle | hle
  · exact Option.some.inj ((windowLoop_mono h hle).symm.trans h')
  · exact Option.some.inj (h.symm.trans (windowLoop_mono h' hle))

/-- The state in which the loop begins. -/
def firstState (ids : List InstrumentId) (startTime endTime : TimestampMs) : WindowState where
  candlesByInstrument := ids.foldl (fun m i => m.insert i []) ∅
  nextStart := startTime
  nextEnd := endTime

theorem keepsRows_firstState {ids : List InstrumentId} {venue : Venue} :
    KeepsRows venue interval ids (fun _ _ => False)
      (firstState ids startTime endTime).candlesByInstrument := by
  intro i hi
  refine ⟨[], ?_, by simp⟩
  rw [firstState, lookup_foldl_insert (fun i => i) (fun _ => [])]
  cases hlast : lastOf (fun i => i) i ids with
  | none => exact absurd rfl (lastOf_eq_none.1 hlast i hi)
  | some j => rfl

variable (hparse : KlineInterval.parse request.interval = some interval)
variable (hstart : request.startTime = some startTime) (hend : request.endTime = some endTime)
variable (hle : startTime ≤ endTime)
include hparse hstart hend hle

theorem fetchOhlcvWindow_eq {turns : ℕ}
    (hvalid : request.validInstrumentIds = .ok request.instrumentIds) :
    client.fetchOhlcvWindow request turns =
      (client.windowLoop request interval startTime endTime turns
        (firstState request.instrumentIds startTime endTime)).map
          (· >>= fun candles => flattenCandles candles request.instrumentIds) := by
  have hnotLt : ¬ endTime < startTime := by
    rw [Int64.le_iff_toInt_le] at hle
    rw [Int64.lt_iff_toInt_lt]
    omega
  unfold fetchOhlcvWindow
  rw [hvalid, hstart, hend]
  dsimp only
  rw [if_neg hnotLt, hparse]
  rfl

/-- However many turns the loop may take, the call returns one thing. -/
theorem fetchOhlcvWindow_unique {turns turns' : ℕ} {result result' : Except Failure (List Kline)}
    (hvalid : request.validInstrumentIds = .ok request.instrumentIds)
    (h : client.fetchOhlcvWindow request turns = some result)
    (h' : client.fetchOhlcvWindow request turns' = some result') : result = result' := by
  rw [fetchOhlcvWindow_eq hparse hstart hend hle hvalid] at h h'
  obtain ⟨candles, hloop, rfl⟩ := Option.map_eq_some_iff.1 h
  obtain ⟨candles', hloop', rfl⟩ := Option.map_eq_some_iff.1 h'
  rw [windowLoop_unique hloop hloop']

/-- The client admits what a call returns candles of. -/
theorem admits_of_fetchOhlcvWindow {turns : ℕ} {klines : List Kline}
    (hids : request.instrumentIds ≠ [])
    (h : client.fetchOhlcvWindow request turns = some (.ok klines)) :
    Admits client request interval ∧
      ∃ candles, client.windowLoop request interval startTime endTime turns
        (firstState request.instrumentIds startTime endTime) = some (.ok candles) := by
  cases hvalid : request.validInstrumentIds with
  | error e =>
    rw [fetchOhlcvWindow, hvalid] at h
    cases h
  | ok ids =>
    obtain ⟨rfl, -, -⟩ := validInstrumentIds_eq_ok_iff.1 hvalid
    rw [fetchOhlcvWindow_eq hparse hstart hend hle hvalid] at h
    obtain ⟨result, hloop, hresult⟩ := Option.map_eq_some_iff.1 h
    cases result with
    | error e => cases hresult
    | ok candles =>
      refine ⟨?_, candles, hloop⟩
      cases turns with
      | zero => cases hloop
      | succ turns =>
        have hpage : (client.fetchOhlcvPage { request with
            startTime := some startTime, endTime := some endTime }).isOk := by
          rw [windowLoop] at hloop
          cases hfetched : client.fetchOhlcvPage { request with
              startTime := some startTime, endTime := some endTime } with
          | ok page => rfl
          | error e =>
            have hstep : client.windowStep request interval startTime endTime
                (firstState request.instrumentIds startTime endTime) = .error e := by
              rw [windowStep, firstState, hfetched]
              rfl
            rw [hstep] at hloop
            cases hloop
        have hadmits := admits_of_fetchOhlcvPage { request with
          startTime := some startTime, endTime := some endTime } hparse hids hpage
        exact ⟨hadmits.few, hadmits.known, hadmits.offered⟩

omit hstart hend hle

section Served

variable (hserves : ServesPages client mexcPage histories)
variable (hlimit : request.limit = some limit) (hids : request.instrumentIds ≠ [])
variable (hmexc : client.context.venue = .mexc → 2 ≤ mexcPage) (hpos : 1 ≤ limit)
variable (hadmits : Admits client request interval)
include hserves hlimit hids hmexc hpos hadmits

/-- From the start of the window on, the loop keeps every candle exactly if the pages are in
step. -/
theorem readsRows_first
    (hcloses : (∀ i ∈ request.instrumentIds, ∀ row ∈ (histories i).rows,
        ¬ row.Inside client.context.venue startTime endTime) →
      (∃ i ∈ request.instrumentIds, askedRows histories startTime endTime i ≠ []) →
        ∃ closeMs, interval.Closes startTime.toInt closeMs) :
    ReadsRows client request interval startTime endTime (fun _ _ => False)
      (fun i row => row ∈ (histories i).rows ∧ row.Inside client.context.venue startTime endTime)
      (PagesInStep histories mexcPage limit startTime endTime request.instrumentIds)
      (firstState request.instrumentIds startTime endTime) := by
  by_cases hvenue : client.context.venue = .bybit
  · rw [pagesInStep_backward hvenue]
    have hrows : (fun i row => row ∈ (histories i).rows ∧
        row.Inside client.context.venue startTime endTime) =
        fun i row => row ∈ windowRows histories startTime endTime i := by
      funext i row
      rw [mem_windowRows_bybit hvenue]
    have hbackward : ReadsBackward client request histories limit startTime endTime
        (fun _ _ => False) (firstState request.instrumentIds startTime endTime) :=
      windowLoop_backward hserves hparse hlimit hids hadmits hvenue hpos rfl
        (le_refl endTime.toInt) keepsRows_firstState
    rw [hrows]
    exact hbackward
  · rw [pagesInStep_forward hvenue]
    have hrows : (fun i row => row ∈ (histories i).rows ∧
        row.Inside client.context.venue startTime endTime) =
        fun i row => row ∈ windowRows histories startTime endTime i ∧
          startTime.toInt ≤ row.openMs client.context.venue := by
      funext i row
      rw [inside_iff]
    have hresumes : Resumes histories startTime endTime request.instrumentIds startTime := by
      refine ⟨le_refl _, fun _ _ _ _ _ h => h, fun hnone hasked => hcloses ?_ hasked⟩
      intro i hi row hrow hin
      obtain ⟨hrow, hge⟩ := inside_iff.2 ⟨hrow, hin⟩
      exact absurd hge (not_le.2 (hnone i hi row hrow))
    have hforward : ReadsForward client request histories mexcPage limit startTime endTime
        (fun _ _ => False) (firstState request.instrumentIds startTime endTime) :=
      windowLoop_forward hserves hparse hlimit hids hadmits hvenue (pageSize_pos hmexc hpos)
        hmexc rfl hresumes keepsRows_firstState
    rw [hrows]
    exact hforward

/-- Without a candle that could be kept, the loop asks for the end of the candle at the start. -/
theorem closes_of_windowLoop {turns : ℕ} {candles : CandlesByInstrument}
    (hloop : client.windowLoop request interval startTime endTime turns
      (firstState request.instrumentIds startTime endTime) = some (.ok candles))
    (hnone : ∀ i ∈ request.instrumentIds, ∀ row ∈ (histories i).rows,
      ¬ row.Inside client.context.venue startTime endTime)
    (hasked : ∃ i ∈ request.instrumentIds, askedRows histories startTime endTime i ≠ []) :
    ∃ closeMs, interval.Closes startTime.toInt closeMs := by
  have hvenue : client.context.venue ≠ .bybit := by
    intro hbybit
    obtain ⟨i, hi, hne⟩ := hasked
    obtain ⟨row, hrow⟩ := List.exists_mem_of_ne_nil _ hne
    rw [askedRows_bybit hbybit, mem_windowRows_bybit hbybit] at hrow
    exact hnone i hi row hrow.1 hrow.2
  cases turns with
  | zero => cases hloop
  | succ turns =>
    rw [windowLoop] at hloop
    obtain ⟨hempty, -⟩ | ⟨-, read, -, hspans, hstep⟩ := windowStep_spec startTime endTime
      (w := firstState request.instrumentIds startTime endTime) hserves hparse hlimit hids hadmits
      keepsRows_firstState
    · obtain ⟨i, hi, hne⟩ := hasked
      have hpage := hempty i hi
      rw [nextPage_forward hvenue] at hpage
      refine absurd (eq_nil_of_firstPage (pageSize_pos hmexc hpos) ?_ hpage) hne
      exact (histories i).nodup_place.sublist (List.filter_sublist.map _)
    · have hmax : read.maxOpenTime = startTime := by
        refine hspans.max_eq.resolve_right ?_
        rintro ⟨i, hi, row, hrow, hin, -⟩
        exact hnone i hi row (mem_askedRows.1 (mem_of_mem_pageRows hrow)).1 hin
      rw [hstep] at hloop
      cases hadvance : client.advanceWindow request interval startTime endTime
          (firstState request.instrumentIds startTime endTime) read with
      | error e =>
        rw [hadvance] at hloop
        cases hloop
      | ok step =>
        obtain ⟨closeTime, hfound⟩ := closeTime_of_advanceWindow hvenue hadvance
        exact ⟨_, hmax ▸ KlineInterval.closeTimeMs_eq_iff.1 hfound⟩

end Served

end Call

/-- `fetch_ohlcv_window` ends, and returns every candle of the window, each once and in the order of
time, exactly when the client admits the request and the pages of the instruments are in step. -/
theorem fetch_ohlcv_window_complete_iff {client : OhlcvClient} {request : FetchOhlcvRequest}
    {interval : KlineInterval} {origin : ℤ} {startTime endTime : TimestampMs}
    {mexcPage limit : ℕ}
    {histories : InstrumentId → KlineHistory client.context.venue interval origin}
    (hserves : ServesPages client mexcPage histories)
    (hmexc : client.context.venue = .mexc → 2 ≤ mexcPage)
    (hparse : KlineInterval.parse request.interval = some interval)
    (hids : request.instrumentIds ≠ []) (hnodup : request.instrumentIds.Nodup)
    (hstart : request.startTime = some startTime) (hend : request.endTime = some endTime)
    (hle : startTime ≤ endTime) (hlimit : request.limit = some limit) (hpos : 1 ≤ limit) :
    (∃ turns, client.fetchOhlcvWindow request turns =
      some (.ok (windowCandles histories startTime endTime request.instrumentIds))) ↔
      ReadsWhole client request histories mexcPage limit startTime endTime := by
  constructor
  · rintro ⟨turns, hcall⟩
    obtain ⟨hadmits, candles, hloop⟩ :=
      admits_of_fetchOhlcvWindow hparse hstart hend hle hids hcall
    have hvalid := validInstrumentIds_eq_ok_iff.2 ⟨rfl, hids, hadmits.few⟩
    have hcloses := closes_of_windowLoop hparse hserves hlimit hids hmexc hpos hadmits hloop
    obtain ⟨turns', candles', more, hloop', hkeeps, hsub, hall⟩ :=
      readsRows_first hparse hserves hlimit hids hmexc hpos hadmits hcloses
    obtain rfl : candles = candles' := Except.ok.inj (windowLoop_unique hloop hloop')
    rw [fetchOhlcvWindow_eq hparse hstart hend hle hvalid, hloop] at hcall
    have hflat := flattenCandles_eq hnodup hkeeps fun i hi row h =>
      (hsub i hi row (h.resolve_left id)).1
    have heq := Except.ok.inj (hflat.symm.trans (Option.some.inj hcall))
    simp only [false_or] at heq
    rw [windowCandles_eq, flatMap_candlesOf_eq_iff hsub] at heq
    exact ⟨hadmits, hcloses, hall.1 fun i hi row hrow => heq i hi row hrow.1 hrow.2⟩
  · rintro ⟨hadmits, hcloses, hinStep⟩
    have hvalid := validInstrumentIds_eq_ok_iff.2 ⟨rfl, hids, hadmits.few⟩
    obtain ⟨turns, candles, more, hloop, hkeeps, hsub, hall⟩ :=
      readsRows_first hparse hserves hlimit hids hmexc hpos hadmits hcloses
    have hflat := flattenCandles_eq hnodup hkeeps fun i hi row h =>
      (hsub i hi row (h.resolve_left id)).1
    have hcandles := (flatMap_candlesOf_eq_iff hsub).2 fun i hi row hrow hin =>
      hall.2 hinStep i hi row ⟨hrow, hin⟩
    simp only [false_or] at hflat
    refine ⟨turns, ?_⟩
    rw [fetchOhlcvWindow_eq hparse hstart hend hle hvalid, hloop, windowCandles_eq, ← hcandles,
      ← hflat]
    rfl

/-! ### Two instruments -/

/-- A candle of a minute in which nothing happened. -/
def flatRow (time : Int64) : KlineRow where
  time := time
  closeTime := time + 59999
  openPrice := ⟨.ofNat 1 Decimal.one_fits⟩
  high := ⟨.ofNat 1 Decimal.one_fits⟩
  low := ⟨.ofNat 1 Decimal.one_fits⟩
  close := ⟨.ofNat 1 Decimal.one_fits⟩
  volume := ⟨.ofNat 0 Decimal.zero_fits⟩
  elapsed := true

/-- Ether is listed a minute after the other instruments. -/
def listedLaterRows (symbol : String) : List KlineRow :=
  if symbol = "ETHUSDT" then [flatRow 60000] else [flatRow 0, flatRow 60000]

/-- An instrument whose candles begin later than those of the others. -/
def listedLater (instrumentId : InstrumentId) : KlineHistory .binance .minute1 0 where
  rows := listedLaterRows instrumentId.asStr
  ascending := by
    unfold listedLaterRows
    split <;> decide
  sound := by
    have hfirst : (flatRow 0).Sound .binance .minute1 := ⟨by decide, 59999, by decide, by decide⟩
    have hsecond : (flatRow 60000).Sound .binance .minute1 :=
      ⟨by decide, 119999, by decide, by decide⟩
    unfold listedLaterRows
    split <;> simp [hfirst, hsecond]
  onGrid := by
    have hfirst : KlineInterval.minute1.OnGrid 0 ((flatRow 0).openMs .binance) := ⟨0, rfl⟩
    have hsecond : KlineInterval.minute1.OnGrid 0 ((flatRow 60000).openMs .binance) := ⟨1, rfl⟩
    unfold listedLaterRows
    split <;> simp [hfirst, hsecond]

/-- Binance with these histories. -/
def listedLaterClient : OhlcvClient where
  context := restContext .binance
  resolveInstrument := fun i => some (.active .binance i.asStr i.asStr 2 3)
  publicGet := fun query => .ok (pageRows .binance 0 (query.limit.getD 500)
    (rowsBetween (query.startTime.getD 0) (query.endTime.getD 0) (listedLaterRows query.symbol)))

theorem servesPages_listedLater (mexcPage : ℕ) :
    ServesPages listedLaterClient mexcPage listedLater := by
  intro instrumentId spec request query startTime endTime limit hspec hquery hstart hend hlimit
  obtain rfl := Option.some.inj hspec
  obtain rfl := Except.ok.inj hquery
  refine ⟨_, rfl, ?_⟩
  dsimp only at hstart hend ⊢
  rw [hstart, hend, hlimit]
  exact List.Perm.refl _

/-- Three minutes of two instruments, in pages of as many candles as given. -/
def threeMinutes (limit : ℕ) : FetchOhlcvRequest where
  instrumentIds := [⟨"BTCUSDT"⟩, ⟨"ETHUSDT"⟩]
  interval := "1m"
  startTime := some 0
  endTime := some 180000
  limit := some limit

theorem fetch_ohlcv_window_complete_iff_two :
    ∃ turns, listedLaterClient.fetchOhlcvWindow (threeMinutes 2) turns =
      some (.ok (windowCandles listedLater 0 180000 [⟨"BTCUSDT"⟩, ⟨"ETHUSDT"⟩])) := by
  refine (fetch_ohlcv_window_complete_iff (servesPages_listedLater 0) (fun h => nomatch h) rfl
    (by decide) (by decide) rfl rfl (by decide) rfl (by decide)).2 ⟨⟨by decide, ?_, ?_⟩, ?_, ?_⟩
  · exact fun _ _ => rfl
  · exact fun h => nomatch h
  · exact fun _ _ => ⟨59999, by decide, by decide⟩
  · refine lockstep_of_length_le fun i _ => (List.length_filter_le _ _).trans ?_
    show (listedLaterRows i.asStr).length ≤ 2
    unfold listedLaterRows
    split <;> decide

/-- Between the end of its first page and the end of the other's, an instrument has a candle that is
not returned. -/
theorem gap_between_pages_missed :
    ServesPages listedLaterClient 0 listedLater ∧
      ¬ ∃ turns, listedLaterClient.fetchOhlcvWindow (threeMinutes 1) turns =
        some (.ok (windowCandles listedLater 0 180000 [⟨"BTCUSDT"⟩, ⟨"ETHUSDT"⟩])) := by
  refine ⟨servesPages_listedLater 0, fun ⟨turns, h⟩ => ?_⟩
  have hends : ((listedLaterClient.fetchOhlcvWindow (threeMinutes 1) 3).map fun result =>
      result.toOption.map List.length) = some (some 2) := by decide +kernel
  obtain ⟨result, hresult, hlength⟩ := Option.map_eq_some_iff.1 hends
  have heq := fetchOhlcvWindow_unique rfl rfl rfl (by decide) rfl h hresult
  rw [← heq] at hlength
  exact absurd hlength (by decide +kernel)

end BatMarkets
