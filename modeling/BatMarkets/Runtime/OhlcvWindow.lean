import BatMarkets.Runtime.OhlcvPages

/-!
# What a window of candles misses

The pages of several instruments end at different candles, and the one cursor of
`fetch_ohlcv_window` moves past the furthest.  What an instrument has between the end of its page
and there is never asked for.

The rows of an instrument are counted from the start of the window on, or on Bybit back from its
end.  On MEXC the count begins with the second in which the window starts, and a candle that opens
in that second but before the start takes a place in the first page.

## Main results

* `windowLoop_forward`, `windowLoop_backward` : what the loop reads from a cursor on.
* `fetch_ohlcv_window_complete_iff` : the call returns exactly the candles of the window when the
  client admits the request and the pages of the instruments are in step.
-/

namespace BatMarkets

open Ordered OhlcvClient

/-! ### Times in requests -/

section Times

variable {venue : Venue} {time : TimestampMs} {row : KlineRow}

theorem tdiv_second (t : ℤ) :
    (0 ≤ t → 1000 * t.tdiv 1000 ≤ t ∧ t < 1000 * t.tdiv 1000 + 1000) ∧
      (t < 0 → t ≤ 1000 * t.tdiv 1000 ∧ 1000 * t.tdiv 1000 < t + 1000) := by
  rw [Int.tdiv_eq_ediv]
  split
  · omega
  · rw [show (1000 : ℤ).sign = 1 from rfl]
    omega

theorem toInt_timeParam :
    (venue.timeParam time).toInt = time.toInt.tdiv venue.timeUnit := by
  cases venue with
  | binance => exact (Int.tdiv_one _).symm
  | bybit => exact (Int.tdiv_one _).symm
  | mexc => exact Int64.toInt_div_of_ne_right _ _ (by decide)

theorem timeUnit_pos : 0 < venue.timeUnit := by cases venue <;> decide

/-- A request from a time on asks about what opens from then on. -/
theorem timeParam_le (h : time.toInt ≤ row.openMs venue) :
    (venue.timeParam time).toInt ≤ row.time.toInt := by
  rw [toInt_timeParam]
  unfold KlineRow.openMs at h
  have hcut := tdiv_second time.toInt
  cases venue <;> simp only [Venue.timeUnit, Int.tdiv_one] at * <;> omega

/-- A request up to a time asks about what opens up to then. -/
theorem le_timeParam (h : row.openMs venue ≤ time.toInt) :
    row.time.toInt ≤ (venue.timeParam time).toInt := by
  rw [toInt_timeParam]
  unfold KlineRow.openMs at h
  have hcut := tdiv_second time.toInt
  cases venue <;> simp only [Venue.timeUnit, Int.tdiv_one] at * <;> omega

/-- What is asked about and opens before the time asked about, opens in the same second. -/
theorem time_eq_timeParam (h : (venue.timeParam time).toInt ≤ row.time.toInt)
    (hlt : row.openMs venue < time.toInt) : row.time.toInt = (venue.timeParam time).toInt := by
  rw [toInt_timeParam] at *
  unfold KlineRow.openMs at hlt
  have hcut := tdiv_second time.toInt
  cases venue <;> simp only [Venue.timeUnit, Int.tdiv_one] at * <;> omega

theorem timeParam_mono {time' : TimestampMs} (h : time.toInt ≤ time'.toInt) :
    (venue.timeParam time).toInt ≤ (venue.timeParam time').toInt := by
  rw [toInt_timeParam, toInt_timeParam]
  have hcut := tdiv_second time.toInt
  have hcut' := tdiv_second time'.toInt
  cases venue <;> simp only [Venue.timeUnit, Int.tdiv_one] at * <;> omega

end Times

/-! ### The rows of a window -/

section Rows

variable {venue : Venue} {interval : KlineInterval} {origin : ℤ}

/-- The rows that the pages of a window are counted from. -/
def windowRows (histories : InstrumentId → KlineHistory venue interval origin)
    (startTime endTime : TimestampMs) (i : InstrumentId) : List KlineRow :=
  (histories i).rows.filter fun row =>
    (venue.timeParam startTime).toInt ≤ row.time.toInt ∧ row.openMs venue ≤ endTime.toInt

/-- How many rows a page has. -/
def Venue.pageSize (venue : Venue) (mexcPage limit : ℕ) : ℕ :=
  match venue with
  | .mexc => mexcPage
  | _ => limit

/-- The pages of some instruments are in step. -/
def PagesInStep (histories : InstrumentId → KlineHistory venue interval origin)
    (mexcPage limit : ℕ) (startTime endTime : TimestampMs) (ids : List InstrumentId) : Prop :=
  match venue with
  | .bybit => Lockstep KlineRow.placeFromEnd limit (windowRows histories startTime endTime) ids
  | _ => Lockstep KlineRow.place (venue.pageSize mexcPage limit)
      (windowRows histories startTime endTime) ids

variable {histories : InstrumentId → KlineHistory venue interval origin}
variable {startTime endTime : TimestampMs} {i : InstrumentId} {row : KlineRow}
variable {mexcPage limit : ℕ} {w : WindowState}

theorem mem_windowRows : row ∈ windowRows histories startTime endTime i ↔
    row ∈ (histories i).rows ∧ (venue.timeParam startTime).toInt ≤ row.time.toInt ∧
      row.openMs venue ≤ endTime.toInt := by
  simp [windowRows]

theorem mem_askedRows : row ∈ askedRows histories startTime endTime i ↔
    row ∈ (histories i).rows ∧ (venue.timeParam startTime).toInt ≤ row.time.toInt ∧
      row.time.toInt ≤ (venue.timeParam endTime).toInt := by
  simp [askedRows, rowsBetween, Int64.le_iff_toInt_le]

theorem KlineHistory.nodup_place (history : KlineHistory venue interval origin) :
    (history.rows.map KlineRow.place).Nodup :=
  List.pairwise_map.2 (history.ascending.imp fun hlt => (Int64.lt_iff_toInt_lt.1 hlt).ne)

variable (histories startTime endTime i) in
theorem nodup_windowRows : ((windowRows histories startTime endTime i).map KlineRow.place).Nodup :=
  (histories i).nodup_place.sublist (List.filter_sublist.map _)

theorem openMs_lt_iff (venue : Venue) {row row' : KlineRow} :
    row.openMs venue < row'.openMs venue ↔ row.place < row'.place :=
  mul_lt_mul_iff_left₀ timeUnit_pos

theorem openMs_le_iff (venue : Venue) {row row' : KlineRow} :
    row.openMs venue ≤ row'.openMs venue ↔ row.place ≤ row'.place :=
  mul_le_mul_iff_left₀ timeUnit_pos

theorem nextPage_forward (hvenue : venue ≠ .bybit) : nextPage histories mexcPage limit w i =
    firstPage KlineRow.place (venue.pageSize mexcPage limit)
      (askedRows histories w.nextStart w.nextEnd i) := by
  cases venue with
  | binance => rfl
  | bybit => exact absurd rfl hvenue
  | mexc => rfl

/-- Going forward, what of a page opens up to the end of the window is the page of the rows of the
window. -/
theorem mem_nextPage_iff (hvenue : venue ≠ .bybit) (hend : w.nextEnd = endTime)
    (hinside : row.openMs venue ≤ endTime.toInt) :
    row ∈ nextPage histories mexcPage limit w i ↔
      row ∈ firstPage KlineRow.place (venue.pageSize mexcPage limit)
        (windowRows histories w.nextStart endTime i) := by
  have hrank : rank KlineRow.place (askedRows histories w.nextStart endTime i) row =
      rank KlineRow.place (windowRows histories w.nextStart endTime i) row := by
    simp only [rank, askedRows, rowsBetween, windowRows, List.countP_filter]
    refine List.countP_congr fun x _ => ?_
    simp only [Bool.and_eq_true, decide_eq_true_eq, Int64.le_iff_toInt_le]
    refine and_congr_right fun hlt => and_congr_right fun _ => ?_
    have hx : x.openMs venue ≤ endTime.toInt :=
      ((openMs_lt_iff _).2 hlt).le.trans hinside
    exact iff_of_true (le_timeParam hx) hx
  rw [nextPage_forward hvenue, hend, mem_firstPage, mem_firstPage, hrank, mem_askedRows,
    mem_windowRows]
  have hasked := le_timeParam hinside
  tauto

variable (histories endTime i) in
/-- Fewer rows than a page has are asked about and open before the window. -/
theorem countP_before_lt {nextStart : TimestampMs} (hvenue : venue ≠ .bybit)
    (hlimit : 0 < venue.pageSize mexcPage limit) (hmexc : venue = .mexc → 2 ≤ mexcPage)
    (hstart : startTime.toInt ≤ nextStart.toInt) :
    (windowRows histories nextStart endTime i).countP
        (fun row => row.openMs venue < startTime.toInt) < venue.pageSize mexcPage limit := by
  have htime : ∀ row ∈ windowRows histories nextStart endTime i,
      row.openMs venue < startTime.toInt → row.place = (venue.timeParam nextStart).toInt :=
    fun row hrow hlt => time_eq_timeParam (mem_windowRows.1 hrow).2.1 (hlt.trans_le hstart)
  have hnodup := nodup_windowRows histories nextStart endTime i
  cases venue with
  | bybit => exact absurd rfl hvenue
  | binance =>
    rw [List.countP_eq_zero.2]
    · exact hlimit
    · intro row hrow hlt
      rw [decide_eq_true_eq] at hlt
      have hsame : row.time.toInt = nextStart.toInt := htime row hrow hlt
      simp only [KlineRow.openMs, Venue.timeUnit] at hlt
      omega
  | mexc =>
    have hone := List.nodup_iff_count_le_one.1 hnodup (nextStart / 1000).toInt
    rw [List.count, List.countP_map] at hone
    have hle : (windowRows histories nextStart endTime i).countP
        (fun row => row.openMs .mexc < startTime.toInt) ≤
        (windowRows histories nextStart endTime i).countP
          ((· == (nextStart / 1000).toInt) ∘ KlineRow.place) :=
      List.countP_mono_left fun row hrow hlt =>
        beq_iff_eq.2 (htime row hrow (of_decide_eq_true hlt))
    have htwo := hmexc rfl
    show _ < mexcPage
    omega

end Rows

/-! ### Going forward -/

section Forward

variable {venue : Venue} {interval : KlineInterval} {origin : ℤ}
variable {histories : InstrumentId → KlineHistory venue interval origin}
variable {startTime endTime nextStart cursor : TimestampMs} {ids : List InstrumentId}
variable {i : InstrumentId} {row last : KlineRow} {closeMs : ℤ}

/-- What holds of a cursor.  If it meets no candle of the window but is answered with others, the
candle that would open at the cursor has an end. -/
structure Resumes (histories : InstrumentId → KlineHistory venue interval origin)
    (startTime endTime : TimestampMs) (ids : List InstrumentId) (nextStart : TimestampMs) :
    Prop where
  start_le : startTime.toInt ≤ nextStart.toInt
  sharp : ∀ i ∈ ids, ∀ row ∈ (histories i).rows,
    (venue.timeParam nextStart).toInt ≤ row.time.toInt → startTime.toInt ≤ row.openMs venue →
      nextStart.toInt ≤ row.openMs venue
  closes : (∀ i ∈ ids, ∀ row ∈ windowRows histories nextStart endTime i,
      row.openMs venue < startTime.toInt) →
    (∃ i ∈ ids, askedRows histories nextStart endTime i ≠ []) →
      ∃ closeMs, interval.Closes nextStart.toInt closeMs

/-- At a full unit of the venue, a request asks about what opens from then on, and nothing else. -/
theorem timeParam_le_iff (h : nextStart.toInt % venue.timeUnit = 0) :
    (venue.timeParam nextStart).toInt ≤ row.time.toInt ↔ nextStart.toInt ≤ row.openMs venue := by
  rw [toInt_timeParam]
  unfold KlineRow.openMs
  have hcut := tdiv_second nextStart.toInt
  cases venue <;> simp only [Venue.timeUnit, Int.tdiv_one] at * <;> omega

/-- From the end of a candle on, a request asks about what opens after the candle. -/
theorem timeParam_next_le_iff (hlast : last ∈ (histories i).rows)
    (hclose : interval.Closes (last.openMs venue) closeMs) (hnext : cursor.toInt = closeMs + 1)
    {k : InstrumentId} (hrow : row ∈ (histories k).rows) :
    (venue.timeParam cursor).toInt ≤ row.time.toInt ↔ last.place < row.place := by
  have hunit : cursor.toInt % venue.timeUnit = 0 := by
    rw [hnext]
    have hfull := hclose.full_second
    unfold KlineRow.openMs at hfull
    cases venue <;> simp only [Venue.timeUnit] at * <;> omega
  have hgrid := hclose.lt_iff ((histories i).onGrid last hlast) ((histories k).onGrid row hrow)
  rw [timeParam_le_iff hunit, hnext, ← openMs_lt_iff venue, ← hgrid]
  exact Int.add_one_le_iff

/-- After a page, the rows of the window from the cursor on are those after the last one served. -/
theorem windowRows_next (hlast : last ∈ (histories i).rows)
    (hfrom : (venue.timeParam nextStart).toInt ≤ last.time.toInt)
    (hclose : interval.Closes (last.openMs venue) closeMs) (hnext : cursor.toInt = closeMs + 1)
    (k : InstrumentId) :
    windowRows histories cursor endTime k =
      after KlineRow.place last.place (windowRows histories nextStart endTime k) := by
  rw [windowRows, after, windowRows, List.filter_filter]
  refine List.filter_congr fun row hrow => ?_
  rw [← Bool.decide_and, decide_eq_decide, timeParam_next_le_iff hlast hclose hnext hrow]
  constructor
  · rintro ⟨hlt, hle⟩
    exact ⟨hlt, hfrom.trans (le_of_lt hlt), hle⟩
  · rintro ⟨hlt, -, hle⟩
    exact ⟨hlt, hle⟩

/-- What is asked about from the cursor on and opens after the window has an end, and so has the
candle that would open at the cursor. -/
theorem closes_of_after {base : ℤ} (hbase : interval.Closes base closeMs)
    (hle : base ≤ cursor.toInt) (hend : cursor.toInt ≤ endTime.toInt)
    (hrow : row ∈ (histories i).rows) (hafter : endTime.toInt < row.openMs venue) :
    ∃ closeMs, interval.Closes cursor.toInt closeMs := by
  obtain ⟨close, hclose⟩ := ((histories i).sound row hrow).closes
  exact hbase.between hclose hle (hend.trans hafter.le)

/-- The cursor after a page from which some candle was kept. -/
theorem resumes_after (hlast : last ∈ (histories i).rows)
    (hinside : startTime.toInt ≤ last.openMs venue)
    (hclose : interval.Closes (last.openMs venue) closeMs) (hnext : cursor.toInt = closeMs + 1)
    (hend : cursor.toInt ≤ endTime.toInt) : Resumes histories startTime endTime ids cursor := by
  have hle := hclose.le
  have hrows : ∀ k, ∀ row ∈ (histories k).rows,
      (venue.timeParam cursor).toInt ≤ row.time.toInt → cursor.toInt ≤ row.openMs venue := by
    intro k row hrow hasked
    have hlt := (timeParam_next_le_iff hlast hclose hnext hrow).1 hasked
    have hopen := (openMs_lt_iff venue).2 hlt
    have hgrid := hclose.lt_iff ((histories i).onGrid last hlast) ((histories k).onGrid row hrow)
    have := hgrid.2 hopen
    omega
  refine ⟨by omega, fun k _ row hrow hasked _ => hrows k row hrow hasked, ?_⟩
  rintro hnone ⟨k, hk, hasked⟩
  obtain ⟨row, hrow⟩ := List.exists_mem_of_ne_nil _ hasked
  obtain ⟨hrow, hfrom, -⟩ := mem_askedRows.1 hrow
  have hopen := hrows k row hrow hfrom
  refine closes_of_after hclose (by omega) hend hrow (not_le.1 fun hin => ?_)
  have := hnone k hk row (mem_windowRows.2 ⟨hrow, hfrom, hin⟩)
  omega

/-- The cursor after a page from which no candle was kept, of a window that has none. -/
theorem Resumes.idle (h : Resumes histories startTime endTime ids nextStart)
    (hnone : ∀ i ∈ ids, ∀ row ∈ windowRows histories nextStart endTime i,
      row.openMs venue < startTime.toInt)
    (hclose : interval.Closes nextStart.toInt closeMs) (hnext : cursor.toInt = closeMs + 1)
    (hend : cursor.toInt ≤ endTime.toInt) : Resumes histories startTime endTime ids cursor := by
  have hle := hclose.le
  have hstart := h.start_le
  have hafter : ∀ k ∈ ids, ∀ row ∈ (histories k).rows,
      (venue.timeParam cursor).toInt ≤ row.time.toInt → endTime.toInt < row.openMs venue := by
    intro k hk row hrow hfrom
    by_contra hin
    have hbefore : (venue.timeParam nextStart).toInt ≤ row.time.toInt :=
      (timeParam_mono (by omega)).trans hfrom
    have hlt := hnone k hk row (mem_windowRows.2 ⟨hrow, hbefore, not_lt.1 hin⟩)
    rw [toInt_timeParam, hnext] at hfrom
    have hsecond := hclose.lt_of_second (b := row.openMs venue)
    unfold KlineRow.openMs at *
    cases venue <;> simp only [Venue.timeUnit, Int.tdiv_one] at * <;> omega
  refine ⟨by omega, fun k hk row hrow hfrom _ => ?_, ?_⟩
  · exact (hend.trans_lt (hafter k hk row hrow hfrom)).le
  · rintro - ⟨k, hk, hasked⟩
    obtain ⟨row, hrow⟩ := List.exists_mem_of_ne_nil _ hasked
    obtain ⟨hrow, hfrom, -⟩ := mem_askedRows.1 hrow
    exact closes_of_after hclose (by omega) hend hrow (hafter k hk row hrow hfrom)

end Forward

/-! ### The loop -/

section Loop

variable {client : OhlcvClient} {request : FetchOhlcvRequest} {interval : KlineInterval} {origin : ℤ}
variable {startTime endTime : TimestampMs} {w w' : WindowState}
variable {got first : InstrumentId → KlineRow → Prop} {rows rows' : InstrumentId → KlineRow → Prop}
variable {lockstep lockstep' : Prop}

/-- The loop ends.  It keeps some of the rows given, and it keeps all of them exactly if they are in
step. -/
def ReadsRows (client : OhlcvClient) (request : FetchOhlcvRequest) (interval : KlineInterval)
    (startTime endTime : TimestampMs) (got rows : InstrumentId → KlineRow → Prop) (lockstep : Prop)
    (w : WindowState) : Prop :=
  ∃ turns candles, ∃ more : InstrumentId → KlineRow → Prop,
    client.windowLoop request interval startTime endTime turns w = some (.ok candles) ∧
    KeepsRows client.context.venue interval request.instrumentIds
      (fun i row => got i row ∨ more i row) candles ∧
    (∀ i ∈ request.instrumentIds, ∀ row, more i row → rows i row) ∧
    ((∀ i ∈ request.instrumentIds, ∀ row, rows i row → more i row) ↔ lockstep)

variable (first) in
/-- The loop stops after a page. -/
theorem ReadsRows.stop
    (hstep : client.windowStep request interval startTime endTime w = .ok (w', false))
    (hkeeps : KeepsRows client.context.venue interval request.instrumentIds
      (fun i row => got i row ∨ first i row) w'.candlesByInstrument)
    (hsub : ∀ i ∈ request.instrumentIds, ∀ row, first i row → rows i row)
    (hall : (∀ i ∈ request.instrumentIds, ∀ row, rows i row → first i row) ↔ lockstep) :
    ReadsRows client request interval startTime endTime got rows lockstep w :=
  ⟨1, _, first, by rw [windowLoop, hstep], hkeeps, hsub, hall⟩

/-- The loop goes on after a page: what it keeps from there on are rows that were not in it. -/
theorem ReadsRows.go
    (hstep : client.windowStep request interval startTime endTime w = .ok (w', true))
    (hrest : ReadsRows client request interval startTime endTime
      (fun i row => got i row ∨ first i row) rows' lockstep' w')
    (hfirst : ∀ i ∈ request.instrumentIds, ∀ row, first i row → rows i row)
    (hsub : ∀ i ∈ request.instrumentIds, ∀ row, rows' i row → rows i row ∧ ¬ first i row)
    (hall : (∀ i ∈ request.instrumentIds, ∀ row, rows i row → first i row ∨ rows' i row) ∧
      lockstep' ↔ lockstep) :
    ReadsRows client request interval startTime endTime got rows lockstep w := by
  obtain ⟨turns, candles, more, hloop, hkeeps, hmore, hiff⟩ := hrest
  refine ⟨turns + 1, candles, fun i row => first i row ∨ more i row, ?_, ?_, ?_, ?_⟩
  · rw [windowLoop, hstep]
    exact hloop
  · simpa only [KeepsRows, or_assoc] using hkeeps
  · rintro i hi row (hrow | hrow)
    · exact hfirst i hi row hrow
    · exact (hsub i hi row (hmore i hi row hrow)).1
  · rw [← hall, ← hiff]
    constructor
    · intro h
      refine ⟨fun i hi row hrow => (h i hi row hrow).imp_right (hmore i hi row), ?_⟩
      intro i hi row hrow
      obtain ⟨hin, hnot⟩ := hsub i hi row hrow
      exact (h i hi row hin).resolve_left hnot
    · rintro ⟨hcover, hrest⟩ i hi row hrow
      exact (hcover i hi row hrow).imp_right (hrest i hi row)

variable {mexcPage limit : ℕ}
variable {histories : InstrumentId → KlineHistory client.context.venue interval origin}

/-- Going forward, the cursor moves past the end of the last candle served. -/
theorem advanceWindow_forward {read : PageState} {closeTime : TimestampMs}
    (hvenue : client.context.venue ≠ .bybit)
    (hclose : interval.closeTimeMs read.maxOpenTime = .ok (some closeTime)) :
    client.advanceWindow request interval startTime endTime w read =
      .ok (if endTime ≤ closeTime then
          ({ w with candlesByInstrument := read.candlesByInstrument }, false)
        else (⟨read.candlesByInstrument, closeTime + 1, w.nextEnd⟩, true)) := by
  unfold advanceWindow
  split
  next =>
    rw [hclose]
    show (if endTime ≤ closeTime then _ else _) = _
    split <;> rfl
  next =>
    rw [hclose]
    show (if endTime ≤ closeTime then _ else _) = _
    split <;> rfl
  next hbybit => exact absurd hbybit hvenue

/-- Going forward, the cursor does not move unless the last candle served has an end. -/
theorem closeTime_of_advanceWindow {read : PageState} {step : WindowState × Bool}
    (hvenue : client.context.venue ≠ .bybit)
    (h : client.advanceWindow request interval startTime endTime w read = .ok step) :
    ∃ closeTime, interval.closeTimeMs read.maxOpenTime = .ok (some closeTime) := by
  cases hfound : interval.closeTimeMs read.maxOpenTime with
  | ok found =>
    cases found with
    | some closeTime => exact ⟨closeTime, rfl⟩
    | none =>
      unfold advanceWindow at h
      rw [hfound] at h
      split at h
      next => cases h
      next => cases h
      next hbybit => exact absurd hbybit hvenue
  | error e =>
    unfold advanceWindow at h
    rw [hfound] at h
    split at h
    next => cases h
    next => cases h
    next hbybit => exact absurd hbybit hvenue

theorem eq_nil_of_firstPage {α : Type*} [LinearOrder α] {key : KlineRow → α} {rows : List KlineRow}
    (hlimit : 0 < limit) (hnodup : (rows.map key).Nodup) (h : firstPage key limit rows = []) :
    rows = [] := by
  have hlength : (firstPage key limit rows).length = min limit rows.length :=
    length_firstPage hnodup
  rw [h, List.length_nil] at hlength
  exact List.length_eq_zero_iff.1 (by omega)

/-- A page from which nothing was kept is of an instrument without candles in the window. -/
theorem before_of_not_inside {i : InstrumentId} (hvenue : client.context.venue ≠ .bybit)
    (hlimit : 0 < client.context.venue.pageSize mexcPage limit)
    (hmexc : client.context.venue = .mexc → 2 ≤ mexcPage)
    (hstart : startTime.toInt ≤ w.nextStart.toInt) (hend : w.nextEnd = endTime)
    (hnone : ∀ row ∈ nextPage histories mexcPage limit w i,
      ¬ row.Inside client.context.venue startTime endTime) :
    ∀ row ∈ windowRows histories w.nextStart endTime i,
      row.openMs client.context.venue < startTime.toInt := by
  have hbefore : ∀ row ∈ firstPage KlineRow.place (client.context.venue.pageSize mexcPage limit)
      (windowRows histories w.nextStart endTime i),
      row.openMs client.context.venue < startTime.toInt := by
    intro row hrow
    have hin := (mem_windowRows.1 (mem_firstPage.1 hrow).1).2.2
    by_contra hinside
    exact hnone row ((mem_nextPage_iff hvenue hend hin).2 hrow) ⟨not_lt.1 hinside, hin⟩
  have hsub : (firstPage KlineRow.place (client.context.venue.pageSize mexcPage limit)
      (windowRows histories w.nextStart endTime i)).Sublist
      (windowRows histories w.nextStart endTime i) := List.filter_sublist
  have hcount := hsub.countP_le (p := fun row =>
    decide (row.openMs client.context.venue < startTime.toInt))
  rw [List.countP_eq_length.2 fun row hrow => decide_eq_true (hbefore row hrow)] at hcount
  have hlt := countP_before_lt histories endTime i hvenue hlimit hmexc hstart
  have hlength : (firstPage KlineRow.place (client.context.venue.pageSize mexcPage limit)
      (windowRows histories w.nextStart endTime i)).length = _ :=
    length_firstPage (nodup_windowRows histories w.nextStart endTime i)
  have hall := hsub.eq_of_length (by omega)
  rwa [hall] at hbefore

/-- Rows that all open before the window are in step. -/
theorem lockstep_of_before {nextStart : TimestampMs} {ids : List InstrumentId}
    (hvenue : client.context.venue ≠ .bybit)
    (hpage : 0 < client.context.venue.pageSize mexcPage limit)
    (hmexc : client.context.venue = .mexc → 2 ≤ mexcPage)
    (hstart : startTime.toInt ≤ nextStart.toInt)
    (hbefore : ∀ i ∈ ids, ∀ row ∈ windowRows histories nextStart endTime i,
      row.openMs client.context.venue < startTime.toInt) :
    Lockstep KlineRow.place (client.context.venue.pageSize mexcPage limit)
      (windowRows histories nextStart endTime) ids := by
  refine lockstep_of_length_le fun i hi => ?_
  have hall := List.countP_eq_length.2 fun row hrow => decide_eq_true (hbefore i hi row hrow)
  rw [← hall]
  exact (countP_before_lt histories endTime i hvenue hpage hmexc hstart).le

variable (histories) in
/-- The candles of the window that a page keeps or leaves for later pages are all of them exactly if
the page passes over no row. -/
theorem covers_iff (last : KlineRow) (ids : List InstrumentId)
    (hvenue : client.context.venue ≠ .bybit)
    (hpage : 0 < client.context.venue.pageSize mexcPage limit)
    (hmexc : client.context.venue = .mexc → 2 ≤ mexcPage) (hend : w.nextEnd = endTime)
    (hstart : startTime.toInt ≤ w.nextStart.toInt) :
    (∀ i ∈ ids, ∀ row, row ∈ windowRows histories w.nextStart endTime i ∧
        startTime.toInt ≤ row.openMs client.context.venue →
      row ∈ nextPage histories mexcPage limit w i ∧
          row.Inside client.context.venue startTime endTime ∨
        row ∈ after KlineRow.place last.place (windowRows histories w.nextStart endTime i) ∧
          startTime.toInt ≤ row.openMs client.context.venue) ↔
      ∀ i ∈ ids, ∀ row ∈ windowRows histories w.nextStart endTime i,
        row ∈ firstPage KlineRow.place (client.context.venue.pageSize mexcPage limit)
          (windowRows histories w.nextStart endTime i) ∨ last.place < row.place := by
  constructor
  · intro h i hi row hrow
    have hin := (mem_windowRows.1 hrow).2.2
    by_cases hinside : startTime.toInt ≤ row.openMs client.context.venue
    · rcases h i hi row ⟨hrow, hinside⟩ with ⟨hserved, -⟩ | ⟨hafter, -⟩
      · exact .inl ((mem_nextPage_iff hvenue hend hin).1 hserved)
      · exact .inr (mem_after.1 hafter).2
    · -- What opens before the window is in the first page.
      refine .inl (mem_firstPage.2 ⟨hrow, lt_of_le_of_lt ?_
        (countP_before_lt histories endTime i hvenue hpage hmexc hstart)⟩)
      refine List.countP_mono_left fun x _ hx => decide_eq_true ?_
      exact ((openMs_lt_iff _).2 (of_decide_eq_true hx)).trans (not_le.1 hinside)
  · rintro h i hi row ⟨hrow, hinside⟩
    have hin := (mem_windowRows.1 hrow).2.2
    rcases h i hi row hrow with hfirst | hlater
    · exact .inl ⟨(mem_nextPage_iff hvenue hend hin).2 hfirst, hinside, hin⟩
    · exact .inr ⟨mem_after.2 ⟨hrow, hlater⟩, hinside⟩

/-- If a page keeps a candle, the last open time is that of a candle kept. -/
theorem exists_last {read : PageState}
    (hresumes : Resumes histories startTime endTime request.instrumentIds w.nextStart)
    (hspans : Spans client.context.venue startTime endTime request.instrumentIds
      (nextPage histories mexcPage limit w) w.nextStart read)
    (hkept : ∃ i ∈ request.instrumentIds, ∃ row ∈ nextPage histories mexcPage limit w i,
      row.Inside client.context.venue startTime endTime) :
    ∃ i ∈ request.instrumentIds, ∃ row ∈ nextPage histories mexcPage limit w i,
      row.Inside client.context.venue startTime endTime ∧
        row.openMs client.context.venue = read.maxOpenTime.toInt := by
  rcases hspans.max_eq with heq | hlast
  · obtain ⟨i, hi, row, hrow, hin⟩ := hkept
    refine ⟨i, hi, row, hrow, hin, le_antisymm (hspans.le_max i hi row hrow hin) ?_⟩
    obtain ⟨hhist, hfrom, -⟩ := mem_askedRows.1 (mem_of_mem_pageRows hrow)
    rw [heq]
    exact hresumes.sharp i hi row hhist hfrom hin.1
  · exact hlast

/-- Going forward, the loop keeps every candle of the window from a cursor on exactly if the pages
from there on are in step. -/
def ReadsForward (client : OhlcvClient) (request : FetchOhlcvRequest)
    (histories : InstrumentId → KlineHistory client.context.venue interval origin)
    (mexcPage limit : ℕ) (startTime endTime : TimestampMs)
    (got : InstrumentId → KlineRow → Prop) (w : WindowState) : Prop :=
  ReadsRows client request interval startTime endTime got
    (fun i row => row ∈ windowRows histories w.nextStart endTime i ∧
      startTime.toInt ≤ row.openMs client.context.venue)
    (Lockstep KlineRow.place (client.context.venue.pageSize mexcPage limit)
      (windowRows histories w.nextStart endTime) request.instrumentIds) w

section Page

variable {read : PageState}
variable (hvenue : client.context.venue ≠ .bybit)
variable (hpage : 0 < client.context.venue.pageSize mexcPage limit)
variable (hmexc : client.context.venue = .mexc → 2 ≤ mexcPage) (hend : w.nextEnd = endTime)
variable (hresumes : Resumes histories startTime endTime request.instrumentIds w.nextStart)
variable (hread : KeepsRows client.context.venue interval request.instrumentIds
  (fun i row => got i row ∨ row ∈ nextPage histories mexcPage limit w i ∧
    row.Inside client.context.venue startTime endTime) read.candlesByInstrument)
variable (hspans : Spans client.context.venue startTime endTime request.instrumentIds
  (nextPage histories mexcPage limit w) w.nextStart read)
variable (hstep : client.windowStep request interval startTime endTime w =
  client.advanceWindow request interval startTime endTime w read)
variable (hrest : ∀ cursor : TimestampMs, w.nextStart.toInt < cursor.toInt →
  cursor.toInt ≤ endTime.toInt →
  Resumes histories startTime endTime request.instrumentIds cursor →
  ReadsForward client request histories mexcPage limit startTime endTime
    (fun i row => got i row ∨ row ∈ nextPage histories mexcPage limit w i ∧
      row.Inside client.context.venue startTime endTime)
    ⟨read.candlesByInstrument, cursor, w.nextEnd⟩)
include hvenue hpage hmexc hend hresumes hread hspans hstep hrest

/-- A page from which some candle is kept. -/
theorem readsForward_of_kept
    (hkept : ∃ i ∈ request.instrumentIds, ∃ row ∈ nextPage histories mexcPage limit w i,
      row.Inside client.context.venue startTime endTime) :
    ReadsForward client request histories mexcPage limit startTime endTime got w := by
  have hstart := hresumes.start_le
  obtain ⟨j, hj, last, hlast, hinside, hmax⟩ := exists_last hresumes hspans hkept
  obtain ⟨hhist, hfrom, -⟩ := mem_askedRows.1 (mem_of_mem_pageRows hlast)
  obtain ⟨closeMs, hclose⟩ := ((histories j).sound last hhist).closes
  obtain ⟨closeTime, hfound, hcloseTime⟩ := (hmax ▸ hclose).exists_closeTimeMs
  have hfirst : ∀ i ∈ request.instrumentIds, ∀ row,
      row ∈ nextPage histories mexcPage limit w i ∧
        row.Inside client.context.venue startTime endTime →
      row ∈ windowRows histories w.nextStart endTime i ∧
        startTime.toInt ≤ row.openMs client.context.venue := fun i _ row h =>
    ⟨(mem_firstPage.1 ((mem_nextPage_iff hvenue hend h.2.2).1 h.1)).1, h.2.1⟩
  have hle : ∀ i ∈ request.instrumentIds, ∀ row ∈ firstPage KlineRow.place
      (client.context.venue.pageSize mexcPage limit)
      (windowRows histories w.nextStart endTime i), row.place ≤ last.place := by
    intro i hi row hrow
    have hin := (mem_windowRows.1 (mem_firstPage.1 hrow).1).2.2
    rw [← openMs_le_iff client.context.venue]
    by_cases hbefore : startTime.toInt ≤ row.openMs client.context.venue
    · rw [hmax]
      exact hspans.le_max i hi row ((mem_nextPage_iff hvenue hend hin).2 hrow) ⟨hbefore, hin⟩
    · exact ((not_le.1 hbefore).trans_le hinside.1).le
  -- the row where the cursor stands is the last one of a first page
  have hstepIff := lockstep_iff hpage
    (fun i _ => nodup_windowRows histories w.nextStart endTime i) hle
    ⟨j, hj, last, (mem_nextPage_iff hvenue hend hinside.2).1 hlast, rfl⟩
  have hcovers := covers_iff histories last request.instrumentIds hvenue hpage hmexc hend hstart
  rw [advanceWindow_forward hvenue hfound] at hstep
  split at hstep
  next hdone =>
    -- the window is over: no instrument has a later row
    have hnone : ∀ i ∈ request.instrumentIds,
        after KlineRow.place last.place (windowRows histories w.nextStart endTime i) = [] := by
      intro i _
      refine List.eq_nil_iff_forall_not_mem.2 fun row hrow => ?_
      obtain ⟨hrow, hlater⟩ := mem_after.1 hrow
      obtain ⟨hrow, -, hin⟩ := mem_windowRows.1 hrow
      have hgrid := hclose.lt_iff ((histories j).onGrid last hhist) ((histories i).onGrid row hrow)
      have hopen := hgrid.2 ((openMs_lt_iff _).2 hlater)
      rw [Int64.le_iff_toInt_le] at hdone
      omega
    refine ReadsRows.stop _ hstep hread hfirst ?_
    rw [hstepIff, ← hcovers]
    constructor
    · intro h
      refine ⟨fun i hi row hrow => .inl (h i hi row hrow), lockstep_of_length_le fun i hi => ?_⟩
      rw [hnone i hi]
      exact Nat.zero_le _
    · rintro ⟨h, -⟩ i hi row hrow
      refine (h i hi row hrow).resolve_right fun hafter => ?_
      rw [hnone i hi] at hafter
      cases hafter.1
  next hmore =>
    have hlt : closeTime < endTime := Int64.lt_iff_toInt_lt.2 (not_le.1 fun hle =>
      hmore (Int64.le_iff_toInt_le.2 hle))
    have hcursor : (closeTime + 1).toInt = closeMs + 1 := by rw [toInt_add_one hlt, hcloseTime]
    have hinWindow : (closeTime + 1).toInt ≤ endTime.toInt := by
      rw [Int64.lt_iff_toInt_lt] at hlt
      omega
    have hlater : w.nextStart.toInt < (closeTime + 1).toInt := by
      have hclosed := hclose.le
      have hmax' := hspans.start_le
      omega
    -- else the next window holds the later rows
    have hrows : windowRows histories (closeTime + 1) endTime =
        fun k => after KlineRow.place last.place (windowRows histories w.nextStart endTime k) :=
      funext (windowRows_next hhist hfrom hclose hcursor)
    refine ReadsRows.go hstep (hrest _ hlater hinWindow
      (resumes_after hhist hinside.1 hclose hcursor hinWindow)) hfirst ?_ ?_
    · intro i hi row hrow
      rw [hrows] at hrow
      obtain ⟨hin, hafter⟩ := mem_after.1 hrow.1
      refine ⟨⟨hin, hrow.2⟩, fun hkept => ?_⟩
      have hopen := (openMs_lt_iff client.context.venue).2 hafter
      have hserved := hspans.le_max i hi row hkept.1 hkept.2
      omega
    · rw [hstepIff, ← hcovers, hrows]

/-- A page from which no candle is kept. -/
theorem readsForward_of_not_kept
    (hserved : ∃ i ∈ request.instrumentIds, nextPage histories mexcPage limit w i ≠ [])
    (hkept : ¬ ∃ i ∈ request.instrumentIds, ∃ row ∈ nextPage histories mexcPage limit w i,
      row.Inside client.context.venue startTime endTime) :
    ReadsForward client request histories mexcPage limit startTime endTime got w := by
  have hstart := hresumes.start_le
  have hnone : ∀ i ∈ request.instrumentIds, ∀ row ∈ nextPage histories mexcPage limit w i,
      ¬ row.Inside client.context.venue startTime endTime := fun i hi row hrow hin =>
    hkept ⟨i, hi, row, hrow, hin⟩
  have hbefore : ∀ i ∈ request.instrumentIds, ∀ row ∈ windowRows histories w.nextStart endTime i,
      row.openMs client.context.venue < startTime.toInt := fun i hi =>
    before_of_not_inside hvenue hpage hmexc hstart hend (hnone i hi)
  have hmax : read.maxOpenTime = w.nextStart :=
    hspans.max_eq.resolve_right fun ⟨i, hi, row, hrow, hin, _⟩ => hnone i hi row hrow hin
  have hasked : ∃ i ∈ request.instrumentIds, askedRows histories w.nextStart endTime i ≠ [] := by
    obtain ⟨i, hi, hne⟩ := hserved
    obtain ⟨row, hrow⟩ := List.exists_mem_of_ne_nil _ hne
    exact ⟨i, hi, List.ne_nil_of_mem (hend ▸ mem_of_mem_pageRows hrow)⟩
  obtain ⟨closeMs, hclose⟩ := hresumes.closes hbefore hasked
  obtain ⟨closeTime, hfound, hcloseTime⟩ := (hmax ▸ hclose).exists_closeTimeMs
  rw [advanceWindow_forward hvenue hfound] at hstep
  split at hstep
  next hdone =>
    refine ReadsRows.stop _ hstep hread (fun i hi row h => (hnone i hi row h.1 h.2).elim) ?_
    refine iff_of_true (fun i hi row hrow => ?_)
      (lockstep_of_before hvenue hpage hmexc hstart hbefore)
    exact absurd hrow.2 (not_le.2 (hbefore i hi row hrow.1))
  next hmore =>
    have hlt : closeTime < endTime := Int64.lt_iff_toInt_lt.2 (not_le.1 fun hle =>
      hmore (Int64.le_iff_toInt_le.2 hle))
    have hcursor : (closeTime + 1).toInt = closeMs + 1 := by rw [toInt_add_one hlt, hcloseTime]
    have hinWindow : (closeTime + 1).toInt ≤ endTime.toInt := by
      rw [Int64.lt_iff_toInt_lt] at hlt
      omega
    have hlater : w.nextStart.toInt < (closeTime + 1).toInt := by
      have hclosed := hclose.le
      omega
    have hrows : ∀ i ∈ request.instrumentIds,
        ∀ row ∈ windowRows histories (closeTime + 1) endTime i,
          row.openMs client.context.venue < startTime.toInt := by
      intro i hi row hrow
      obtain ⟨hhist, hfrom, hin⟩ := mem_windowRows.1 hrow
      exact hbefore i hi row
        (mem_windowRows.2 ⟨hhist, (timeParam_mono hlater.le).trans hfrom, hin⟩)
    refine ReadsRows.go hstep (hrest _ hlater hinWindow
      (hresumes.idle hbefore hclose hcursor hinWindow))
      (fun i hi row h => (hnone i hi row h.1 h.2).elim) ?_ ?_
    · intro i hi row hrow
      exact absurd hrow.2 (not_le.2 (hrows i hi row hrow.1))
    · refine iff_of_true ⟨fun i hi row hrow => ?_, ?_⟩
        (lockstep_of_before hvenue hpage hmexc hstart hbefore)
      · exact absurd hrow.2 (not_le.2 (hbefore i hi row hrow.1))
      · exact lockstep_of_before hvenue hpage hmexc (hstart.trans hlater.le) hrows

end Page

section

variable (hserves : ServesPages client mexcPage histories)
variable (hparse : KlineInterval.parse request.interval = some interval)
variable (hlimit : request.limit = some limit) (hids : request.instrumentIds ≠ [])
variable (hadmits : Admits client request interval)
include hserves hparse hlimit hids hadmits

/-- The loop from a cursor on, going forward. -/
theorem windowLoop_forward (hvenue : client.context.venue ≠ .bybit)
    (hpage : 0 < client.context.venue.pageSize mexcPage limit)
    (hmexc : client.context.venue = .mexc → 2 ≤ mexcPage) (hend : w.nextEnd = endTime)
    (hresumes : Resumes histories startTime endTime request.instrumentIds w.nextStart)
    (hkeeps : KeepsRows client.context.venue interval request.instrumentIds got
      w.candlesByInstrument) :
    ReadsForward client request histories mexcPage limit startTime endTime got w := by
  -- The time that is left decreases with each page.
  induction hleft : (endTime.toInt - w.nextStart.toInt).toNat using Nat.strong_induction_on
    generalizing w got with
  | _ left ih =>
    have hstart := hresumes.start_le
    obtain ⟨hempty, hstep⟩ | ⟨⟨k, hk, hne⟩, read, hread, hspans, hstep⟩ :=
      windowStep_spec startTime endTime hserves hparse hlimit hids hadmits hkeeps
    · have hnothing : ∀ i ∈ request.instrumentIds,
          windowRows histories w.nextStart endTime i = [] := by
        intro i hi
        refine eq_nil_of_firstPage hpage (nodup_windowRows histories w.nextStart endTime i) ?_
        refine List.eq_nil_iff_forall_not_mem.2 fun row hrow => ?_
        have hin := (mem_windowRows.1 (mem_firstPage.1 hrow).1).2.2
        have hserved := (mem_nextPage_iff hvenue hend hin).2 hrow
        rw [hempty i hi] at hserved
        cases hserved
      refine ReadsRows.stop (fun _ _ => False) hstep ?_ ?_ ?_
      · simpa only [or_false] using hkeeps
      · exact fun _ _ _ h => h.elim
      · refine iff_of_true (fun i hi row hrow => ?_) (lockstep_of_length_le fun i hi => ?_)
        · rw [hnothing i hi] at hrow
          cases hrow.1
        · rw [hnothing i hi]
          exact Nat.zero_le _
    · have hrest : ∀ cursor : TimestampMs, w.nextStart.toInt < cursor.toInt →
          cursor.toInt ≤ endTime.toInt →
          Resumes histories startTime endTime request.instrumentIds cursor →
          ReadsForward client request histories mexcPage limit startTime endTime
            (fun i row => got i row ∨ row ∈ nextPage histories mexcPage limit w i ∧
              row.Inside client.context.venue startTime endTime)
            ⟨read.candlesByInstrument, cursor, w.nextEnd⟩ := by
        intro cursor hlater hinWindow hcursor
        have hless : (endTime.toInt - cursor.toInt).toNat < left := by omega
        exact ih _ hless hend hcursor hread rfl
      by_cases hkept : ∃ i ∈ request.instrumentIds, ∃ row ∈ nextPage histories mexcPage limit w i,
          row.Inside client.context.venue startTime endTime
      · exact readsForward_of_kept hvenue hpage hmexc hend hresumes hread hspans hstep hrest hkept
      · exact readsForward_of_not_kept hvenue hpage hmexc hend hresumes hread hspans hstep hrest
          ⟨k, hk, hne⟩ hkept

end

end Loop

/-! ### Going back -/

section Backward

section Rows

variable {venue : Venue} {interval : KlineInterval} {origin : ℤ}
variable {histories : InstrumentId → KlineHistory venue interval origin}
variable {startTime endTime : TimestampMs} {i : InstrumentId} {row last : KlineRow}
variable {mexcPage limit : ℕ} {w : WindowState}

theorem mem_windowRows_bybit (hvenue : venue = .bybit) :
    row ∈ windowRows histories startTime endTime i ↔
      row ∈ (histories i).rows ∧ row.Inside venue startTime endTime := by
  subst hvenue
  have hunit : row.openMs .bybit = row.time.toInt := mul_one _
  rw [mem_windowRows, KlineRow.Inside, hunit]
  rfl

/-- On Bybit, what is asked about is what is in the window. -/
theorem askedRows_bybit (hvenue : venue = .bybit) :
    askedRows histories startTime endTime i = windowRows histories startTime endTime i := by
  subst hvenue
  refine List.filter_congr fun row _ => ?_
  have hunit : row.openMs .bybit = row.time.toInt := mul_one _
  rw [decide_eq_decide, hunit, Int64.le_iff_toInt_le, Int64.le_iff_toInt_le]
  rfl

theorem nextPage_bybit (hvenue : venue = .bybit) : nextPage histories mexcPage limit w i =
    firstPage KlineRow.placeFromEnd limit (windowRows histories w.nextStart w.nextEnd i) := by
  rw [← askedRows_bybit hvenue]
  subst hvenue
  rfl

variable (histories startTime endTime i) in
theorem nodup_placeFromEnd :
    ((windowRows histories startTime endTime i).map KlineRow.placeFromEnd).Nodup := by
  have h := nodup_windowRows histories startTime endTime i
  rw [List.Nodup, List.pairwise_map] at h ⊢
  exact h.imp fun hne heq => hne (OrderDual.toDual_inj.1 heq)

/-- After a page, the rows of the window up to the cursor are those before the first one served. -/
theorem windowRows_before (hvenue : venue = .bybit) {nextEnd cursor : TimestampMs}
    (hlast : last.openMs venue ≤ nextEnd.toInt) (hcursor : cursor.toInt = last.openMs venue - 1)
    (k : InstrumentId) :
    windowRows histories startTime cursor k =
      after KlineRow.placeFromEnd last.placeFromEnd (windowRows histories startTime nextEnd k) := by
  subst hvenue
  rw [windowRows, after, windowRows, List.filter_filter]
  refine List.filter_congr fun row _ => ?_
  have hplace : last.placeFromEnd < row.placeFromEnd ↔ row.time.toInt < last.time.toInt :=
    OrderDual.toDual_lt_toDual
  rw [← Bool.decide_and, decide_eq_decide, hplace, hcursor]
  unfold KlineRow.openMs at *
  simp only [Venue.timeUnit, mul_one] at *
  omega

end Rows

variable {client : OhlcvClient} {request : FetchOhlcvRequest} {interval : KlineInterval} {origin : ℤ}
variable {startTime endTime : TimestampMs} {w : WindowState}
variable {got : InstrumentId → KlineRow → Prop} {mexcPage limit : ℕ}
variable {histories : InstrumentId → KlineHistory client.context.venue interval origin}

/-- Going back, the cursor moves before the first candle served. -/
theorem advanceWindow_backward {read : PageState} (hvenue : client.context.venue = .bybit)
    (hmin : read.minOpenTime ≠ Int64.maxValue) :
    client.advanceWindow request interval startTime endTime w read =
      .ok (if read.minOpenTime ≤ startTime then
          ({ w with candlesByInstrument := read.candlesByInstrument }, false)
        else (⟨read.candlesByInstrument, w.nextStart, read.minOpenTime - 1⟩, true)) := by
  unfold advanceWindow
  rw [hvenue]
  show (if read.minOpenTime ≤ startTime ∨ read.minOpenTime = Int64.maxValue then _ else _) = _
  by_cases hle : read.minOpenTime ≤ startTime
  · rw [if_pos (.inl hle), if_pos hle]
    rfl
  · rw [if_neg (not_or.2 ⟨hle, hmin⟩), if_neg hle]
    rfl

/-- Going back, the loop keeps every candle of the window up to a cursor exactly if the pages down
from there are in step. -/
def ReadsBackward (client : OhlcvClient) (request : FetchOhlcvRequest)
    (histories : InstrumentId → KlineHistory client.context.venue interval origin)
    (limit : ℕ) (startTime endTime : TimestampMs) (got : InstrumentId → KlineRow → Prop)
    (w : WindowState) : Prop :=
  ReadsRows client request interval startTime endTime got
    (fun i row => row ∈ windowRows histories startTime w.nextEnd i)
    (Lockstep KlineRow.placeFromEnd limit (windowRows histories startTime w.nextEnd)
      request.instrumentIds) w

section Page

variable {read : PageState}
variable (hvenue : client.context.venue = .bybit)
variable (hpages : ∀ i, nextPage histories mexcPage limit w i =
  firstPage KlineRow.placeFromEnd limit (windowRows histories startTime w.nextEnd i))
variable (hinside : ∀ i, ∀ row ∈ nextPage histories mexcPage limit w i,
  row.Inside client.context.venue startTime endTime)
variable (hserved : ∃ i ∈ request.instrumentIds, nextPage histories mexcPage limit w i ≠ [])
variable (hspans : Spans client.context.venue startTime endTime request.instrumentIds
  (nextPage histories mexcPage limit w) w.nextStart read)
include hinside hserved hspans

/-- The first open time is that of a candle kept. -/
theorem exists_first : read.minOpenTime ≠ Int64.maxValue ∧ ∃ i ∈ request.instrumentIds,
    ∃ row ∈ nextPage histories mexcPage limit w i,
      row.openMs client.context.venue = read.minOpenTime.toInt := by
  obtain ⟨k, hk, hne⟩ := hserved
  obtain ⟨row, hrow⟩ := List.exists_mem_of_ne_nil _ hne
  obtain ⟨closeMs, hclose⟩ := (sound_of_mem_nextPage hrow).closes
  have hmin := hspans.min_le k hk row hrow (hinside k row hrow)
  have hbelow := hclose.lt_max
  have hnotMax : read.minOpenTime ≠ Int64.maxValue := by
    intro heq
    rw [heq, Int64.toInt_maxValue] at hmin
    omega
  obtain ⟨i, hi, first, hfirst, -, heq⟩ := hspans.min_eq.resolve_left hnotMax
  exact ⟨hnotMax, i, hi, first, hfirst, heq⟩

variable (hread : KeepsRows client.context.venue interval request.instrumentIds
  (fun i row => got i row ∨ row ∈ nextPage histories mexcPage limit w i ∧
    row.Inside client.context.venue startTime endTime) read.candlesByInstrument)
variable (hstep : client.windowStep request interval startTime endTime w =
  client.advanceWindow request interval startTime endTime w read)
variable (hrest : ∀ cursor : TimestampMs, cursor.toInt < w.nextEnd.toInt →
  startTime.toInt ≤ cursor.toInt →
  ReadsBackward client request histories limit startTime endTime
    (fun i row => got i row ∨ row ∈ nextPage histories mexcPage limit w i ∧
      row.Inside client.context.venue startTime endTime)
    ⟨read.candlesByInstrument, w.nextStart, cursor⟩)
variable (hpage : 0 < limit)
include hvenue hpages hread hstep hrest hpage

/-- A page of which some instrument has a candle. -/
theorem readsBackward_of_page :
    ReadsBackward client request histories limit startTime endTime got w := by
  obtain ⟨hnotMax, j, hj, last, hlast, hmin⟩ := exists_first hinside hserved hspans
  have hplace : ∀ {row : KlineRow}, last.placeFromEnd < row.placeFromEnd ↔
      row.openMs client.context.venue < last.openMs client.context.venue := by
    intro row
    rw [openMs_lt_iff]
    exact OrderDual.toDual_lt_toDual
  have hlastIn := hlast
  rw [hpages] at hlastIn
  obtain ⟨-, -, hend⟩ := (mem_windowRows_bybit hvenue).1 (mem_firstPage.1 hlastIn).1
  have hfirst : ∀ i ∈ request.instrumentIds, ∀ row,
      row ∈ nextPage histories mexcPage limit w i ∧
        row.Inside client.context.venue startTime endTime →
      row ∈ windowRows histories startTime w.nextEnd i := by
    rintro i - row ⟨hrow, -⟩
    rw [hpages] at hrow
    exact (mem_firstPage.1 hrow).1
  have hle : ∀ i ∈ request.instrumentIds, ∀ row ∈ firstPage KlineRow.placeFromEnd limit
      (windowRows histories startTime w.nextEnd i), row.placeFromEnd ≤ last.placeFromEnd := by
    intro i hi row hrow
    rw [← hpages] at hrow
    have hge := hspans.min_le i hi row hrow (hinside i row hrow)
    rw [← not_lt, hplace]
    omega
  -- the row where the cursor turns is the last one of a first page
  have hstepIff := lockstep_iff hpage
    (fun i _ => nodup_placeFromEnd histories startTime w.nextEnd i) hle ⟨j, hj, last, hlastIn, rfl⟩
  have hcovers : (∀ i ∈ request.instrumentIds, ∀ row ∈ windowRows histories startTime w.nextEnd i,
      row ∈ firstPage KlineRow.placeFromEnd limit (windowRows histories startTime w.nextEnd i) ∨
        last.placeFromEnd < row.placeFromEnd) ↔
      ∀ i ∈ request.instrumentIds, ∀ row, row ∈ windowRows histories startTime w.nextEnd i →
        row ∈ nextPage histories mexcPage limit w i ∧
            row.Inside client.context.venue startTime endTime ∨
          row ∈ after KlineRow.placeFromEnd last.placeFromEnd
            (windowRows histories startTime w.nextEnd i) := by
    refine forall₂_congr fun i hi => forall₂_congr fun row hrow => or_congr ?_ ?_
    · rw [← hpages]
      exact (and_iff_left_of_imp (hinside i row)).symm
    · rw [mem_after, and_iff_right hrow]
  rw [advanceWindow_backward hvenue hnotMax] at hstep
  split at hstep
  next hdone =>
    -- the window is over: no instrument has an earlier row
    have hnone : ∀ i ∈ request.instrumentIds, after KlineRow.placeFromEnd last.placeFromEnd
        (windowRows histories startTime w.nextEnd i) = [] := by
      intro i _
      refine List.eq_nil_iff_forall_not_mem.2 fun row hrow => ?_
      obtain ⟨hrow, hlater⟩ := mem_after.1 hrow
      obtain ⟨-, hge, -⟩ := (mem_windowRows_bybit hvenue).1 hrow
      rw [hplace] at hlater
      rw [Int64.le_iff_toInt_le] at hdone
      omega
    refine ReadsRows.stop _ hstep hread hfirst ?_
    rw [hstepIff, hcovers]
    constructor
    · intro h
      refine ⟨fun i hi row hrow => .inl (h i hi row hrow), lockstep_of_length_le fun i hi => ?_⟩
      rw [hnone i hi]
      exact Nat.zero_le _
    · rintro ⟨h, -⟩ i hi row hrow
      refine (h i hi row hrow).resolve_right fun hafter => ?_
      rw [hnone i hi] at hafter
      cases hafter
  next hmore =>
    have hlt : startTime < read.minOpenTime := Int64.lt_iff_toInt_lt.2 (not_le.1 fun hle =>
      hmore (Int64.le_iff_toInt_le.2 hle))
    have hcursor := toInt_sub_one hlt
    rw [Int64.lt_iff_toInt_lt] at hlt
    -- else the next window holds the earlier rows
    have hrows : windowRows histories startTime (read.minOpenTime - 1) = fun k =>
        after KlineRow.placeFromEnd last.placeFromEnd
          (windowRows histories startTime w.nextEnd k) :=
      funext (windowRows_before hvenue hend (by omega))
    refine ReadsRows.go hstep (hrest _ (by omega) (by omega)) hfirst ?_ ?_
    · intro i hi row hrow
      rw [hrows] at hrow
      obtain ⟨hin, hafter⟩ := mem_after.1 hrow
      refine ⟨hin, fun hkept => ?_⟩
      have hserved := hspans.min_le i hi row hkept.1 hkept.2
      rw [hplace] at hafter
      omega
    · rw [hstepIff, hcovers, hrows]

end Page

variable (hserves : ServesPages client mexcPage histories)
variable (hparse : KlineInterval.parse request.interval = some interval)
variable (hlimit : request.limit = some limit) (hids : request.instrumentIds ≠ [])
variable (hadmits : Admits client request interval)
include hserves hparse hlimit hids hadmits

/-- The loop from a cursor on, going back. -/
theorem windowLoop_backward (hvenue : client.context.venue = .bybit) (hpage : 0 < limit)
    (hstart : w.nextStart = startTime) (hend : w.nextEnd.toInt ≤ endTime.toInt)
    (hkeeps : KeepsRows client.context.venue interval request.instrumentIds got
      w.candlesByInstrument) :
    ReadsBackward client request histories limit startTime endTime got w := by
  -- The time that is left decreases with each page.
  induction hleft : (w.nextEnd.toInt - startTime.toInt).toNat using Nat.strong_induction_on
    generalizing w got with
  | _ left ih =>
    have hpages : ∀ i, nextPage histories mexcPage limit w i =
        firstPage KlineRow.placeFromEnd limit (windowRows histories startTime w.nextEnd i) := by
      intro i
      rw [nextPage_bybit hvenue, hstart]
    have hinside : ∀ i, ∀ row ∈ nextPage histories mexcPage limit w i,
        row.Inside client.context.venue startTime endTime := by
      intro i row hrow
      rw [hpages] at hrow
      obtain ⟨-, hge, hle⟩ := (mem_windowRows_bybit hvenue).1 (mem_firstPage.1 hrow).1
      exact ⟨hge, hle.trans hend⟩
    obtain ⟨hempty, hstep⟩ | ⟨hserved, read, hread, hspans, hstep⟩ :=
      windowStep_spec startTime endTime hserves hparse hlimit hids hadmits hkeeps
    · have hnothing : ∀ i ∈ request.instrumentIds,
          windowRows histories startTime w.nextEnd i = [] := fun i hi =>
        eq_nil_of_firstPage hpage (nodup_placeFromEnd histories startTime w.nextEnd i)
          ((hpages i).symm.trans (hempty i hi))
      refine ReadsRows.stop (fun _ _ => False) hstep ?_ (fun _ _ _ h => h.elim) ?_
      · simpa only [or_false] using hkeeps
      · refine iff_of_true (fun i hi row hrow => ?_) (lockstep_of_length_le fun i hi => ?_)
        · rw [hnothing i hi] at hrow
          cases hrow
        · rw [hnothing i hi]
          exact Nat.zero_le _
    · refine readsBackward_of_page hvenue hpages hinside hserved hspans hread hstep ?_ hpage
      intro cursor hearlier hinWindow
      have hless : (cursor.toInt - startTime.toInt).toNat < left := by omega
      exact ih _ hless hstart (by dsimp only; omega) hread rfl

end Backward

end BatMarkets
