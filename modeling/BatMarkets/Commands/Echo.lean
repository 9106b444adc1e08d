import BatMarkets.Commands.Dialects

/-!
# Orders of Binance and Bybit that come back

An order goes to the venue in one of the forms of the runtime, and comes back in the records of the
venue.  Whatever the venue, the form and the kind of records, an order comes back as it was
requested in the same cases.

## Main results

* `comes_back_iff` : every record that repeats an order is read as the requested order exactly when
  the words of the venue can express the request (`Expressible`).
* `WireOrder.comes_back_iff_expressible` : the same of all orders that are written.
-/

namespace BatMarkets

open Wire

/-! ### The round trip -/

section RoundTrip

variable {L : Dialect} {form : OrderForm L} {records : RecordForm L} {catalog : InstrumentCatalog}
  {name : String} {request : CreateOrderRequest}

/-- Every readable record that repeats the order is decoded to the requested one. -/
def ComesBack (form : OrderForm L) (records : RecordForm L) (catalog : InstrumentCatalog)
    (name : String) (request : CreateOrderRequest) : Prop :=
  ∀ (r : records.Record) (observedAt : TimestampMs), (records.text r).Readable L →
    records.RestReadable r → (records.text r).Echoes form (form.encode name request) →
      ∃ order, records.decode catalog r observedAt = .ok order ∧ request.Describes order ∧
        order.instrumentId = request.instrumentId

/-- The venue can be told all that the request says, and its records can say it. -/
structure Expressible (records : RecordForm L) (catalog : InstrumentCatalog) (name : String)
    (request : CreateOrderRequest) : Prop where
  symbol : ∃ spec, requireNativeSymbol L.venue catalog name = .ok spec ∧
    spec.instrumentId = request.instrumentId
  /-- An order without a client id gets one from the venue. -/
  clientOrderId : request.clientOrderId.isSome
  /-- To be post-only is written into the time in force. -/
  postOnly : request.asksPostOnly = true → request.timeInForce.isSome
  immediate : request.postOnly = true →
    request.timeInForce ≠ some .ioc ∧ request.timeInForce ≠ some .fok
  price : ∀ p, request.price = some p → records.keeps p.value.toRat = true

section Decoded

variable {t : OrderText} {keeps : ℚ → Bool} {spec : InstrumentSpec} {order : Order}
  (hecho : t.Echoes form (form.encode name request)) (hdecodes : t.DecodesTo L keeps spec order)

include hdecodes

/-- Whether an order is marked as post-only, and whether its time in force says so. -/
theorem postOnly_iff_of_decodesTo :
    order.postOnly = true ↔ order.timeInForce = some .postOnly := by
  rw [hdecodes.postOnly, beq_iff_eq]
  have htime := hdecodes.timeInForce
  cases hword : t.timeInForce with
  | none =>
    rw [hword] at htime
    rw [← Except.ok.inj htime]
    simp
  | some raw =>
    rw [hword] at htime
    obtain ⟨timeInForce, hread, hsome⟩ := except_bind_eq_ok.1 htime
    rw [← Except.ok.inj hsome, Option.some.injEq, Option.some.injEq]
    exact (L.postOnly_iff hread).symm

include hecho

theorem timeInForce_of_asked {timeInForce : TimeInForce}
    (h : request.timeInForce = some timeInForce) :
    order.timeInForce = some (if request.postOnly then .postOnly else timeInForce) := by
  have hword : t.timeInForce = some (L.timeWord timeInForce request.postOnly) :=
    hecho.timeInForce _ (by rw [form.timeInForce, h]; rfl)
  have htime := hdecodes.timeInForce
  rw [hword, Option.mapM_some, L.readTime_word] at htime
  exact (Except.ok.inj htime).symm

theorem timeInForce_of_unasked (h : request.timeInForce = none) :
    order.timeInForce ≠ some .postOnly := by
  rw [Ne, ← postOnly_iff_of_decodesTo hdecodes, hdecodes.postOnly, beq_iff_eq]
  exact hecho.unasked (by rw [form.timeInForce, h]; rfl)

/-- The order says that it is post-only when it was to be. -/
theorem timeInForce_iff_asksPostOnly
    (hpost : request.asksPostOnly = true → request.timeInForce.isSome) :
    order.timeInForce = some .postOnly ↔ request.asksPostOnly = true := by
  cases hasked : request.timeInForce with
  | none =>
    rw [hasked] at hpost
    have hnever := timeInForce_of_unasked hecho hdecodes hasked
    exact ⟨fun h => absurd h hnever, fun h => by cases hpost h⟩
  | some timeInForce =>
    rw [timeInForce_of_asked hecho hdecodes hasked, CreateOrderRequest.asksPostOnly, hasked]
    cases request.postOnly <;> simp

theorem side_of_echo : order.side = request.side := by
  have hword : t.side = L.sideWord request.side :=
    Option.some.inj (hecho.side.symm.trans (form.side _ _))
  have hread := hdecodes.side
  rw [hword, L.readSide_word] at hread
  exact (Except.ok.inj hread).symm

theorem orderType_of_echo : order.orderType = request.orderType := by
  have hword : t.orderType = L.typeWord request.orderType :=
    Option.some.inj (hecho.orderType.symm.trans (form.orderType _ _))
  have hread := hdecodes.orderType
  rw [hword, L.readType_word] at hread
  exact (Except.ok.inj hread).symm

theorem quantity_of_echo : order.quantity.value.toRat = request.quantity.value.toRat := by
  obtain ⟨d, d', hd, hd', hsame⟩ := hecho.quantity _ (form.quantity _ _)
  rw [formatQuantity, Decimal.fromStr_display] at hd
  obtain rfl := Except.ok.inj hd
  rw [← Except.ok.inj (hd'.symm.trans hdecodes.quantity), hsame, Decimal.toRat_normalize]

/-- The price of the order, if it has been kept. -/
theorem price_of_echo {p : Price} (h : request.price = some p) :
    ∃ q : Price, q.value.toRat = p.value.toRat ∧
      order.price = if keeps p.value.toRat then some q else none := by
  obtain ⟨said, hsaid, d, d', hd, hd', hsame⟩ :=
    hecho.price (formatPrice p) (by rw [form.price, h]; rfl)
  rw [formatPrice, Decimal.fromStr_display] at hd
  obtain rfl := Except.ok.inj hd
  rw [Decimal.toRat_normalize] at hsame
  exact ⟨⟨d'⟩, hsame, by rw [hdecodes.price said d' hsaid hd', hsame]⟩

theorem reduceOnly_of_echo : order.reduceOnly = request.reduceOnly := by
  rw [hdecodes.reduceOnly, Bool.eq_iff_iff, hecho.reduceOnly, form.reduceOnly]

end Decoded

/-- An expressible order comes back. -/
theorem comes_back (h : Expressible records catalog name request) :
    ComesBack form records catalog name request := by
  intro r observedAt hreadable hrest hecho
  obtain ⟨spec, hspec, hinstrument⟩ := h.symbol
  have hsymbol : (records.text r).symbol = name :=
    Option.some.inj (hecho.symbol.symm.trans (form.symbol _ _))
  obtain ⟨order, hok, hdecodes⟩ := records.decodes hreadable hrest (hsymbol ▸ hspec) observedAt
  have hpostOnly := timeInForce_iff_asksPostOnly hecho hdecodes h.postOnly
  have himmediate : ∀ timeInForce, request.timeInForce = some timeInForce →
      (request.postOnly = true → request.timeInForce ≠ some timeInForce) →
        order.timeInForce = some timeInForce := by
    intro timeInForce hasked hnot
    rw [timeInForce_of_asked hecho hdecodes hasked, if_neg fun hpost => hnot hpost hasked]
  refine ⟨order, hok, ?_, hdecodes.instrumentId.trans hinstrument⟩
  exact {
    side := side_of_echo hecho hdecodes
    orderType := orderType_of_echo hecho hdecodes
    quantity := quantity_of_echo hecho hdecodes
    clientOrderId := by
      obtain ⟨id, hid⟩ := Option.isSome_iff_exists.1 h.clientOrderId
      rw [hdecodes.clientOrderId, hecho.clientOrderId id.asStr (by rw [form.clientOrderId, hid]; rfl),
        hid]
      rfl
    reduceOnly := reduceOnly_of_echo hecho hdecodes
    price := by
      intro p hp
      obtain ⟨q, hq, horder⟩ := price_of_echo hecho hdecodes hp
      exact ⟨q, by rw [horder, if_pos (h.price p hp)], hq⟩
    postOnly := by
      rw [Bool.eq_iff_iff, postOnly_iff_of_decodesTo hdecodes, hpostOnly]
    timeInForce := hpostOnly
    ioc := fun hasked => himmediate _ hasked fun hpost => (h.immediate hpost).1
    fok := fun hasked => himmediate _ hasked fun hpost => (h.immediate hpost).2 }

/-- What is said when nothing is added to the order but what has to be. -/
def OrderText.plain (L : Dialect) (name : String) (request : CreateOrderRequest) : OrderText where
  symbol := name
  side := L.sideWord request.side
  orderType := L.typeWord request.orderType
  quantity := formatQuantity request.quantity
  price := some ((request.price.map fun p : Price => p.value.normalize).getD 0).display
  timeInForce := some (L.timeWord (request.timeInForce.getD .gtc)
    (request.timeInForce.isSome && request.postOnly))
  clientOrderId := some ((request.clientOrderId.map (·.asStr)).getD "")
  reduceOnly := request.reduceOnly

theorem sameDecimal_display (d : Decimal) : SameDecimal d.display d.display :=
  ⟨d, d, Decimal.fromStr_display d, Decimal.fromStr_display d, rfl⟩

theorem plain_echoes : (OrderText.plain L name request).Echoes form (form.encode name request) where
  symbol := form.symbol _ _
  side := form.side _ _
  orderType := form.orderType _ _
  quantity raw hraw := by
    obtain rfl := Option.some.inj (hraw.symm.trans (form.quantity _ _))
    exact sameDecimal_display _
  price raw hraw := by
    rw [form.price] at hraw
    obtain ⟨p, hp, rfl⟩ := Option.map_eq_some_iff.1 hraw
    refine ⟨_, rfl, ?_⟩
    rw [hp]
    exact sameDecimal_display _
  timeInForce raw hraw := by
    rw [form.timeInForce] at hraw
    obtain ⟨timeInForce, htime, rfl⟩ := Option.map_eq_some_iff.1 hraw
    rw [OrderText.plain, htime]
    rfl
  unasked hnone := by
    rw [form.timeInForce, Option.map_eq_none_iff] at hnone
    rw [OrderText.plain, hnone, Ne, Option.some.injEq, ← L.postOnly_iff (L.readTime_word _ _)]
    simp
  clientOrderId raw hraw := by
    rw [form.clientOrderId] at hraw
    rw [OrderText.plain, hraw]
    rfl
  reduceOnly := (form.reduceOnly _ _).symm

theorem plain_readable : (OrderText.plain L name request).Readable L where
  side := ⟨_, L.readSide_word _⟩
  orderType := ⟨_, L.readType_word _⟩
  timeInForce := ⟨some _, by rw [OrderText.plain, Option.mapM_some, L.readTime_word]; rfl⟩
  quantity := ⟨_, Decimal.fromStr_display _⟩
  price := ⟨some _, by rw [OrderText.plain, Option.mapM_some, Decimal.fromStr_display]; rfl⟩

/-- **Which orders come back.** -/
theorem comes_back_iff :
    ComesBack form records catalog name request ↔ Expressible records catalog name request := by
  refine ⟨fun h => ?_, comes_back⟩
  -- the record that repeats the order and adds nothing shows what is lost
  have htext : records.text (records.record (.plain L name request)) = .plain L name request :=
    records.text_record ⟨_, rfl⟩ ⟨_, rfl, L.timeWord_ne_empty _ _⟩ rfl
  have hreadable : (records.text (records.record (.plain L name request))).Readable L := by
    rw [htext]
    exact plain_readable
  have hecho : (OrderText.plain L name request).Echoes form (form.encode name request) :=
    plain_echoes
  have hechoes : (records.text (records.record (.plain L name request))).Echoes form
      (form.encode name request) := by
    rw [htext]
    exact hecho
  obtain ⟨order, hok, hdescribes, hinstrument⟩ :=
    h _ 0 hreadable (records.restReadable_record _) hechoes
  obtain ⟨spec, hspec⟩ := records.resolves hok
  obtain ⟨order', hok', hdecodes⟩ :=
    records.decodes hreadable (records.restReadable_record _) hspec 0
  obtain rfl : order' = order := Except.ok.inj (hok'.symm.trans hok)
  rw [htext] at hspec hdecodes
  exact {
    symbol := ⟨spec, hspec, hdecodes.instrumentId.symm.trans hinstrument⟩
    clientOrderId := by
      rw [← hdescribes.clientOrderId, hdecodes.clientOrderId]
      rfl
    postOnly := by
      intro hasks
      rw [Option.isSome_iff_ne_none]
      intro hnone
      exact timeInForce_of_unasked hecho hdecodes hnone (hdescribes.timeInForce.2 hasks)
    immediate := by
      intro hpost
      have hread : ∀ timeInForce, request.timeInForce = some timeInForce →
          order'.timeInForce = some .postOnly := by
        intro timeInForce hasked
        rw [timeInForce_of_asked hecho hdecodes hasked, if_pos hpost]
      refine ⟨fun hioc => ?_, fun hfok => ?_⟩
      · have hsame := (hread _ hioc).symm.trans (hdescribes.ioc hioc)
        cases hsame
      · have hsame := (hread _ hfok).symm.trans (hdescribes.fok hfok)
        cases hsame
    price := by
      intro p hp
      obtain ⟨q, -, horder⟩ := price_of_echo hecho hdecodes hp
      obtain ⟨q', hq', -⟩ := hdescribes.price p hp
      by_contra hkeeps
      rw [horder, if_neg hkeeps] at hq'
      cases hq' }

end RoundTrip

/-- The ways in which the runtime writes a new order for Binance and Bybit. -/
inductive WireOrder
  | binanceCreate
  | binanceBatch
  | binanceAlgo
  | bybitCreate
  | bybitBatch
  | bybitClose

namespace WireOrder

/-- The order as the runtime writes it. -/
def encode : WireOrder → String → CreateOrderRequest → Json
  | binanceCreate => buildBinanceCreatePairs
  | binanceBatch => buildBinanceBatchCreateObject
  | binanceAlgo => buildBinanceAlgoCreatePairs
  | bybitCreate => buildBybitCreateObject
  | bybitBatch => buildBybitBatchCreateObject
  | bybitClose => buildBybitCloseObject

/-- The words of its venue. -/
def dialect : WireOrder → Dialect
  | binanceCreate | binanceBatch | binanceAlgo => Binance.dialect
  | bybitCreate | bybitBatch | bybitClose => Bybit.dialect

/-- The form of what is written. -/
def form : (w : WireOrder) → OrderForm w.dialect
  | binanceCreate | binanceBatch => Binance.createForm
  | binanceAlgo => Binance.algoForm
  | bybitCreate => Bybit.createForm
  | bybitBatch => Bybit.batchForm
  | bybitClose => Bybit.closeForm

/-- The records that the venue has of such an order. -/
def records : (w : WireOrder) → RecordForm w.dialect
  | binanceCreate | binanceBatch => Binance.orderRecords
  | binanceAlgo => Binance.algoOrderRecords
  | bybitCreate | bybitBatch | bybitClose => Bybit.orderRecords

/-- The form of what is written is what the runtime writes. -/
theorem encode_form (w : WireOrder) : w.form.encode = w.encode := by
  cases w <;> rfl

/-- **Which orders of Binance and Bybit come back.**  However the runtime writes an order, every
readable record that repeats it is decoded to the requested order exactly when the adapter knows the
symbol as that instrument, the request has a client id, a request to be post-only has a time in
force that it replaces and that is not immediate, and the price is one that the records keep. -/
theorem comes_back_iff_expressible (w : WireOrder) (catalog : InstrumentCatalog) (name : String)
    (request : CreateOrderRequest) :
    ComesBack w.form w.records catalog name request ↔
      Expressible w.records catalog name request :=
  comes_back_iff

end WireOrder

end BatMarkets
