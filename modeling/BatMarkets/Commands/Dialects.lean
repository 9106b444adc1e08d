import BatMarkets.Adapter.OrderSnapshot
import BatMarkets.Binance.OrderRecords
import BatMarkets.Commands.Encode
import BatMarkets.Core.Products

/-!
# The words of Binance and Bybit for orders

The runtime writes an order in the words of the venue (`Commands.Encode`), and the adapter reads
the records that the venue answers with (`order_from_snapshot`, `algo_order_from_snapshot`).  The
tables for the two directions live in different crates.

A `Dialect` is the words of a venue, with a proof that they are read as they are meant.  An
`OrderForm` is one of the ways in which the runtime writes orders in them, and a `RecordForm` is a
kind of records, with what its decoder makes of a record that says the same as an order.

## Main results

* `Binance.dialect`, `Bybit.dialect` : what is written in the words of a venue is read as it was
  meant.
* `Binance.orderRecords`, `Binance.algoOrderRecords`, `Bybit.orderRecords` : a readable record is
  decoded to what it says, but for a price of zero in the record of a conditional order.
-/

namespace BatMarkets

open Wire

/-! ### Words -/

/-- The words of a venue for orders, as they are written and as they are read. -/
structure Dialect where
  venue : Venue
  sideWord : Side → String
  typeWord : OrderType → String
  timeWord : TimeInForce → Bool → String
  readSide : String → Except MarketError Side
  readType : String → Except MarketError OrderType
  readTime : String → Except MarketError TimeInForce
  /-- The word for an order that takes no liquidity. -/
  postOnlyWord : String
  readSide_word : ∀ side, readSide (sideWord side) = .ok side
  readType_word : ∀ orderType, readType (typeWord orderType) = .ok orderType
  readTime_word : ∀ timeInForce postOnly, readTime (timeWord timeInForce postOnly) =
    .ok (if postOnly then .postOnly else timeInForce)
  timeWord_ne_empty : ∀ timeInForce postOnly, timeWord timeInForce postOnly ≠ ""
  postOnly_iff : ∀ {raw timeInForce}, readTime raw = .ok timeInForce →
    (timeInForce = .postOnly ↔ raw = postOnlyWord)

theorem Bybit.parseTimeInForce_eq_postOnly_iff {raw : String} {timeInForce : TimeInForce}
    (h : Bybit.parseTimeInForce raw = .ok timeInForce) :
    timeInForce = .postOnly ↔ raw = "PostOnly" := by
  unfold Bybit.parseTimeInForce at h
  split at h
  · cases h
    decide
  · cases h
    decide
  · cases h
    decide
  · cases h
    decide
  · cases h

/-- The words of Binance and how the adapter reads them. -/
def Binance.dialect : Dialect where
  venue := .binance
  sideWord := binanceSide
  typeWord := binanceOrderType
  timeWord := binanceTimeInForce
  readSide := Binance.parseSide
  readType := Binance.parseOrderType
  readTime := Binance.parseTimeInForce
  postOnlyWord := "GTX"
  readSide_word side := by cases side <;> rfl
  readType_word orderType := by cases orderType <;> rfl
  readTime_word timeInForce postOnly := by cases postOnly <;> cases timeInForce <;> rfl
  timeWord_ne_empty timeInForce postOnly := by cases postOnly <;> cases timeInForce <;> decide
  postOnly_iff := Binance.parseTimeInForce_eq_postOnly_iff

/-- The words of Bybit and how the adapter reads them. -/
def Bybit.dialect : Dialect where
  venue := .bybit
  sideWord := bybitSide
  typeWord := bybitOrderType
  timeWord := bybitTimeInForce
  readSide := Bybit.parseSide
  readType := Bybit.parseOrderType
  readTime := Bybit.parseTimeInForce
  postOnlyWord := "PostOnly"
  readSide_word side := by cases side <;> rfl
  readType_word orderType := by cases orderType <;> rfl
  readTime_word timeInForce postOnly := by cases postOnly <;> cases timeInForce <;> rfl
  timeWord_ne_empty timeInForce postOnly := by cases postOnly <;> cases timeInForce <;> decide
  postOnly_iff := Bybit.parseTimeInForce_eq_postOnly_iff

/-! ### Orders on the wire -/

/-- The text of a field of the order. -/
def textAt (order : Json) (key : String) : Option String := (order.get? key).bind Json.asStr

/-- The order is to be reduce-only: Binance is told so by a text, Bybit by a boolean. -/
def AsksReduceOnly (order : Json) : Prop :=
  order.get? "reduceOnly" = some (.string "true") ∨ order.get? "reduceOnly" = some (.bool true)

/-- A way in which the runtime writes orders. -/
structure OrderForm (L : Dialect) where
  encode : String → CreateOrderRequest → Json
  typeKey : String
  quantityKey : String
  clientKey : String
  symbol : ∀ name r, textAt (encode name r) "symbol" = some name
  side : ∀ name r, textAt (encode name r) "side" = some (L.sideWord r.side)
  orderType : ∀ name r, textAt (encode name r) typeKey = some (L.typeWord r.orderType)
  quantity : ∀ name r, textAt (encode name r) quantityKey = some (formatQuantity r.quantity)
  price : ∀ name r, textAt (encode name r) "price" = r.price.map formatPrice
  timeInForce : ∀ name r, textAt (encode name r) "timeInForce" =
    r.timeInForce.map (L.timeWord · r.postOnly)
  clientOrderId : ∀ name r, textAt (encode name r) clientKey = r.clientOrderId.map (·.asStr)
  reduceOnly : ∀ name r, AsksReduceOnly (encode name r) ↔ r.reduceOnly = true

section Forms

variable {r : CreateOrderRequest}

theorem asStr_textOrNull (text : Option String) : (textOrNull text).asStr = text := by
  cases text <;> rfl

theorem get?_reduceOnly_ne {key : String} (hkey : key ≠ "reduceOnly") :
    Json.get? key (.object (if r.reduceOnly then [("reduceOnly", .string "true")] else [])) =
      none := by
  split
  · simp [Ne.symm hkey]
  · rfl

end Forms

/-- The order is written with these names for the fields of its client id and its trigger, after
these fields. -/
def Binance.orderForm (clientKey triggerKey : String)
    (hkeys : (clientKey, triggerKey) = ("newClientOrderId", "stopPrice") ∨
      (clientKey, triggerKey) = ("clientAlgoId", "triggerPrice"))
    (fields : List (String × Json))
    (hfields : fields = [] ∨ fields = [("algoType", .string "CONDITIONAL")]) :
    OrderForm Binance.dialect where
  encode name r := .object (fields ++ binanceOrderFields clientKey triggerKey name r)
  typeKey := "type"
  quantityKey := "quantity"
  clientKey := clientKey
  symbol name r := by
    rcases hfields with rfl | rfl <;> simp [textAt, binanceOrderFields] <;> rfl
  side name r := by
    rcases hfields with rfl | rfl <;> simp [textAt, binanceOrderFields] <;> rfl
  orderType name r := by
    rcases hfields with rfl | rfl <;> simp [textAt, binanceOrderFields] <;> rfl
  quantity name r := by
    rcases hfields with rfl | rfl <;> simp [textAt, binanceOrderFields] <;> rfl
  price name r := by
    rcases hkeys with hkeys | hkeys <;> obtain ⟨rfl, rfl⟩ := Prod.mk.inj hkeys <;>
      rcases hfields with rfl | rfl <;>
      simp [textAt, binanceOrderFields, Json.get?_object_append, get?_reduceOnly_ne]
  timeInForce name r := by
    rcases hkeys with hkeys | hkeys <;> obtain ⟨rfl, rfl⟩ := Prod.mk.inj hkeys <;>
      rcases hfields with rfl | rfl <;>
      simp [textAt, binanceOrderFields, Json.get?_object_append, get?_reduceOnly_ne] <;> rfl
  clientOrderId name r := by
    rcases hkeys with hkeys | hkeys <;> obtain ⟨rfl, rfl⟩ := Prod.mk.inj hkeys <;>
      rcases hfields with rfl | rfl <;>
      simp [textAt, binanceOrderFields, Json.get?_object_append, get?_reduceOnly_ne]
  reduceOnly name r := by
    rcases hkeys with hkeys | hkeys <;> obtain ⟨rfl, rfl⟩ := Prod.mk.inj hkeys <;>
      rcases hfields with rfl | rfl <;> cases hr : r.reduceOnly <;>
      simp [AsksReduceOnly, binanceOrderFields, Json.get?_object_append, hr]

/-- How Binance wants an order, alone or in a batch. -/
def Binance.createForm : OrderForm Binance.dialect :=
  orderForm "newClientOrderId" "stopPrice" (.inl rfl) [] (.inl rfl)

/-- How Binance wants a conditional order. -/
def Binance.algoForm : OrderForm Binance.dialect :=
  orderForm "clientAlgoId" "triggerPrice" (.inr rfl) [("algoType", .string "CONDITIONAL")] (.inr rfl)

/-- The order is written with or without its category and the fields of its trigger. -/
def Bybit.orderForm (fields : List (String × Json))
    (hfields : fields = [] ∨ fields = [("category", .string "linear")])
    (trigger : CreateOrderRequest → List (String × Json))
    (htrigger : trigger = (fun _ => []) ∨ trigger = bybitTriggerFields) :
    OrderForm Bybit.dialect where
  encode name r := .object (fields ++ bybitOrderFields name r (trigger r))
  typeKey := "orderType"
  quantityKey := "qty"
  clientKey := "orderLinkId"
  symbol name r := by
    rcases hfields with rfl | rfl <;> simp [textAt, bybitOrderFields] <;> rfl
  side name r := by
    rcases hfields with rfl | rfl <;> simp [textAt, bybitOrderFields] <;> rfl
  orderType name r := by
    rcases hfields with rfl | rfl <;> simp [textAt, bybitOrderFields] <;> rfl
  quantity name r := by
    rcases hfields with rfl | rfl <;> simp [textAt, bybitOrderFields] <;> rfl
  price name r := by
    rcases hfields with rfl | rfl <;>
      simp [textAt, bybitOrderFields, asStr_textOrNull]
  timeInForce name r := by
    rcases hfields with rfl | rfl <;> rcases htrigger with rfl | rfl <;>
      simp [textAt, bybitOrderFields, bybitTriggerFields, asStr_textOrNull] <;> rfl
  clientOrderId name r := by
    rcases hfields with rfl | rfl <;> rcases htrigger with rfl | rfl <;>
      simp [textAt, bybitOrderFields, bybitTriggerFields, asStr_textOrNull]
  reduceOnly name r := by
    rcases hfields with rfl | rfl <;> rcases htrigger with rfl | rfl <;>
      simp [AsksReduceOnly, bybitOrderFields, bybitTriggerFields]

/-- How Bybit wants an order. -/
def Bybit.createForm : OrderForm Bybit.dialect :=
  orderForm [("category", .string "linear")] (.inr rfl) bybitTriggerFields (.inr rfl)

/-- How Bybit wants an order in a batch, whose category stands beside the list. -/
def Bybit.batchForm : OrderForm Bybit.dialect :=
  orderForm [] (.inl rfl) bybitTriggerFields (.inr rfl)

/-- How Bybit wants the order that closes a position, which has no trigger. -/
def Bybit.closeForm : OrderForm Bybit.dialect :=
  orderForm [("category", .string "linear")] (.inr rfl) (fun _ => []) (.inl rfl)

/-! ### Records -/

/-- Two texts that are read as the same number. -/
def SameDecimal (text text' : String) : Prop :=
  ∃ d d', Decimal.fromStr text = .ok d ∧ Decimal.fromStr text' = .ok d' ∧ d'.toRat = d.toRat

/-- What a record says of its order. -/
structure OrderText where
  symbol : String
  side : String
  orderType : String
  quantity : String
  price : Option String
  timeInForce : Option String
  clientOrderId : Option String
  reduceOnly : Bool

/-- What is said repeats the order, as far as the order says it. -/
structure OrderText.Echoes {L : Dialect} (t : OrderText) (form : OrderForm L) (order : Json) :
    Prop where
  symbol : textAt order "symbol" = some t.symbol
  side : textAt order "side" = some t.side
  orderType : textAt order form.typeKey = some t.orderType
  quantity : ∀ raw, textAt order form.quantityKey = some raw → SameDecimal raw t.quantity
  price : ∀ raw, textAt order "price" = some raw → ∃ said, t.price = some said ∧ SameDecimal raw said
  timeInForce : ∀ raw, textAt order "timeInForce" = some raw → t.timeInForce = some raw
  /-- The venue makes no order post-only that was not to be. -/
  unasked : textAt order "timeInForce" = none → t.timeInForce ≠ some L.postOnlyWord
  clientOrderId : ∀ raw, textAt order form.clientKey = some raw → t.clientOrderId = some raw
  reduceOnly : t.reduceOnly = true ↔ AsksReduceOnly order

/-- The words of what is said can be read. -/
structure OrderText.Readable (t : OrderText) (L : Dialect) : Prop where
  side : ∃ side, L.readSide t.side = .ok side
  orderType : ∃ orderType, L.readType t.orderType = .ok orderType
  timeInForce : ∃ timeInForce, t.timeInForce.mapM L.readTime = .ok timeInForce
  quantity : ∃ quantity, Decimal.fromStr t.quantity = .ok quantity
  price : ∃ price, t.price.mapM Decimal.fromStr = .ok price

/-- The order is what is said.  Of the prices, only some are kept. -/
structure OrderText.DecodesTo (t : OrderText) (L : Dialect) (keeps : ℚ → Bool)
    (spec : InstrumentSpec) (order : Order) : Prop where
  instrumentId : order.instrumentId = spec.instrumentId
  side : L.readSide t.side = .ok order.side
  orderType : L.readType t.orderType = .ok order.orderType
  timeInForce : t.timeInForce.mapM L.readTime = .ok order.timeInForce
  postOnly : order.postOnly = (t.timeInForce == some L.postOnlyWord)
  quantity : Decimal.fromStr t.quantity = .ok order.quantity.value
  price : ∀ raw d, t.price = some raw → Decimal.fromStr raw = .ok d →
    order.price = if keeps d.toRat then some ⟨d⟩ else none
  clientOrderId : order.clientOrderId = t.clientOrderId.map StringId.mk
  reduceOnly : order.reduceOnly = t.reduceOnly

/-- A kind of records, and how they are decoded. -/
structure RecordForm (L : Dialect) where
  Record : Type
  text : Record → OrderText
  /-- What is said besides can be read. -/
  RestReadable : Record → Prop
  keeps : ℚ → Bool
  decode : InstrumentCatalog → Record → TimestampMs → Except MarketError Order
  resolves : ∀ {catalog r observedAt order}, decode catalog r observedAt = .ok order →
    ∃ spec, requireNativeSymbol L.venue catalog (text r).symbol = .ok spec
  decodes : ∀ {catalog r spec}, (text r).Readable L → RestReadable r →
    requireNativeSymbol L.venue catalog (text r).symbol = .ok spec → ∀ observedAt,
      ∃ order, decode catalog r observedAt = .ok order ∧ (text r).DecodesTo L keeps spec order
  /-- A record that says this and nothing else. -/
  record : OrderText → Record
  restReadable_record : ∀ t, RestReadable (record t)
  text_record : ∀ {t : OrderText}, (∃ d : Decimal, t.price = some d.display) →
    (∃ word, t.timeInForce = some word ∧ word ≠ "") → t.clientOrderId.isSome → text (record t) = t

theorem parseDecimalOf_eq_ok_iff {venue : Venue} {raw : String} {d : Decimal} :
    parseDecimalOf venue raw = .ok d ↔ Decimal.fromStr raw = .ok d := by
  refine ⟨fromStr_of_parseDecimalOf, fun h => ?_⟩
  rw [parseDecimalOf, h]
  rfl

theorem mapM_parseDecimalOf {venue : Venue} {raw? : Option String} {d? : Option Decimal}
    (h : raw?.mapM Decimal.fromStr = .ok d?) : raw?.mapM (parseDecimalOf venue) = .ok d? := by
  cases raw? with
  | none =>
    cases h
    rfl
  | some raw =>
    obtain ⟨d, hd, h⟩ := except_bind_eq_ok.1 h
    cases h
    rw [Option.mapM_some, parseDecimalOf_eq_ok_iff.2 hd]
    rfl

/-- A text that is there and can be read. -/
theorem exists_of_mapM_some {ε α β : Type} {f : α → Except ε β} {a : α}
    (h : ∃ b?, (some a).mapM f = .ok b?) : ∃ b, f a = .ok b := by
  obtain ⟨b?, h⟩ := h
  obtain ⟨b, hb, -⟩ := except_bind_eq_ok.1 h
  exact ⟨b, hb⟩

/-- A decimal is written with characters that are neither missing nor blank. -/
theorem Decimal.display_ne_empty (d : Decimal) : d.display ≠ "" := by
  intro hempty
  have hlist := congrArg String.toList hempty
  rw [toList_display] at hlist
  simp [d.whole_ne_nil] at hlist

theorem isWhiteSpace_of_isDigit {c : Char} (h : c.isDigit = true) : isWhiteSpace c = false := by
  have hbounds : 48 ≤ c.toNat ∧ c.toNat ≤ 57 := by
    simpa [Char.isDigit, UInt32.le_iff_toNat_le] using h
  obtain ⟨hlo, hhi⟩ := hbounds
  simp only [isWhiteSpace, Bool.or_eq_false_iff, Bool.and_eq_false_iff, beq_eq_false_iff_ne,
    decide_eq_false_iff_not]
  omega

theorem trim_eq_self {raw : String} (h : ∀ c ∈ raw.toList, isWhiteSpace c = false) :
    trim raw = raw := by
  have hdrop : ∀ {cs : List Char}, (∀ c ∈ cs, isWhiteSpace c = false) →
      cs.dropWhile isWhiteSpace = cs := by
    intro cs hcs
    cases cs with
    | nil => rfl
    | cons c cs => simp [hcs c]
  have hreverse : ∀ c ∈ raw.toList.reverse, isWhiteSpace c = false := fun c hc =>
    h c (List.mem_reverse.1 hc)
  rw [trim, hdrop h, hdrop hreverse, List.reverse_reverse, String.ofList_toList]

theorem trim_display (d : Decimal) : trim d.display = d.display := by
  refine trim_eq_self fun c hc => ?_
  have hdigits : ∀ {c}, c ∈ d.digits → isWhiteSpace c = false := fun hc =>
    isWhiteSpace_of_isDigit (Decimal.isDigit_of_mem_digits hc)
  rw [Decimal.toList_display] at hc
  rcases List.mem_append.1 hc with hsign | hc
  · split at hsign
    · obtain rfl := List.mem_singleton.1 hsign
      rfl
    · cases hsign
  rcases List.mem_append.1 hc with hwhole | hplaces
  · exact hdigits (List.mem_of_mem_take hwhole)
  · split at hplaces
    · cases hplaces
    · rcases List.mem_cons.1 hplaces with rfl | hplaces
      · rfl
      · exact hdigits (List.mem_of_mem_drop hplaces)

theorem parseDecimalOf_zero {venue : Venue} : parseDecimalOf venue "0" = .ok 0 :=
  parseDecimalOf_eq_ok_iff.2 (by decide)

/-! ### Records of Binance -/

namespace Binance

/-- What a record of an order says, as texts. -/
def OrderSnapshot.text (r : OrderSnapshot) : OrderText where
  symbol := r.symbol
  side := r.side
  orderType := r.orderType
  quantity := r.originalQuantity
  price := some r.price
  timeInForce := some r.timeInForce
  clientOrderId := some r.clientOrderId
  reduceOnly := r.reduceOnly

/-- What the record says besides can be read. -/
def OrderSnapshot.RestReadable (r : OrderSnapshot) : Prop :=
  (∃ status, parseOrderStatus r.status = .ok status) ∧
    (∃ d, parseDecimal r.executedQuantity = .ok d) ∧ ∃ d, parseDecimal r.averagePrice = .ok d

theorem decodes_orderFromSnapshot {catalog : InstrumentCatalog} {r : OrderSnapshot}
    {spec : InstrumentSpec} (hreadable : r.text.Readable dialect) (hrest : r.RestReadable)
    (hspec : requireNativeSymbol .binance catalog r.symbol = .ok spec) (observedAt : TimestampMs) :
    ∃ order, orderFromSnapshot catalog r observedAt = .ok order ∧
      r.text.DecodesTo dialect (fun _ => true) spec order := by
  obtain ⟨status, hstatus⟩ := hrest.1
  obtain ⟨filled, hfilled⟩ := hrest.2.1
  obtain ⟨average, haverage⟩ := hrest.2.2
  obtain ⟨side, hside : parseSide r.side = .ok side⟩ := hreadable.side
  obtain ⟨orderType, htype : parseOrderType r.orderType = .ok orderType⟩ := hreadable.orderType
  obtain ⟨quantity, hquantity : Decimal.fromStr r.originalQuantity = .ok quantity⟩ :=
    hreadable.quantity
  obtain ⟨timeInForce, htime : parseTimeInForce r.timeInForce = .ok timeInForce⟩ :=
    exists_of_mapM_some hreadable.timeInForce
  obtain ⟨price, hprice : Decimal.fromStr r.price = .ok price⟩ :=
    exists_of_mapM_some hreadable.price
  have hdecimal : ∀ {raw d}, Decimal.fromStr raw = .ok d → parseDecimal raw = .ok d :=
    parseDecimalOf_eq_ok_iff.2
  obtain ⟨average?, hdecode⟩ : ∃ average?, orderFromSnapshot catalog r observedAt = .ok {
      orderId := ⟨toString r.orderId⟩
      clientOrderId := some ⟨r.clientOrderId⟩
      instrumentId := spec.instrumentId
      side, orderType, status
      timeInForce := some timeInForce
      price := some ⟨price⟩
      quantity := ⟨quantity⟩
      filledQuantity := ⟨filled⟩
      averageFillPrice := average?
      reduceOnly := r.reduceOnly
      postOnly := r.timeInForce == "GTX"
      createdAt := r.createdTime.getD observedAt
      updatedAt := r.updateTime
      venueStatus := some r.status } := by
    unfold orderFromSnapshot
    rw [hspec, hside, htype, htime, hstatus, hdecimal hprice, hdecimal hquantity, hfilled, haverage]
    by_cases hzero : r.averagePrice = "0"
    · exact ⟨_, by simp only [if_pos hzero]; rfl⟩
    · exact ⟨_, by simp only [if_neg hzero]; rfl⟩
  refine ⟨_, hdecode, rfl, hside, htype, ?_, rfl, hquantity, ?_, rfl, rfl⟩
  · show some <$> parseTimeInForce r.timeInForce = _
    rw [htime]
    rfl
  · rintro raw d ⟨⟩ hd
    obtain rfl : price = d := Except.ok.inj (hprice.symm.trans hd)
    rfl

/-- The records of orders. -/
def orderRecords : RecordForm dialect where
  Record := OrderSnapshot
  text := OrderSnapshot.text
  RestReadable := OrderSnapshot.RestReadable
  keeps _ := true
  decode := orderFromSnapshot
  resolves h := by
    obtain ⟨spec, hspec, -⟩ := except_bind_eq_ok.1 h
    exact ⟨spec, hspec⟩
  decodes := decodes_orderFromSnapshot
  record t := {
    symbol := t.symbol
    orderId := 0
    clientOrderId := t.clientOrderId.getD ""
    side := t.side
    orderType := t.orderType
    timeInForce := t.timeInForce.getD ""
    status := "NEW"
    price := t.price.getD ""
    originalQuantity := t.quantity
    executedQuantity := "0"
    averagePrice := "0"
    reduceOnly := t.reduceOnly
    updateTime := 0
    createdTime := none }
  restReadable_record t := ⟨⟨.new, rfl⟩, ⟨0, parseDecimalOf_zero⟩, ⟨0, parseDecimalOf_zero⟩⟩
  text_record := by
    rintro ⟨symbol, side, orderType, quantity, price, timeInForce, clientOrderId, reduceOnly⟩
      ⟨d, rfl⟩ ⟨word, rfl, -⟩ hclient
    obtain ⟨id, rfl⟩ := Option.isSome_iff_exists.1 hclient
    rfl

/-- An empty price or time in force stands for none. -/
def AlgoOrderSnapshot.text (r : AlgoOrderSnapshot) : OrderText where
  symbol := r.symbol
  side := r.side
  orderType := r.orderType
  quantity := r.quantity
  price := r.price.filter fun raw => !raw.isEmpty
  timeInForce := r.timeInForce.filter fun raw => !raw.isEmpty
  clientOrderId := some r.clientAlgoId
  reduceOnly := r.reduceOnly.getD false

/-- What the record says besides the order itself can be read. -/
def AlgoOrderSnapshot.RestReadable (r : AlgoOrderSnapshot) : Prop :=
  ∃ price, parseOptionalPriceOrEmpty r.actualPrice = .ok price

theorem beq_postOnly_filter (timeInForce : Option String) :
    (timeInForce == some "GTX") =
      ((timeInForce.filter fun raw => !raw.isEmpty) == some "GTX") := by
  cases timeInForce with
  | none => rfl
  | some raw =>
    by_cases hempty : raw.isEmpty = true
    · obtain rfl := String.isEmpty_iff.1 hempty
      rfl
    · simp [Option.filter, hempty]

theorem decodes_algoOrderFromSnapshot {catalog : InstrumentCatalog} {r : AlgoOrderSnapshot}
    {spec : InstrumentSpec} (hreadable : r.text.Readable dialect) (hrest : r.RestReadable)
    (hspec : requireNativeSymbol .binance catalog r.symbol = .ok spec) :
    ∃ order, algoOrderFromSnapshot catalog r = .ok order ∧
      r.text.DecodesTo dialect (· != 0) spec order := by
  obtain ⟨average, haverage⟩ := hrest
  obtain ⟨side, hside : parseSide r.side = .ok side⟩ := hreadable.side
  obtain ⟨orderType, htype : parseOrderType r.orderType = .ok orderType⟩ := hreadable.orderType
  obtain ⟨quantity, hquantity : Decimal.fromStr r.quantity = .ok quantity⟩ := hreadable.quantity
  obtain ⟨timeInForce, htime : parseOptionalTimeInForce r.timeInForce = .ok timeInForce⟩ :=
    hreadable.timeInForce
  obtain ⟨price?, hprice⟩ := hreadable.price
  have hread : parseOptionalPriceOrEmpty r.price =
      .ok ((price?.filter fun price => !price.isZero).map DecimalValue.mk) := by
    have hmap : (r.price.filter fun raw => !raw.isEmpty).mapM parseDecimal = .ok price? :=
      mapM_parseDecimalOf hprice
    rw [parseOptionalPriceOrEmpty, parseOptionalDecimalOrEmpty, hmap]
    rfl
  have hquantity' : parseDecimal r.quantity = .ok quantity := parseDecimalOf_eq_ok_iff.2 hquantity
  have hdecode : algoOrderFromSnapshot catalog r = .ok {
      orderId := algoOrderId r.algoId.toInt
      clientOrderId := some ⟨r.clientAlgoId⟩
      instrumentId := spec.instrumentId
      side, orderType, timeInForce
      price := (price?.filter fun price => !price.isZero).map DecimalValue.mk
      averageFillPrice := average
      status := parseAlgoOrderStatus r.algoStatus 0
      quantity := ⟨quantity⟩
      filledQuantity := ⟨0⟩
      reduceOnly := r.reduceOnly.getD false
      postOnly := r.timeInForce == some "GTX"
      createdAt := r.createTime
      updatedAt := r.updateTime
      venueStatus := some r.algoStatus } := by
    unfold algoOrderFromSnapshot
    rw [hspec, hside, htype, htime, hread, hquantity', haverage]
    rfl
  refine ⟨_, hdecode, rfl, hside, htype, htime, beq_postOnly_filter r.timeInForce, hquantity, ?_,
    rfl, rfl⟩
  intro raw d hraw hd
  rw [show r.text.price = some raw from hraw, Option.mapM_some, hd] at hprice
  obtain rfl := Except.ok.inj hprice
  by_cases hzero : d.toRat = 0
  · simp [hzero, Decimal.isZero_iff.2 hzero, Option.filter]
  · have hne : d.isZero = false := by
      rw [← Bool.not_eq_true, Decimal.isZero_iff]
      exact hzero
    simp [hzero, hne, Option.filter]

/-- The records of conditional orders. -/
def algoOrderRecords : RecordForm dialect where
  Record := AlgoOrderSnapshot
  text := AlgoOrderSnapshot.text
  RestReadable := AlgoOrderSnapshot.RestReadable
  -- a price of zero stands for none
  keeps price := price != 0
  decode catalog r _ := algoOrderFromSnapshot catalog r
  resolves h := by
    obtain ⟨spec, hspec, -⟩ := except_bind_eq_ok.1 h
    exact ⟨spec, hspec⟩
  decodes hreadable hrest hspec _ := decodes_algoOrderFromSnapshot hreadable hrest hspec
  record t := {
    algoId := 0
    clientAlgoId := t.clientOrderId.getD ""
    orderType := t.orderType
    symbol := t.symbol
    side := t.side
    timeInForce := t.timeInForce
    quantity := t.quantity
    algoStatus := "NEW"
    actualPrice := none
    price := t.price
    reduceOnly := some t.reduceOnly
    createTime := 0
    updateTime := 0 }
  restReadable_record t := ⟨_, rfl⟩
  text_record := by
    rintro ⟨symbol, side, orderType, quantity, price, timeInForce, clientOrderId, reduceOnly⟩
      ⟨d, rfl⟩ ⟨word, rfl, hword⟩ hclient
    obtain ⟨id, rfl⟩ := Option.isSome_iff_exists.1 hclient
    simp [AlgoOrderSnapshot.text, Option.filter, hword, Decimal.display_ne_empty]

end Binance

/-! ### Records of Bybit -/

namespace Bybit

/-- The text, unless it is blank. -/
def unlessBlank (raw : String) : Option String :=
  some (trim raw) |>.filter fun raw => !raw.isEmpty

/-- What a record of an order says, as texts. -/
def OrderData.text (r : OrderData) : OrderText where
  symbol := r.symbol
  side := r.side
  orderType := r.orderType
  quantity := r.quantity
  price := unlessBlank r.price
  timeInForce := some r.timeInForce
  clientOrderId := r.orderLinkId
  reduceOnly := r.reduceOnly

/-- What the record says besides the order itself can be read. -/
def OrderData.RestReadable (r : OrderData) : Prop :=
  (∃ status, parseOrderStatus r.orderStatus = .ok status) ∧
    (∃ d, parseDecimal r.cumulativeExecQty = .ok d) ∧
      ∃ d, parseOptionalDecimal r.averagePrice = .ok d

theorem parseOptionalDecimalStr_eq (raw : String) :
    parseOptionalDecimalStr raw = (unlessBlank raw).mapM parseDecimal := by
  unfold parseOptionalDecimalStr unlessBlank
  dsimp only
  by_cases hempty : (trim raw).isEmpty = true
  · simp [hempty, Option.filter]
    rfl
  · simp [hempty, Option.filter]

theorem decodes_orderFromSnapshot {catalog : InstrumentCatalog} {r : OrderData}
    {spec : InstrumentSpec} (hreadable : r.text.Readable dialect) (hrest : r.RestReadable)
    (hspec : requireNativeSymbol .bybit catalog r.symbol = .ok spec) (observedAt : TimestampMs) :
    ∃ order, orderFromSnapshot catalog r observedAt = .ok order ∧
      r.text.DecodesTo dialect (fun _ => true) spec order := by
  obtain ⟨status, hstatus⟩ := hrest.1
  obtain ⟨filled, hfilled⟩ := hrest.2.1
  obtain ⟨average, haverage⟩ := hrest.2.2
  obtain ⟨side, hside : parseSide r.side = .ok side⟩ := hreadable.side
  obtain ⟨orderType, htype : parseOrderType r.orderType = .ok orderType⟩ := hreadable.orderType
  obtain ⟨quantity, hquantity : Decimal.fromStr r.quantity = .ok quantity⟩ := hreadable.quantity
  obtain ⟨timeInForce, htime : parseTimeInForce r.timeInForce = .ok timeInForce⟩ :=
    exists_of_mapM_some hreadable.timeInForce
  obtain ⟨price?, hprice⟩ := hreadable.price
  have hread : parseOptionalDecimalStr r.price = .ok price? :=
    (parseOptionalDecimalStr_eq r.price).trans (mapM_parseDecimalOf hprice)
  have hquantity' : parseDecimal r.quantity = .ok quantity := parseDecimalOf_eq_ok_iff.2 hquantity
  have hdecode : orderFromSnapshot catalog r observedAt = .ok {
      orderId := ⟨r.orderId⟩
      clientOrderId := r.orderLinkId.map StringId.mk
      instrumentId := spec.instrumentId
      side, orderType, status
      timeInForce := some timeInForce
      price := price?.map DecimalValue.mk
      quantity := ⟨quantity⟩
      filledQuantity := ⟨filled⟩
      averageFillPrice := average.map DecimalValue.mk
      reduceOnly := r.reduceOnly
      postOnly := r.timeInForce == "PostOnly"
      createdAt := if 0 < r.createdTime then r.createdTime else observedAt
      updatedAt := if 0 < r.updatedTime then r.updatedTime else observedAt
      venueStatus := some r.orderStatus } := by
    unfold orderFromSnapshot
    rw [hspec, hside, htype, htime, hstatus, hread, hquantity', hfilled, haverage]
    rfl
  refine ⟨_, hdecode, rfl, hside, htype, ?_, rfl, hquantity, ?_, rfl, rfl⟩
  · show some <$> parseTimeInForce r.timeInForce = _
    rw [htime]
    rfl
  · intro raw d hraw hd
    rw [hraw, Option.mapM_some, hd] at hprice
    obtain rfl := Except.ok.inj hprice
    rfl

/-- The records of orders. -/
def orderRecords : RecordForm dialect where
  Record := OrderData
  text := OrderData.text
  RestReadable := OrderData.RestReadable
  keeps _ := true
  decode := orderFromSnapshot
  resolves h := by
    obtain ⟨spec, hspec, -⟩ := except_bind_eq_ok.1 h
    exact ⟨spec, hspec⟩
  decodes := decodes_orderFromSnapshot
  record t := {
    symbol := t.symbol
    orderId := ""
    orderLinkId := t.clientOrderId
    side := t.side
    orderType := t.orderType
    price := t.price.getD ""
    quantity := t.quantity
    orderStatus := "New"
    cumulativeExecQty := "0"
    averagePrice := none
    timeInForce := t.timeInForce.getD ""
    reduceOnly := t.reduceOnly
    createdTime := 0
    updatedTime := 0 }
  restReadable_record t := ⟨⟨.new, rfl⟩, ⟨0, parseDecimalOf_zero⟩, ⟨none, rfl⟩⟩
  text_record := by
    rintro ⟨symbol, side, orderType, quantity, price, timeInForce, clientOrderId, reduceOnly⟩
      ⟨d, rfl⟩ ⟨word, rfl, hword⟩ hclient
    simp [OrderData.text, unlessBlank, trim_display, Option.filter, Decimal.display_ne_empty]

end Bybit

end BatMarkets
