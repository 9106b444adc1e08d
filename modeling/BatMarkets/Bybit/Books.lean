import BatMarkets.Bybit.Private
import BatMarkets.Core.Quantize
import BatMarkets.Ordered.Levels
import BatMarkets.Runtime.Sequences

/-!
# Order-book messages of Bybit

What the adapter makes of an order-book message (`parse_public` of `bat-markets-bybit`): the best
bid and ask, and a change of the book.  The adapter keeps no book.  It takes the first level that
the message lists on each side for the best, and rejects a message that lists none.

`Book` is the book that the messages of a topic build up: a snapshot starts it anew, and a change
sets and removes levels.

## Main results

* `parsePublicBook_spec` : what the adapter makes of a message.
* `tops_follow_iff` : the best bids and asks are those of the book exactly when every message leads
  with them.
-/

namespace BatMarkets

open Ordered Wire

instance {k : ValueKind} : Zero (FastValue k) := ⟨⟨0⟩⟩

namespace Bybit

/-! ### The adapter -/

/-- A level in the units of the instrument. -/
abbrev FastLevel := FastPrice × FastQuantity

/-- A level of a message, in the units of the instrument. -/
def fastLevel (spec : InstrumentSpec) (level : String × String) :
    Except MarketError FastLevel := do
  let price ← (⟨← parseDecimal level.1⟩ : Price).quantize spec.priceScale
  let quantity ← (⟨← parseDecimal level.2⟩ : Quantity).quantize spec.qtyScale
  return (price, quantity)

/-- The first level of a side. -/
def firstLevel (side : String) : List (String × String) → Except MarketError (String × String)
  | level :: _ => .ok level
  | [] => .error (decodeFailure ("missing bybit best " ++ side))

/-- The events of an order-book message: the first level of each side, and the change. -/
def orderBookEvents (catalog : InstrumentCatalog) (envelope : PublicEnvelope) :
    Except MarketError (List PublicLaneEvent) := do
  let data ← fromValue OrderBookData.read envelope.data
  let spec ← requireNativeSymbol .bybit catalog data.symbol
  let bid ← firstLevel "bid" data.bids
  let ask ← firstLevel "ask" data.asks
  let (bidPrice, bidQuantity) ← fastLevel spec bid
  let (askPrice, askQuantity) ← fastLevel spec ask
  let bids ← data.bids.mapM (fastLevel spec)
  let asks ← data.asks.mapM (fastLevel spec)
  return [.bookTop {
      instrumentId := spec.instrumentId, bidPrice, bidQuantity, askPrice, askQuantity
      eventTime := envelope.ts },
    .orderBookDelta { instrumentId := spec.instrumentId, bids, asks, eventTime := envelope.ts }]

/-- The events of an order-book message; messages of other topics are left out. -/
def parsePublicBook (catalog : InstrumentCatalog) (payload : Payload) :
    Except MarketError (List PublicLaneEvent) := do
  let envelope ← parseNativePublic payload
  if envelope.topic.startsWith "orderbook." then orderBookEvents catalog envelope else return []

/-! ### The book -/

/-- An order-book message, in the units of the instrument. -/
structure BookFrame where
  snapshot : Bool
  bids : List FastLevel
  asks : List FastLevel

/-- The levels of the two sides. -/
structure Book where
  bids : Levels FastPrice FastQuantity
  asks : Levels FastPrice FastQuantity

/-- A book without levels. -/
def Book.empty : Book := ⟨fun _ => none, fun _ => none⟩

/-- The book that the message changes. -/
def BookFrame.base (frame : BookFrame) (book : Book) : Book :=
  if frame.snapshot then .empty else book

/-- The message sets its levels on the book that it changes. -/
def Book.apply (book : Book) (frame : BookFrame) : Book where
  bids := setLevels (frame.base book).bids frame.bids
  asks := setLevels (frame.base book).asks frame.asks

/-- The book after some messages. -/
def bookAfter (frames : List BookFrame) : Book := frames.foldl Book.apply .empty

/-- `p` is the better price for a bid. -/
def HigherPrice (p p' : FastPrice) : Prop := p'.value < p.value

/-- `p` is the better price for an ask. -/
def LowerPrice (p p' : FastPrice) : Prop := p.value < p'.value

/-- The event has the best bid and the best ask of the book. -/
def Book.HasTop (book : Book) (top : FastBookTop) : Prop :=
  IsBest HigherPrice book.bids top.bidPrice top.bidQuantity ∧
    IsBest LowerPrice book.asks top.askPrice top.askQuantity

/-- The texts of a level denote these numbers of units. -/
def Denotes (spec : InstrumentSpec) (texts : String × String) (level : FastLevel) : Prop :=
  (∃ price, parseDecimal texts.1 = .ok price ∧
      price.toRat * 10 ^ spec.priceScale = level.1.value.toInt) ∧
    ∃ quantity, parseDecimal texts.2 = .ok quantity ∧
      quantity.toRat * 10 ^ spec.qtyScale = level.2.value.toInt

/-- The payload is read as the message, of this topic and about this instrument.  A message lists a
price once on each side. -/
def CarriesFrame (spec : InstrumentSpec) (topic : String) (payload : Payload)
    (frame : BookFrame) : Prop :=
  (frame.bids.map (·.1)).Nodup ∧ (frame.asks.map (·.1)).Nodup ∧
    ∃ envelope data, payload.value?.bind PublicEnvelope.read = some envelope ∧
      envelope.topic = topic ∧ (envelope.messageType == some "snapshot") = frame.snapshot ∧
      OrderBookData.read envelope.data = some data ∧ data.symbol = spec.nativeSymbol ∧
      List.Forall₂ (Denotes spec) data.bids frame.bids ∧
      List.Forall₂ (Denotes spec) data.asks frame.asks

/-- The side of a message leads with a level that is no removal, and removes every better one. -/
def Leads (better : FastPrice → FastPrice → Prop) (side : Levels FastPrice FastQuantity) :
    List FastLevel → Prop
  | [] => False
  | (p, q) :: levels => q ≠ 0 ∧ ∀ p', better p' p → (∀ q', (p', q') ∈ levels → q' = 0) ∧
      (side p' ≠ none → (p', 0) ∈ levels)

/-- The message leads with the best bid and the best ask. -/
def BookFrame.LeadsWithTop (frame : BookFrame) (book : Book) : Prop :=
  Leads HigherPrice (frame.base book).bids frame.bids ∧
    Leads LowerPrice (frame.base book).asks frame.asks

/-- Every message is read, and its best bid and ask are those of the book after it. -/
def TopsFollow (catalog : InstrumentCatalog) (payloads : List Payload)
    (frames : List BookFrame) : Prop :=
  ∀ k payload, payloads[k]? = some payload →
    ∃ events, parsePublicBook catalog payload = .ok events ∧
      ∀ top, .bookTop top ∈ events → (bookAfter (frames.take (k + 1))).HasTop top

/-! ### What the adapter makes of a message -/

section Parse

variable {catalog : InstrumentCatalog} {spec : InstrumentSpec} {topic : String}

/-- A number of units is quantised to itself. -/
theorem quantize_of_units {k : ValueKind} {value : Decimal} {scale : ℕ} (hs : scale ≤ 28)
    {u : FastValue k} (h : value.toRat * 10 ^ scale = u.value.toInt) :
    (⟨value⟩ : DecimalValue k).quantize scale = .ok u := by
  have hround : Decimal.roundHalfAway (value.toRat * 10 ^ scale) = u.value.toInt := by
    rw [h, Decimal.roundHalfAway_intCast]
  obtain ⟨units, hunits, heq⟩ | ⟨-, hlarge⟩ := quantizeDecimal_eq value hs
  · rw [DecimalValue.quantize, hunits]
    rw [hround] at heq
    rw [Int64.toInt_inj.1 heq]
    rfl
  · rw [hround] at hlarge
    exact absurd ⟨u.value.le_toInt, u.value.toInt_lt⟩ hlarge

theorem fastLevel_of_denotes (hprice : spec.priceScale ≤ 28) (hqty : spec.qtyScale ≤ 28)
    {texts : String × String} {level : FastLevel} (h : Denotes spec texts level) :
    fastLevel spec texts = .ok level := by
  obtain ⟨⟨price, hparse, hunits⟩, quantity, hparse', hunits'⟩ := h
  unfold fastLevel
  rw [hparse, hparse']
  show (do
    let price ← (⟨price⟩ : Price).quantize spec.priceScale
    let quantity ← (⟨quantity⟩ : Quantity).quantize spec.qtyScale
    return (price, quantity) : Except MarketError FastLevel) = _
  rw [quantize_of_units hprice hunits, quantize_of_units hqty hunits']
  rfl

theorem mapM_fastLevel (hprice : spec.priceScale ≤ 28) (hqty : spec.qtyScale ≤ 28)
    {texts : List (String × String)} {levels : List FastLevel}
    (h : List.Forall₂ (Denotes spec) texts levels) :
    texts.mapM (fastLevel spec) = .ok levels := by
  induction h with
  | nil => rfl
  | cons hlevel _ ih =>
    rw [List.mapM_cons, fastLevel_of_denotes hprice hqty hlevel, ih]
    rfl

/-- The event for the first levels of a message. -/
def topOf (spec : InstrumentSpec) (bid ask : FastLevel) (eventTime : TimestampMs) :
    FastBookTop where
  instrumentId := spec.instrumentId
  bidPrice := bid.1
  bidQuantity := bid.2
  askPrice := ask.1
  askQuantity := ask.2
  eventTime := eventTime

/-- A message is read exactly when it lists levels on both sides, and then the first ones are taken
for the best. -/
theorem parsePublicBook_spec
    (hspec : resolveNativeSymbol .bybit catalog spec.nativeSymbol = some spec)
    (hprice : spec.priceScale ≤ 28) (hqty : spec.qtyScale ≤ 28)
    (htopic : topic.startsWith "orderbook." = true) {payload : Payload} {frame : BookFrame}
    (h : CarriesFrame spec topic payload frame) :
    (∃ bid bids ask asks eventTime delta, frame.bids = bid :: bids ∧ frame.asks = ask :: asks ∧
        parsePublicBook catalog payload =
          .ok [.bookTop (topOf spec bid ask eventTime), .orderBookDelta delta]) ∨
      (frame.bids = [] ∨ frame.asks = []) ∧ ∃ e, parsePublicBook catalog payload = .error e := by
  obtain ⟨-, -, envelope, data, henvelope, rfl, -, hdata, hsymbol, hbids, hasks⟩ := h
  have hparse : parsePublicBook catalog payload = orderBookEvents catalog envelope := by
    unfold parsePublicBook parseNativePublic
    rw [henvelope]
    exact if_pos htopic
  have hfrom : fromValue OrderBookData.read envelope.data = .ok data := by
    unfold fromValue
    rw [hdata]
  have hrequire : requireNativeSymbol .bybit catalog data.symbol = .ok spec := by
    unfold requireNativeSymbol
    rw [hsymbol, hspec]
  have hbids' := mapM_fastLevel hprice hqty hbids
  have hasks' := mapM_fastLevel hprice hqty hasks
  have hevents : orderBookEvents catalog envelope = (do
      let bid ← firstLevel "bid" data.bids
      let ask ← firstLevel "ask" data.asks
      let (bidPrice, bidQuantity) ← fastLevel spec bid
      let (askPrice, askQuantity) ← fastLevel spec ask
      return [.bookTop {
          instrumentId := spec.instrumentId, bidPrice, bidQuantity, askPrice, askQuantity
          eventTime := envelope.ts },
        .orderBookDelta { instrumentId := spec.instrumentId, bids := frame.bids,
                          asks := frame.asks, eventTime := envelope.ts }]) := by
    unfold orderBookEvents
    rw [hfrom]
    show (requireNativeSymbol .bybit catalog data.symbol >>= _) = _
    rw [hrequire]
    show (firstLevel "bid" data.bids >>= _) = _
    rw [hbids', hasks']
    rfl
  rw [hparse, hevents]
  -- a side without levels is an error, though the frame is valid
  cases hbid : data.bids with
  | nil =>
    rw [hbid] at hbids
    exact .inr ⟨.inl (List.forall₂_nil_left_iff.1 hbids), _, rfl⟩
  | cons bid bids =>
    rw [hbid] at hbids
    obtain ⟨fastBid, fastBids, hbid, -, hbids⟩ := List.forall₂_cons_left_iff.1 hbids
    cases hask : data.asks with
    | nil =>
      rw [hask] at hasks
      exact .inr ⟨.inr (List.forall₂_nil_left_iff.1 hasks), _, rfl⟩
    | cons ask asks =>
      rw [hask] at hasks
      obtain ⟨fastAsk, fastAsks, hask, -, hasks⟩ := List.forall₂_cons_left_iff.1 hasks
      let delta : FastOrderBookDelta :=
        { instrumentId := spec.instrumentId, bids := frame.bids, asks := frame.asks
          eventTime := envelope.ts }
      refine .inl ⟨fastBid, fastBids, fastAsk, fastAsks, envelope.ts, delta, hbids, hasks, ?_⟩
      show (fastLevel spec bid >>= _) = _
      rw [fastLevel_of_denotes hprice hqty hbid]
      show (fastLevel spec ask >>= _) = _
      rw [fastLevel_of_denotes hprice hqty hask]
      rfl

/-- The message leads with the best levels exactly when its first ones are those of the book. -/
theorem leads_iff {better : FastPrice → FastPrice → Prop} (hirrefl : ∀ p, ¬ better p p)
    {side : Levels FastPrice FastQuantity} {first : FastLevel} {levels : List FastLevel}
    (hnodup : ((first :: levels).map (·.1)).Nodup) :
    Leads better side (first :: levels) ↔
      IsBest better (setLevels side (first :: levels)) first.1 first.2 :=
  (isBest_setLevels_cons_iff hirrefl hnodup).symm

/-- One message. -/
theorem top_follows_iff (hspec : resolveNativeSymbol .bybit catalog spec.nativeSymbol = some spec)
    (hprice : spec.priceScale ≤ 28) (hqty : spec.qtyScale ≤ 28)
    (htopic : topic.startsWith "orderbook." = true) {payload : Payload} {frame : BookFrame}
    (h : CarriesFrame spec topic payload frame) (book : Book) :
    (∃ events, parsePublicBook catalog payload = .ok events ∧
        ∀ top, .bookTop top ∈ events → (book.apply frame).HasTop top) ↔
      frame.LeadsWithTop book := by
  have hnodup := h.1
  have hnodup' := h.2.1
  have hhigher : ∀ p, ¬ HigherPrice p p := fun p => Int64.lt_irrefl
  have hlower : ∀ p, ¬ LowerPrice p p := fun p => Int64.lt_irrefl
  unfold BookFrame.LeadsWithTop
  obtain ⟨bid, bids, ask, asks, eventTime, delta, hbids, hasks, hparse⟩ | ⟨hnone, e, hparse⟩ :=
    parsePublicBook_spec hspec hprice hqty htopic h
  · rw [hbids] at hnodup
    rw [hasks] at hnodup'
    have htop : (book.apply frame).HasTop (topOf spec bid ask eventTime) ↔
        Leads HigherPrice (frame.base book).bids (bid :: bids) ∧
          Leads LowerPrice (frame.base book).asks (ask :: asks) := by
      rw [leads_iff hhigher hnodup, leads_iff hlower hnodup', ← hbids, ← hasks]
      exact Iff.rfl
    rw [hbids, hasks, ← htop, hparse]
    constructor
    · rintro ⟨events, hevents, htops⟩
      obtain rfl := Except.ok.inj hevents
      exact htops _ List.mem_cons_self
    · intro h
      refine ⟨_, rfl, fun top hmem => ?_⟩
      rcases List.mem_cons.1 hmem with heq | hmem
      · obtain rfl := PublicLaneEvent.bookTop.inj heq
        exact h
      · cases List.mem_singleton.1 hmem
  · refine iff_of_false ?_ ?_
    · rintro ⟨events, hevents, -⟩
      rw [hparse] at hevents
      cases hevents
    · rintro ⟨hbid, hask⟩
      rcases hnone with hnil | hnil
      · rw [hnil] at hbid
        exact hbid
      · rw [hnil] at hask
        exact hask

theorem getElem?_forall₂ {α β : Type} {R : α → β → Prop} {as : List α} {bs : List β}
    (h : List.Forall₂ R as bs) (k : ℕ) :
    (as[k]? = none ∧ bs[k]? = none) ∨ ∃ a b, as[k]? = some a ∧ bs[k]? = some b ∧ R a b := by
  induction h generalizing k with
  | nil => exact .inl ⟨rfl, rfl⟩
  | cons hab _ ih =>
    cases k with
    | zero => exact .inr ⟨_, _, rfl, rfl, hab⟩
    | succ k => exact ih k

/-- **The best bid and ask of Bybit.**  For all messages of an order-book topic. -/
theorem tops_follow_iff (hspec : resolveNativeSymbol .bybit catalog spec.nativeSymbol = some spec)
    (hprice : spec.priceScale ≤ 28) (hqty : spec.qtyScale ≤ 28)
    (htopic : topic.startsWith "orderbook." = true) {payloads : List Payload}
    {frames : List BookFrame} (h : List.Forall₂ (CarriesFrame spec topic) payloads frames) :
    TopsFollow catalog payloads frames ↔
      ∀ k (frame : BookFrame), frames[k]? = some frame →
        frame.LeadsWithTop (bookAfter (frames.take k)) := by
  have hstep : ∀ k (frame : BookFrame), frames[k]? = some frame →
      bookAfter (frames.take (k + 1)) = (bookAfter (frames.take k)).apply frame := by
    intro k frame hframe
    rw [List.take_add_one, hframe]
    unfold bookAfter
    rw [List.foldl_append]
    rfl
  refine forall_congr' fun k => ?_
  obtain ⟨hpayload, hframe⟩ | ⟨payload, frame, hpayload, hframe, hcarries⟩ := getElem?_forall₂ h k
  · simp [hpayload, hframe]
  · have hone := top_follows_iff hspec hprice hqty htopic hcarries (bookAfter (frames.take k))
    rw [← hstep k frame hframe] at hone
    rw [hpayload, hframe]
    constructor
    · rintro hfollows _ ⟨⟩
      exact hone.1 (hfollows payload rfl)
    · rintro hleads _ ⟨⟩
      exact hone.2 (hleads frame rfl)

end Parse

/-! ### A topic -/

/-- BTC, with two digits of price and three of quantity. -/
def bookListed : InstrumentSpec := .active .bybit "BTC/USDT:USDT" "BTCUSDT" 2 3

/-- Levels as they are written in a message. -/
def levelsJson (levels : List (String × String)) : Json :=
  .array (levels.map fun level => .array [.string level.1, .string level.2])

/-- A message about the book of BTC, of this kind. -/
def levelsPayload (kind : String) (bids asks : List (String × String)) : Payload :=
  .json (.object [("topic", .string "orderbook.50.BTCUSDT"), ("type", .string kind),
    ("data", .object [("s", .string "BTCUSDT"), ("b", levelsJson bids), ("a", levelsJson asks)])])

/-- One bid and one ask. -/
def bookOpened : Payload := levelsPayload "snapshot" [("100", "1")] [("101", "1")]

/-- A second bid, below the first. -/
def secondBid : Payload := levelsPayload "delta" [("99", "2")] [("101", "1")]

/-- The second bid, and the first one taken out. -/
def bidReplaced : Payload := levelsPayload "delta" [("99", "2"), ("100", "0")] [("101", "1")]

/-- The bid alone. -/
def bidOnly : Payload := levelsPayload "delta" [("100", "1")] []

/-- The first message, in units. -/
def openedFrame : BookFrame := ⟨true, [(⟨10000⟩, ⟨1000⟩)], [(⟨10100⟩, ⟨1000⟩)]⟩

/-- The change that lists the second bid alone, in units. -/
def secondBidFrame : BookFrame := ⟨false, [(⟨9900⟩, ⟨2000⟩)], [(⟨10100⟩, ⟨1000⟩)]⟩

/-- The change that replaces the bid, in units. -/
def bidReplacedFrame : BookFrame :=
  ⟨false, [(⟨9900⟩, ⟨2000⟩), (⟨10000⟩, 0)], [(⟨10100⟩, ⟨1000⟩)]⟩

/-- The change without asks, in units. -/
def bidOnlyFrame : BookFrame := ⟨false, [(⟨10000⟩, ⟨1000⟩)], []⟩

theorem denotes_of_fromStr {texts : String × String} {level : FastLevel} {price quantity : Decimal}
    (hprice : Decimal.fromStr texts.1 = .ok price)
    (hquantity : Decimal.fromStr texts.2 = .ok quantity)
    (hunits : price.toRat * 10 ^ 2 = level.1.value.toInt)
    (hunits' : quantity.toRat * 10 ^ 3 = level.2.value.toInt) :
    Denotes bookListed texts level :=
  ⟨⟨price, by rw [parseDecimal, parseDecimalOf, hprice]; rfl, hunits⟩,
    quantity, by rw [parseDecimal, parseDecimalOf, hquantity]; rfl, hunits'⟩

theorem denotes_bid : Denotes bookListed ("100", "1") (⟨10000⟩, ⟨1000⟩) := by
  have hprice : Decimal.fromStr "100" = .ok (.ofNat 100) := by decide +kernel
  have hquantity : Decimal.fromStr "1" = .ok (.ofNat 1) := by decide +kernel
  refine denotes_of_fromStr hprice hquantity ?_ ?_
  · norm_num [Decimal.toRat, Decimal.ofNat]
    decide
  · norm_num [Decimal.toRat, Decimal.ofNat]
    decide

theorem denotes_ask : Denotes bookListed ("101", "1") (⟨10100⟩, ⟨1000⟩) := by
  have hprice : Decimal.fromStr "101" = .ok (.ofNat 101) := by decide +kernel
  have hquantity : Decimal.fromStr "1" = .ok (.ofNat 1) := by decide +kernel
  refine denotes_of_fromStr hprice hquantity ?_ ?_
  · norm_num [Decimal.toRat, Decimal.ofNat]
    decide
  · norm_num [Decimal.toRat, Decimal.ofNat]
    decide

theorem denotes_second_bid : Denotes bookListed ("99", "2") (⟨9900⟩, ⟨2000⟩) := by
  have hprice : Decimal.fromStr "99" = .ok (.ofNat 99) := by decide +kernel
  have hquantity : Decimal.fromStr "2" = .ok (.ofNat 2) := by decide +kernel
  refine denotes_of_fromStr hprice hquantity ?_ ?_
  · norm_num [Decimal.toRat, Decimal.ofNat]
    decide
  · norm_num [Decimal.toRat, Decimal.ofNat]
    decide

theorem denotes_bid_removed : Denotes bookListed ("100", "0") (⟨10000⟩, 0) := by
  have hprice : Decimal.fromStr "100" = .ok (.ofNat 100) := by decide +kernel
  have hquantity : Decimal.fromStr "0" = .ok (.ofNat 0) := by decide +kernel
  refine denotes_of_fromStr hprice hquantity ?_ ?_
  · norm_num [Decimal.toRat, Decimal.ofNat]
    decide
  · norm_num [Decimal.toRat, Decimal.ofNat]
    decide

theorem carries_bookOpened :
    CarriesFrame bookListed "orderbook.50.BTCUSDT" bookOpened openedFrame :=
  ⟨by decide, by decide, _, _, rfl, rfl, rfl, rfl, rfl, .cons denotes_bid .nil,
    .cons denotes_ask .nil⟩

theorem carries_secondBid :
    CarriesFrame bookListed "orderbook.50.BTCUSDT" secondBid secondBidFrame :=
  ⟨by decide, by decide, _, _, rfl, rfl, rfl, rfl, rfl, .cons denotes_second_bid .nil,
    .cons denotes_ask .nil⟩

theorem carries_bidReplaced :
    CarriesFrame bookListed "orderbook.50.BTCUSDT" bidReplaced bidReplacedFrame :=
  ⟨by decide, by decide, _, _, rfl, rfl, rfl, rfl, rfl,
    .cons denotes_second_bid (.cons denotes_bid_removed .nil), .cons denotes_ask .nil⟩

theorem carries_bidOnly : CarriesFrame bookListed "orderbook.50.BTCUSDT" bidOnly bidOnlyFrame :=
  ⟨by decide, by decide, _, _, rfl, rfl, rfl, rfl, rfl, .cons denotes_bid .nil, .nil⟩

theorem leads_openedFrame : openedFrame.LeadsWithTop .empty :=
  ⟨⟨by decide, fun _ _ => ⟨fun _ h => (by simp at h), fun h => absurd rfl h⟩⟩,
    by decide, fun _ _ => ⟨fun _ h => (by simp at h), fun h => absurd rfl h⟩⟩

/-- The only better bid is the one that is taken out, and there is no better ask. -/
theorem leads_bidReplacedFrame : bidReplacedFrame.LeadsWithTop (bookAfter [openedFrame]) := by
  refine ⟨⟨by decide, fun p' hp => ⟨fun q' hq => ?_, fun hside => ?_⟩⟩,
    by decide, fun p' hp => ⟨fun q' hq => ?_, fun hside => ?_⟩⟩
  · exact (Prod.mk.inj (List.mem_singleton.1 hq)).2
  · by_cases hbid : p' = ⟨10000⟩
    · exact List.mem_singleton.2 (by rw [hbid])
    · refine absurd (setLevels_of_not_mem ?_) hside
      simpa [openedFrame] using hbid
  · cases hq
  · have hask : p' ≠ ⟨10100⟩ := by
      rintro rfl
      exact absurd (show (10100 : Int64) < 10100 from hp) (by decide)
    refine absurd (setLevels_of_not_mem ?_) hside
    simpa [openedFrame] using hask

/-- A snapshot with one bid and one ask, and a change that replaces the bid. -/
theorem tops_follow_iff_opened :
    TopsFollow (.new [bookListed]) [bookOpened, bidReplaced] [openedFrame, bidReplacedFrame] := by
  refine (tops_follow_iff (show _ = some bookListed from rfl) (by decide) (by decide) (by simp)
    (.cons carries_bookOpened (.cons carries_bidReplaced .nil))).2 fun k frame hframe => ?_
  rcases k with _ | _ | k
  · obtain rfl := Option.some.inj hframe
    exact leads_openedFrame
  · obtain rfl := Option.some.inj hframe
    exact leads_bidReplacedFrame
  · cases hframe

/-- A change of the second bid is taken for the best one, and a change of the bids alone is an
error. -/
theorem tops_do_not_follow :
    (List.Forall₂ (CarriesFrame bookListed "orderbook.50.BTCUSDT") [bookOpened, secondBid]
        [openedFrame, secondBidFrame] ∧
      ¬ TopsFollow (.new [bookListed]) [bookOpened, secondBid] [openedFrame, secondBidFrame]) ∧
    List.Forall₂ (CarriesFrame bookListed "orderbook.50.BTCUSDT") [bookOpened, bidOnly]
        [openedFrame, bidOnlyFrame] ∧
      ¬ TopsFollow (.new [bookListed]) [bookOpened, bidOnly] [openedFrame, bidOnlyFrame] := by
  have hone {payload : Payload} {frame : BookFrame}
      (hcarries : CarriesFrame bookListed "orderbook.50.BTCUSDT" payload frame)
      (hleads : ¬ frame.LeadsWithTop (bookAfter [openedFrame])) :
      ¬ TopsFollow (.new [bookListed]) [bookOpened, payload] [openedFrame, frame] := by
    intro hfollows
    have hspec : resolveNativeSymbol .bybit (.new [bookListed]) bookListed.nativeSymbol =
        some bookListed := rfl
    have hiff := top_follows_iff hspec (by decide) (by decide) (by simp) hcarries
      (bookAfter [openedFrame])
    exact hleads (hiff.1 (hfollows 1 payload rfl))
  refine ⟨⟨.cons carries_bookOpened (.cons carries_secondBid .nil), hone carries_secondBid ?_⟩,
    .cons carries_bookOpened (.cons carries_bidOnly .nil), hone carries_bidOnly ?_⟩
  · -- the bid at 100 is better and stays
    rintro ⟨⟨-, hbetter⟩, -⟩
    have hmem := (hbetter ⟨10000⟩ (show (9900 : Int64) < 10000 by decide)).2 (by decide)
    cases hmem
  · exact fun h => h.2

end Bybit

end BatMarkets
