import BatMarkets.Bybit.Private
import BatMarkets.Ordered.Patches
import BatMarkets.Runtime.Sequences
import BatMarkets.Transition.Basic

/-!
# Tickers of Bybit

Bybit sends the ticker of a symbol once in full and then only the fields that change.  The adapter
merges each message into the ticker that it keeps of the symbol (`merged_ticker_data`), and then
decodes the merged texts (`parse_public`).  A message whose merged texts cannot be decoded is an
error, but by then it has been merged.

The events of a ticker are made of seven of its texts, the `TickerField`s.  `TickerCache.Holds` says
which texts a cache has, and a frame is decoded by them alone.

## Main results

* `TickerFrame.parse_spec` : what a frame does to the cache, and what it is decoded to.
* `merge_exact_and_atomic` : in a run whose rejected frames change no text, a ticker has the last
  non-empty value of each field in the accepted frames of its symbol, and frames after a rejected
  one are decoded as without it.
-/

namespace BatMarkets

open Ordered Transition Wire

namespace Bybit

/-! ### Messages -/

/-- The texts of a ticker that have been received so far. -/
structure TickerData where
  symbol : String
  lastPrice : String
  markPrice : String
  indexPrice : String
  openInterest : String
  fundingRate : String
  volume24h : String
  turnover24h : String
  bid1Price : Option String
  bid1Size : Option String
  ask1Price : Option String
  ask1Size : Option String

/-- The texts that a message has; a change leaves out what stays as it is. -/
structure TickerPatch where
  symbol : Option String
  lastPrice : Option String
  markPrice : Option String
  indexPrice : Option String
  openInterest : Option String
  fundingRate : Option String
  volume24h : Option String
  turnover24h : Option String
  bid1Price : Option String
  bid1Size : Option String
  ask1Price : Option String
  ask1Size : Option String

/-- Every field of a ticker may be missing from a message. -/
def TickerPatch.read (value : Json) : Option TickerPatch := do
  let fields ← value.record ["symbol", "lastPrice", "markPrice", "indexPrice", "openInterest",
    "fundingRate", "volume24h", "turnover24h", "bid1Price", "bid1Size", "ask1Price", "ask1Size"]
  return {
    symbol := ← Json.optional fields "symbol" Json.asStr
    lastPrice := ← Json.optional fields "lastPrice" Json.asStr
    markPrice := ← Json.optional fields "markPrice" Json.asStr
    indexPrice := ← Json.optional fields "indexPrice" Json.asStr
    openInterest := ← Json.optional fields "openInterest" Json.asStr
    fundingRate := ← Json.optional fields "fundingRate" Json.asStr
    volume24h := ← Json.optional fields "volume24h" Json.asStr
    turnover24h := ← Json.optional fields "turnover24h" Json.asStr
    bid1Price := ← Json.optional fields "bid1Price" Json.asStr
    bid1Size := ← Json.optional fields "bid1Size" Json.asStr
    ask1Price := ← Json.optional fields "ask1Price" Json.asStr
    ask1Size := ← Json.optional fields "ask1Size" Json.asStr }

/-! ### The cache -/

/-- The ticker of a symbol before anything is known of it. -/
def TickerData.empty (symbol : String) : TickerData where
  symbol := symbol
  lastPrice := ""
  markPrice := ""
  indexPrice := ""
  openInterest := ""
  fundingRate := ""
  volume24h := ""
  turnover24h := ""
  bid1Price := none
  bid1Size := none
  ask1Price := none
  ask1Size := none

/-- The value, unless it is missing or empty. -/
def nonEmpty (value : Option String) : Option String := value.filter fun value => !value.isEmpty

/-- A text that is missing or empty does not replace the old one. -/
def mergeStringField (target : String) (value : Option String) : String :=
  (nonEmpty value).getD target

/-- The same where the old text may be missing too. -/
def mergeOptionalStringField (target value : Option String) : Option String :=
  (nonEmpty value).or target

/-- The ticker with the texts of the message; its symbol stays. -/
def TickerData.merge (entry : TickerData) (patch : TickerPatch) : TickerData where
  symbol := entry.symbol
  lastPrice := mergeStringField entry.lastPrice patch.lastPrice
  markPrice := mergeStringField entry.markPrice patch.markPrice
  indexPrice := mergeStringField entry.indexPrice patch.indexPrice
  openInterest := mergeStringField entry.openInterest patch.openInterest
  fundingRate := mergeStringField entry.fundingRate patch.fundingRate
  volume24h := mergeStringField entry.volume24h patch.volume24h
  turnover24h := mergeStringField entry.turnover24h patch.turnover24h
  bid1Price := mergeOptionalStringField entry.bid1Price patch.bid1Price
  bid1Size := mergeOptionalStringField entry.bid1Size patch.bid1Size
  ask1Price := mergeOptionalStringField entry.ask1Price patch.ask1Price
  ask1Size := mergeOptionalStringField entry.ask1Size patch.ask1Size

/-- The tickers of the adapter, by symbol. -/
abbrev TickerCache := BTreeMap String TickerData

/-- The ticker of a symbol, a new one if there is none. -/
def TickerCache.entry (cache : TickerCache) (symbol : String) : TickerData :=
  (cache[symbol]?).getD (.empty symbol)

/-- The check that a text has been received. -/
def ensureNonEmpty (value field : String) : Except MarketError Unit :=
  if value.isEmpty then .error <| decodeFailure
    ("missing bybit ticker field '" ++ field ++ "' after snapshot/delta merge")
  else .ok ()

/-- The symbol in the patch, or else in the topic. -/
def tickerSymbol (envelope : PublicEnvelope) (patch : TickerPatch) : Except MarketError String :=
  match patch.symbol.or ((envelope.topic.dropPrefix? "tickers.").map (·.toString)) with
  | some symbol => .ok symbol
  | none => .error <| decodeFailure
      ("failed to derive bybit ticker symbol from topic '" ++ envelope.topic ++ "'")

/-- The cache with the message merged into it, and the merged ticker if it can be used. -/
def mergedTickerData (cache : TickerCache) (envelope : PublicEnvelope) :
    TickerCache × Except MarketError TickerData :=
  match fromValue TickerPatch.read envelope.data with
  | .error e => (cache, .error e)
  | .ok patch =>
    match tickerSymbol envelope patch with
    | .error e => (cache, .error e)
    | .ok symbol =>
      let entry := (cache.entry symbol).merge patch
      (cache.insert symbol entry, do
        ensureNonEmpty entry.lastPrice "lastPrice"
        return entry)

/-! ### Events -/

/-- The events that the texts of a ticker stand for. -/
def tickerEvents (spec : InstrumentSpec) (ts : TimestampMs) (data : TickerData) :
    Except MarketError (List PublicLaneEvent) := do
  let lastPrice ← (⟨← parseDecimal data.lastPrice⟩ : Price).quantize spec.priceScale
  let markPrice ← (← parseOptionalDecimalStr data.markPrice).mapM fun value =>
    (⟨value⟩ : Price).quantize spec.priceScale
  let indexPrice ← (← parseOptionalDecimalStr data.indexPrice).mapM fun value =>
    (⟨value⟩ : Price).quantize spec.priceScale
  let volume24h ← (← parseOptionalDecimalStr data.volume24h).mapM fun value =>
    (⟨value⟩ : Quantity).quantize spec.qtyScale
  let turnover24h ← (← parseOptionalDecimalStr data.turnover24h).mapM fun value =>
    (⟨value⟩ : Notional).quantize spec.quoteScale
  let ticker : FastTicker := {
    instrumentId := spec.instrumentId, lastPrice, markPrice, indexPrice, volume24h, turnover24h
    eventTime := ts }
  let markPrices ← (← parseOptionalDecimalStr data.markPrice).toList.mapM fun markPrice => do
    let price ← (⟨markPrice⟩ : Price).quantize spec.priceScale
    let fundingRate ← parseOptionalDecimalStr data.fundingRate
    return PublicLaneEvent.markPrice {
      instrumentId := spec.instrumentId, price, fundingRate := fundingRate.map (⟨·⟩)
      eventTime := ts }
  let fundingRates ← (← parseOptionalDecimalStr data.fundingRate).toList.mapM fun value => do
    let markPrice ← parseOptionalDecimalStr data.markPrice
    return PublicLaneEvent.fundingRate {
      instrumentId := spec.instrumentId, value := ⟨value⟩, markPrice := markPrice.map (⟨·⟩)
      eventTime := ts }
  let openInterest ← parseOptionalDecimalStr data.openInterest
  let openInterests := openInterest.toList.map fun value => PublicLaneEvent.openInterest {
    instrumentId := spec.instrumentId, value := ⟨value⟩, eventTime := ts }
  return .ticker ticker :: markPrices ++ fundingRates ++ openInterests

/-- The cache and the events of a message of a `tickers` topic; messages of other topics are left
out. -/
def parsePublicTickers (catalog : InstrumentCatalog) (cache : TickerCache) (payload : Payload) :
    TickerCache × Except MarketError (List PublicLaneEvent) :=
  match parseNativePublic payload with
  | .error e => (cache, .error e)
  | .ok envelope =>
    if envelope.topic.startsWith "tickers." then
      let (cache, merged) := mergedTickerData cache envelope
      (cache, do
        let data ← merged
        let spec ← requireNativeSymbol .bybit catalog data.symbol
        tickerEvents spec envelope.ts data)
    else (cache, .ok [])

/-! ### Frames -/

/-- A public message of a `tickers` topic, or one that cannot be read, with the instruments that the
adapter knows when it is parsed. -/
structure TickerFrame where
  catalog : InstrumentCatalog
  payload : Payload
  tickers : ∀ envelope, parseNativePublic payload = .ok envelope →
    envelope.topic.startsWith "tickers." = true

namespace TickerFrame

/-- What the adapter does with the frame, and the cache after it. -/
def parse (frame : TickerFrame) (cache : TickerCache) :
    TickerCache × Except MarketError (List PublicLaneEvent) :=
  parsePublicTickers frame.catalog cache frame.payload

/-- The cache after a frame. -/
def next (cache : TickerCache) (frame : TickerFrame) : TickerCache := (frame.parse cache).1

/-- What the frames are decoded to, one after the other. -/
def results (cache : TickerCache) : List TickerFrame →
    List (Except MarketError (List PublicLaneEvent))
  | [] => []
  | frame :: frames => (frame.parse cache).2 :: results (next cache frame) frames

/-- The frames that are parsed without an error. -/
def accepted (cache : TickerCache) : List TickerFrame → List TickerFrame
  | [] => []
  | frame :: frames =>
    if (frame.parse cache).2.isOk then frame :: accepted (next cache frame) frames
    else accepted (next cache frame) frames

end TickerFrame

/-- What a frame says of the ticker of a symbol. -/
structure TickerUpdate where
  symbol : String
  ts : TimestampMs
  patch : TickerPatch

/-- What the frame says, if it can be read. -/
def TickerFrame.update? (frame : TickerFrame) : Option TickerUpdate :=
  Except.toOption do
    let envelope ← parseNativePublic frame.payload
    let patch ← fromValue TickerPatch.read envelope.data
    return { symbol := ← tickerSymbol envelope patch, ts := envelope.ts, patch }

/-! ### Texts -/

/-- The fields of a ticker that its events are made of. -/
inductive TickerField
  | lastPrice
  | markPrice
  | indexPrice
  | openInterest
  | fundingRate
  | volume24h
  | turnover24h
  deriving DecidableEq, Repr

/-- The text of a field, empty if it has not been received. -/
def TickerData.text (data : TickerData) : TickerField → String
  | .lastPrice => data.lastPrice
  | .markPrice => data.markPrice
  | .indexPrice => data.indexPrice
  | .openInterest => data.openInterest
  | .fundingRate => data.fundingRate
  | .volume24h => data.volume24h
  | .turnover24h => data.turnover24h

/-- The text that a message has for a field. -/
def TickerPatch.text (patch : TickerPatch) : TickerField → Option String
  | .lastPrice => patch.lastPrice
  | .markPrice => patch.markPrice
  | .indexPrice => patch.indexPrice
  | .openInterest => patch.openInterest
  | .fundingRate => patch.fundingRate
  | .volume24h => patch.volume24h
  | .turnover24h => patch.turnover24h

/-- The non-empty values of the update. -/
def TickerUpdate.toPatch (update : TickerUpdate) : Patch String TickerField String where
  key := update.symbol
  value field := nonEmpty (update.patch.text field)

/-- The last non-empty value of a field in the frames of a symbol; nothing if there is none. -/
def lastText (frames : List TickerFrame) (symbol : String) (field : TickerField) : String :=
  lastWritten "" symbol field (frames.filterMap fun frame =>
    frame.update?.map TickerUpdate.toPatch)

/-- The tickers in the cache have these texts. -/
def TickerCache.Holds (cache : TickerCache) (texts : String → TickerField → String) : Prop :=
  ∀ symbol, (cache.entry symbol).symbol = symbol ∧
    ∀ field, (cache.entry symbol).text field = texts symbol field

/-- A ticker with these texts. -/
def TickerData.ofTexts (symbol : String) (texts : TickerField → String) : TickerData where
  symbol := symbol
  lastPrice := texts .lastPrice
  markPrice := texts .markPrice
  indexPrice := texts .indexPrice
  openInterest := texts .openInterest
  fundingRate := texts .fundingRate
  volume24h := texts .volume24h
  turnover24h := texts .turnover24h
  bid1Price := none
  bid1Size := none
  ask1Price := none
  ask1Size := none

/-! ### What is asked of the merge -/

/-- The events of a frame show the last non-empty values in the accepted frames of its symbol. -/
def ShowsLast (accepted : List TickerFrame) (frame : TickerFrame)
    (events : List PublicLaneEvent) : Prop :=
  ∃ update spec, frame.update? = some update ∧
    resolveNativeSymbol .bybit frame.catalog update.symbol = some spec ∧
    tickerEvents spec update.ts (.ofTexts update.symbol (lastText accepted update.symbol)) =
      .ok events

/-- The merge of a run of frames. -/
structure MergesExactly (frames : List TickerFrame) : Prop where
  exact : ∀ before frame after, frames = before ++ frame :: after → ∀ events,
    (frame.parse (run TickerFrame.next ∅ before)).2 = .ok events →
    ShowsLast (TickerFrame.accepted ∅ (before ++ [frame])) frame events
  atomic : ∀ before frame after, frames = before ++ frame :: after → ∀ e,
    (frame.parse (run TickerFrame.next ∅ before)).2 = .error e →
    TickerFrame.results (run TickerFrame.next ∅ (before ++ [frame])) after =
      TickerFrame.results (run TickerFrame.next ∅ before) after

/-! ### The condition -/

/-- The places that the value of a field is rounded to. -/
def TickerField.scale (spec : InstrumentSpec) : TickerField → Option ℕ
  | .lastPrice | .markPrice | .indexPrice => some spec.priceScale
  | .volume24h => some spec.qtyScale
  | .turnover24h => some spec.quoteScale
  | .openInterest | .fundingRate => none

/-- The text of a field is a number that fits, or the field is optional and the text is blank. -/
def Legible (spec : InstrumentSpec) (field : TickerField) (text : String) : Prop :=
  (field ≠ .lastPrice ∧ (trim text).isEmpty) ∨
    ∃ value, parseDecimal (if field = .lastPrice then text else trim text) = .ok value ∧
      ∀ scale ∈ field.scale spec, (quantizeDecimal value scale).isOk

/-- The ticker can be decoded: it has a last price, its symbol is known, and its texts are numbers
that fit. -/
def TickerData.Decodable (catalog : InstrumentCatalog) (data : TickerData) : Prop :=
  data.lastPrice ≠ "" ∧ ∃ spec, resolveNativeSymbol .bybit catalog data.symbol = some spec ∧
    ∀ field, Legible spec field (data.text field)

/-- The frame is one that cannot be read, or its merged ticker can be decoded, or it brings no new
text. -/
def Harmless (cache : TickerCache) (frame : TickerFrame) : Prop :=
  ∀ update ∈ frame.update?,
    ((cache.entry update.symbol).merge update.patch).Decodable frame.catalog ∨
      ∀ field, ((cache.entry update.symbol).merge update.patch).text field =
        (cache.entry update.symbol).text field

/-! ### One frame -/

/-- What a merged ticker is decoded to. -/
def decodeTicker (catalog : InstrumentCatalog) (ts : TimestampMs) (data : TickerData) :
    Except MarketError (List PublicLaneEvent) := do
  ensureNonEmpty data.lastPrice "lastPrice"
  let spec ← requireNativeSymbol .bybit catalog data.symbol
  tickerEvents spec ts data

/-- A frame that can be read is merged into the ticker of its symbol, and then decoded. -/
theorem TickerFrame.parse_spec (frame : TickerFrame) :
    (frame.update? = none ∧ ∃ e, ∀ cache, frame.parse cache = (cache, .error e)) ∨
      ∃ update, frame.update? = some update ∧ ∀ cache : TickerCache,
        frame.parse cache =
          (cache.insert update.symbol ((cache.entry update.symbol).merge update.patch),
            decodeTicker frame.catalog update.ts
              ((cache.entry update.symbol).merge update.patch)) := by
  unfold update? parse parsePublicTickers
  cases henvelope : parseNativePublic frame.payload with
  | error e => exact .inl ⟨rfl, e, fun _ => rfl⟩
  | ok envelope =>
    have htickers := frame.tickers envelope henvelope
    simp only [htickers, if_true, except_ok_bind]
    cases hpatch : fromValue TickerPatch.read envelope.data with
    | error e =>
      refine .inl ⟨by rw [except_error_bind]; rfl, e, fun cache => ?_⟩
      simp only [mergedTickerData, hpatch, except_error_bind]
    | ok patch =>
      rw [except_ok_bind]
      cases hsymbol : tickerSymbol envelope patch with
      | error e =>
        refine .inl ⟨by rw [except_error_bind]; rfl, e, fun cache => ?_⟩
        simp only [mergedTickerData, hpatch, hsymbol, except_error_bind]
      | ok symbol =>
        refine .inr ⟨⟨symbol, envelope.ts, patch⟩, by rw [except_ok_bind]; rfl, fun cache => ?_⟩
        simp only [mergedTickerData, hpatch, hsymbol, decodeTicker, bind_assoc]
        -- the last price is checked before the symbol is looked up
        cases ensureNonEmpty ((cache.entry symbol).merge patch).lastPrice "lastPrice" <;> rfl

@[simp] theorem TickerData.text_empty (symbol : String) (field : TickerField) :
    (TickerData.empty symbol).text field = "" := by
  cases field <;> rfl

@[simp] theorem TickerData.text_ofTexts (symbol : String) (texts : TickerField → String)
    (field : TickerField) : (TickerData.ofTexts symbol texts).text field = texts field := by
  cases field <;> rfl

@[simp] theorem TickerData.symbol_merge (data : TickerData) (patch : TickerPatch) :
    (data.merge patch).symbol = data.symbol := rfl

@[simp] theorem TickerData.text_merge (data : TickerData) (patch : TickerPatch)
    (field : TickerField) :
    (data.merge patch).text field = (nonEmpty (patch.text field)).getD (data.text field) := by
  cases field <;> rfl

/-- The events of a ticker are made of its symbol and its texts. -/
theorem decodeTicker_congr {catalog : InstrumentCatalog} {ts : TimestampMs}
    {data data' : TickerData} (hsymbol : data.symbol = data'.symbol)
    (htext : ∀ field, data.text field = data'.text field) :
    decodeTicker catalog ts data = decodeTicker catalog ts data' := by
  have hlast : data.lastPrice = data'.lastPrice := htext .lastPrice
  have hmark : data.markPrice = data'.markPrice := htext .markPrice
  have hindex : data.indexPrice = data'.indexPrice := htext .indexPrice
  have hinterest : data.openInterest = data'.openInterest := htext .openInterest
  have hrate : data.fundingRate = data'.fundingRate := htext .fundingRate
  have hvolume : data.volume24h = data'.volume24h := htext .volume24h
  have hturnover : data.turnover24h = data'.turnover24h := htext .turnover24h
  simp only [decodeTicker, tickerEvents, hsymbol, hlast, hmark, hindex, hinterest, hrate, hvolume,
    hturnover]

/-! ### When a ticker can be decoded -/

section Decodable

variable {spec : InstrumentSpec} {raw : String} {field : TickerField}

theorem isOk_iff_exists {ε α : Type} {x : Except ε α} : x.isOk ↔ ∃ a, x = .ok a := by
  cases x with
  | ok a => exact iff_of_true rfl ⟨a, rfl⟩
  | error e => simp [Except.isOk, Except.toBool]

theorem isOk_bind_iff {ε α β : Type} {x : Except ε α} {f : α → Except ε β} :
    (x >>= f).isOk ↔ ∃ a, x = .ok a ∧ (f a).isOk := by
  cases x with
  | ok a => simp [except_ok_bind]
  | error e => simp [except_error_bind, Except.isOk, Except.toBool]

theorem isOk_bind_of_isOk {ε α β : Type} {x : Except ε α} {f : α → Except ε β} (hx : x.isOk)
    (hf : ∀ a, (f a).isOk) : (x >>= f).isOk := by
  obtain ⟨a, rfl⟩ := isOk_iff_exists.1 hx
  exact hf a

theorem isOk_mapM_option {ε α β : Type} {f : α → Except ε β} {a? : Option α} :
    (a?.mapM f).isOk ↔ ∀ a ∈ a?, (f a).isOk := by
  cases a? with
  | none => simp [Except.isOk, Except.toBool, pure, Except.pure]
  | some a =>
    have hmap : (some a).mapM f = some <$> f a := rfl
    simp [hmap, isOk_map]

theorem isOk_quantize {k : ValueKind} (value : Decimal) (scale : ℕ) :
    ((⟨value⟩ : DecimalValue k).quantize scale).isOk = (quantizeDecimal value scale).isOk :=
  isOk_map _ _

theorem legible_lastPrice_iff : Legible spec .lastPrice raw ↔
    ∃ value, parseDecimal raw = .ok value ∧
      ∃ price, (⟨value⟩ : Price).quantize spec.priceScale = .ok price := by
  simp [Legible, TickerField.scale, ← isOk_iff_exists, isOk_quantize]

/-- The text of a field that is not rounded is legible when it can be read. -/
theorem legible_iff_read (hfield : field ≠ .lastPrice) (hscale : field.scale spec = none) :
    Legible spec field raw ↔ ∃ value?, parseOptionalDecimalStr raw = .ok value? := by
  unfold Legible parseOptionalDecimalStr
  by_cases hempty : (trim raw).isEmpty
  · simp [hfield, hempty]
  · cases hvalue : parseDecimal (trim raw) <;> simp [hfield, hscale, hempty, hvalue]

/-- The text of a field that is rounded is legible when it can be read and the number fits. -/
theorem legible_iff_rounded (k : ValueKind) {scale : ℕ} (hfield : field ≠ .lastPrice)
    (hscale : field.scale spec = some scale) :
    Legible spec field raw ↔ ∃ value?, parseOptionalDecimalStr raw = .ok value? ∧
      ∃ fast?, (value?.mapM fun value => (⟨value⟩ : DecimalValue k).quantize scale) =
        .ok fast? := by
  simp only [← isOk_iff_exists, isOk_mapM_option, isOk_quantize]
  unfold Legible parseOptionalDecimalStr
  by_cases hempty : (trim raw).isEmpty
  · simp [hfield, hempty]
  · cases hvalue : parseDecimal (trim raw) <;> simp [hfield, hscale, hempty, hvalue]

/-- There are events exactly when all texts are legible. -/
theorem isOk_tickerEvents_iff (ts : TimestampMs) (data : TickerData) :
    (tickerEvents spec ts data).isOk ↔ ∀ field, Legible spec field (data.text field) := by
  constructor
  · intro h
    unfold tickerEvents at h
    simp only [isOk_bind_iff] at h
    obtain ⟨last, hlast, _, hlastFits, mark, hmark, _, hmarkFits, index, hindex, _, hindexFits,
      volume, hvolume, _, hvolumeFits, turnover, hturnover, _, hturnoverFits, _, -, _, -, rate,
      hrate, _, -, interest, hinterest, -⟩ := h
    intro field
    cases field with
    | lastPrice => exact legible_lastPrice_iff.2 ⟨last, hlast, _, hlastFits⟩
    | markPrice => exact (legible_iff_rounded .price (by decide) rfl).2 ⟨mark, hmark, _, hmarkFits⟩
    | indexPrice =>
      exact (legible_iff_rounded .price (by decide) rfl).2 ⟨index, hindex, _, hindexFits⟩
    | openInterest => exact (legible_iff_read (by decide) rfl).2 ⟨interest, hinterest⟩
    | fundingRate => exact (legible_iff_read (by decide) rfl).2 ⟨rate, hrate⟩
    | volume24h =>
      exact (legible_iff_rounded .quantity (by decide) rfl).2 ⟨volume, hvolume, _, hvolumeFits⟩
    | turnover24h =>
      exact (legible_iff_rounded .notional (by decide) rfl).2
        ⟨turnover, hturnover, _, hturnoverFits⟩
  · intro h
    obtain ⟨last, hlast, _, hlastFits⟩ := legible_lastPrice_iff.1 (h .lastPrice)
    obtain ⟨mark, hmark, _, hmarkFits⟩ :=
      (legible_iff_rounded .price (by decide) rfl).1 (h .markPrice)
    obtain ⟨index, hindex, _, hindexFits⟩ :=
      (legible_iff_rounded .price (by decide) rfl).1 (h .indexPrice)
    obtain ⟨interest, hinterest⟩ := (legible_iff_read (by decide) rfl).1 (h .openInterest)
    obtain ⟨rate, hrate⟩ := (legible_iff_read (by decide) rfl).1 (h .fundingRate)
    obtain ⟨volume, hvolume, _, hvolumeFits⟩ :=
      (legible_iff_rounded .quantity (by decide) rfl).1 (h .volume24h)
    obtain ⟨turnover, hturnover, _, hturnoverFits⟩ :=
      (legible_iff_rounded .notional (by decide) rfl).1 (h .turnover24h)
    simp only [TickerData.text] at hlast hmark hindex hinterest hrate hvolume hturnover
    simp only [tickerEvents, hlast, hlastFits, hmark, hmarkFits, hindex, hindexFits, hvolume,
      hvolumeFits, hturnover, hturnoverFits, hrate, hinterest, except_ok_bind]
    refine isOk_bind_of_isOk ?_ fun marks => isOk_bind_of_isOk ?_ fun rates => rfl
    · rw [isOk_mapM, List.all_eq_true]
      intro value hvalue
      obtain ⟨price, hprice⟩ := isOk_iff_exists.1 <|
        isOk_mapM_option.1 (isOk_iff_exists.2 ⟨_, hmarkFits⟩) value (Option.mem_toList.1 hvalue)
      rw [hprice]
      rfl
    · rw [isOk_mapM, List.all_eq_true]
      exact fun value hvalue => rfl

/-- A merged ticker is accepted exactly when it can be decoded. -/
theorem isOk_decodeTicker_iff (catalog : InstrumentCatalog) (ts : TimestampMs)
    (data : TickerData) : (decodeTicker catalog ts data).isOk ↔ data.Decodable catalog := by
  unfold decodeTicker TickerData.Decodable
  have hlast : (ensureNonEmpty data.lastPrice "lastPrice").isOk ↔ data.lastPrice ≠ "" := by
    unfold ensureNonEmpty
    split <;> simp_all [Except.isOk, Except.toBool]
  have hsymbol : ∀ spec, requireNativeSymbol .bybit catalog data.symbol = .ok spec ↔
      resolveNativeSymbol .bybit catalog data.symbol = some spec := by
    intro spec
    unfold requireNativeSymbol
    cases resolveNativeSymbol .bybit catalog data.symbol <;> simp
  simp only [isOk_bind_iff, hsymbol, isOk_tickerEvents_iff, exists_and_right]
  rw [← hlast, isOk_iff_exists]

end Decodable

/-! ### The texts in the cache -/

section Texts

variable {cache cache' : TickerCache} {texts : String → TickerField → String}
variable {frame : TickerFrame} {update : TickerUpdate}

theorem holds_empty : (∅ : TickerCache).Holds fun _ _ => "" := by
  intro symbol
  have hentry : (∅ : TickerCache).entry symbol = .empty symbol := by
    simp [TickerCache.entry]
  rw [hentry]
  exact ⟨rfl, TickerData.text_empty symbol⟩

theorem TickerCache.entry_insert (cache : TickerCache) (symbol symbol' : String)
    (data : TickerData) : entry (cache.insert symbol data) symbol' =
      if symbol = symbol' then data else cache.entry symbol' := by
  unfold entry
  rw [lookup_insert]
  split <;> rfl

/-- The update replaces the texts of its symbol that it has values for. -/
theorem holds_merge (h : cache.Holds texts) :
    TickerCache.Holds
      (cache.insert update.symbol ((cache.entry update.symbol).merge update.patch))
      (patched texts update.toPatch) := by
  intro symbol
  obtain ⟨hsymbol, htext⟩ := h symbol
  rw [TickerCache.entry_insert]
  by_cases hkey : update.symbol = symbol
  · subst hkey
    simp [patched, TickerUpdate.toPatch, hsymbol, htext]
  · simp [patched, TickerUpdate.toPatch, hkey, hsymbol, htext]

/-- Frames are decoded by the texts in the cache. -/
theorem decode_of_holds (h : cache.Holds texts) (catalog : InstrumentCatalog) :
    decodeTicker catalog update.ts ((cache.entry update.symbol).merge update.patch) =
      decodeTicker catalog update.ts
        (.ofTexts update.symbol (patched texts update.toPatch update.symbol)) := by
  obtain ⟨hsymbol, htext⟩ := h update.symbol
  refine decodeTicker_congr hsymbol fun field => ?_
  simp [patched, TickerUpdate.toPatch, htext]

theorem results_congr (h : cache.Holds texts) (h' : cache'.Holds texts)
    (frames : List TickerFrame) :
    TickerFrame.results cache frames = TickerFrame.results cache' frames := by
  induction frames generalizing cache cache' texts with
  | nil => rfl
  | cons frame frames ih =>
    unfold TickerFrame.results TickerFrame.next
    obtain ⟨-, e, hparse⟩ | ⟨update, -, hparse⟩ := frame.parse_spec
    · rw [hparse, hparse, ih h h']
    · rw [hparse, hparse, decode_of_holds h, decode_of_holds h', ih (holds_merge h) (holds_merge h')]

/-- A harmless frame that is rejected leaves the texts as they are. -/
theorem holds_of_rejected (h : cache.Holds texts) (hharmless : Harmless cache frame)
    (hrejected : ¬ (frame.parse cache).2.isOk) : (TickerFrame.next cache frame).Holds texts := by
  unfold TickerFrame.next
  obtain ⟨-, e, hparse⟩ | ⟨update, hupdate, hparse⟩ := frame.parse_spec
  · rwa [hparse]
  · rw [hparse] at hrejected ⊢
    obtain hdecodable | hsame := hharmless update hupdate
    · exact absurd ((isOk_decodeTicker_iff _ _ _).2 hdecodable) hrejected
    · -- the merged ticker has the texts that it had
      intro symbol
      rw [TickerCache.entry_insert]
      split
      · next hkey =>
        subst hkey
        exact ⟨(h _).1, fun field => (hsame field).trans ((h _).2 field)⟩
      · exact h symbol

theorem harmless_of_accepted (h : (frame.parse cache).2.isOk) : Harmless cache frame := by
  intro update hupdate
  obtain ⟨hnone, -⟩ | ⟨update', hupdate', hparse⟩ := frame.parse_spec
  · rw [hnone] at hupdate
    cases hupdate
  · obtain rfl : update' = update := Option.some.inj (hupdate'.symm.trans hupdate)
    rw [hparse] at h
    exact .inl ((isOk_decodeTicker_iff _ _ _).1 h)

end Texts

/-! ### Runs -/

section Runs

open TickerFrame

variable {frames : List TickerFrame}

theorem accepted_append (cache : TickerCache) (frames frames' : List TickerFrame) :
    accepted cache (frames ++ frames') =
      accepted cache frames ++ accepted (run next cache frames) frames' := by
  induction frames generalizing cache with
  | nil => rfl
  | cons frame frames ih =>
    simp only [List.cons_append, accepted, ih, run_cons]
    split <;> rfl

theorem lastText_concat (frames : List TickerFrame) {frame : TickerFrame} {update : TickerUpdate}
    (hupdate : frame.update? = some update) :
    lastText (frames ++ [frame]) = patched (lastText frames) update.toPatch := by
  funext symbol field
  unfold lastText
  rw [List.filterMap_append, ← lastWritten_concat]
  simp [hupdate]

/-- After a run whose steps are all harmless, the cache has the last texts of the accepted
frames. -/
theorem holds_lastText (h : StepsMeet next Harmless ∅ frames) :
    (run next ∅ frames).Holds (lastText (accepted ∅ frames)) := by
  induction frames using List.reverseRecOn with
  | nil => exact holds_empty
  | append_singleton frames frame ih =>
    have hbefore := ih (h.of_prefix (List.prefix_append frames [frame]))
    have hharmless : Harmless (run next ∅ frames) frame := by
      have hlast : (frames ++ [frame])[frames.length]? = some frame := by simp
      simpa using h.getElem? hlast
    rw [run_append, accepted_append]
    show (next (run next ∅ frames) frame).Holds _
    by_cases haccepted : (frame.parse (run next ∅ frames)).2.isOk
    · have hone : accepted (run next ∅ frames) [frame] = [frame] := by
        simp [accepted, haccepted]
      obtain ⟨-, e, hparse⟩ | ⟨update, hupdate, hparse⟩ := frame.parse_spec
      · rw [hparse] at haccepted
        cases haccepted
      · rw [hone, lastText_concat _ hupdate, next, hparse]
        exact holds_merge hbefore
    · have hnone : accepted (run next ∅ frames) [frame] = [] := by
        simp [accepted, haccepted]
      rw [hnone, List.append_nil]
      exact holds_of_rejected hbefore hharmless haccepted

/-- **The merge of tickers.**  In a run in which every frame that brings new texts can be decoded
once they are merged, the tickers have the last non-empty values of the accepted frames, and a
rejected frame changes nothing of what comes after it. -/
theorem merge_exact_and_atomic (h : StepsMeet next Harmless ∅ frames) : MergesExactly frames where
  exact before frame after heq events hok := by
    have hprefix : before <+: frames := ⟨frame :: after, heq.symm⟩
    have hholds := holds_lastText (h.of_prefix hprefix)
    have haccepted : accepted ∅ (before ++ [frame]) = accepted ∅ before ++ [frame] := by
      rw [accepted_append]
      simp [accepted, hok, Except.isOk, Except.toBool]
    obtain ⟨-, e, hparse⟩ | ⟨update, hupdate, hparse⟩ := frame.parse_spec
    · rw [hparse] at hok
      cases hok
    · rw [hparse, decode_of_holds hholds, ← lastText_concat _ hupdate, ← haccepted] at hok
      unfold decodeTicker at hok
      obtain ⟨_, -, hok⟩ := except_bind_eq_ok.1 hok
      obtain ⟨spec, hspec, hevents⟩ := except_bind_eq_ok.1 hok
      exact ⟨update, spec, hupdate, resolves_of_requireNativeSymbol hspec, hevents⟩
  atomic before frame after heq e herror := by
    have hprefix : before <+: frames := ⟨frame :: after, heq.symm⟩
    have hholds := holds_lastText (h.of_prefix hprefix)
    have hharmless : Harmless (run next ∅ before) frame := by
      have hframe : frames[before.length]? = some frame := by simp [heq]
      have htake : frames.take before.length = before := by simp [heq]
      simpa [htake] using h.getElem? hframe
    have hrejected : ¬ (frame.parse (run next ∅ before)).2.isOk := by
      simp [herror, Except.isOk, Except.toBool]
    rw [run_append]
    exact results_congr (holds_of_rejected hholds hharmless hrejected) hholds after

end Runs

/-! ### A symbol -/

/-- BTC, with two digits of price and three of quantity. -/
def tickerListed : InstrumentSpec := .active .bybit "BTC/USDT:USDT" "BTCUSDT" 2 3

/-- A record about BTC with texts for these fields. -/
def tickerRecord (fields : List (String × String)) : Json :=
  .object (("symbol", .string "BTCUSDT") :: fields.map fun field => (field.1, .string field.2))

/-- A message with that record. -/
def tickerPayload (fields : List (String × String)) : Payload :=
  .json (.object [("topic", .string "tickers.BTCUSDT"), ("data", tickerRecord fields)])

theorem parseNativePublic_ticker (fields : List (String × String)) :
    parseNativePublic (tickerPayload fields) =
      .ok ⟨"tickers.BTCUSDT", none, 0, tickerRecord fields⟩ := rfl

theorem tickers_ticker (fields : List (String × String)) (envelope : PublicEnvelope)
    (h : parseNativePublic (tickerPayload fields) = .ok envelope) :
    envelope.topic.startsWith "tickers." = true := by
  rw [parseNativePublic_ticker, Except.ok.injEq] at h
  subst h
  simp

/-- A frame of BTC with values for these fields. -/
def tickerFrame (fields : List (String × String)) : TickerFrame where
  catalog := .new [tickerListed]
  payload := tickerPayload fields
  tickers := tickers_ticker fields

/-- The first message, with the last price. -/
def tickerOpened : TickerFrame := tickerFrame [("lastPrice", "1")]

/-- The last price is not a number. -/
def tickerMalformed : TickerFrame := tickerFrame [("lastPrice", "x")]

/-- A message with the mark price. -/
def tickerMarked : TickerFrame := tickerFrame [("markPrice", "2")]

/-- The ticker once more, when the adapter does not know the instrument. -/
def tickerUnlisted : TickerFrame := { tickerOpened with catalog := .new [] }

theorem harmless_tickerUnlisted :
    Harmless (run TickerFrame.next ∅ [tickerOpened]) tickerUnlisted := by
  intro update hupdate
  obtain rfl : _ = update := Option.some.inj hupdate
  exact .inr fun field => by cases field <;> decide +kernel

/-- A ticker in full, a repetition that is rejected and brings nothing new, and a change of the mark
price. -/
theorem merge_exact_and_atomic_marked :
    ¬ (tickerUnlisted.parse (run TickerFrame.next ∅ [tickerOpened])).2.isOk ∧
      MergesExactly [tickerOpened, tickerUnlisted, tickerMarked] :=
  ⟨by decide +kernel, merge_exact_and_atomic
    ⟨harmless_of_accepted (by decide +kernel), harmless_tickerUnlisted,
      harmless_of_accepted (by decide +kernel), trivial⟩⟩

/-- A rejected last price stays in the cache, and the next change of the mark price is rejected for
it. -/
theorem rejected_ticker_stays :
    ¬ MergesExactly [tickerOpened, tickerMalformed, tickerMarked] := by
  intro h
  have hrejected : ¬ (tickerMalformed.parse (run TickerFrame.next ∅ [tickerOpened])).2.isOk := by
    decide +kernel
  have hwith : ¬ (tickerMarked.parse
      (run TickerFrame.next ∅ [tickerOpened, tickerMalformed])).2.isOk := by
    decide +kernel
  have hwithout : (tickerMarked.parse (run TickerFrame.next ∅ [tickerOpened])).2.isOk := by
    decide +kernel
  cases hresult : (tickerMalformed.parse (run TickerFrame.next ∅ [tickerOpened])).2 with
  | ok events =>
    rw [hresult] at hrejected
    exact hrejected rfl
  | error e =>
    have hsame := h.atomic [tickerOpened] tickerMalformed [tickerMarked] rfl e hresult
    have hhead : (tickerMarked.parse (run TickerFrame.next ∅ [tickerOpened, tickerMalformed])).2 =
        (tickerMarked.parse (run TickerFrame.next ∅ [tickerOpened])).2 :=
      (List.cons.inj hsame).1
    rw [hhead] at hwith
    exact hwith hwithout

end Bybit

end BatMarkets
