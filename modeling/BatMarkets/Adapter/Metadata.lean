import BatMarkets.Adapter.OrderSnapshot
import BatMarkets.Core.Exact
import BatMarkets.Core.Quantize

/-!
# The instruments of Binance and Bybit

The adapters of Binance and Bybit turn the listings of the venue into specifications
(`parse_metadata_snapshot`).  A specification takes its price scale from the tick size and its
quantity scale from the step size, each without the zeros at its end, and its quote scale covers
both together.

The scales are those at which the fast lane counts prices and quantities in units.  They are made
for the grid of the venue: on it nothing is rounded, neither on the way into the fast lane nor on
the way out of it, and no smaller scale would do.

## Main results

* `isLeast_decimalScale` : the scale of a size is the least one at which the size is a number of
  units.
* `metadata_keeps_grid` : at the scales of an accepted listing, the fast lane keeps every price and
  every quantity on the grid of the venue, and refuses those whose number of units does not fit.
-/

namespace BatMarkets

open Wire

/-! ### Scales -/

/-- The number of decimal places without zeros at the end. -/
def decimalScale (value : Decimal) : ℕ := value.normalize.scale

/-- The scale of a price times a quantity; the sum saturates. -/
def notionalScale (priceScale qtyScale : ℕ) : ℕ := min (priceScale + qtyScale) (2 ^ 32 - 1)

/-- A perpetual contract that is settled in its quote asset, with all that the adapters fill in the
same way. -/
def linearPerpetual (venue : Venue) (base quote settle nativeSymbol : String)
    (tickSize stepSize minQty minNotional : Decimal) (quoteScale : ℕ)
    (maxLeverage : Option Leverage) (status : InstrumentStatus) : InstrumentSpec where
  venue := venue
  product := .linearUsdt
  marketType := .linearPerpetual
  instrumentId := ⟨base ++ "/" ++ quote ++ ":" ++ settle⟩
  canonicalSymbol := base ++ "/" ++ quote ++ ":" ++ settle
  nativeSymbol := nativeSymbol
  base := ⟨base⟩
  quote := ⟨quote⟩
  settle := ⟨settle⟩
  contractSize := ⟨.ofNat 1 Decimal.one_fits⟩
  tickSize := ⟨tickSize⟩
  stepSize := ⟨stepSize⟩
  minQty := ⟨minQty⟩
  minNotional := ⟨minNotional⟩
  priceScale := decimalScale tickSize
  qtyScale := decimalScale stepSize
  quoteScale := quoteScale
  maxLeverage := maxLeverage
  support := {
    publicStreams := true
    privateTrading := true
    leverageSet := true
    marginModeSet := true
    fundingRate := true
    openInterest := true }
  status := status

/-! ### Binance -/

namespace Binance

/-- A filter of a symbol of Binance; which fields it has depends on its type. -/
structure ExchangeFilter where
  filterType : String
  tickSize : Option String
  stepSize : Option String
  minQty : Option String
  notional : Option String

/-- A filter has a type; all its bounds are optional. -/
def ExchangeFilter.read (value : Json) : Option ExchangeFilter := do
  let fields ← value.record ["filterType", "tickSize", "stepSize", "minQty", "notional"]
  return {
    filterType := ← Json.required fields "filterType" Json.asStr
    tickSize := ← Json.optional fields "tickSize" Json.asStr
    stepSize := ← Json.optional fields "stepSize" Json.asStr
    minQty := ← Json.optional fields "minQty" Json.asStr
    notional := ← Json.optional fields "notional" Json.asStr }

/-- A symbol in the exchange information of Binance. -/
structure ExchangeSymbol where
  symbol : String
  contractType : String
  status : String
  baseAsset : String
  quoteAsset : String
  marginAsset : String
  quotePrecision : UInt32
  filters : List ExchangeFilter

/-- A symbol is read from an object or from a list of its eight fields. -/
def ExchangeSymbol.read (value : Json) : Option ExchangeSymbol := do
  let fields ← value.recordOf ["symbol", "contractType", "status", "baseAsset", "quoteAsset",
    "marginAsset", "quotePrecision", "filters"] 8
  return {
    symbol := ← Json.required fields "symbol" Json.asStr
    contractType := ← Json.required fields "contractType" Json.asStr
    status := ← Json.required fields "status" Json.asStr
    baseAsset := ← Json.required fields "baseAsset" Json.asStr
    quoteAsset := ← Json.required fields "quoteAsset" Json.asStr
    marginAsset := ← Json.required fields "marginAsset" Json.asStr
    quotePrecision := ← Json.required fields "quotePrecision" Json.asU32
    filters := ← Json.required fields "filters" (Json.each ExchangeFilter.read) }

/-- The symbols of a response with the rules of the exchange. -/
def readExchangeInfo (value : Json) : Option (List ExchangeSymbol) := do
  let fields ← value.recordOf ["symbols"] 1
  Json.required fields "symbols" (Json.each ExchangeSymbol.read)

/-- Binance has one word for a symbol that trades; all others are taken for a halt. -/
def parseInstrumentStatus (raw : String) : InstrumentStatus :=
  if raw = "TRADING" then .active else .halted

/-- A bound of the first filter of the type. -/
def requireFilterDecimal (filters : List ExchangeFilter) (filterType : String)
    (select : ExchangeFilter → Option String) : Except MarketError Decimal :=
  match (filters.find? fun filter => filter.filterType == filterType).bind select with
  | some raw => parseDecimal raw
  | none => .error (decodeFailure ("missing binance " ++ filterType ++ " filter"))

/-- The instrument that a symbol of Binance stands for. -/
def symbolToSpec (symbol : ExchangeSymbol) : Except MarketError InstrumentSpec := do
  let tickSize ← requireFilterDecimal symbol.filters "PRICE_FILTER" (·.tickSize)
  let stepSize ← requireFilterDecimal symbol.filters "LOT_SIZE" (·.stepSize)
  let minQty ← requireFilterDecimal symbol.filters "LOT_SIZE" (·.minQty)
  let minNotional ← requireFilterDecimal symbol.filters "MIN_NOTIONAL" (·.notional)
  let quoteScale := max (max symbol.quotePrecision.toNat
    (notionalScale (decimalScale tickSize) (decimalScale stepSize))) (decimalScale minNotional)
  return linearPerpetual .binance symbol.baseAsset symbol.quoteAsset symbol.marginAsset
    symbol.symbol tickSize stepSize minQty minNotional quoteScale none
    (parseInstrumentStatus symbol.status)

/-- The symbols of the adapter's market. -/
def acceptedSymbols (symbols : List ExchangeSymbol) : List ExchangeSymbol :=
  symbols.filter fun symbol => symbol.contractType == "PERPETUAL" && symbol.quoteAsset == "USDT"

/-- The instruments of the exchange information: one bad symbol that is not filtered out refuses
all. -/
def parseMetadataSnapshot (payload : Payload) : Except MarketError (List InstrumentSpec) :=
  match payload.value?.bind readExchangeInfo with
  | some symbols => (acceptedSymbols symbols).mapM symbolToSpec
  | none => .error <| ((decodeFailure "failed to parse binance exchangeInfo response").withVenue
      .binance .linearUsdt).withOperation "binance.parse_metadata_snapshot"

end Binance

/-! ### Bybit -/

namespace Bybit

/-- An instrument in the reply of Bybit, with the bounds of its filters. -/
structure InstrumentInfo where
  symbol : String
  contractType : String
  status : String
  baseCoin : String
  quoteCoin : String
  settleCoin : String
  tickSize : String
  qtyStep : String
  minOrderQty : String
  minNotionalValue : String
  maxLeverage : String

/-- An instrument is read together with its three filters. -/
def InstrumentInfo.read (value : Json) : Option InstrumentInfo := do
  let fields ← value.recordOf ["symbol", "contractType", "status", "baseCoin", "quoteCoin",
    "settleCoin", "priceScale", "priceFilter", "lotSizeFilter", "leverageFilter"] 10
  let _ ← Json.required fields "priceScale" Json.asStr
  let price ← (← Json.required fields "priceFilter" some).recordOf ["tickSize"] 1
  let lot ← (← Json.required fields "lotSizeFilter" some).recordOf
    ["qtyStep", "minOrderQty", "minNotionalValue"] 3
  let leverage ← (← Json.required fields "leverageFilter" some).recordOf ["maxLeverage"] 1
  return {
    symbol := ← Json.required fields "symbol" Json.asStr
    contractType := ← Json.required fields "contractType" Json.asStr
    status := ← Json.required fields "status" Json.asStr
    baseCoin := ← Json.required fields "baseCoin" Json.asStr
    quoteCoin := ← Json.required fields "quoteCoin" Json.asStr
    settleCoin := ← Json.required fields "settleCoin" Json.asStr
    tickSize := ← Json.required price "tickSize" Json.asStr
    qtyStep := ← Json.required lot "qtyStep" Json.asStr
    minOrderQty := ← Json.required lot "minOrderQty" Json.asStr
    minNotionalValue := ← Json.required lot "minNotionalValue" Json.asStr
    maxLeverage := ← Json.required leverage "maxLeverage" Json.asStr }

/-- A response with the instruments. -/
structure InstrumentsInfoResponse where
  retCode : Int64
  retMsg : String
  list : List InstrumentInfo

/-- The reply has a code and, below `result`, the list of instruments. -/
def InstrumentsInfoResponse.read (value : Json) : Option InstrumentsInfoResponse := do
  let fields ← value.recordOf ["retCode", "retMsg", "result"] 3
  let retCode ← Json.required fields "retCode" Json.asInt64
  let retMsg ← Json.required fields "retMsg" Json.asStr
  let result ← (← Json.required fields "result" some).recordOf ["list"] 1
  let list ← Json.required result "list" (Json.each InstrumentInfo.read)
  return { retCode, retMsg, list }

/-- Bybit tells instruments that trade and those being settled; all others are taken for a halt. -/
def parseInstrumentStatus (raw : String) : InstrumentStatus :=
  if raw = "Trading" then .active else if raw = "Deliverying" then .settled else .halted

/-- The instrument that a record of Bybit stands for. -/
def instrumentToSpec (instrument : InstrumentInfo) : Except MarketError InstrumentSpec := do
  let tickSize ← parseDecimal instrument.tickSize
  let qtyStep ← parseDecimal instrument.qtyStep
  let minQty ← parseDecimal instrument.minOrderQty
  let minNotional ← parseDecimal instrument.minNotionalValue
  let quoteScale := max (notionalScale (decimalScale tickSize) (decimalScale qtyStep))
    (decimalScale minNotional)
  let maxLeverage ← parseDecimal instrument.maxLeverage
  return linearPerpetual .bybit instrument.baseCoin instrument.quoteCoin instrument.settleCoin
    instrument.symbol tickSize qtyStep minQty minNotional quoteScale (some ⟨maxLeverage⟩)
    (parseInstrumentStatus instrument.status)

/-- The instruments of a reply of Bybit, if its code is the one of a success. -/
def parseMetadataSnapshot (payload : Payload) : Except MarketError (List InstrumentSpec) :=
  match payload.value?.bind InstrumentsInfoResponse.read with
  | none => .error decodeError
  | some response =>
    if response.retCode = 0 then
      (response.list.filter (·.contractType == "LinearPerpetual")).mapM instrumentToSpec
    else .error (exchangeReject response.retCode response.retMsg)

end Bybit

/-! ### The grid of a size -/

/-- The number is a multiple of the size. -/
def Decimal.Divides (size value : Decimal) : Prop := ∃ n : ℤ, value.toRat = n * size.toRat

/-- The number is a number of units at the scale. -/
def UnitsAt (scale : ℕ) (q : ℚ) : Prop := ∃ n : ℤ, q * 10 ^ scale = n

theorem UnitsAt.mono {scale scale' : ℕ} {q : ℚ} (h : UnitsAt scale q) (hle : scale ≤ scale') :
    UnitsAt scale' q := by
  obtain ⟨n, hn⟩ := h
  obtain ⟨d, rfl⟩ := Nat.exists_eq_add_of_le hle
  refine ⟨n * 10 ^ d, ?_⟩
  rw [pow_add, ← mul_assoc, hn]
  push_cast
  rfl

theorem UnitsAt.mul {scale scale' : ℕ} {q r : ℚ} (hq : UnitsAt scale q) (hr : UnitsAt scale' r) :
    UnitsAt (scale + scale') (q * r) := by
  obtain ⟨n, hn⟩ := hq
  obtain ⟨m, hm⟩ := hr
  refine ⟨n * m, ?_⟩
  calc q * r * 10 ^ (scale + scale') = (q * 10 ^ scale) * (r * 10 ^ scale') := by rw [pow_add]; ring
    _ = ((n * m : ℤ) : ℚ) := by rw [hn, hm]; push_cast; rfl

theorem Decimal.unitsAt_toRat (d : Decimal) : UnitsAt d.scale d.toRat :=
  ⟨d.mantissa, by rw [toRat]; field_simp⟩

theorem unitsAt_decimalScale (size : Decimal) : UnitsAt (decimalScale size) size.toRat := by
  rw [← size.toRat_normalize]
  exact size.normalize.unitsAt_toRat

/-- After as many steps as there are places, what is left does not end with a zero. -/
theorem stripZeros_stripped (steps : ℕ) (d : Decimal) (hsteps : d.scale ≤ steps) :
    (Decimal.stripZeros steps d).scale = 0 ∨ (Decimal.stripZeros steps d).mantissa % 10 ≠ 0 := by
  induction steps generalizing d with
  | zero => exact .inl (Nat.le_zero.1 hsteps)
  | succ steps ih =>
    rw [Decimal.stripZeros]
    split
    · exact ih _ (Nat.sub_le_of_le_add hsteps)
    · next h =>
      by_cases hscale : d.scale = 0
      · exact .inl hscale
      · exact .inr fun hmantissa => h ⟨hscale, hmantissa⟩

/-- The scale of a size is the least one at which the size is a number of units. -/
theorem isLeast_decimalScale (size : Decimal) :
    IsLeast { scale | UnitsAt scale size.toRat } (decimalScale size) := by
  refine ⟨unitsAt_decimalScale size, fun scale hscale => ?_⟩
  by_contra hlt
  obtain ⟨n, hn⟩ := hscale
  obtain ⟨k, hk⟩ : ∃ k, decimalScale size = scale + (k + 1) :=
    ⟨decimalScale size - scale - 1, by omega⟩
  have hscale' : size.normalize.scale = scale + (k + 1) := hk
  have hmantissa : size.normalize.mantissa = n * 10 ^ (k + 1) := by
    have hrat : (size.normalize.mantissa : ℚ) = n * 10 ^ (k + 1) := by
      rw [← hn, ← size.toRat_normalize, Decimal.toRat, hscale', pow_add]
      field_simp
    exact_mod_cast hrat
  obtain hzero | hdigit := stripZeros_stripped size.scale size le_rfl
  · have hzero : size.normalize.scale = 0 := hzero
    omega
  · refine hdigit ?_
    show size.normalize.mantissa % 10 = 0
    rw [hmantissa, pow_succ, ← mul_assoc]
    exact Int.mul_emod_left _ _

/-- A multiple of a size is a number of units at its scale. -/
theorem Decimal.Divides.unitsAt {size value : Decimal} (h : size.Divides value) :
    UnitsAt (decimalScale size) value.toRat := by
  obtain ⟨n, hn⟩ := h
  obtain ⟨m, hm⟩ := unitsAt_decimalScale size
  refine ⟨n * m, ?_⟩
  rw [hn, mul_assoc, hm]
  push_cast
  rfl

theorem roundedAt_of_unitsAt {value : Decimal} {scale : ℕ} (h : UnitsAt scale value.toRat) :
    value.roundedAt scale = value.toRat := by
  obtain ⟨n, hn⟩ := h
  rw [Decimal.roundedAt, hn, Decimal.roundHalfAway_intCast, ← hn]
  field_simp

/-! ### The fast lane on the grid -/

/-- What the fast lane does at a scale with the multiples of a size: those whose number of units
fits are counted and read back, and the others are refused. -/
def KeepsMultiples (k : ValueKind) (size : Decimal) (scale : ℕ) : Prop :=
  ∀ value : DecimalValue k, size.Divides value.value → ∃ units : ℤ,
    value.value.toRat * 10 ^ scale = units ∧
      if FitsI64 units then
        ∃ u back, value.quantize scale = .ok u ∧ u.value.toInt = units ∧
          u.toDecimal scale = .ok back ∧ back.value.toRat = value.value.toRat
      else ∃ e, value.quantize scale = .error e

/-- Two values are the same number. -/
def SameNumber {k : ValueKind} (x u : DecimalValue k) : Prop := u.value.toRat = x.value.toRat

/-- What the fast lane does at the scales of an instrument. -/
structure KeepsGrid (spec : InstrumentSpec) : Prop where
  price : KeepsMultiples .price spec.tickSize.value spec.priceScale
  quantity : KeepsMultiples .quantity spec.stepSize.value spec.qtyScale
  /-- No places are wasted. -/
  leastPrice : IsLeast { scale | UnitsAt scale spec.tickSize.value.toRat } spec.priceScale
  leastQty : IsLeast { scale | UnitsAt scale spec.stepSize.value.toRat } spec.qtyScale
  /-- A price times a quantity is a number of units of the quote asset, like the least notional. -/
  notional : ∀ (price : Price) (quantity : Quantity), spec.tickSize.value.Divides price.value →
    spec.stepSize.value.Divides quantity.value →
      UnitsAt spec.quoteScale (price.value.toRat * quantity.value.toRat)
  minNotional : UnitsAt spec.quoteScale spec.minNotional.value.toRat
  /-- An event with prices and quantities on the grid that is quantized and then read has the same
  prices and quantities.  A turnover need not be the same, and one with a quote scale over 28 keeps
  the event from being read. -/
  event : ∀ (spec' : InstrumentSpec) (x u : ExactEvent) (e : PublicLaneEvent),
    (∀ price ∈ x.prices, spec.tickSize.value.Divides price.value) →
    (∀ quantity ∈ x.quantities, spec.stepSize.value.Divides quantity.value) →
    x.quantize spec = .ok e → spec'.SameScales spec → e.toUnified spec' = .ok u →
      List.Forall₂ SameNumber x.prices u.prices ∧
        List.Forall₂ SameNumber x.quantities u.quantities ∧ x.unscaled = u.unscaled

section Grid

variable {k : ValueKind}

theorem keepsMultiples_decimalScale (size : Decimal) :
    KeepsMultiples k size (decimalScale size) := by
  intro value hvalue
  have hscale : decimalScale size ≤ 28 := size.normalize.scale_le
  have hquantizes := quantize_exact_nearest k hscale
  obtain ⟨units, hunits⟩ := hvalue.unitsAt
  have hround : Decimal.roundHalfAway (value.value.toRat * 10 ^ decimalScale size) = units := by
    rw [hunits, Decimal.roundHalfAway_intCast]
  have hrefused := hquantizes.refused value
  rw [hround] at hrefused
  refine ⟨units, hunits, ?_⟩
  split
  · next hfits =>
    cases hu : value.quantize (decimalScale size) with
    | error e => exact absurd hfits (hrefused.1 ⟨e, hu⟩)
    | ok u =>
      obtain ⟨back, hback, -⟩ := hquantizes.exact u
      have hcount : u.value.toInt = units := by
        rw [value_eq_round hscale hu, hround]
      refine ⟨u, back, rfl, hcount, hback, ?_⟩
      rw [toDecimal_of_quantize hu hback, roundedAt_of_unitsAt hvalue.unitsAt]
  · next hfits => exact hrefused.2 hfits

/-- Numbers on the grid are not rounded. -/
theorem forall₂_sameNumber {size : Decimal} {xs us : List (DecimalValue k)}
    (hgrid : ∀ x ∈ xs, size.Divides x.value)
    (h : List.Forall₂ (RoundedTo (decimalScale size)) xs us) :
    List.Forall₂ SameNumber xs us := by
  induction h with
  | nil => exact .nil
  | @cons x u xs us hxu _ ih =>
    refine .cons ?_ (ih fun x hx => hgrid x (List.mem_cons_of_mem _ hx))
    have hunits := (hgrid x List.mem_cons_self).unitsAt
    exact hxu.trans (roundedAt_of_unitsAt hunits)

theorem decimalScale_add_le_notionalScale (tickSize stepSize : Decimal) :
    decimalScale tickSize + decimalScale stepSize ≤
      notionalScale (decimalScale tickSize) (decimalScale stepSize) := by
  have htick : decimalScale tickSize ≤ 28 := tickSize.normalize.scale_le
  have hstep : decimalScale stepSize ≤ 28 := stepSize.normalize.scale_le
  unfold notionalScale
  omega

/-- A contract whose quote scale covers those of its prices and quantities together, and that of its
least notional. -/
theorem keepsGrid_linearPerpetual {venue : Venue} {base quote settle nativeSymbol : String}
    {tickSize stepSize minQty minNotional : Decimal} {quoteScale : ℕ}
    {maxLeverage : Option Leverage} {status : InstrumentStatus}
    (hquote : notionalScale (decimalScale tickSize) (decimalScale stepSize) ≤ quoteScale)
    (hmin : decimalScale minNotional ≤ quoteScale) :
    KeepsGrid (linearPerpetual venue base quote settle nativeSymbol tickSize stepSize minQty
      minNotional quoteScale maxLeverage status) where
  price := keepsMultiples_decimalScale tickSize
  quantity := keepsMultiples_decimalScale stepSize
  leastPrice := isLeast_decimalScale tickSize
  leastQty := isLeast_decimalScale stepSize
  notional := by
    intro price quantity hprice hquantity
    have hscale := (decimalScale_add_le_notionalScale tickSize stepSize).trans hquote
    exact (hprice.unitsAt.mul hquantity.unitsAt).mono hscale
  minNotional := (unitsAt_decimalScale minNotional).mono hmin
  event := by
    intro spec' x u e hprices hquantities hq hs hu
    have hrounds := roundsAt_of_sameScales hq hu hs
    exact ⟨forall₂_sameNumber hprices hrounds.prices,
      forall₂_sameNumber hquantities hrounds.quantities, hrounds.unscaled⟩

end Grid

/-! ### Accepted listings -/

theorem Binance.keepsGrid_symbolToSpec {symbol : ExchangeSymbol} {spec : InstrumentSpec}
    (h : symbolToSpec symbol = .ok spec) : KeepsGrid spec := by
  unfold symbolToSpec at h
  obtain ⟨tickSize, -, h⟩ := except_bind_eq_ok.1 h
  obtain ⟨stepSize, -, h⟩ := except_bind_eq_ok.1 h
  obtain ⟨minQty, -, h⟩ := except_bind_eq_ok.1 h
  obtain ⟨minNotional, -, h⟩ := except_bind_eq_ok.1 h
  cases h
  refine keepsGrid_linearPerpetual ?_ (le_max_right _ _)
  exact (le_max_right _ _).trans (le_max_left _ _)

theorem Bybit.keepsGrid_instrumentToSpec {instrument : InstrumentInfo} {spec : InstrumentSpec}
    (h : instrumentToSpec instrument = .ok spec) : KeepsGrid spec := by
  unfold instrumentToSpec at h
  obtain ⟨tickSize, -, h⟩ := except_bind_eq_ok.1 h
  obtain ⟨qtyStep, -, h⟩ := except_bind_eq_ok.1 h
  obtain ⟨minQty, -, h⟩ := except_bind_eq_ok.1 h
  obtain ⟨minNotional, -, h⟩ := except_bind_eq_ok.1 h
  obtain ⟨maxLeverage, -, h⟩ := except_bind_eq_ok.1 h
  cases h
  exact keepsGrid_linearPerpetual (le_max_left _ _) (le_max_right _ _)

/-- **On the grid of the venue the fast lane loses nothing.**  This holds of every specification
that the adapters of Binance and Bybit accept, whatever the sizes of the listing are. -/
theorem metadata_keeps_grid {payload : Payload} {specs : List InstrumentSpec}
    (h : Binance.parseMetadataSnapshot payload = .ok specs ∨
      Bybit.parseMetadataSnapshot payload = .ok specs)
    {spec : InstrumentSpec} (hspec : spec ∈ specs) : KeepsGrid spec := by
  obtain h | h := h
  · unfold Binance.parseMetadataSnapshot at h
    split at h
    · obtain ⟨symbol, -, hsymbol⟩ := (mem_of_mapM h).1 hspec
      exact Binance.keepsGrid_symbolToSpec hsymbol
    · cases h
  · unfold Bybit.parseMetadataSnapshot at h
    split at h
    · cases h
    · split at h
      · obtain ⟨instrument, -, hinstrument⟩ := (mem_of_mapM h).1 hspec
        exact Bybit.keepsGrid_instrumentToSpec hinstrument
      · cases h

/-- A listing with one contract, whose tick size ends with a zero. -/
def btcusdtListing : Payload :=
  .json (.object [("symbols", .array [.object [
    ("symbol", .string "BTCUSDT"), ("contractType", .string "PERPETUAL"),
    ("status", .string "TRADING"), ("baseAsset", .string "BTC"), ("quoteAsset", .string "USDT"),
    ("marginAsset", .string "USDT"), ("quotePrecision", .integer 2),
    ("filters", .array [
      .object [("filterType", .string "PRICE_FILTER"), ("tickSize", .string "0.10")],
      .object [("filterType", .string "LOT_SIZE"), ("stepSize", .string "0.001"),
        ("minQty", .string "0.001")],
      .object [("filterType", .string "MIN_NOTIONAL"), ("notional", .string "5")]])]])])

/-- Its prices are counted in tenths, its quantities in thousandths. -/
theorem metadata_keeps_grid_btcusdt :
    ∃ spec, Binance.parseMetadataSnapshot btcusdtListing = .ok [spec] ∧ spec.priceScale = 1 ∧
      spec.qtyScale = 3 ∧ spec.quoteScale = 4 ∧ KeepsGrid spec := by
  have hparse : Binance.parseMetadataSnapshot btcusdtListing = .ok
      [linearPerpetual .binance "BTC" "USDT" "USDT" "BTCUSDT" (.literal 10 2) (.literal 1 3)
        (.literal 1 3) (.literal 5 0) 4 none .active] := by rfl
  exact ⟨_, hparse, rfl, rfl, rfl, metadata_keeps_grid (.inl hparse) List.mem_cons_self⟩

end BatMarkets
