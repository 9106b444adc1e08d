import BatMarkets.Core.Exact
import BatMarkets.Mexc.Public
import BatMarkets.Mexc.Readings

/-!
# What the records of MEXC are decoded to

For each record of MEXC: the outcome of decoding it, as the product of the outcomes of its parts in
the order in which they are read, and what the decoded value has to show of the record (`Shows`): its
decimals are the numbers that the record denotes.

A decimal that is computed (a minimal notional, a total) only has to fit.  A quantized decimal shows
a value if the number that the value denotes is a decimal, and quantized like that.

## Main results

* `Mexc.follows_contractToSpec`, `Mexc.follows_tickerToUnified` and the others of this kind : each
  decoder follows the outcome of its record.
-/

namespace BatMarkets

open Decoding Wire

namespace Mexc

/-- A check or a failure of the adapter itself. -/
theorem reads_mapError {α : Type} (x : Except MarketError α) :
    Reads Failure.panic (x.mapError Failure.error) x.toOption := by
  cases x with
  | ok a => rfl
  | error e => exact ⟨.error e, by simp, rfl⟩

theorem reads_requireNativeSymbol (catalog : InstrumentCatalog) (symbol : String) :
    Reads Failure.panic (requireNativeSymbol catalog symbol)
      (resolveNativeSymbol .mexc catalog symbol) := by
  unfold requireNativeSymbol BatMarkets.requireNativeSymbol
  cases resolveNativeSymbol .mexc catalog symbol with
  | some spec => rfl
  | none => exact ⟨_, by simp, rfl⟩

/-! ### Tickers -/

namespace TickerData

variable (ticker : TickerData)

/-- What decoding the ticker should give. -/
def outcome : Outcome :=
  [valueOutcome ticker.lastPrice, optionalOutcome ticker.fairPrice,
    optionalOutcome ticker.indexPrice, optionalOutcome ticker.volume24,
    optionalOutcome ticker.amount24].prod

/-- The ticker has the numbers of the record. -/
@[mk_iff]
structure Shows (t : Ticker) : Prop where
  lastPrice : Denotes ticker.lastPrice t.lastPrice.value
  markPrice : Option.Rel Denotes ticker.fairPrice (t.markPrice.map (·.value))
  indexPrice : Option.Rel Denotes ticker.indexPrice (t.indexPrice.map (·.value))
  volume24h : Option.Rel Denotes ticker.volume24 (t.volume24h.map (·.value))
  turnover24h : Option.Rel Denotes ticker.amount24 (t.turnover24h.map (·.value))

end TickerData

@[simp] theorem value_comp_mk {k : ValueKind} :
    (fun x : DecimalValue k => x.value) ∘ DecimalValue.mk = id := rfl

theorem follows_tickerToUnified (ticker : TickerData) (spec : InstrumentSpec)
    (nowMs : TimestampMs) :
    Follows .panic (tickerToUnified ticker spec nowMs) ticker.outcome ticker.Shows := by
  have hlast := follows_decimalFromValue ticker.lastPrice
  have hoptional := follows_mapM_decimalFromValue
  refine ⟨hlast.describes.bind fun _ _ => (hoptional _).describes.bind fun _ _ =>
    (hoptional _).describes.bind fun _ _ => (hoptional _).describes.bind fun _ _ =>
    (hoptional _).describes.bind fun _ _ => .ok _, fun t ht => ?_⟩
  obtain ⟨last, h₁, ht⟩ := except_bind_eq_ok.1 ht
  obtain ⟨mark, h₂, ht⟩ := except_bind_eq_ok.1 ht
  obtain ⟨index, h₃, ht⟩ := except_bind_eq_ok.1 ht
  obtain ⟨volume, h₄, ht⟩ := except_bind_eq_ok.1 ht
  obtain ⟨turnover, h₅, ht⟩ := except_bind_eq_ok.1 ht
  obtain rfl := Except.ok.inj ht
  simp [TickerData.shows_iff, TickerData.outcome, hlast.right_iff _ h₁,
    (hoptional _).right_iff _ h₂, (hoptional _).right_iff _ h₃, (hoptional _).right_iff _ h₄,
    (hoptional _).right_iff _ h₅]

/-! ### Trades, levels and candles -/

namespace DealData

variable (deal : DealData)

/-- What decoding the deal should give. -/
def outcome : Outcome := [valueOutcome deal.price, valueOutcome deal.quantity].prod

/-- The trade has the numbers of the record. -/
@[mk_iff]
structure Shows (t : TradeTick) : Prop where
  price : Denotes deal.price t.price.value
  quantity : Denotes deal.quantity t.quantity.value

end DealData

theorem follows_tradeToUnified (deal : DealData) (spec : InstrumentSpec) (index : ℕ)
    (now : TimestampMs × TimestampMs) :
    Follows .panic (tradeToUnified deal spec index now) deal.outcome deal.Shows := by
  have hprice := follows_decimalFromValue deal.price
  have hquantity := follows_decimalFromValue deal.quantity
  refine ⟨hprice.describes.bind fun _ _ => hquantity.describes.bind fun _ _ => .ok _,
    fun t ht => ?_⟩
  obtain ⟨price, h₁, ht⟩ := except_bind_eq_ok.1 ht
  obtain ⟨quantity, h₂, ht⟩ := except_bind_eq_ok.1 ht
  obtain rfl := Except.ok.inj ht
  simp [DealData.shows_iff, DealData.outcome, hprice.right_iff _ h₁, hquantity.right_iff _ h₂]

/-- A level has a price and a quantity, and perhaps more. -/
def levelOutcome : List Json → Outcome
  | price :: quantity :: _ => [valueOutcome price, valueOutcome quantity].prod
  | _ => .refused

/-- The level has the first two numbers of the record. -/
def LevelShows (level : List Json) (l : OrderBookLevel) : Prop :=
  ∃ price quantity rest, level = price :: quantity :: rest ∧ Denotes price l.price.value ∧
    Denotes quantity l.quantity.value

theorem follows_levelToBookLevel (level : List Json) :
    Follows .panic (levelToBookLevel level) (levelOutcome level) (LevelShows level) := by
  obtain _ | ⟨price, _ | ⟨quantity, rest⟩⟩ := level
  · exact .refuse (by simp)
  · exact .refuse (by simp)
  · have hprice := follows_decimalFromValue price
    have hquantity := follows_decimalFromValue quantity
    refine ⟨hprice.describes.bind fun _ _ => hquantity.describes.bind fun _ _ => .ok _,
      fun l hl => ?_⟩
    obtain ⟨p, h₁, hl⟩ := except_bind_eq_ok.1 hl
    obtain ⟨q, h₂, hl⟩ := except_bind_eq_ok.1 hl
    obtain rfl := Except.ok.inj hl
    simp [LevelShows, levelOutcome, hprice.right_iff _ h₁, hquantity.right_iff _ h₂]

namespace KlineEntry

variable (interval : KlineInterval) (entry : KlineEntry)

/-- What decoding the candle should give; its times are computed. -/
def outcome : Outcome :=
  [.computed (FitsI64 (entry.time.toInt * 1000)), valueOutcome entry.openPrice,
    valueOutcome entry.high, valueOutcome entry.low, valueOutcome entry.close,
    valueOutcome entry.vol, .computed (interval.EndFits (entry.time.toInt * 1000))].prod

/-- The candle has the numbers of the record. -/
@[mk_iff]
structure Shows (k : Kline) : Prop where
  openPrice : Denotes entry.openPrice k.openPrice.value
  high : Denotes entry.high k.high.value
  low : Denotes entry.low k.low.value
  close : Denotes entry.close k.close.value
  volume : Denotes entry.vol k.volume.value

end KlineEntry

theorem follows_klineFromEntry (instrumentId : InstrumentId) (interval : KlineInterval)
    (entry : KlineEntry) :
    Follows .panic (klineFromEntry instrumentId interval entry) (entry.outcome interval)
      entry.Shows := by
  have hopenTime := Follows.of_computed (describes_checkedI64 (entry.time.toInt * 1000))
  have hvalue := follows_decimalFromValue
  have hclose {t : TimestampMs} (ht : checkedI64 (entry.time.toInt * 1000) = .ok t) :=
    Follows.of_computed (describes_closeTimeMs interval (KlineInterval.toInt_checkedI64 ht))
  refine ⟨hopenTime.describes.bind fun _ ht => (hvalue _).describes.bind fun _ _ =>
    (hvalue _).describes.bind fun _ _ => (hvalue _).describes.bind fun _ _ =>
    (hvalue _).describes.bind fun _ _ => (hvalue _).describes.bind fun _ _ =>
    (hclose ht).describes.bind fun _ _ => .ok _, fun k hk => ?_⟩
  obtain ⟨openTime, h₁, hk⟩ := except_bind_eq_ok.1 hk
  obtain ⟨openPrice, h₂, hk⟩ := except_bind_eq_ok.1 hk
  obtain ⟨high, h₃, hk⟩ := except_bind_eq_ok.1 hk
  obtain ⟨low, h₄, hk⟩ := except_bind_eq_ok.1 hk
  obtain ⟨close, h₅, hk⟩ := except_bind_eq_ok.1 hk
  obtain ⟨volume, h₆, hk⟩ := except_bind_eq_ok.1 hk
  obtain ⟨closeTime, h₇, hk⟩ := except_bind_eq_ok.1 hk
  obtain rfl := Except.ok.inj hk
  have hstart := (hopenTime.right_iff _ h₁).1 trivial
  have hend := ((hclose h₁).right_iff _ h₇).1 trivial
  simp only [KlineEntry.outcome, List.prod_cons, List.prod_nil, Outcome.mul_eq_exact, hstart, hend]
  simp [KlineEntry.shows_iff, Outcome.one_eq, (hvalue _).right_iff _ h₂, (hvalue _).right_iff _ h₃,
    (hvalue _).right_iff _ h₄, (hvalue _).right_iff _ h₅, (hvalue _).right_iff _ h₆]

/-! ### Contracts -/

/-- The scales are scales of decimals, and every fast event can be read with them. -/
structure UsableScales (spec : InstrumentSpec) : Prop where
  priceScale : spec.priceScale ≤ 28
  qtyScale : spec.qtyScale ≤ 28
  quoteScale : spec.quoteScale ≤ 28
  reads : ∀ event : PublicLaneEvent, ∃ unified, event.toUnified spec = .ok unified

section Reading

variable {spec : InstrumentSpec}

theorem describes_toDecimal {k : ValueKind} (value : FastValue k) {scale : ℕ} (h : scale ≤ 28) :
    Describes Failure.panic (value.toDecimal scale) .exact := by
  have hnew : Describes Failure.panic (Decimal.new value.value scale) .exact := ⟨_, dif_pos h⟩
  exact hnew.map _

theorem describes_mapOption {α β : Type} {f : α → Except Failure β}
    (h : ∀ a, Describes Failure.panic (f a) .exact) (x : Option α) :
    Describes Failure.panic (mapOption f x) .exact := by
  cases x with
  | none => exact .ok none
  | some a => exact (h a).map some

/-- With scales of decimals, no event panics when it is read. -/
theorem describes_toUnified (hp : spec.priceScale ≤ 28) (hq : spec.qtyScale ≤ 28)
    (ht : spec.quoteScale ≤ 28) (event : PublicLaneEvent) :
    Describes Failure.panic (event.toUnified spec) .exact := by
  have hprice : ∀ x : FastPrice, Describes Failure.panic (spec.priceFromFast x) .exact :=
    fun x => describes_toDecimal x hp
  have hquantity : ∀ x : FastQuantity, Describes Failure.panic (spec.quantityFromFast x) .exact :=
    fun x => describes_toDecimal x hq
  have hnotional : ∀ x : FastNotional,
      Describes Failure.panic (x.toNotional spec.quoteScale) .exact :=
    fun x => describes_toDecimal x ht
  cases event with
  | ticker e =>
    exact ((hprice _).bind fun _ _ => (describes_mapOption hprice _).bind fun _ _ =>
      (describes_mapOption hprice _).bind fun _ _ =>
      (describes_mapOption hquantity _).bind fun _ _ =>
      (describes_mapOption hnotional _).bind fun _ _ => .ok _).map _
  | trade e => exact ((hprice _).bind fun _ _ => (hquantity _).bind fun _ _ => .ok _).map _
  | bookTop e =>
    exact ((hprice _).bind fun _ _ => (hquantity _).bind fun _ _ => (hprice _).bind fun _ _ =>
      (hquantity _).bind fun _ _ => .ok _).map _
  | orderBookDelta e =>
    have hlevel : ∀ level, Describes Failure.panic (spec.levelFromFast level) .exact :=
      fun _ => (hprice _).bind fun _ _ => (hquantity _).bind fun _ _ => .ok _
    exact ((Describes.mapM_exact hlevel).bind fun _ _ => (Describes.mapM_exact hlevel).bind
      fun _ _ => .ok _).map _
  | kline e =>
    exact ((hprice _).bind fun _ _ => (hprice _).bind fun _ _ => (hprice _).bind fun _ _ =>
      (hprice _).bind fun _ _ => (hquantity _).bind fun _ _ => .ok _).map _
  | markPrice e => exact ((hprice _).bind fun _ _ => .ok _).map _
  | liquidation e => exact ((hprice _).bind fun _ _ => (hquantity _).bind fun _ _ => .ok _).map _
  | fundingRate e => exact .ok _
  | openInterest e => exact .ok _
  | divergence e => exact .ok _

theorem usableScales_iff :
    UsableScales spec ↔ spec.priceScale ≤ 28 ∧ spec.qtyScale ≤ 28 ∧ spec.quoteScale ≤ 28 :=
  ⟨fun h => ⟨h.priceScale, h.qtyScale, h.quoteScale⟩,
    fun ⟨hp, hq, ht⟩ => ⟨hp, hq, ht, fun event => describes_toUnified hp hq ht event⟩⟩

end Reading

namespace ContractInfo

variable (contract : ContractInfo)

/-- The scales that the venue sends are scales of decimals. -/
def ScalesFit : Prop :=
  contract.priceScale.toNat ≤ 28 ∧ contract.volScale.toNat ≤ 28 ∧
    (contract.amountScale.map UInt32.toNat).getD
      (min (contract.priceScale.toNat + contract.volScale.toNat) (2 ^ 32 - 1)) ≤ 28

instance : Decidable contract.ScalesFit := inferInstanceAs (Decidable (_ ∧ _ ∧ _))

/-- The price unit times the minimal volume, as they are read. -/
def leastValue : ℚ := valueRead contract.priceUnit * valueRead contract.minVol

/-- What reading the contract should give; its least notional is computed in two products. -/
def outcome : Outcome :=
  [valueOutcome contract.priceUnit, valueOutcome contract.volUnit, valueOutcome contract.minVol,
    valueOutcome contract.contractSize, .computed (FitsDecimal contract.leastValue),
    .computed (FitsDecimal (Decimal.rounded contract.leastValue * valueRead contract.contractSize)),
    optionalOutcome contract.maxLeverage, .taken contract.ScalesFit].prod

/-- The instrument has the numbers of the contract. -/
@[mk_iff]
structure Shows (spec : InstrumentSpec) : Prop where
  tickSize : Denotes contract.priceUnit spec.tickSize.value
  stepSize : Denotes contract.volUnit spec.stepSize.value
  minQty : Denotes contract.minVol spec.minQty.value
  contractSize : Denotes contract.contractSize spec.contractSize.value
  maxLeverage : Option.Rel Denotes contract.maxLeverage (spec.maxLeverage.map (·.value))
  scales : UsableScales spec

end ContractInfo

theorem follows_contractToSpec (contract : ContractInfo) :
    Follows .panic (contractToSpec contract) contract.outcome contract.Shows := by
  have hvalue := follows_decimalFromValue
  have hleverage := follows_mapM_decimalFromValue contract.maxLeverage
  have hread {value : Json} {d : Decimal} (h : decimalFromValue value = .ok d) :=
    (read_of_decimalFromValue h).2
  have hleast {a b : Decimal} (ha : decimalFromValue contract.priceUnit = .ok a)
      (hb : decimalFromValue contract.minVol = .ok b) :
      Follows .panic (a.mul b) (.computed (FitsDecimal contract.leastValue)) fun _ => True :=
    .of_computed (describes_mul (hread ha) (hread hb))
  have hnotional {a b c ab : Decimal} (ha : decimalFromValue contract.priceUnit = .ok a)
      (hb : decimalFromValue contract.minVol = .ok b) (hab : a.mul b = .ok ab)
      (hc : decimalFromValue contract.contractSize = .ok c) :
      Follows .panic (ab.mul c) (.computed (FitsDecimal (Decimal.rounded contract.leastValue *
        valueRead contract.contractSize))) fun _ => True :=
    .of_computed (describes_mul (toRat_of_mul (hread ha) (hread hb) hab) (hread hc))
  have hscales : ∀ spec : InstrumentSpec, Describes Failure.panic (.ok spec)
      (Outcome.taken contract.ScalesFit * 1) := by
    intro spec
    rw [mul_one]
    refine .of_ok rfl ?_
    by_cases hfit : contract.ScalesFit <;> simp [hfit, Outcome.taken]
  refine ⟨(hvalue _).describes.bind fun _ ha => (hvalue _).describes.bind fun _ _ =>
    (hvalue _).describes.bind fun _ hb => (hvalue _).describes.bind fun _ hc =>
    (hleast ha hb).describes.bind fun _ hab => (hnotional ha hb hab hc).describes.bind fun _ _ =>
    hleverage.describes.bind fun _ _ => hscales _, fun spec h => ?_⟩
  obtain ⟨tickSize, h₁, h⟩ := except_bind_eq_ok.1 h
  obtain ⟨stepSize, h₂, h⟩ := except_bind_eq_ok.1 h
  obtain ⟨minQty, h₃, h⟩ := except_bind_eq_ok.1 h
  obtain ⟨contractSize, h₄, h⟩ := except_bind_eq_ok.1 h
  obtain ⟨least, h₅, h⟩ := except_bind_eq_ok.1 h
  obtain ⟨minNotional, h₆, h⟩ := except_bind_eq_ok.1 h
  obtain ⟨maxLeverage, h₇, h⟩ := except_bind_eq_ok.1 h
  have hscales : UsableScales spec ↔ contract.ScalesFit := by
    rw [usableScales_iff, ← Except.ok.inj h]
    rfl
  obtain rfl := Except.ok.inj h
  have hfits := ((hleast h₁ h₃).right_iff _ h₅).1 trivial
  have hfits' := ((hnotional h₁ h₃ h₅ h₄).right_iff _ h₆).1 trivial
  rw [ContractInfo.shows_iff, hscales]
  simp only [ContractInfo.outcome, List.prod_cons, List.prod_nil, Outcome.mul_eq_exact, hfits,
    hfits']
  simp [Outcome.one_eq, (hvalue _).right_iff _ h₁, (hvalue _).right_iff _ h₂,
    (hvalue _).right_iff _ h₃, (hvalue _).right_iff _ h₄, hleverage.right_iff _ h₇]

/-! ### The account -/

namespace AssetData

variable (asset : AssetData)

/-- The balance of the wallet; an absent one is nothing. -/
def wallet : Json := (asset.walletBalance.or asset.equity).getD .null

/-- The available balance, under either of its names; null counts as 0. -/
def availableValue : Json := (asset.availableBalance.or asset.available).getD .null

/-- The balance has the numbers of the record. -/
@[mk_iff]
structure Shows (b : Balance) : Prop where
  walletBalance : Denotes asset.wallet b.walletBalance.value
  availableBalance : Denotes asset.availableValue b.availableBalance.value

end AssetData

theorem follows_decimalFromOptionalValue (value : Option Json) :
    Follows .panic (decimalFromOptionalValue value) (valueOutcome (value.getD .null))
      (Denotes (value.getD .null)) := by
  rw [decimalFromOptionalValue_eq]
  exact follows_decimalFromValue _

/-- The totals, as numbers. -/
structure AccountNumbers where
  wallet : ℚ
  available : ℚ
  unrealized : ℚ

/-- The totals as exact numbers. -/
def AccountTotals.numbers (totals : AccountTotals) : AccountNumbers :=
  ⟨totals.wallet.toRat, totals.available.toRat, totals.unrealized.toRat⟩

namespace AccountAsset

variable (before : AccountNumbers) (asset : AccountAsset)

/-- The unrealized profit; null counts as 0. -/
def unrealized : Json := asset.unrealizedPnl.getD .null

/-- The totals with the asset. -/
def after : AccountNumbers where
  wallet := Decimal.rounded (before.wallet + valueRead asset.wallet)
  available := Decimal.rounded (before.available + valueRead asset.availableValue)
  unrealized := Decimal.rounded (before.unrealized + valueRead asset.unrealized)

/-- What adding the asset to the totals should give; the three sums are computed. -/
def outcome : Outcome :=
  [valueOutcome asset.wallet, valueOutcome asset.availableValue, valueOutcome asset.unrealized,
    .computed (FitsDecimal (before.wallet + valueRead asset.wallet)),
    .computed (FitsDecimal (before.available + valueRead asset.availableValue)),
    .computed (FitsDecimal (before.unrealized + valueRead asset.unrealized))].prod

/-- The profit is only part of a total; it is to be a number that a decimal can be. -/
@[mk_iff]
structure Shows (b : Balance) : Prop where
  balance : asset.toAssetData.Shows b
  unrealized : ¬ Unrepresentable asset.unrealized

end AccountAsset

/-- The outcome of the assets, one after another. -/
def accountOutcome : AccountNumbers → List AccountAsset → Outcome
  | _, [] => .exact
  | before, asset :: assets => asset.outcome before * accountOutcome (asset.after before) assets

section Account

variable {observedAt : TimestampMs} {totals : AccountTotals} {asset : AccountAsset}
  {assets : List AccountAsset}

theorem toRat_of_decimalFromOptionalValue {value : Option Json} {d : Decimal}
    (h : decimalFromOptionalValue value = .ok d) : d.toRat = valueRead (value.getD .null) := by
  rw [decimalFromOptionalValue_eq] at h
  exact (read_of_decimalFromValue h).2

theorem numbers_of_balanceOfAsset {r : AccountTotals × Balance}
    (h : balanceOfAsset observedAt totals asset = .ok r) :
    r.1.numbers = asset.after totals.numbers := by
  obtain ⟨wallet, hw, h⟩ := except_bind_eq_ok.1 h
  obtain ⟨available, ha, h⟩ := except_bind_eq_ok.1 h
  obtain ⟨unrealized, hu, h⟩ := except_bind_eq_ok.1 h
  obtain ⟨totalWallet, h₁, h⟩ := except_bind_eq_ok.1 h
  obtain ⟨totalAvailable, h₂, h⟩ := except_bind_eq_ok.1 h
  obtain ⟨totalUnrealized, h₃, h⟩ := except_bind_eq_ok.1 h
  obtain rfl := Except.ok.inj h
  have hread {value : Option Json} {d : Decimal} (hd : decimalFromOptionalValue value = .ok d) :=
    toRat_of_decimalFromOptionalValue hd
  simp only [AccountTotals.numbers, AccountAsset.after, toRat_of_add rfl (hread hw) h₁,
    toRat_of_add rfl (hread ha) h₂, toRat_of_add rfl (hread hu) h₃]
  rfl

theorem follows_balanceOfAsset :
    Follows .panic (balanceOfAsset observedAt totals asset) (asset.outcome totals.numbers)
      fun r => asset.Shows r.2 := by
  have hvalue := follows_decimalFromOptionalValue
  have hsum {total d : Decimal} {value : Option Json} (h : decimalFromOptionalValue value = .ok d) :
      Follows .panic (total.add d) (.computed (FitsDecimal (total.toRat + valueRead
        (value.getD .null)))) fun _ => True :=
    .of_computed (describes_add rfl (toRat_of_decimalFromOptionalValue h))
  refine ⟨(hvalue _).describes.bind fun _ hw => (hvalue _).describes.bind fun _ ha =>
    (hvalue _).describes.bind fun _ hu => (hsum hw).describes.bind fun _ _ =>
    (hsum ha).describes.bind fun _ _ => (hsum hu).describes.bind fun _ _ => .ok _, fun r h => ?_⟩
  obtain ⟨wallet, hw, h⟩ := except_bind_eq_ok.1 h
  obtain ⟨available, ha, h⟩ := except_bind_eq_ok.1 h
  obtain ⟨unrealized, hu, h⟩ := except_bind_eq_ok.1 h
  obtain ⟨totalWallet, h₁, h⟩ := except_bind_eq_ok.1 h
  obtain ⟨totalAvailable, h₂, h⟩ := except_bind_eq_ok.1 h
  obtain ⟨totalUnrealized, h₃, h⟩ := except_bind_eq_ok.1 h
  obtain rfl := Except.ok.inj h
  have hprofit : ¬ Unrepresentable asset.unrealized ↔ valueOutcome asset.unrealized = .exact := by
    rw [AccountAsset.unrealized, ← (hvalue _).right_iff _ hu]
    rw [decimalFromOptionalValue_eq] at hu
    exact (denotes_iff hu).symm
  have hwallet := (hvalue _).right_iff _ hw
  have havailable := (hvalue _).right_iff _ ha
  have hfits₁ := ((hsum hw).right_iff _ h₁).1 trivial
  have hfits₂ := ((hsum ha).right_iff _ h₂).1 trivial
  have hfits₃ := ((hsum hu).right_iff _ h₃).1 trivial
  simp only [AccountAsset.outcome, List.prod_cons, List.prod_nil, Outcome.mul_eq_exact]
  rw [AccountAsset.shows_iff, AssetData.shows_iff, hprofit]
  exact ⟨fun h => ⟨hwallet.1 h.1.1, havailable.1 h.1.2, h.2, hfits₁, hfits₂, hfits₃, rfl⟩,
    fun h => ⟨⟨hwallet.2 h.1, havailable.2 h.2.1⟩, h.2.2.1⟩⟩

/-- The totals of the outcome are those of the code at every asset. -/
theorem follows_balancesOfAssets :
    Follows .panic (balancesOfAssets observedAt totals assets)
      (accountOutcome totals.numbers assets) fun r =>
        List.Forall₂ AccountAsset.Shows assets r.2 := by
  induction assets generalizing totals with
  | nil =>
    refine ⟨.ok _, fun r h => ?_⟩
    obtain rfl := Except.ok.inj h
    exact iff_of_true .nil rfl
  | cons asset assets ih =>
    have hasset : Follows .panic (balanceOfAsset observedAt totals asset)
      (asset.outcome totals.numbers) fun r => asset.Shows r.2 := follows_balanceOfAsset
    have hrest {first : AccountTotals × Balance}
        (hfirst : balanceOfAsset observedAt totals asset = .ok first) :
        Follows .panic (balancesOfAssets observedAt first.1 assets)
          (accountOutcome (asset.after totals.numbers) assets)
          fun r => List.Forall₂ AccountAsset.Shows assets r.2 :=
      numbers_of_balanceOfAsset hfirst ▸ ih
    rw [balancesOfAssets, accountOutcome]
    refine ⟨hasset.describes.bind fun first hfirst => ?_, fun r h => ?_⟩
    · have hlast (rest : AccountTotals × List Balance) :
          Describes Failure.panic (.ok (rest.1, first.2 :: rest.2)) 1 := .ok _
      have hbind := (hrest hfirst).describes.bind fun rest _ => hlast rest
      rw [mul_one] at hbind
      exact hbind
    · obtain ⟨first, hfirst, h⟩ := except_bind_eq_ok.1 h
      obtain ⟨rest, hok, h⟩ := except_bind_eq_ok.1 h
      obtain rfl := Except.ok.inj h
      rw [List.forall₂_cons, Outcome.mul_eq_exact, hasset.right_iff _ hfirst,
        (hrest hfirst).right_iff _ hok]

end Account

/-! ### Positions -/

namespace PositionData

variable (catalog : InstrumentCatalog) (position : PositionData)

/-- The unrealized profit, under either of its names. -/
def profit : Option Json := position.unrealized.or position.unrealised

/-- The symbol and the decimals that are left out when they cannot be read. -/
def restOutcome : Outcome :=
  [.check (resolveNativeSymbol .mexc catalog position.symbol).isSome,
    keptOutcome (position.openAvgPrice.getD .null), keptOutcome (position.markPrice.getD .null),
    keptOutcome (position.profit.getD .null),
    keptOutcome (position.leverage.getD .null)].prod

/-- The position has the other numbers of the record; those that cannot be read are left out. -/
@[mk_iff]
structure ShowsRest (p : Position) : Prop where
  entryPrice : Kept (position.openAvgPrice.getD .null) (p.entryPrice.map (·.value))
  markPrice : Kept (position.markPrice.getD .null) (p.markPrice.map (·.value))
  unrealizedPnl : Kept (position.profit.getD .null) (p.unrealizedPnl.map (·.value))
  leverage : Kept (position.leverage.getD .null) (p.leverage.map (·.value))

/-- The outcome of the size and of the rest. -/
def outcome : Outcome := valueOutcome (position.holdVol.getD .null) * position.restOutcome catalog

/-- The position has the numbers of the record. -/
def Shows (p : Position) : Prop :=
  Denotes (position.holdVol.getD .null) p.size.value ∧ position.ShowsRest p

/-- A position whose size is zero is not read further. -/
def openOutcome : Outcome :=
  valueOutcome (position.holdVol.getD .null) *
    if valueRead (position.holdVol.getD .null) = 0 then .exact else position.restOutcome catalog

/-- Without a position, the size is a number that a decimal can be. -/
def ShowsOpen : Option Position → Prop
  | some p => position.Shows p
  | none => ¬ Unrepresentable (position.holdVol.getD .null)

end PositionData

section Positions

variable {catalog : InstrumentCatalog} {position : PositionData} {observedAt : TimestampMs}
  {size : Decimal}

theorem size_of_positionFromData {p : Position}
    (h : positionFromData catalog position observedAt size = .ok p) : p.size.value = size := by
  obtain ⟨_, -, h⟩ := except_bind_eq_ok.1 h
  obtain ⟨_, -, h⟩ := except_bind_eq_ok.1 h
  obtain ⟨_, -, h⟩ := except_bind_eq_ok.1 h
  obtain ⟨_, -, h⟩ := except_bind_eq_ok.1 h
  obtain ⟨_, -, h⟩ := except_bind_eq_ok.1 h
  obtain rfl := Except.ok.inj h
  rfl

theorem follows_positionFromData :
    Follows .panic (positionFromData catalog position observedAt size)
      (position.restOutcome catalog) position.ShowsRest := by
  have hspec := (reads_requireNativeSymbol catalog position.symbol).follows
  have hkept := follows_keptDecimal
  refine ⟨hspec.describes.bind fun _ _ => (hkept _).describes.bind fun _ _ =>
    (hkept _).describes.bind fun _ _ => (hkept _).describes.bind fun _ _ =>
    (hkept _).describes.bind fun _ _ => .ok _, fun p h => ?_⟩
  obtain ⟨spec, h₀, h⟩ := except_bind_eq_ok.1 h
  obtain ⟨entryPrice, h₁, h⟩ := except_bind_eq_ok.1 h
  obtain ⟨markPrice, h₂, h⟩ := except_bind_eq_ok.1 h
  obtain ⟨unrealizedPnl, h₃, h⟩ := except_bind_eq_ok.1 h
  obtain ⟨leverage, h₄, h⟩ := except_bind_eq_ok.1 h
  obtain rfl := Except.ok.inj h
  have hknown := (hspec.right_iff _ h₀).1 trivial
  have hprofit : Kept (position.profit.getD .null) unrealizedPnl ↔
      keptOutcome (position.profit.getD .null) = .exact := (hkept _).right_iff _ h₃
  simp only [PositionData.restOutcome, List.prod_cons, List.prod_nil, Outcome.mul_eq_exact, hknown]
  simp [PositionData.showsRest_iff, Outcome.one_eq, kept_filter_iff h₁, (hkept _).right_iff _ h₁,
    (hkept _).right_iff _ h₂, hprofit, (hkept _).right_iff _ h₄]

/-- A position with the size that has been read. -/
theorem follows_position :
    Follows .panic (decimalFromOptionalValue position.holdVol >>=
        positionFromData catalog position observedAt)
      (position.outcome catalog) position.Shows := by
  refine (follows_decimalFromOptionalValue _).bind fun size _ =>
    ⟨position.ShowsRest, follows_positionFromData, fun p hp => ?_⟩
  rw [PositionData.Shows, size_of_positionFromData hp]

theorem follows_openPosition :
    Follows .panic (openPosition catalog observedAt position) (position.openOutcome catalog)
      position.ShowsOpen := by
  have hsize := follows_decimalFromOptionalValue position.holdVol
  unfold openPosition PositionData.openOutcome
  refine hsize.bind fun size hread => ?_
  have hzero : size.isZero = true ↔ valueRead (position.holdVol.getD .null) = 0 := by
    rw [Decimal.isZero_iff, toRat_of_decimalFromOptionalValue hread]
  by_cases hclosed : size.isZero = true
  · rw [if_pos hclosed, if_pos (hzero.1 hclosed)]
    refine ⟨fun _ => True, .ok none, fun o ho => ?_⟩
    obtain rfl : none = o := Except.ok.inj ho
    rw [decimalFromOptionalValue_eq] at hread
    rw [PositionData.ShowsOpen, denotes_iff hread, and_true]
  · rw [if_neg hclosed, if_neg (mt hzero.2 hclosed)]
    refine ⟨fun o => ∃ p, o = some p ∧ position.ShowsRest p,
      follows_positionFromData.last some (by simp), fun o ho => ?_⟩
    obtain ⟨p, hp, ho⟩ := except_bind_eq_ok.1 ho
    obtain rfl := Except.ok.inj ho
    simp [PositionData.ShowsOpen, PositionData.Shows, size_of_positionFromData hp]

/-- A size that a decimal can be is zero exactly if there is no position. -/
theorem isNone_openPosition {o : Option Position}
    (h : openPosition catalog observedAt position = .ok o)
    (hsize : ¬ Unrepresentable (position.holdVol.getD .null)) :
    o = none ↔ valueNumber (position.holdVol.getD .null) = 0 := by
  obtain ⟨size, hread, h⟩ := except_bind_eq_ok.1 h
  rw [decimalFromOptionalValue_eq] at hread
  have hnumber : size.toRat = valueNumber (position.holdVol.getD .null) :=
    (denotes_iff hread).2 hsize
  rw [← hnumber, ← Decimal.isZero_iff]
  split at h
  · next hzero =>
    obtain rfl := Except.ok.inj h
    exact iff_of_true rfl hzero
  · next hzero =>
    obtain ⟨p, -, h⟩ := except_bind_eq_ok.1 h
    obtain rfl := Except.ok.inj h
    exact iff_of_false (by simp) hzero

end Positions

/-! ### Orders and executions -/

namespace OrderData

variable (catalog : InstrumentCatalog) (order : OrderData)

/-- What decoding the order should give; its average price is left out if it cannot be read. -/
def outcome : Outcome :=
  [.check (resolveNativeSymbol .mexc catalog order.symbol).isSome, valueOutcome order.price,
    valueOutcome order.vol, valueOutcome (order.dealVol.getD .null),
    keptOutcome (order.dealAvgPrice.getD .null)].prod

/-- The order has the numbers of the record. -/
@[mk_iff]
structure Shows (o : Order) : Prop where
  price : Option.Rel Denotes (some order.price) (o.price.map (·.value))
  quantity : Denotes order.vol o.quantity.value
  filledQuantity : Denotes (order.dealVol.getD .null) o.filledQuantity.value
  averageFillPrice : Kept (order.dealAvgPrice.getD .null) (o.averageFillPrice.map (·.value))

end OrderData

theorem follows_orderFromData (catalog : InstrumentCatalog) (order : OrderData)
    (observedAt : TimestampMs) :
    Follows .panic (orderFromData catalog order observedAt) (order.outcome catalog)
      order.Shows := by
  have hspec := (reads_requireNativeSymbol catalog order.symbol).follows
  have hvalue := follows_decimalFromValue
  have hfilled := follows_decimalFromOptionalValue order.dealVol
  have haverage := follows_keptDecimal order.dealAvgPrice
  refine ⟨hspec.describes.bind fun _ _ => (hvalue _).describes.bind fun _ _ =>
    (hvalue _).describes.bind fun _ _ => hfilled.describes.bind fun _ _ =>
    haverage.describes.bind fun _ _ => .ok _, fun o h => ?_⟩
  obtain ⟨spec, h₀, h⟩ := except_bind_eq_ok.1 h
  obtain ⟨price, h₁, h⟩ := except_bind_eq_ok.1 h
  obtain ⟨quantity, h₂, h⟩ := except_bind_eq_ok.1 h
  obtain ⟨filledQuantity, h₃, h⟩ := except_bind_eq_ok.1 h
  obtain ⟨averageFillPrice, h₄, h⟩ := except_bind_eq_ok.1 h
  obtain rfl := Except.ok.inj h
  have hknown := (hspec.right_iff _ h₀).1 trivial
  simp only [OrderData.outcome, List.prod_cons, List.prod_nil, Outcome.mul_eq_exact, hknown]
  simp [OrderData.shows_iff, Outcome.one_eq, (hvalue _).right_iff _ h₁, (hvalue _).right_iff _ h₂,
    hfilled.right_iff _ h₃, kept_filter_iff h₄, haverage.right_iff _ h₄]

namespace ExecutionData

variable (catalog : InstrumentCatalog) (execution : ExecutionData)

/-- What decoding the execution should give. -/
def outcome : Outcome :=
  [.check (resolveNativeSymbol .mexc catalog execution.symbol).isSome,
    valueOutcome execution.vol, valueOutcome execution.price, optionalOutcome execution.fee].prod

/-- The execution has the numbers of the record. -/
@[mk_iff]
structure Shows (e : Execution) : Prop where
  quantity : Denotes execution.vol e.quantity.value
  price : Denotes execution.price e.price.value
  fee : Option.Rel Denotes execution.fee (e.fee.map (·.value))

end ExecutionData

theorem follows_executionFromData (catalog : InstrumentCatalog) (execution : ExecutionData)
    (nowMs : TimestampMs) :
    Follows .panic (executionFromData catalog execution nowMs) (execution.outcome catalog)
      execution.Shows := by
  have hspec := (reads_requireNativeSymbol catalog execution.symbol).follows
  have hvalue := follows_decimalFromValue
  have hfee := follows_mapM_decimalFromValue execution.fee
  refine ⟨hspec.describes.bind fun _ _ => (hvalue _).describes.bind fun _ _ =>
    (hvalue _).describes.bind fun _ _ => hfee.describes.bind fun _ _ => .ok _, fun e h => ?_⟩
  obtain ⟨spec, h₀, h⟩ := except_bind_eq_ok.1 h
  obtain ⟨quantity, h₁, h⟩ := except_bind_eq_ok.1 h
  obtain ⟨price, h₂, h⟩ := except_bind_eq_ok.1 h
  obtain ⟨fee, h₃, h⟩ := except_bind_eq_ok.1 h
  obtain rfl := Except.ok.inj h
  have hknown := (hspec.right_iff _ h₀).1 trivial
  simp only [ExecutionData.outcome, List.prod_cons, List.prod_nil, Outcome.mul_eq_exact, hknown]
  simp [ExecutionData.shows_iff, Outcome.one_eq, (hvalue _).right_iff _ h₁,
    (hvalue _).right_iff _ h₂, hfee.right_iff _ h₃]

/-! ### Quantized decimals -/

/-- The units are those of the decimal that is the number. -/
def DenotesUnits {k : ValueKind} (scale : ℕ) (value : Json) (u : FastValue k) : Prop :=
  ∃ d, Denotes value d ∧ (⟨d⟩ : DecimalValue k).quantize scale = .ok u

/-- What counting a number in units should give. -/
def unitsOutcome (scale : ℕ) (value : Json) : Outcome :=
  [valueOutcome value, .check (FitsUnits (valueRead value) scale)].prod

section Units

variable {k : ValueKind} {scale : ℕ} {value : Json} {d : Decimal} {u : FastValue k}

/-- If some decimal is the number, what has been read is. -/
theorem denotes_of_denotes {e : Decimal} (h : decimalFromValue value = .ok d)
    (he : Denotes value e) : Denotes value d := by
  refine (denotes_iff h).2 fun hnone => hnone.2 ?_
  have hnumber : e.toRat = valueNumber value := he
  exact hnumber ▸ Decimal.representable_toRat e

theorem denotesUnits_iff (hd : decimalFromValue value = .ok d)
    (hu : ((⟨d⟩ : DecimalValue k).quantize scale).mapError Failure.error = .ok u) :
    DenotesUnits scale value u ↔ Denotes value d :=
  ⟨fun ⟨_, he, _⟩ => denotes_of_denotes hd he, fun h => ⟨d, h, mapError_eq_ok.1 hu⟩⟩

theorem follows_quantize (hd : decimalFromValue value = .ok d) :
    Follows Failure.panic (((⟨d⟩ : DecimalValue k).quantize scale).mapError Failure.error)
      (.check (FitsUnits (valueRead value) scale)) fun _ => True :=
  .of_check (describes_quantize (read_of_decimalFromValue hd).2)

theorem follows_fastDecimal (scale : ℕ) (value : Json) :
    Follows Failure.panic (fastDecimal scale value : Except Failure (FastValue k))
      (unitsOutcome scale value) (DenotesUnits scale value) := by
  have hvalue := follows_decimalFromValue value
  refine ⟨hvalue.describes.bind fun d hd => ?_, fun u h => ?_⟩
  · have hunits : Describes Failure.panic
        (((⟨d⟩ : DecimalValue k).quantize scale).mapError Failure.error)
        (Outcome.check (FitsUnits (valueRead value) scale) * 1) := by
      rw [mul_one]
      exact (follows_quantize hd).describes
    exact hunits
  · obtain ⟨d, hd, h⟩ := except_bind_eq_ok.1 h
    have hfits := ((follows_quantize hd).right_iff _ h).1 trivial
    simp only [unitsOutcome, List.prod_cons, List.prod_nil, Outcome.mul_eq_exact, hfits]
    rw [denotesUnits_iff hd h, hvalue.right_iff _ hd]
    simp [Outcome.one_eq]

end Units

/-! ### Events of the public stream -/

/-- The same for a number that may be missing. -/
def optionalUnitsOutcome (scale : ℕ) (value : Option Json) : Outcome :=
  value.elim .exact (unitsOutcome scale)

namespace TickerData

variable (spec : InstrumentSpec) (ticker : TickerData)

/-- What decoding the ticker in units should give. -/
def fastOutcome : Outcome :=
  [unitsOutcome spec.priceScale ticker.lastPrice,
    optionalUnitsOutcome spec.priceScale ticker.fairPrice,
    optionalUnitsOutcome spec.priceScale ticker.indexPrice,
    optionalUnitsOutcome spec.qtyScale ticker.volume24, optionalOutcome ticker.amount24].prod

/-- The units of the turnover, if there are. -/
def turnoverUnits (turnover : Option Decimal) : Option FastNotional :=
  turnover.bind fun d => ((⟨d⟩ : Notional).quantize spec.quoteScale).toOption

/-- The ticker has the numbers of the record, in units. -/
@[mk_iff]
structure FastShows (t : FastTicker) : Prop where
  lastPrice : DenotesUnits spec.priceScale ticker.lastPrice t.lastPrice
  markPrice : Option.Rel (DenotesUnits spec.priceScale) ticker.fairPrice t.markPrice
  indexPrice : Option.Rel (DenotesUnits spec.priceScale) ticker.indexPrice t.indexPrice
  volume24h : Option.Rel (DenotesUnits spec.qtyScale) ticker.volume24 t.volume24h
  turnover24h : ∃ turnover, Option.Rel Denotes ticker.amount24 turnover ∧
    t.turnover24h = turnoverUnits spec turnover

end TickerData

theorem exists_denotes_iff {value : Option Json} {r : Option Decimal}
    (h : value.mapM decimalFromValue = .ok r) :
    (∃ d, Option.Rel Denotes value d) ↔ Option.Rel Denotes value r := by
  refine ⟨fun ⟨d, hd⟩ => ?_, fun h => ⟨r, h⟩⟩
  cases hd with
  | none =>
    obtain rfl : none = r := Except.ok.inj h
    exact .none
  | some hd =>
    obtain ⟨d', hd', rfl⟩ := except_map_eq_ok.1 h
    exact .some (denotes_of_denotes hd' hd)

theorem follows_fastTicker (ticker : TickerData) (spec : InstrumentSpec) (nowMs : TimestampMs) :
    Follows .panic (fastTicker ticker spec nowMs) (ticker.fastOutcome spec)
      (ticker.FastShows spec) := by
  have hlast : Follows Failure.panic (fastDecimal spec.priceScale ticker.lastPrice)
    (unitsOutcome spec.priceScale ticker.lastPrice)
    (DenotesUnits (k := .price) spec.priceScale ticker.lastPrice) := follows_fastDecimal _ _
  have hprice (value : Option Json) : Follows Failure.panic
      (value.mapM (fastDecimal spec.priceScale)) (optionalUnitsOutcome spec.priceScale value)
      (Option.Rel (DenotesUnits (k := .price) spec.priceScale) value) :=
    .mapOption (follows_fastDecimal _) value
  have hvolume : Follows Failure.panic (ticker.volume24.mapM (fastDecimal spec.qtyScale))
      (optionalUnitsOutcome spec.qtyScale ticker.volume24)
      (Option.Rel (DenotesUnits (k := .quantity) spec.qtyScale) ticker.volume24) :=
    .mapOption (follows_fastDecimal _) _
  have hturnover := follows_mapM_decimalFromValue ticker.amount24
  refine ⟨hlast.describes.bind fun _ _ => (hprice _).describes.bind fun _ _ =>
    (hprice _).describes.bind fun _ _ => hvolume.describes.bind fun _ _ =>
    hturnover.describes.bind fun _ _ => .ok _, fun t h => ?_⟩
  obtain ⟨lastPrice, h₁, h⟩ := except_bind_eq_ok.1 h
  obtain ⟨markPrice, h₂, h⟩ := except_bind_eq_ok.1 h
  obtain ⟨indexPrice, h₃, h⟩ := except_bind_eq_ok.1 h
  obtain ⟨volume, h₄, h⟩ := except_bind_eq_ok.1 h
  obtain ⟨turnover, h₅, h⟩ := except_bind_eq_ok.1 h
  obtain rfl := Except.ok.inj h
  have hshown : (∃ d, Option.Rel Denotes ticker.amount24 d ∧
      TickerData.turnoverUnits spec turnover = TickerData.turnoverUnits spec d) ↔
        optionalOutcome ticker.amount24 = .exact := by
    rw [← hturnover.right_iff _ h₅]
    exact ⟨fun ⟨d, hd, _⟩ => (exists_denotes_iff h₅).1 ⟨d, hd⟩, fun hd => ⟨turnover, hd, rfl⟩⟩
  rw [TickerData.fastShows_iff, hlast.right_iff _ h₁, (hprice _).right_iff _ h₂,
    (hprice _).right_iff _ h₃, hvolume.right_iff _ h₄]
  simp only [TickerData.fastOutcome, List.prod_cons, List.prod_nil, Outcome.mul_eq_exact,
    Outcome.one_eq, and_true]
  exact and_congr_right fun _ => and_congr_right fun _ => and_congr_right fun _ =>
    and_congr_right fun _ => hshown

/-! ### Fast trades, levels and candles -/

namespace DealData

variable (spec : InstrumentSpec) (deal : DealData)

/-- Both decimals are read before they are quantized. -/
def fastOutcome : Outcome :=
  deal.outcome * [.check (FitsUnits (valueRead deal.price) spec.priceScale),
    .check (FitsUnits (valueRead deal.quantity) spec.qtyScale)].prod

/-- The trade has the numbers of the record, in units. -/
@[mk_iff]
structure FastShows (t : FastTrade) : Prop where
  price : DenotesUnits spec.priceScale deal.price t.price
  quantity : DenotesUnits spec.qtyScale deal.quantity t.quantity

end DealData

theorem values_of_tradeToUnified {deal : DealData} {spec : InstrumentSpec} {index : ℕ}
    {now : TimestampMs × TimestampMs} {t : TradeTick}
    (h : tradeToUnified deal spec index now = .ok t) :
    decimalFromValue deal.price = .ok t.price.value ∧
      decimalFromValue deal.quantity = .ok t.quantity.value := by
  obtain ⟨price, hprice, h⟩ := except_bind_eq_ok.1 h
  obtain ⟨quantity, hquantity, h⟩ := except_bind_eq_ok.1 h
  obtain rfl := Except.ok.inj h
  exact ⟨hprice, hquantity⟩

theorem follows_fastTrade (deal : DealData) (spec : InstrumentSpec) (index : ℕ)
    (now : TimestampMs × TimestampMs) :
    Follows .panic (fastTrade deal spec index now) (deal.fastOutcome spec)
      (deal.FastShows spec) := by
  have htrade := follows_tradeToUnified deal spec index now
  refine ⟨htrade.describes.bind fun t ht => ?_, fun t h => ?_⟩
  · obtain ⟨hp, hq⟩ := values_of_tradeToUnified ht
    exact (follows_quantize hp).describes.bind fun _ _ =>
      (follows_quantize hq).describes.bind fun _ _ => .ok _
  · obtain ⟨trade, h₁, h⟩ := except_bind_eq_ok.1 h
    obtain ⟨price, h₂, h⟩ := except_bind_eq_ok.1 h
    obtain ⟨quantity, h₃, h⟩ := except_bind_eq_ok.1 h
    obtain rfl := Except.ok.inj h
    obtain ⟨hp, hq⟩ := values_of_tradeToUnified h₁
    have hfits := ((follows_quantize hp).right_iff _ h₂).1 trivial
    have hfits' := ((follows_quantize hq).right_iff _ h₃).1 trivial
    rw [DealData.fastShows_iff, denotesUnits_iff hp h₂, denotesUnits_iff hq h₃,
      ← DealData.shows_iff, htrade.right_iff _ h₁]
    simp only [DealData.fastOutcome, List.prod_cons, List.prod_nil, Outcome.mul_eq_exact, hfits,
      hfits', Outcome.one_eq, and_self, and_true]

/-- The values of a level, which has two at least. -/
def fastLevelOutcome (spec : InstrumentSpec) : List Json → Outcome
  | price :: quantity :: rest => levelOutcome (price :: quantity :: rest) *
      [.check (FitsUnits (valueRead price) spec.priceScale),
        .check (FitsUnits (valueRead quantity) spec.qtyScale)].prod
  | _ => .refused

/-- The level has the first two numbers of the record, in units. -/
def FastLevelShows (spec : InstrumentSpec) (level : List Json) (l : FastPrice × FastQuantity) :
    Prop :=
  ∃ price quantity rest, level = price :: quantity :: rest ∧
    DenotesUnits spec.priceScale price l.1 ∧ DenotesUnits spec.qtyScale quantity l.2

theorem values_of_levelToBookLevel {price quantity : Json} {rest : List Json} {l : OrderBookLevel}
    (h : levelToBookLevel (price :: quantity :: rest) = .ok l) :
    decimalFromValue price = .ok l.price.value ∧
      decimalFromValue quantity = .ok l.quantity.value := by
  obtain ⟨p, hp, h⟩ := except_bind_eq_ok.1 h
  obtain ⟨q, hq, h⟩ := except_bind_eq_ok.1 h
  obtain rfl := Except.ok.inj h
  exact ⟨hp, hq⟩

theorem follows_fastBookTuple (spec : InstrumentSpec) (level : List Json) :
    Follows .panic (fastBookTuple spec level) (fastLevelOutcome spec level)
      (FastLevelShows spec level) := by
  obtain _ | ⟨price, _ | ⟨quantity, rest⟩⟩ := level
  · exact .refuse (by simp)
  · exact .refuse (by simp)
  have hlevel := follows_levelToBookLevel (price :: quantity :: rest)
  refine ⟨hlevel.describes.bind fun l hl => ?_, fun u h => ?_⟩
  · obtain ⟨hp, hq⟩ := values_of_levelToBookLevel hl
    exact (follows_quantize hp).describes.bind fun _ _ =>
      (follows_quantize hq).describes.bind fun _ _ => .ok _
  · obtain ⟨l, h₁, h⟩ := except_bind_eq_ok.1 h
    obtain ⟨p, h₂, h⟩ := except_bind_eq_ok.1 h
    obtain ⟨q, h₃, h⟩ := except_bind_eq_ok.1 h
    obtain rfl := Except.ok.inj h
    obtain ⟨hp, hq⟩ := values_of_levelToBookLevel h₁
    have hfits := ((follows_quantize hp).right_iff _ h₂).1 trivial
    have hfits' := ((follows_quantize hq).right_iff _ h₃).1 trivial
    have hshown : FastLevelShows spec (price :: quantity :: rest) (p, q) ↔
        LevelShows (price :: quantity :: rest) l := by
      simp [FastLevelShows, LevelShows, denotesUnits_iff hp h₂, denotesUnits_iff hq h₃]
    rw [hshown, hlevel.right_iff _ h₁]
    simp only [fastLevelOutcome, List.prod_cons, List.prod_nil, Outcome.mul_eq_exact, hfits,
      hfits', Outcome.one_eq, and_self, and_true]

namespace KlineData

variable (spec : InstrumentSpec) (nowMs : TimestampMs) (kline : KlineData)

/-- The volume, under either of its names. -/
def volume : Json := (kline.amount.or kline.quantity).getD .null

/-- What decoding the candle in units should give; its times are computed. -/
def outcome (interval : KlineInterval) : Outcome :=
  [.computed (FitsI64 (kline.openSeconds nowMs * 1000)),
    unitsOutcome spec.priceScale kline.openPrice, unitsOutcome spec.priceScale kline.high,
    unitsOutcome spec.priceScale kline.low, unitsOutcome spec.priceScale kline.close,
    valueOutcome kline.volume, .check (FitsUnits (valueRead kline.volume) spec.qtyScale),
    .computed (interval.EndFits (kline.openSeconds nowMs * 1000))].prod

/-- The candle has the numbers of the record, in units. -/
@[mk_iff]
structure Shows (k : FastKline) : Prop where
  openPrice : DenotesUnits spec.priceScale kline.openPrice k.openPrice
  high : DenotesUnits spec.priceScale kline.high k.high
  low : DenotesUnits spec.priceScale kline.low k.low
  close : DenotesUnits spec.priceScale kline.close k.close
  volume : DenotesUnits spec.qtyScale kline.volume k.volume

end KlineData

theorem follows_fastKline (kline : KlineData) (spec : InstrumentSpec) (nowMs : TimestampMs) :
    Follows .panic (fastKline kline spec nowMs)
      ((fastInterval kline.interval).toOption.elim .refused (kline.outcome spec nowMs))
      (kline.Shows spec) := by
  refine (reads_mapError _).select fun interval _ => ?_
  have hopenTime := Follows.of_computed (describes_checkedI64 (kline.openSeconds nowMs * 1000))
  have hprice (value : Json) : Follows Failure.panic (fastDecimal spec.priceScale value)
      (unitsOutcome spec.priceScale value)
      (DenotesUnits (k := .price) spec.priceScale value) := follows_fastDecimal _ _
  have hvolume := follows_decimalFromOptionalValue (kline.amount.or kline.quantity)
  have hunits {d : Decimal} (h : decimalFromOptionalValue (kline.amount.or kline.quantity) = .ok d) :
      Follows Failure.panic (((⟨d⟩ : Quantity).quantize spec.qtyScale).mapError Failure.error)
        (.check (FitsUnits (valueRead kline.volume) spec.qtyScale)) fun _ => True :=
    follows_quantize (decimalFromOptionalValue_eq _ ▸ h)
  have hclose {t : TimestampMs} (h : checkedI64 (kline.openSeconds nowMs * 1000) = .ok t) :=
    Follows.of_computed (describes_closeTimeMs interval (KlineInterval.toInt_checkedI64 h))
  refine ⟨hopenTime.describes.bind fun _ ht => (hprice _).describes.bind fun _ _ =>
    (hprice _).describes.bind fun _ _ => (hprice _).describes.bind fun _ _ =>
    (hprice _).describes.bind fun _ _ => hvolume.describes.bind fun _ hv =>
    (hunits hv).describes.bind fun _ _ => (hclose ht).describes.bind fun _ _ => .ok _,
    fun k h => ?_⟩
  obtain ⟨openTime, h₁, h⟩ := except_bind_eq_ok.1 h
  obtain ⟨openPrice, h₂, h⟩ := except_bind_eq_ok.1 h
  obtain ⟨high, h₃, h⟩ := except_bind_eq_ok.1 h
  obtain ⟨low, h₄, h⟩ := except_bind_eq_ok.1 h
  obtain ⟨close, h₅, h⟩ := except_bind_eq_ok.1 h
  obtain ⟨volume, h₆, h⟩ := except_bind_eq_ok.1 h
  obtain ⟨units, h₇, h⟩ := except_bind_eq_ok.1 h
  obtain ⟨closeTime, h₈, h⟩ := except_bind_eq_ok.1 h
  obtain rfl := Except.ok.inj h
  have hstart := (hopenTime.right_iff _ h₁).1 trivial
  have hfits := ((hunits h₆).right_iff _ h₇).1 trivial
  have hend := ((hclose h₁).right_iff _ h₈).1 trivial
  have hshown : DenotesUnits spec.qtyScale kline.volume units ↔
      valueOutcome kline.volume = .exact :=
    (denotesUnits_iff (decimalFromOptionalValue_eq _ ▸ h₆) h₇).trans (hvolume.right_iff _ h₆)
  rw [KlineData.shows_iff, (hprice _).right_iff _ h₂, (hprice _).right_iff _ h₃,
    (hprice _).right_iff _ h₄, (hprice _).right_iff _ h₅, hshown]
  simp only [KlineData.outcome, List.prod_cons, List.prod_nil, Outcome.mul_eq_exact, hstart, hfits,
    hend, Outcome.one_eq, true_and, and_true]

end Mexc

end BatMarkets
