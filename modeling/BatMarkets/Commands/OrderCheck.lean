import BatMarkets.Commands.Create
import BatMarkets.Core.Products

/-!
# The check of an order

An order is acceptable if its quantity and its notional reach the minimum of its instrument, and if
it has the prices that its type requires.  `validate_create_order` (`runtime.rs`) compares the
product of price and quantity with the minimal notional.  The notional of an order is that product
times the contract size, and so is the minimal notional of an instrument; and the product is one of
decimals, which is rounded when it has too many digits and panics when it is too large.

## Main results

* `validates_right_iff` : the orders that the check decides rightly.
-/

namespace BatMarkets

open CommandM Interleaving Prog

/-- The prices that an order of the type must have and must not have. -/
def OrderType.Requires : OrderType → (price triggerPrice : Option Price) → Prop
  | .market, price, _ => price = none
  | .limit, price, _ => price ≠ none
  | .stopMarket, price, triggerPrice => price = none ∧ triggerPrice ≠ none
  | .takeProfitMarket, price, triggerPrice => price = none ∧ triggerPrice ≠ none
  | .stopLimit, price, triggerPrice => price ≠ none ∧ triggerPrice ≠ none
  | .takeProfitLimit, price, triggerPrice => price ≠ none ∧ triggerPrice ≠ none

variable (context : CommandContext) (spec : InstrumentSpec) (request : CreateOrderRequest)

/-- The order has the prices that its type requires. -/
def HasItsPrices : Prop := request.orderType.Requires request.price request.triggerPrice

/-- The order may be placed.  Quantities are numbers of contracts, so the notional of an order
counts the contract size. -/
structure Acceptable : Prop where
  quantity : spec.minQty.value.toRat ≤ request.quantity.value.toRat
  notional : ∀ price, request.price = some price → spec.minNotional.value.toRat ≤
    price.value.toRat * request.quantity.value.toRat * spec.contractSize.value.toRat
  prices : HasItsPrices request

/-- The outcome is not a panic, and it is `Ok` exactly if the order is to pass. -/
def ReturnsOkIff (outcome : Except Failure Unit) (passes : Prop) : Prop :=
  outcome ≠ .error .panic ∧ (outcome = .ok () ↔ passes)

/-- The check of an order of the instrument ends so. -/
def Validates (outcome : Except Failure Unit) : Prop :=
  (validateCreateOrder context request).run.Ends []
    [⟨.runtime (.resolveInstrument request.instrumentId), some spec⟩] outcome

/-- The orders that are too small, have no price, or have a product of price and quantity that fits
a decimal and, after rounding, reaches the minimal notional exactly if the notional does. -/
def DecidedRightly : Prop :=
  request.quantity.value.toRat < spec.minQty.value.toRat ∨
    ∀ price, request.price = some price →
      |price.value.toRat * request.quantity.value.toRat| < 2 ^ 96 - 1 / 2 ∧
      (HasItsPrices request →
        (spec.minNotional.value.toRat ≤ price.value.roundedProduct request.quantity.value ↔
          spec.minNotional.value.toRat ≤ price.value.toRat * request.quantity.value.toRat *
            spec.contractSize.value.toRat))

variable {context spec request}

/-! ### What the check does -/

theorem validates_iff {outcome : Except Failure Unit} :
    Validates context spec request outcome ↔ outcome = checkCreateOrder spec request := by
  unfold Validates validateCreateOrder
  rw [run_commandSpec_bind, ends_call]
  constructor
  · rintro ⟨reply, he⟩
    cases reply with
    | none => cases he
    | some found =>
      obtain ⟨htrace, houtcome⟩ := ends_ret.1 he
      cases htrace
      exact houtcome
  · rintro rfl
    exact ⟨some spec, .ret _ _⟩

/-- A quantity below the minimum is refused. -/
theorem check_of_small (h : request.quantity.value.lt spec.minQty.value = true) :
    ∃ e, checkCreateOrder spec request = .error (.error e) := by
  unfold checkCreateOrder
  rw [if_pos h]
  exact ⟨_, rfl⟩

section Notional

variable {price : Price} (hquantity : ¬ request.quantity.value.lt spec.minQty.value = true)
  (hprice : request.price = some price)
include hquantity hprice

/-- A product of price and quantity that does not fit panics. -/
theorem check_of_panic (h : price.value.mul request.quantity.value = .error .panic) :
    checkCreateOrder spec request = .error .panic := by
  simp [checkCreateOrder, hquantity, hprice, h, except_error_bind]

/-- A product below the minimal notional is refused. -/
theorem check_of_low {notional : Decimal}
    (h : price.value.mul request.quantity.value = .ok notional)
    (hlow : notional.lt spec.minNotional.value = true) :
    ∃ e, checkCreateOrder spec request = .error (.error e) := by
  unfold checkCreateOrder
  rw [if_neg hquantity, hprice]
  simp only [h, except_ok_bind]
  rw [if_pos hlow]
  exact ⟨_, rfl⟩

end Notional

theorem returnsOkIff_pass {P : Prop} (h : P) : ReturnsOkIff (.ok ()) P := ⟨by simp, by simp [h]⟩

theorem returnsOkIff_refuse {P : Prop} {e : MarketError} (h : ¬ P) :
    ReturnsOkIff (.error (.error e)) P :=
  ⟨by simp, by simp [h]⟩

theorem ReturnsOkIff.iff {P Q : Prop} {outcome : Except Failure Unit} (h : ReturnsOkIff outcome P) :
    ReturnsOkIff outcome Q ↔ (P ↔ Q) := by
  unfold ReturnsOkIff at *
  rw [h.2]
  exact and_iff_right h.1

theorem not_returnsOkIff_panic {P : Prop} : ¬ ReturnsOkIff (.error .panic) P := fun h => h.1 rfl

/-- Whether the order has its prices is decided last. -/
theorem check_of_large (hquantity : ¬ request.quantity.value.lt spec.minQty.value = true)
    (hnotional : ∀ price, request.price = some price → ∃ notional,
      price.value.mul request.quantity.value = .ok notional ∧
        ¬ notional.lt spec.minNotional.value = true) :
    ReturnsOkIff (checkCreateOrder spec request) (HasItsPrices request) := by
  unfold HasItsPrices checkCreateOrder
  rw [if_neg hquantity]
  cases hprice : request.price with
  | none =>
    cases request.orderType <;> cases request.triggerPrice <;>
      first
        | exact returnsOkIff_pass (by simp [OrderType.Requires])
        | exact returnsOkIff_refuse (by simp [OrderType.Requires])
  | some price =>
    obtain ⟨notional, hmul, hlow⟩ := hnotional price hprice
    simp only [hmul, except_ok_bind]
    rw [if_neg hlow]
    cases request.orderType <;> cases request.triggerPrice <;>
      first
        | exact returnsOkIff_pass (by simp [OrderType.Requires])
        | exact returnsOkIff_refuse (by simp [OrderType.Requires])

/-! ### The orders that are decided rightly -/

theorem lt_iff_not_le {a b : Decimal} : a.lt b = true ↔ ¬ b.toRat ≤ a.toRat := by
  rw [Decimal.lt_iff, not_le]

/-- An order without a price, or whose product of price and quantity fits, is decided by its prices
and by the rounded product. -/
theorem check_of_fits (hquantity : ¬ request.quantity.value.lt spec.minQty.value = true)
    (hfits : ∀ price, request.price = some price →
      |price.value.toRat * request.quantity.value.toRat| < 2 ^ 96 - 1 / 2) :
    ReturnsOkIff (checkCreateOrder spec request) (HasItsPrices request ∧
      ∀ price, request.price = some price →
        spec.minNotional.value.toRat ≤ price.value.roundedProduct request.quantity.value) := by
  cases hprice : request.price with
  | none =>
    have hlarge := check_of_large hquantity (by simp [hprice])
    simpa using hlarge
  | some price =>
    obtain ⟨notional, hmul, hvalue⟩ := Decimal.mul_of_fits (hfits price hprice)
    simp only [Option.some.injEq, forall_eq']
    rw [← hvalue]
    by_cases hlow : notional.lt spec.minNotional.value = true
    · obtain ⟨e, he⟩ := check_of_low hquantity hprice hmul hlow
      rw [he]
      exact returnsOkIff_refuse fun h => lt_iff_not_le.1 hlow h.2
    · have hlarge : ReturnsOkIff (checkCreateOrder spec request) (HasItsPrices request) := by
        refine check_of_large hquantity fun price' hprice' => ?_
        rw [hprice] at hprice'
        obtain rfl := Option.some.inj hprice'
        exact ⟨notional, hmul, hlow⟩
      have hhigh := not_not.1 (mt lt_iff_not_le.2 hlow)
      simpa [hhigh] using hlarge

/-- A large enough order is acceptable if it has its prices and its notional is large enough. -/
theorem acceptable_iff (hquantity : spec.minQty.value.toRat ≤ request.quantity.value.toRat) :
    Acceptable spec request ↔ HasItsPrices request ∧ ∀ price, request.price = some price →
      spec.minNotional.value.toRat ≤ price.value.toRat * request.quantity.value.toRat *
        spec.contractSize.value.toRat :=
  ⟨fun h => ⟨h.prices, h.notional⟩, fun h => ⟨hquantity, h.2, h.1⟩⟩

theorem returnsOkIff_acceptable_iff :
    ReturnsOkIff (checkCreateOrder spec request) (Acceptable spec request) ↔
      DecidedRightly spec request := by
  unfold DecidedRightly
  by_cases hquantity : request.quantity.value.lt spec.minQty.value = true
  · -- too small an order is refused, and rightly so
    obtain ⟨e, he⟩ := check_of_small hquantity
    rw [he]
    refine iff_of_true (returnsOkIff_refuse fun h => ?_) (.inl (Decimal.lt_iff.1 hquantity))
    exact lt_iff_not_le.1 hquantity h.quantity
  have henough := not_not.1 (mt lt_iff_not_le.2 hquantity)
  rw [or_iff_right henough.not_gt]
  by_cases hfits : ∀ price, request.price = some price →
      |price.value.toRat * request.quantity.value.toRat| < 2 ^ 96 - 1 / 2
  · rw [(check_of_fits hquantity hfits).iff, acceptable_iff henough]
    cases hprice : request.price with
    | none => simp
    | some price =>
      have hfit := hfits price hprice
      simp only [Option.some.injEq, forall_eq', hfit, true_and]
      tauto
  · obtain ⟨price, hprice, hlarge⟩ := by push Not at hfits; exact hfits
    rw [check_of_panic hquantity hprice (Decimal.mul_of_not_fits hlarge)]
    refine iff_of_false not_returnsOkIff_panic fun h => ?_
    exact absurd (h price hprice).1 (not_lt.2 hlarge)

/-- **The check of an order, exactly.**  It ends, without a panic and with the right decision, for
the orders that are `DecidedRightly` and for no others. -/
theorem validates_right_iff :
    (∃ outcome, Validates context spec request outcome ∧
      ReturnsOkIff outcome (Acceptable spec request)) ↔ DecidedRightly spec request := by
  simp only [validates_iff, exists_eq_left]
  exact returnsOkIff_acceptable_iff

/-! ### A contract of a thousand coins -/

/-- An instrument of which a contract is a thousand coins and has a minimal notional of 0.001. -/
def thousandCoins : InstrumentSpec :=
  { InstrumentSpec.active .mexc "PEPE/USDT:USDT" "PEPE_USDT" 6 0 with
    contractSize := ⟨.literal 1000 0⟩
    tickSize := ⟨.literal 1 6⟩
    minNotional := ⟨.literal 1 3⟩ }

/-- An order to buy one contract at 0.00002, which has a notional of 0.02. -/
def cheapOrder : CreateOrderRequest where
  requestId := none
  instrumentId := ⟨"PEPE/USDT:USDT"⟩
  clientOrderId := none
  side := .buy
  orderType := .limit
  timeInForce := none
  quantity := ⟨.literal 1 0⟩
  price := some ⟨.literal 2 5⟩
  triggerPrice := none
  triggerType := none
  reduceOnly := false
  postOnly := false

theorem acceptable_cheapOrder : Acceptable thousandCoins cheapOrder where
  quantity := by
    norm_num [thousandCoins, cheapOrder, InstrumentSpec.active, Decimal.toRat, Decimal.ofNat,
      Decimal.literal]
  notional := by
    norm_num [thousandCoins, cheapOrder, Decimal.toRat, Decimal.ofNat,
      Decimal.literal]
  prices := by
    simp [HasItsPrices, cheapOrder, OrderType.Requires]

/-- An order that is large enough is refused: its notional is taken for a thousandth of what it
is. -/
theorem large_enough_order_refused :
    ¬ ∀ (context : CommandContext) (spec : InstrumentSpec) (request : CreateOrderRequest),
      ∃ outcome, Validates context spec request outcome ∧
        ReturnsOkIff outcome (Acceptable spec request) := by
  intro h
  obtain ⟨outcome, houtcome, -, hpasses⟩ := h (restContext .mexc) thousandCoins cheapOrder
  rw [validates_iff] at houtcome
  rw [houtcome] at hpasses
  have hrefused : checkCreateOrder thousandCoins cheapOrder ≠ .ok () := by decide +kernel
  exact hrefused (hpasses.2 acceptable_cheapOrder)

end BatMarkets
