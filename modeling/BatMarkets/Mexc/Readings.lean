import BatMarkets.Core.Interval
import BatMarkets.Core.Quantize
import BatMarkets.Mexc.Numbers

/-!
# What the adapter of MEXC does with the numbers it reads

The adapter reads a decimal that has to be there, one that may be absent, or one that it leaves out
when it cannot be read.  It quantizes what it has read, multiplies or adds it, and computes times in
milliseconds from seconds.  This module has the outcomes of these parts, in terms of the numbers
that the values denote or are read as.

## Main results

* `Mexc.denotes_iff` : what has been read is right exactly if some decimal is the number.
* `Mexc.follows_keptDecimal` : a decimal that is left out when it cannot be read.
* `Mexc.describes_quantize`, `Mexc.describes_mul`, `Mexc.describes_add` : computing with decimals.
-/

namespace BatMarkets

open Decoding Text Wire

/-- The number, rounded at the scale, is a number of units in the range of an `i64`. -/
def FitsUnits (q : ℚ) (scale : ℕ) : Prop :=
  FitsI64 (Decimal.roundHalfAway (q * 10 ^ min scale 28))

instance (q : ℚ) (scale : ℕ) : Decidable (FitsUnits q scale) :=
  inferInstanceAs (Decidable (FitsI64 _))

theorem quantizeDecimal_isOk_iff {d : Decimal} {scale : ℕ} :
    (∃ u, quantizeDecimal d scale = .ok u) ↔ FitsUnits d.toRat scale := by
  have hrange : FitsUnits d.toRat scale ↔ FitsI64 (d.rescale scale).mantissa := by
    unfold FitsUnits
    obtain hround | ⟨hlarge, hlarge'⟩ := d.rescale_spec_min scale
    · rw [hround]
    · unfold FitsI64
      omega
  rw [hrange]
  constructor
  · rintro ⟨u, hu⟩
    by_contra hfit
    have herror : quantizeDecimal d scale = .error _ := if_neg hfit
    rw [hu] at herror
    cases herror
  · intro hfit
    exact ⟨_, if_pos hfit⟩

/-- The number is below the largest one that is rounded to a decimal. -/
def FitsDecimal (q : ℚ) : Prop := |q| < 2 ^ 96 - 1 / 2

instance (q : ℚ) : Decidable (FitsDecimal q) := inferInstanceAs (Decidable (_ < _))

/-- The end of the candle that opens at this time, if it has one, is a time. -/
def KlineInterval.EndFits (interval : KlineInterval) (openMs : ℤ) : Prop :=
  ∀ durationMs ∈ interval.durationMs, openMs + durationMs < 2 ^ 63

instance (interval : KlineInterval) (openMs : ℤ) : Decidable (interval.EndFits openMs) := by
  unfold KlineInterval.EndFits
  infer_instance

namespace Mexc

/-! ### Computing -/

section Computing

variable {a b : Decimal} {p q : ℚ}

theorem describes_mul (ha : a.toRat = p) (hb : b.toRat = q) :
    Describes .panic (a.mul b) (.computed (FitsDecimal (p * q))) := by
  subst ha hb
  by_cases hfits : FitsDecimal (a.toRat * b.toRat)
  · obtain ⟨product, hproduct, -⟩ := Decimal.mul_of_fits hfits
    rw [decide_eq_true hfits, hproduct]
    exact ⟨product, rfl⟩
  · rw [decide_eq_false hfits, Decimal.mul_of_not_fits (not_lt.1 hfits)]
    rfl

theorem toRat_of_mul {product : Decimal} (ha : a.toRat = p) (hb : b.toRat = q)
    (h : a.mul b = .ok product) : product.toRat = Decimal.rounded (p * q) := by
  subst ha hb
  rcases lt_or_ge |a.toRat * b.toRat| (2 ^ 96 - 1 / 2) with hfits | hlarge
  · obtain ⟨product', hproduct, hvalue⟩ := Decimal.mul_of_fits hfits
    rw [h] at hproduct
    rw [Except.ok.inj hproduct, hvalue, Decimal.roundedProduct_eq]
  · rw [Decimal.mul_of_not_fits hlarge] at h
    cases h

theorem describes_add (ha : a.toRat = p) (hb : b.toRat = q) :
    Describes .panic (a.add b) (.computed (FitsDecimal (p + q))) := by
  subst ha hb
  by_cases hfits : FitsDecimal (a.toRat + b.toRat)
  · obtain ⟨sum, hsum, -⟩ := Decimal.add_of_fits hfits
    rw [decide_eq_true hfits, hsum]
    exact ⟨sum, rfl⟩
  · rw [decide_eq_false hfits, Decimal.add_of_not_fits (not_lt.1 hfits)]
    rfl

theorem toRat_of_add {sum : Decimal} (ha : a.toRat = p) (hb : b.toRat = q)
    (h : a.add b = .ok sum) : sum.toRat = Decimal.rounded (p + q) := by
  subst ha hb
  rcases lt_or_ge |a.toRat + b.toRat| (2 ^ 96 - 1 / 2) with hfits | hlarge
  · obtain ⟨sum', hsum, hvalue⟩ := Decimal.add_of_fits hfits
    rw [h] at hsum
    rw [Except.ok.inj hsum, hvalue]
  · rw [Decimal.add_of_not_fits hlarge] at h
    cases h

theorem describes_quantize {k : ValueKind} {scale : ℕ} (ha : a.toRat = p) :
    Describes Failure.panic (((⟨a⟩ : DecimalValue k).quantize scale).mapError Failure.error)
      (.check (FitsUnits p scale)) := by
  subst ha
  unfold DecimalValue.quantize
  cases hu : quantizeDecimal a scale with
  | ok u =>
    have hfits := quantizeDecimal_isOk_iff.1 ⟨u, hu⟩
    rw [decide_eq_true hfits]
    exact ⟨⟨u⟩, rfl⟩
  | error e =>
    have hfits : ¬ FitsUnits a.toRat scale := by
      intro hfits
      obtain ⟨u, hu'⟩ := quantizeDecimal_isOk_iff.2 hfits
      rw [hu] at hu'
      cases hu'
    rw [decide_eq_false hfits]
    exact ⟨_, by simp, rfl⟩

end Computing

theorem describes_checkedI64 (n : ℤ) :
    Describes .panic (checkedI64 n) (.computed (FitsI64 n)) := by
  by_cases hfits : FitsI64 n
  · rw [decide_eq_true hfits]
    exact ⟨_, if_pos hfits⟩
  · rw [decide_eq_false hfits]
    exact if_neg hfits

theorem describes_closeTimeMs (interval : KlineInterval) {openTime : TimestampMs} {openMs : ℤ}
    (h : openTime.toInt = openMs) :
    Describes .panic (interval.closeTimeMs openTime) (.computed (interval.EndFits openMs)) := by
  subst h
  have hlow := openTime.le_toInt
  unfold KlineInterval.closeTimeMs
  cases hduration : interval.durationMs with
  | some durationMs =>
    have hrange := KlineInterval.durationMs_eq_some hduration
    dsimp only
    have hiff : interval.EndFits openTime.toInt ↔ openTime.toInt + durationMs < 2 ^ 63 := by
      simp [KlineInterval.EndFits, hduration]
    by_cases hfits : interval.EndFits openTime.toInt
    · rw [decide_eq_true hfits]
      rw [hiff] at hfits
      have hsum := KlineInterval.checkedI64_eq (openTime.toInt + durationMs) ⟨by omega, hfits⟩
      have hend := KlineInterval.checkedI64_eq (openTime.toInt + durationMs - 1)
        ⟨by omega, by omega⟩
      rw [hsum]
      simp only [bind, Except.bind, pure, Except.pure]
      rw [Int64.toInt_ofInt_of_le (by omega) hfits, hend]
      exact ⟨_, rfl⟩
    · rw [decide_eq_false hfits]
      rw [hiff] at hfits
      have hsum : checkedI64 (openTime.toInt + durationMs) = .error .panic :=
        if_neg fun h => hfits h.2
      rw [hsum]
      rfl
  | none =>
    -- the calendar ends long before the times do
    have hfits : interval.EndFits openTime.toInt := by simp [KlineInterval.EndFits, hduration]
    rw [decide_eq_true hfits]
    dsimp only
    split
    · next hdates =>
      have hrange := KlineInterval.firstDay_range hdates.2
      have hend := KlineInterval.checkedI64_eq
        (Calendar.firstDay (Calendar.monthOfDay (openTime.toInt / dayMs) + 1) * dayMs - 1)
        ⟨by omega, by omega⟩
      rw [hend]
      exact ⟨_, rfl⟩
    · exact ⟨_, rfl⟩

/-! ### Decimals -/

/-- The value is a number that no decimal is. -/
def Unrepresentable (value : Json) : Prop :=
  isNumber (valueText value).toList = true ∧ ¬ Decimal.Representable (valueNumber value)

instance (value : Json) : Decidable (Unrepresentable value) := by
  unfold Unrepresentable
  infer_instance

/-- What has been read is right if some decimal is the number. -/
theorem denotes_iff {value : Json} {d : Decimal} (h : decimalFromValue value = .ok d) :
    Denotes value d ↔ ¬ Unrepresentable value := by
  have hfollows := follows_decimalFromValue value
  constructor
  · intro hd hnone
    exact hnone.2 (hd ▸ Decimal.representable_toRat d)
  · intro hsome
    have hrep : Decimal.Representable (valueNumber value) := by
      by_contra hrep
      exact hsome ⟨(read_of_decimalFromValue h).1, hrep⟩
    refine (hfollows.right_iff d h).2 ?_
    obtain hexact | hinexact := hfollows.describes.isOk_iff.1 ⟨d, h⟩
    · exact hexact
    · exact absurd hrep.onGrid (not_onGrid_of_inexact hinexact)

/-- A decimal that may be absent. -/
def optionalOutcome (value : Option Json) : Outcome := value.elim .exact valueOutcome

theorem follows_mapM_decimalFromValue (value : Option Json) :
    Follows .panic (value.mapM decimalFromValue) (optionalOutcome value)
      (Option.Rel Denotes value) :=
  .mapOption follows_decimalFromValue value

theorem decimalFromOptionalValue_eq (value : Option Json) :
    decimalFromOptionalValue value = decimalFromValue (value.getD .null) := by
  cases value <;> rfl

/-- A decimal that is left out when it cannot be read. -/
def keptOutcome (value : Json) : Outcome :=
  match valueOutcome value with
  | .refused => .taken (¬ Unrepresentable value)
  | o => o

/-- The decimal is the number, and is left out only if there is none. -/
def Kept (value : Json) : Option Decimal → Prop
  | some d => Denotes value d
  | none => ¬ Unrepresentable value

theorem follows_keptDecimal (value : Option Json) :
    Follows .panic (okOrNone (decimalFromOptionalValue value)) (keptOutcome (value.getD .null))
      (Kept (value.getD .null)) := by
  rw [decimalFromOptionalValue_eq]
  generalize value.getD .null = value
  have hfollows := follows_decimalFromValue value
  unfold keptOutcome
  cases hout : valueOutcome value with
  | refused =>
    have hdescribes := hfollows.describes
    rw [hout] at hdescribes
    obtain ⟨e, he, hr⟩ := hdescribes
    rw [hr]
    cases e with
    | panic => exact absurd rfl he
    | error e =>
      refine ⟨.of_ok rfl ?_, fun r hr => ?_⟩
      · by_cases hnone : Unrepresentable value <;> simp [hnone, Outcome.taken]
      · obtain rfl : none = r := Except.ok.inj hr
        simp [Kept]
  | panics =>
    have hr : decimalFromValue value = .error .panic := by
      have hdescribes := hfollows.describes
      rw [hout] at hdescribes
      exact hdescribes
    rw [hr]
    exact ⟨rfl, fun r hr => by cases hr⟩
  | _ =>
    obtain ⟨d, hd⟩ := hfollows.describes.isOk_iff.2 (by simp [hout])
    have hright := hfollows.right_iff d hd
    rw [hd]
    refine ⟨⟨some d, rfl⟩, fun r hr => ?_⟩
    obtain rfl : some d = r := Except.ok.inj hr
    rw [hout] at hright
    exact hright

/-- A zero that is left out as well is right if it is the number. -/
theorem kept_filter_iff {value : Option Json} {r : Option Decimal}
    (h : okOrNone (decimalFromOptionalValue value) = .ok r) :
    Kept (value.getD .null) (r.filter fun d => !d.isZero) ↔ Kept (value.getD .null) r := by
  rw [decimalFromOptionalValue_eq] at h
  cases r with
  | none => rfl
  | some d =>
    have hd : decimalFromValue (value.getD .null) = .ok d := by
      cases hread : decimalFromValue (value.getD .null) with
      | ok d' =>
        rw [hread] at h
        rw [Option.some.inj (Except.ok.inj h)]
      | error e =>
        rw [hread] at h
        cases e <;> cases h
    by_cases hzero : d.isZero = true
    · have hnone : (some d).filter (fun d => !d.isZero) = none := by simp [Option.filter, hzero]
      rw [hnone]
      exact (denotes_iff hd).symm
    · have hsome : (some d).filter (fun d => !d.isZero) = some d := by simp [Option.filter, hzero]
      rw [hsome]

end Mexc

end BatMarkets
