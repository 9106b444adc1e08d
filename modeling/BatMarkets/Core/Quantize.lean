import BatMarkets.Core.Numeric

/-!
# The grid of a scale

What `quantize` of `numeric.rs` does at a scale: it takes the multiples of the unit to themselves and
every other number to the nearest one.  A decimal whose mantissa has no room for the scale is not
among the numbers that have a nearest multiple in the range of an `i64`, so that a rescale that stops
short is always refused.

## Main results

* `quantizeDecimal_eq` : `quantizeDecimal` rounds, and refuses what does not fit, where a rescale
  stops short too.
* `quantize_exact_nearest` : the four properties of `quantize` at a scale of at most 28.
-/

namespace BatMarkets

/-- The multiple of the unit of a scale is as near to a number as there is one, and the one further
from zero if there are two. -/
structure NearestAt (scale : Nat) (q : ℚ) (units : ℤ) : Prop where
  close : |(units : ℚ) / 10 ^ scale - q| ≤ 1 / 10 ^ scale / 2
  tie : |(units : ℚ) / 10 ^ scale - q| = 1 / 10 ^ scale / 2 → |q| < |(units : ℚ) / 10 ^ scale|

/-- The number is in the range of an `i64`. -/
def FitsI64 (n : ℤ) : Prop := -2 ^ 63 ≤ n ∧ n < 2 ^ 63

instance (n : ℤ) : Decidable (FitsI64 n) := inferInstanceAs (Decidable (_ ∧ _))

namespace Decimal

/-! ### Rounding -/

theorem roundHalfAway_neg (q : ℚ) : roundHalfAway (-q) = -roundHalfAway q := by
  have hhalf : ⌊(1 : ℚ) / 2⌋ = 0 := by norm_num
  unfold roundHalfAway
  rcases lt_trichotomy q 0 with hq | rfl | hq
  · rw [if_pos (by linarith), if_neg (not_le.2 hq), neg_neg]
  · simp only [neg_zero, le_refl, if_true, zero_add, hhalf]
  · rw [if_neg (by linarith), if_pos hq.le, neg_neg]

theorem roundHalfAway_nonneg {q : ℚ} (hq : 0 ≤ q) : 0 ≤ roundHalfAway q := by
  unfold roundHalfAway
  rw [if_pos hq]
  exact Int.floor_nonneg.2 (by linarith)

theorem roundHalfAway_mono : Monotone roundHalfAway := by
  intro a b hab
  by_cases hb : 0 ≤ b
  · by_cases ha : 0 ≤ a
    · unfold roundHalfAway
      rw [if_pos ha, if_pos hb]
      exact Int.floor_le_floor (by linarith)
    · have hneg := roundHalfAway_nonneg (q := -a) (by linarith)
      rw [roundHalfAway_neg] at hneg
      have hpos := roundHalfAway_nonneg hb
      omega
  · unfold roundHalfAway
    rw [if_neg hb, if_neg (by linarith)]
    have hfloor : ⌊-b + 1 / 2⌋ ≤ ⌊-a + 1 / 2⌋ := Int.floor_le_floor (by linarith)
    omega

/-- Half-way between two integers, the one further from zero is taken. -/
theorem lt_abs_roundHalfAway {q : ℚ} (h : |(roundHalfAway q : ℚ) - q| = 1 / 2) :
    |q| < |(roundHalfAway q : ℚ)| := by
  have hpos : ∀ x : ℚ, 0 ≤ x → |(roundHalfAway x : ℚ) - x| = 1 / 2 →
      |x| < |(roundHalfAway x : ℚ)| := by
    intro x hx htie
    have hround : roundHalfAway x = ⌊x + 1 / 2⌋ := if_pos hx
    have hlt := Int.lt_floor_add_one (x + 1 / 2)
    rw [hround] at htie ⊢
    obtain hup | hdown := (abs_eq (by norm_num)).1 htie
    · have hgt : x < (⌊x + 1 / 2⌋ : ℚ) := by linarith
      rwa [abs_of_nonneg hx, abs_of_nonneg (hx.trans hgt.le)]
    · linarith
  by_cases hq : 0 ≤ q
  · exact hpos q hq h
  · have htie : |(roundHalfAway (-q) : ℚ) - -q| = 1 / 2 := by
      rw [roundHalfAway_neg, Int.cast_neg, ← h, ← abs_neg]
      congr 1
      ring
    have hlt := hpos (-q) (by linarith) htie
    rwa [roundHalfAway_neg, Int.cast_neg, abs_neg, abs_neg] at hlt

end Decimal

/-! ### Quantising -/

/-- The decimal is rounded at the scale, if that fits. -/
theorem quantizeDecimal_eq (value : Decimal) {scale : Nat} (hs : scale ≤ 28) :
    (∃ u, quantizeDecimal value scale = .ok u ∧
        u.toInt = Decimal.roundHalfAway (value.toRat * 10 ^ scale)) ∨
      (∃ e, quantizeDecimal value scale = .error e) ∧
        ¬ FitsI64 (Decimal.roundHalfAway (value.toRat * 10 ^ scale)) := by
  have hrescale := value.rescale_spec hs
  unfold FitsI64
  by_cases hfit : -2 ^ 63 ≤ (value.rescale scale).mantissa ∧ (value.rescale scale).mantissa < 2 ^ 63
  · have hok : quantizeDecimal value scale =
        .ok (Int64.ofInt (value.rescale scale).mantissa) := if_pos hfit
    exact .inl ⟨_, hok, quantizeDecimal_eq_ok hs hok⟩
  · refine .inr ⟨⟨_, if_neg hfit⟩, ?_⟩
    obtain hround | ⟨-, hlarge⟩ := hrescale
    · rwa [← hround]
    · omega

theorem nearestAt_round (q : ℚ) (scale : Nat) :
    NearestAt scale q (Decimal.roundHalfAway (q * 10 ^ scale)) := by
  have hpow : (0 : ℚ) < 10 ^ scale := by positivity
  have hdist : |(Decimal.roundHalfAway (q * 10 ^ scale) : ℚ) / 10 ^ scale - q| =
      |(Decimal.roundHalfAway (q * 10 ^ scale) : ℚ) - q * 10 ^ scale| / 10 ^ scale := by
    rw [← abs_of_pos hpow, ← abs_div, abs_of_pos hpow]
    congr 1
    field_simp
  constructor
  · rw [hdist, div_right_comm, div_le_div_iff_of_pos_right hpow]
    exact Decimal.abs_roundHalfAway_sub_le _
  · intro htie
    rw [hdist, div_right_comm, div_left_inj' hpow.ne'] at htie
    have hlt := Decimal.lt_abs_roundHalfAway htie
    rwa [abs_mul, abs_of_pos hpow, ← lt_div_iff₀ hpow, ← abs_of_pos hpow, ← abs_div,
      abs_of_pos hpow] at hlt

/-- What `quantize` promises at a scale, for values of a kind. -/
structure QuantizesAt (k : ValueKind) (scale : Nat) : Prop where
  /-- Every number of units comes back from the value it stands for. -/
  exact : ∀ u : FastValue k, ∃ value, u.toDecimal scale = .ok value ∧ value.quantize scale = .ok u
  nearest : ∀ (value : DecimalValue k) (u : FastValue k), value.quantize scale = .ok u →
    NearestAt scale value.value.toRat u.value.toInt
  mono : ∀ (a b : DecimalValue k) (u v : FastValue k), a.quantize scale = .ok u →
    b.quantize scale = .ok v → a.value.toRat ≤ b.value.toRat → u.value.toInt ≤ v.value.toInt
  /-- Refused are exactly the values whose rounded number of units does not fit. -/
  refused : ∀ value : DecimalValue k, (∃ e, value.quantize scale = .error e) ↔
    ¬ FitsI64 (Decimal.roundHalfAway (value.value.toRat * 10 ^ scale))

theorem value_eq_round {k : ValueKind} {value : DecimalValue k} {u : FastValue k} {scale : Nat}
    (hs : scale ≤ 28) (h : value.quantize scale = .ok u) :
    u.value.toInt = Decimal.roundHalfAway (value.value.toRat * 10 ^ scale) := by
  obtain ⟨units, hunits, hround⟩ | ⟨⟨e, herror⟩, -⟩ := quantizeDecimal_eq value.value hs
  · rw [DecimalValue.quantize, hunits] at h
    cases h
    exact hround
  · rw [DecimalValue.quantize, herror] at h
    cases h

/-- **Exact on the grid and nearest off it.**  At every scale that a decimal can have. -/
theorem quantize_exact_nearest (k : ValueKind) {scale : Nat} (hs : scale ≤ 28) :
    QuantizesAt k scale := by
  refine ⟨fun u => ?_, fun value u h => ?_, fun a b u v ha hb hab => ?_, fun value => ?_⟩
  · have hnew : Decimal.new u.value scale =
        .ok ⟨u.value.toInt, scale, Decimal.int64_natAbs_lt u.value, hs⟩ := dif_pos hs
    refine ⟨⟨⟨u.value.toInt, scale, Decimal.int64_natAbs_lt u.value, hs⟩⟩, ?_, ?_⟩
    · rw [FastValue.toDecimal, hnew]
      rfl
    · have hgrid : (⟨u.value.toInt, scale, Decimal.int64_natAbs_lt u.value, hs⟩ : Decimal).toRat *
          10 ^ scale = (u.value.toInt : ℚ) := by
        rw [Decimal.toRat]
        field_simp
      have hlow := u.value.le_toInt
      have hhigh := u.value.toInt_lt
      obtain ⟨units, hunits, hround⟩ | ⟨-, hlarge⟩ := quantizeDecimal_eq
        ⟨u.value.toInt, scale, Decimal.int64_natAbs_lt u.value, hs⟩ hs
      · rw [hgrid, Decimal.roundHalfAway_intCast] at hround
        rw [DecimalValue.quantize, hunits, Int64.toInt_inj.1 hround]
        rfl
      · rw [hgrid, Decimal.roundHalfAway_intCast] at hlarge
        exact absurd ⟨hlow, hhigh⟩ hlarge
  · rw [value_eq_round hs h]
    exact nearestAt_round _ _
  · rw [value_eq_round hs ha, value_eq_round hs hb]
    refine Decimal.roundHalfAway_mono ?_
    exact mul_le_mul_of_nonneg_right hab (by positivity)
  · obtain ⟨units, hunits, hround⟩ | ⟨⟨e, herror⟩, hlarge⟩ := quantizeDecimal_eq value.value hs
    · refine iff_of_false ?_ (not_not_intro ?_)
      · rintro ⟨e, herror⟩
        rw [DecimalValue.quantize, hunits] at herror
        cases herror
      · rw [← hround]
        exact ⟨units.le_toInt, units.toInt_lt⟩
    · refine iff_of_true ⟨e, ?_⟩ hlarge
      rw [DecimalValue.quantize, herror]
      rfl

theorem quantize_exact_nearest_price : 2 ≤ 28 ∧ QuantizesAt .price 2 :=
  ⟨by decide, quantize_exact_nearest .price (by decide)⟩

end BatMarkets
