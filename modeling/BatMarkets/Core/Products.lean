import BatMarkets.Core.Arithmetic

/-!
# Products and sums of decimals, exactly

What `Decimal.mul` computes, in terms of the numbers that the two decimals denote.  The exact
product is rounded to a number of decimal places, ties to the even number; as many places are kept
as the two decimals have together, as a decimal can have, and as there is room for in the mantissa.
`Decimal.add` rounds the exact sum in the same way.

## Main results

* `mul_of_fits` : a product that fits is the exact product, rounded.
* `mul_of_not_fits` : a product that does not fit panics.
* `add_of_fits`, `add_of_not_fits` : the same of sums.
-/

namespace BatMarkets

/-! ### Rounding to even -/

/-- The integer nearest to `q`, ties to the even one. -/
def roundHalfEven (q : ℚ) : ℤ :=
  if Int.fract q < 1 / 2 ∨ Int.fract q = 1 / 2 ∧ ⌊q⌋ % 2 = 0 then ⌊q⌋ else ⌊q⌋ + 1

/-- An even bound is reached by rounding from half below it on. -/
theorem roundHalfEven_lt_iff {q : ℚ} {n : ℤ} (hn : n % 2 = 0) :
    roundHalfEven q < n ↔ q < n - 1 / 2 := by
  have hfract := Int.floor_add_fract q
  have hlt := Int.fract_lt_one q
  have hnonneg := Int.fract_nonneg q
  unfold roundHalfEven
  split
  · next h =>
    constructor
    · intro hfloor
      have hfloor' : (⌊q⌋ : ℚ) + 1 ≤ n := by exact_mod_cast hfloor
      rcases h with h | ⟨h, heven⟩
      · linarith
      · -- an even number below an even one is not the one right before it
        have hfar : (⌊q⌋ : ℚ) + 2 ≤ n := by
          have : ⌊q⌋ + 2 ≤ n := by omega
          exact_mod_cast this
        linarith
    · intro hq
      have : (⌊q⌋ : ℚ) < n := by linarith
      exact_mod_cast this
  · next h =>
    have hhalf : 1 / 2 ≤ Int.fract q := not_lt.1 fun hlt => h (.inl hlt)
    constructor
    · intro hfloor
      have hfloor' : (⌊q⌋ : ℚ) + 2 ≤ n := by
        have : ⌊q⌋ + 2 ≤ n := by omega
        exact_mod_cast this
      linarith
    · intro hq
      have hfloor : (⌊q⌋ : ℚ) < n - 1 := by linarith
      have : ⌊q⌋ < n - 1 := by exact_mod_cast hfloor
      omega

namespace Decimal

theorem divRoundEven_eq (n : ℕ) {m : ℕ} (hm : 0 < m) :
    (divRoundEven n m : ℤ) = roundHalfEven ((n : ℚ) / m) := by
  have hm' : (0 : ℚ) < m := by exact_mod_cast hm
  have hfloor : ⌊(n : ℚ) / m⌋ = (n / m : ℕ) := Rat.floor_natCast_div_natCast n m
  have hfract : Int.fract ((n : ℚ) / m) = ((n % m : ℕ) : ℚ) / m := by
    rw [← Int.self_sub_floor, hfloor, eq_div_iff hm'.ne', sub_mul, div_mul_cancel₀ _ hm'.ne']
    have h := Nat.div_add_mod n m
    have hcast : ((n : ℕ) : ℚ) = m * (n / m : ℕ) + (n % m : ℕ) := by exact_mod_cast h.symm
    rw [Int.cast_natCast]
    linarith
  have hless : Int.fract ((n : ℚ) / m) < 1 / 2 ↔ 2 * (n % m) < m := by
    rw [hfract, div_lt_div_iff₀ hm' two_pos, one_mul, mul_comm]
    exact_mod_cast Iff.rfl
  have htie : Int.fract ((n : ℚ) / m) = 1 / 2 ↔ 2 * (n % m) = m := by
    rw [hfract, div_eq_div_iff hm'.ne' two_ne_zero, one_mul, mul_comm]
    exact_mod_cast Iff.rfl
  simp only [divRoundEven, roundHalfEven, hless, htie, hfloor]
  split_ifs <;> omega

/-! ### Places that fit -/

/-- The magnitude fits into a mantissa when it is rounded to so many places. -/
def Fits (q : ℚ) (places : ℕ) : Prop := roundHalfEven (|q| * 10 ^ places) < 2 ^ 96

instance (q : ℚ) : DecidablePred (Fits q) := fun _ => by unfold Fits; infer_instance

/-- The most places, up to `most`, that the number can be rounded to. -/
def keptPlaces (q : ℚ) (most : ℕ) : ℕ := Nat.findGreatest (Fits q) most

/-- The nearest number with so many places, ties to the even one. -/
def roundPlaces (q : ℚ) (places : ℕ) : ℚ :=
  (if 0 ≤ q then 1 else -1) * (roundHalfEven (|q| * 10 ^ places) / 10 ^ places)

/-- The number as a decimal can have it: rounded to the places that there is room for. -/
def rounded (q : ℚ) : ℚ := roundPlaces q (keptPlaces q 28)

/-- The product of two decimals, rounded to the places that a decimal has room for. -/
def roundedProduct (a b : Decimal) : ℚ :=
  roundPlaces (a.toRat * b.toRat) (keptPlaces (a.toRat * b.toRat) (min (a.scale + b.scale) 28))

/-- Fewer places fit as well. -/
theorem Fits.mono {q : ℚ} {j k : ℕ} (h : Fits q k) (hjk : j ≤ k) : Fits q j := by
  have hbound : (2 ^ 96 : ℤ) % 2 = 0 := by decide
  have hlt := (roundHalfEven_lt_iff hbound).1 h
  refine (roundHalfEven_lt_iff hbound).2 ?_
  have hpow : (10 : ℚ) ^ j ≤ 10 ^ k := pow_le_pow_right₀ (by norm_num) hjk
  calc |q| * 10 ^ j ≤ |q| * 10 ^ k := mul_le_mul_of_nonneg_left hpow (abs_nonneg q)
    _ < _ := hlt

theorem fits_zero_iff {q : ℚ} : Fits q 0 ↔ |q| < 2 ^ 96 - 1 / 2 := by
  have hbound : (2 ^ 96 : ℤ) % 2 = 0 := by decide
  rw [Fits, roundHalfEven_lt_iff hbound, pow_zero, mul_one]
  norm_num

section FitPlaces

variable {magnitude scale drop fuel : ℕ}

/-- The places are tried from the most on, and the first that fit are taken. -/
theorem fitPlaces_some {x : ℕ × ℕ} (h : fitPlaces magnitude scale drop fuel = some x) :
    x.2 + drop ≤ scale ∧ x.2 ≤ 28 ∧ x.1 = divRoundEven magnitude (10 ^ (scale - x.2)) ∧
      x.1 < 2 ^ 96 ∧ ∀ k, x.2 < k → k + drop ≤ scale → k ≤ 28 →
        2 ^ 96 ≤ divRoundEven magnitude (10 ^ (scale - k)) := by
  induction fuel generalizing drop with
  | zero => cases h
  | succ fuel ih =>
    rw [fitPlaces] at h
    split at h
    · next hfit =>
      obtain rfl := Option.some.inj h
      refine ⟨by simp only; omega, by simp only; omega, ?_, hfit.2.2, fun k hk hle => ?_⟩
      · rw [Nat.sub_sub_self hfit.1]
      · simp only at hk
        omega
    · next hfit =>
      obtain ⟨hle, h28, hvalue, hlt, hmost⟩ := ih h
      refine ⟨by omega, h28, hvalue, hlt, fun k hk hle hk28 => ?_⟩
      rcases Nat.lt_or_ge (k + drop) scale with hnext | hthis
      · exact hmost k hk (by omega) hk28
      · -- the number of places that has just been tried
        have hdrop : drop = scale - k := by omega
        rw [← hdrop]
        exact not_lt.1 fun hfits => hfit ⟨by omega, by omega, hfits⟩

theorem fitPlaces_none (hfuel : scale < drop + fuel)
    (h : fitPlaces magnitude scale drop fuel = none) {k : ℕ} (hk : k + drop ≤ scale)
    (hk28 : k ≤ 28) : 2 ^ 96 ≤ divRoundEven magnitude (10 ^ (scale - k)) := by
  induction fuel generalizing drop with
  | zero => omega
  | succ fuel ih =>
    rw [fitPlaces] at h
    split at h
    · cases h
    · next hfit =>
      rcases Nat.lt_or_ge (k + drop) scale with hnext | hthis
      · exact ih (by omega) h (by omega)
      · have hdrop : drop = scale - k := by omega
        rw [← hdrop]
        exact not_lt.1 fun hfits => hfit ⟨by omega, by omega, hfits⟩

end FitPlaces

/-! ### A number with so many places -/

section Scaled

variable {n : ℤ} {scale k : ℕ}

/-- What the rounded magnitude at so many places is. -/
theorem divRoundEven_scaled (hk : k ≤ scale) :
    (divRoundEven n.natAbs (10 ^ (scale - k)) : ℤ) =
      roundHalfEven (|(n : ℚ) / 10 ^ scale| * 10 ^ k) := by
  rw [divRoundEven_eq _ (by positivity), abs_div,
    abs_of_pos (by positivity : (0 : ℚ) < 10 ^ scale), Nat.cast_natAbs, Int.cast_abs]
  congr 1
  have hsplit : (10 : ℚ) ^ scale = 10 ^ (scale - k) * 10 ^ k := by
    rw [← pow_add, Nat.sub_add_cancel hk]
  rw [hsplit]
  push_cast
  field_simp

theorem fits_scaled_iff (hk : k ≤ scale) :
    Fits ((n : ℚ) / 10 ^ scale) k ↔ divRoundEven n.natAbs (10 ^ (scale - k)) < 2 ^ 96 := by
  rw [Fits, ← divRoundEven_scaled hk]
  exact_mod_cast Iff.rfl

/-- There is room for some of the places if the number itself fits. -/
theorem exists_fitPlaces (h : |(n : ℚ) / 10 ^ scale| < 2 ^ 96 - 1 / 2) :
    ∃ x, fitPlaces n.natAbs scale 0 (scale + 1) = some x := by
  cases hfit : fitPlaces n.natAbs scale 0 (scale + 1) with
  | some x => exact ⟨x, rfl⟩
  | none =>
    have hfull := fitPlaces_none (by omega) hfit (k := 0) (by omega) (by omega)
    have hfits := (fits_scaled_iff (Nat.zero_le _)).1 (fits_zero_iff.2 h)
    omega

theorem fitPlaces_eq_none (h : 2 ^ 96 - 1 / 2 ≤ |(n : ℚ) / 10 ^ scale|) :
    fitPlaces n.natAbs scale 0 (scale + 1) = none := by
  cases hfit : fitPlaces n.natAbs scale 0 (scale + 1) with
  | none => rfl
  | some x =>
    obtain ⟨hle, -, hvalue, hlt, -⟩ := fitPlaces_some hfit
    rw [hvalue, ← fits_scaled_iff (by omega)] at hlt
    exact absurd (fits_zero_iff.1 (hlt.mono (Nat.zero_le _))) (not_lt.2 h)

theorem roundPlaces_zero (places : ℕ) : roundPlaces 0 places = 0 := by
  have hround : roundHalfEven 0 = 0 := by decide +kernel
  rw [roundPlaces, abs_zero, zero_mul, hround]
  simp

theorem roundHalfEven_intCast (m : ℤ) : roundHalfEven m = m := by
  rw [roundHalfEven, Int.fract_intCast, Int.floor_intCast, if_pos (.inl (by norm_num))]

/-- A number that has no more places is not changed. -/
theorem roundPlaces_of_int {q : ℚ} (h : ∃ m : ℤ, q * 10 ^ k = m) : roundPlaces q k = q := by
  obtain ⟨m, hm⟩ := h
  have hpow : (0 : ℚ) < 10 ^ k := by positivity
  have habs : |q| * 10 ^ k = (|m| : ℤ) := by
    rw [Int.cast_abs, ← hm, abs_mul, abs_of_pos hpow]
  rw [roundPlaces, habs, roundHalfEven_intCast, ← habs, mul_div_cancel_right₀ _ hpow.ne']
  split
  · next hq => rw [abs_of_nonneg hq, one_mul]
  · next hq => rw [abs_of_neg (not_le.1 hq), neg_mul_neg, one_mul]

theorem sign_scaled (h : n ≠ 0) :
    (n.sign : ℚ) = if 0 ≤ (n : ℚ) / 10 ^ scale then 1 else -1 := by
  have hpow : (0 : ℚ) < 10 ^ scale := by positivity
  rcases lt_or_gt_of_ne h with hneg | hpos
  · have hlt : (n : ℚ) / 10 ^ scale < 0 := div_neg_of_neg_of_pos (by exact_mod_cast hneg) hpow
    rw [if_neg hlt.not_ge, Int.sign_eq_neg_one_of_neg hneg]
    rfl
  · have hle : 0 ≤ (n : ℚ) / 10 ^ scale := div_nonneg (by exact_mod_cast hpos.le) hpow.le
    rw [if_pos hle, Int.sign_eq_one_of_pos hpos]
    rfl

/-- The places that the search finds are the most that fit. -/
theorem keptPlaces_scaled {x : ℕ × ℕ}
    (h : fitPlaces n.natAbs scale 0 (scale + 1) = some x) :
    keptPlaces ((n : ℚ) / 10 ^ scale) (min scale 28) = x.2 := by
  obtain ⟨hle, h28, hvalue, hlt, hmost⟩ := fitPlaces_some h
  rw [add_zero] at hle
  refine Nat.findGreatest_eq_iff.2 ⟨le_min hle h28, fun _ => ?_, fun k hk hkmin hfits => ?_⟩
  · rw [fits_scaled_iff hle, ← hvalue]
    exact hlt
  · have hkle := le_min_iff.1 hkmin
    rw [fits_scaled_iff hkle.1] at hfits
    exact absurd (hmost k hk (by omega) hkle.2) (by omega)

/-- What the search finds is the number, rounded to the places that there are and that fit. -/
theorem toRat_fitPlaces {x : ℕ × ℕ} (h : fitPlaces n.natAbs scale 0 (scale + 1) = some x) :
    ((n.sign * x.1 : ℤ) : ℚ) / 10 ^ x.2 =
      roundPlaces ((n : ℚ) / 10 ^ scale) (keptPlaces ((n : ℚ) / 10 ^ scale) (min scale 28)) := by
  obtain rfl | hn := eq_or_ne n 0
  · simp [roundPlaces_zero]
  obtain ⟨hle, -, hvalue, -, -⟩ := fitPlaces_some h
  have hmagnitude : ((x.1 : ℤ) : ℚ) = roundHalfEven (|(n : ℚ) / 10 ^ scale| * 10 ^ x.2) := by
    rw [hvalue, divRoundEven_scaled (by omega)]
  rw [keptPlaces_scaled h, roundPlaces, ← hmagnitude, ← sign_scaled hn]
  push_cast
  rw [mul_div_assoc]

/-- A number with so many places is rounded as if there were all places. -/
theorem rounded_scaled :
    roundPlaces ((n : ℚ) / 10 ^ scale) (keptPlaces ((n : ℚ) / 10 ^ scale) (min scale 28)) =
      rounded ((n : ℚ) / 10 ^ scale) := by
  set q := (n : ℚ) / 10 ^ scale with hq
  rcases Nat.lt_or_ge scale 28 with hscale | hscale
  swap
  · rw [min_eq_right hscale, rounded]
  rw [min_eq_left hscale.le, rounded]
  have hexact : ∀ k, scale ≤ k → roundPlaces q k = q := by
    intro k hk
    refine roundPlaces_of_int ⟨n * 10 ^ (k - scale), ?_⟩
    have hsplit : (10 : ℚ) ^ k = 10 ^ (k - scale) * 10 ^ scale := by
      rw [← pow_add, Nat.sub_add_cancel hk]
    rw [hq, hsplit]
    push_cast
    field_simp
  by_cases hfits : Fits q scale
  · -- all places fit, and both leave the number as it is
    have hall : keptPlaces q scale = scale := Nat.findGreatest_eq hfits
    have hmore : scale ≤ keptPlaces q 28 := Nat.le_findGreatest hscale.le hfits
    rw [hall, hexact scale le_rfl, hexact _ hmore]
  · -- no more places fit than there are
    have hsame : keptPlaces q 28 = keptPlaces q scale := by
      refine Nat.findGreatest_eq_iff.2 ⟨(Nat.findGreatest_le scale).trans hscale.le, fun hne => ?_,
        fun k hk _ hfit => ?_⟩
      · exact Nat.findGreatest_of_ne_zero rfl hne
      · rcases Nat.lt_or_ge scale k with hlt | hle
        · exact hfits (hfit.mono hlt.le)
        · exact Nat.findGreatest_is_greatest hk hle hfit
    rw [hsame]

end Scaled

/-! ### Products -/

section Products

variable {a b : Decimal}

theorem toRat_mul (a b : Decimal) :
    a.toRat * b.toRat = (a.mantissa * b.mantissa : ℤ) / 10 ^ (a.scale + b.scale) := by
  rw [toRat, toRat, div_mul_div_comm, pow_add, Int.cast_mul]

theorem isZero_iff : a.isZero = true ↔ a.toRat = 0 := by
  have hpow : (10 : ℚ) ^ a.scale ≠ 0 := by positivity
  simp [isZero, toRat, hpow]

theorem roundedProduct_eq (a b : Decimal) : roundedProduct a b = rounded (a.toRat * b.toRat) := by
  rw [roundedProduct, toRat_mul, rounded_scaled]

theorem zero_or_iff : (a.isZero || b.isZero) = true ↔ a.toRat * b.toRat = 0 := by
  rw [Bool.or_eq_true, isZero_iff, isZero_iff, mul_eq_zero]

/-- **A product that fits is the exact product, rounded.** -/
theorem mul_of_fits (h : |a.toRat * b.toRat| < 2 ^ 96 - 1 / 2) :
    ∃ product, a.mul b = .ok product ∧ product.toRat = roundedProduct a b := by
  unfold mul
  by_cases hzero : (a.isZero || b.isZero) = true
  · rw [if_pos hzero]
    refine ⟨0, rfl, ?_⟩
    rw [roundedProduct, zero_or_iff.1 hzero, roundPlaces_zero]
    exact isZero_iff.1 rfl
  rw [if_neg hzero]
  simp only
  split
  · next x hfit =>
    refine ⟨_, rfl, ?_⟩
    rw [roundedProduct, toRat_mul]
    exact toRat_fitPlaces hfit
  · next hfit =>
    rw [toRat_mul] at h
    obtain ⟨x, hx⟩ := exists_fitPlaces h
    rw [hfit] at hx
    cases hx

/-- **A product that does not fit panics.** -/
theorem mul_of_not_fits (h : 2 ^ 96 - 1 / 2 ≤ |a.toRat * b.toRat|) : a.mul b = .error .panic := by
  have hne : a.toRat * b.toRat ≠ 0 := by
    rintro hzero
    rw [hzero, abs_zero] at h
    norm_num at h
  unfold mul
  rw [if_neg fun hzero => hne (zero_or_iff.1 hzero)]
  simp only
  split
  · next x hfit =>
    rw [toRat_mul] at h
    rw [fitPlaces_eq_none h] at hfit
    cases hfit
  · rfl

end Products

/-! ### Sums -/

/-- The sum of the mantissas at the larger of the two scales. -/
def sumMantissa (a b : Decimal) : ℤ :=
  a.mantissa * 10 ^ (max a.scale b.scale - a.scale) +
    b.mantissa * 10 ^ (max a.scale b.scale - b.scale)

theorem natAbs_sign_mul_lt (n : ℤ) {m : ℕ} (h : m < 2 ^ 96) : (n.sign * m).natAbs < 2 ^ 96 := by
  have hsign : n.sign.natAbs ≤ 1 := by
    rcases Int.sign_trichotomy n with hs | hs | hs <;> simp [hs]
  rw [Int.natAbs_mul, Int.natAbs_natCast]
  calc n.sign.natAbs * m ≤ 1 * m := Nat.mul_le_mul_right _ hsign
    _ < 2 ^ 96 := by omega

/-- The sum; a panic when it does not fit. -/
def add (a b : Decimal) : Except Failure Decimal :=
  let scale := max a.scale b.scale
  match h : fitPlaces (sumMantissa a b).natAbs scale 0 (scale + 1) with
  | some x => .ok ⟨(sumMantissa a b).sign * x.1, x.2, natAbs_sign_mul_lt _ (fitPlaces_spec h).1,
      (fitPlaces_spec h).2⟩
  | none => .error .panic

section Sums

variable {a b : Decimal}

theorem toRat_add (a b : Decimal) :
    a.toRat + b.toRat = (sumMantissa a b : ℚ) / 10 ^ max a.scale b.scale := by
  have hpow : ∀ {d : Decimal}, d.scale ≤ max a.scale b.scale →
      d.toRat = (d.mantissa * 10 ^ (max a.scale b.scale - d.scale) : ℤ) /
        10 ^ max a.scale b.scale := by
    intro d hd
    have hsplit : (10 : ℚ) ^ max a.scale b.scale =
        10 ^ (max a.scale b.scale - d.scale) * 10 ^ d.scale := by
      rw [← pow_add, Nat.sub_add_cancel hd]
    rw [toRat, hsplit]
    push_cast
    field_simp
  rw [hpow (le_max_left _ _), hpow (le_max_right a.scale b.scale), ← add_div, sumMantissa]
  push_cast
  rfl

/-- **A sum that fits is the exact sum, rounded.** -/
theorem add_of_fits (h : |a.toRat + b.toRat| < 2 ^ 96 - 1 / 2) :
    ∃ sum, a.add b = .ok sum ∧ sum.toRat = rounded (a.toRat + b.toRat) := by
  rw [toRat_add] at h ⊢
  obtain ⟨x, hx⟩ := exists_fitPlaces h
  unfold add
  simp only
  split
  · next hsome =>
    refine ⟨_, rfl, ?_⟩
    rw [← rounded_scaled]
    exact toRat_fitPlaces hsome
  · next hnone =>
    rw [hnone] at hx
    cases hx

/-- **A sum that does not fit panics.** -/
theorem add_of_not_fits (h : 2 ^ 96 - 1 / 2 ≤ |a.toRat + b.toRat|) :
    a.add b = .error .panic := by
  rw [toRat_add] at h
  unfold add
  simp only
  split
  · next x hsome =>
    rw [fitPlaces_eq_none h] at hsome
    cases hsome
  · rfl

end Sums

end Decimal

end BatMarkets
