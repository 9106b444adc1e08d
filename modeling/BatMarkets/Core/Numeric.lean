import BatMarkets.Core.Types

/-!
# Decimals and fixed-point values

`numeric.rs` keeps exact values as decimals and fast values as `i64` multiples of a power of ten
that is looked up elsewhere.  A `Decimal` is a 96-bit mantissa and a scale of at most 28; the
constructor `Decimal.new` panics for a larger scale, and `Decimal.rescale` follows the documented
behaviour of the decimal library: towards a smaller scale it rounds to the nearest value, ties
away from zero; towards a larger one it multiplies by ten as long as the mantissa fits.

## Main results

* `Decimal.rescale_spec` : a rescale that stops short of the scale it was asked for leaves a mantissa
  that is too large for an `i64`, and the rounded number is too large as well, so
* `quantizeDecimal_eq_ok` : a successful `quantize` at a scale of at most 28 gives the mantissa of
  the decimal rounded at that scale, and `toDecimal_of_quantize` : reading it back at the same scale
  gives that rounding.
* `toDecimal_of_quantize_ne` : reading it back at another scale never does, unless it is zero.
-/

namespace BatMarkets

/-- A 96-bit mantissa and a number of decimal places of at most 28. -/
@[ext]
structure Decimal where
  mantissa : Int
  scale : Nat
  mantissa_lt : mantissa.natAbs < 2 ^ 96
  scale_le : scale ≤ 28
  deriving DecidableEq, Repr

namespace Decimal

/-- The decimal with the given digits before the point. -/
def ofNat (n : Nat) (h : n < 2 ^ 96 := by decide) : Decimal := ⟨n, 0, h, by decide⟩

/-- The decimal with this mantissa and scale, for those that a decimal can have. -/
def literal (mantissa : Int) (scale : Nat) : Decimal :=
  if h : mantissa.natAbs < 2 ^ 96 ∧ scale ≤ 28 then ⟨mantissa, scale, h.1, h.2⟩ else ofNat 0

theorem zero_fits : 0 < 2 ^ 96 := by decide

theorem one_fits : 1 < 2 ^ 96 := by decide

/-- The number a decimal denotes. -/
def toRat (d : Decimal) : ℚ := d.mantissa / 10 ^ d.scale

theorem int64_natAbs_lt (value : Int64) : value.toInt.natAbs < 2 ^ 96 := by
  have h1 := value.toInt_lt
  have h2 := value.le_toInt
  omega

/-- The decimal `value * 10 ^ -scale`; a panic when the scale is above the maximum. -/
def new (value : Int64) (scale : Nat) : Except Failure Decimal :=
  if h : scale ≤ 28 then .ok ⟨value.toInt, scale, int64_natAbs_lt value, h⟩ else .error .panic

/-- `n / m`, rounded to the nearest integer, ties away from zero. -/
def divRound (n : Int) (m : Nat) : Int := n.sign * ((2 * n.natAbs + m) / (2 * m) : Nat)

theorem natAbs_divRound_le (n : Int) {m : Nat} (hm : 0 < m) : (divRound n m).natAbs ≤ n.natAbs := by
  have hsign : n.sign.natAbs ≤ 1 := by
    rcases Int.sign_trichotomy n with h | h | h <;> simp [h]
  have hdiv : (2 * n.natAbs + m) / (2 * m) < n.natAbs + 1 := by
    refine Nat.div_lt_of_lt_mul ?_
    nlinarith [Nat.mul_le_mul_left n.natAbs hm]
  rw [divRound, Int.natAbs_mul, Int.natAbs_natCast]
  calc n.sign.natAbs * ((2 * n.natAbs + m) / (2 * m))
      ≤ 1 * ((2 * n.natAbs + m) / (2 * m)) := Nat.mul_le_mul_right _ hsign
    _ ≤ n.natAbs := by omega

/-- Multiply the mantissa by ten, `steps` times or until it would not fit any more. -/
def scaleUp (d : Decimal) : Nat → Decimal
  | 0 => d
  | steps + 1 =>
    if h : (d.mantissa * 10).natAbs < 2 ^ 96 ∧ d.scale + 1 ≤ 28 then
      scaleUp ⟨d.mantissa * 10, d.scale + 1, h.1, h.2⟩ steps
    else d

/-- Round the decimal at `scale` places, for a scale of at most its own. -/
def roundAt (d : Decimal) (scale : Nat) (h : scale ≤ d.scale) : Decimal :=
  ⟨divRound d.mantissa (10 ^ (d.scale - scale)), scale,
    (natAbs_divRound_le _ (by positivity)).trans_lt d.mantissa_lt, h.trans d.scale_le⟩

/-- Change the number of decimal places to `scale`, or get as close to it as the mantissa
allows. -/
def rescale (d : Decimal) (scale : Nat) : Decimal :=
  if h : scale ≤ d.scale then d.roundAt scale h else d.scaleUp (scale - d.scale)

/-- The decimal in positional notation, with all its decimal places. -/
def display (d : Decimal) : String :=
  let digits := (Nat.toDigits 10 d.mantissa.natAbs)
  let padded := List.replicate (d.scale + 1 - digits.length) '0' ++ digits
  let whole := padded.take (padded.length - d.scale)
  let places := padded.drop (padded.length - d.scale)
  String.ofList ((if d.mantissa < 0 then ['-'] else []) ++ whole ++
    (if d.scale = 0 then [] else '.' :: places))

/-! ### Rounding -/

/-- The integer nearest to `q`, ties away from zero. -/
def roundHalfAway (q : ℚ) : ℤ := if 0 ≤ q then ⌊q + 1 / 2⌋ else -⌊-q + 1 / 2⌋

@[simp] theorem roundHalfAway_intCast (n : ℤ) : roundHalfAway n = n := by
  have hhalf : ∀ m : ℤ, ⌊(m : ℚ) + 1 / 2⌋ = m := fun m => by
    rw [Int.floor_intCast_add]
    norm_num
  unfold roundHalfAway
  split
  · exact hhalf n
  · rw [← Int.cast_neg, hhalf, neg_neg]

theorem natAbs_div_add_half (n : Int) {m : Nat} (hm : 0 < m) :
    ⌊(n.natAbs : ℚ) / m + 1 / 2⌋ = ((2 * n.natAbs + m) / (2 * m) : Nat) := by
  have hm' : (m : ℚ) ≠ 0 := by positivity
  have hdiv : (n.natAbs : ℚ) / m + 1 / 2 = ((2 * n.natAbs + m : Nat) : ℤ) / ((2 * m : Nat) : ℚ) := by
    rw [Int.cast_natCast, Nat.cast_add, Nat.cast_mul, Nat.cast_mul, Nat.cast_ofNat]
    field_simp
  rw [hdiv, Rat.floor_intCast_div_natCast]
  rfl

/-- Division with rounding rounds the quotient. -/
theorem divRound_eq (n : Int) {m : Nat} (hm : 0 < m) :
    divRound n m = roundHalfAway ((n : ℚ) / m) := by
  have hm' : (0 : ℚ) < m := by positivity
  have hfloor := natAbs_div_add_half n hm
  rcases lt_trichotomy n 0 with hn | rfl | hn
  · have hneg : ¬ 0 ≤ (n : ℚ) / m := not_le.2 (div_neg_of_neg_of_pos (by exact_mod_cast hn) hm')
    have habs : (n.natAbs : ℚ) = -n := by
      rw [Nat.cast_natAbs, abs_of_neg hn, Int.cast_neg]
    rw [habs, neg_div] at hfloor
    rw [divRound, roundHalfAway, if_neg hneg, hfloor, Int.sign_eq_neg_one_of_neg hn, neg_one_mul]
  · have hhalf : ⌊(2 : ℚ)⁻¹⌋ = 0 := by norm_num
    simp [divRound, roundHalfAway, hhalf]
  · have hpos : 0 ≤ (n : ℚ) / m := div_nonneg (by exact_mod_cast hn.le) hm'.le
    have habs : (n.natAbs : ℚ) = n := by rw [Nat.cast_natAbs, abs_of_pos hn]
    rw [habs] at hfloor
    rw [divRound, roundHalfAway, if_pos hpos, hfloor, Int.sign_eq_one_of_pos hn, one_mul]

/-- What scaling up achieves: the value is kept, and if it stops short of its last step then the
mantissa has no room for another factor of ten, or the scale is the largest one. -/
theorem scaleUp_spec (d : Decimal) (steps : Nat) :
    (d.scaleUp steps).toRat = d.toRat ∧ (d.scaleUp steps).scale ≤ d.scale + steps ∧
      ((d.scaleUp steps).scale = d.scale + steps ∨
        2 ^ 96 ≤ ((d.scaleUp steps).mantissa * 10).natAbs ∨ (d.scaleUp steps).scale = 28) := by
  induction steps generalizing d with
  | zero => exact ⟨rfl, le_rfl, .inl rfl⟩
  | succ steps ih =>
    unfold scaleUp
    split
    · next h =>
      obtain ⟨hval, hle, hend⟩ := ih ⟨d.mantissa * 10, d.scale + 1, h.1, h.2⟩
      refine ⟨hval.trans ?_, by simp only at hle; omega, hend.imp (fun h => ?_) id⟩
      · simp only [toRat, Int.cast_mul, Int.cast_ofNat, pow_succ]
        field_simp
      · rw [h]
        simp only
        omega
    · next h =>
      have := d.scale_le
      exact ⟨rfl, by omega, .inr (by omega)⟩

/-- A decimal that has so many places, or whose mantissa has no room for another one, has the rounded
number as its mantissa, or a mantissa beyond the range of an `i64`, as is then the rounded number. -/
theorem mantissa_spec {d : Decimal} {places : Nat} (hle : d.scale ≤ places)
    (hend : d.scale = places ∨ 2 ^ 96 ≤ (d.mantissa * 10).natAbs) :
    d.mantissa = roundHalfAway (d.toRat * 10 ^ places) ∨
      2 ^ 96 ≤ (d.mantissa * 10).natAbs ∧
        2 ^ 96 ≤ (roundHalfAway (d.toRat * 10 ^ places)).natAbs := by
  obtain ⟨j, hj⟩ := Nat.exists_eq_add_of_le hle
  have hmant : roundHalfAway (d.toRat * 10 ^ places) = d.mantissa * 10 ^ j := by
    have hprod : d.toRat * 10 ^ places = ((d.mantissa * 10 ^ j : ℤ) : ℚ) := by
      rw [toRat, hj, pow_add]
      push_cast
      field_simp
    rw [hprod, roundHalfAway_intCast]
  cases j with
  | zero =>
    left
    rw [hmant, pow_zero, mul_one]
  | succ j =>
    right
    have hlarge := hend.resolve_left (by omega)
    refine ⟨hlarge, ?_⟩
    rw [hmant, pow_succ' (10 : ℤ) j, ← mul_assoc, Int.natAbs_mul]
    have hpos : 0 < ((10 : ℤ) ^ j).natAbs := Int.natAbs_pos.2 (by positivity)
    exact hlarge.trans (Nat.le_mul_of_pos_right _ hpos)

/-- A rescale gives the decimal rounded at that scale, or at the largest one, or it stops short with
a mantissa beyond the range of an `i64`, as is then the rounded number. -/
theorem rescale_spec_min (d : Decimal) (scale : Nat) :
    (d.rescale scale).mantissa = roundHalfAway (d.toRat * 10 ^ min scale 28) ∨
      2 ^ 96 ≤ ((d.rescale scale).mantissa * 10).natAbs ∧
        2 ^ 96 ≤ (roundHalfAway (d.toRat * 10 ^ min scale 28)).natAbs := by
  have hd := d.scale_le
  unfold rescale
  split
  · next h =>
    left
    rw [min_eq_left (h.trans hd)]
    obtain ⟨j, hj⟩ := Nat.exists_eq_add_of_le h
    change divRound d.mantissa (10 ^ (d.scale - scale)) = _
    rw [divRound_eq _ (by positivity), toRat, hj, Nat.add_sub_cancel_left, pow_add]
    congr 1
    push_cast
    field_simp
  · next h =>
    obtain ⟨hval, hle, hend⟩ := d.scaleUp_spec (scale - d.scale)
    rw [← hval]
    generalize d.scaleUp (scale - d.scale) = up at *
    have hup := up.scale_le
    exact mantissa_spec (by omega) (by omega)

/-- A rescale to a scale of at most 28. -/
theorem rescale_spec (d : Decimal) {scale : Nat} (hs : scale ≤ 28) :
    (d.rescale scale).mantissa = roundHalfAway (d.toRat * 10 ^ scale) ∨
      2 ^ 96 ≤ ((d.rescale scale).mantissa * 10).natAbs ∧
        2 ^ 96 ≤ (roundHalfAway (d.toRat * 10 ^ scale)).natAbs := by
  have hspec := d.rescale_spec_min scale
  rwa [min_eq_left hs] at hspec

end Decimal

/-! ### The value types of the source -/

/-- What a number measures. -/
inductive ValueKind
  | amount
  | price
  | quantity
  | notional
  | leverage
  | rate

/-- An exact value of kind `k`. -/
@[ext]
structure DecimalValue (k : ValueKind) where
  value : Decimal
  deriving DecidableEq, Repr

/-- An amount of an asset. -/
abbrev Amount := DecimalValue .amount
/-- A price of an instrument. -/
abbrev Price := DecimalValue .price
/-- A quantity of an instrument. -/
abbrev Quantity := DecimalValue .quantity
/-- A price times a quantity. -/
abbrev Notional := DecimalValue .notional
/-- A leverage. -/
abbrev Leverage := DecimalValue .leverage
/-- A rate, such as that of a funding. -/
abbrev Rate := DecimalValue .rate

/-- A value of kind `k` as a number of units whose size is not recorded with it. -/
@[ext]
structure FastValue (k : ValueKind) where
  value : Int64
  deriving DecidableEq, Repr

/-- A price in units of the price scale. -/
abbrev FastPrice := FastValue .price
/-- A quantity in units of the quantity scale. -/
abbrev FastQuantity := FastValue .quantity
/-- A notional in units of the quote scale. -/
abbrev FastNotional := FastValue .notional

/-- The mantissa of `value` at `scale` places, when it fits into an `i64`. -/
def quantizeDecimal (value : Decimal) (scale : Nat) : Except MarketError Int64 :=
  let value := value.rescale scale
  if -2 ^ 63 ≤ value.mantissa ∧ value.mantissa < 2 ^ 63 then
    .ok (Int64.ofInt value.mantissa)
  else
    .error { kind := .configError
             message := "value " ++ value.display ++
               " does not fit into fast-path i64 representation" }

variable {k : ValueKind}

/-- The fast value at `scale` places. -/
def DecimalValue.quantize (value : DecimalValue k) (scale : Nat) :
    Except MarketError (FastValue k) :=
  FastValue.mk <$> quantizeDecimal value.value scale

/-- Read a fast value back at `scale` places. -/
def FastValue.toDecimal (value : FastValue k) (scale : Nat) : Except Failure (DecimalValue k) :=
  DecimalValue.mk <$> Decimal.new value.value scale

/-- The price that the units stand for. -/
abbrev FastValue.toPrice (value : FastPrice) (scale : Nat) : Except Failure Price :=
  value.toDecimal scale

/-- The quantity that the units stand for. -/
abbrev FastValue.toQuantity (value : FastQuantity) (scale : Nat) : Except Failure Quantity :=
  value.toDecimal scale

/-- The notional that the units stand for. -/
abbrev FastValue.toNotional (value : FastNotional) (scale : Nat) : Except Failure Notional :=
  value.toDecimal scale

/-! ### Round trips -/

/-- A successful quantisation at a scale of at most 28 is the decimal rounded at that scale. -/
theorem quantizeDecimal_eq_ok {value : Decimal} {scale : Nat} {u : Int64} (hs : scale ≤ 28)
    (h : quantizeDecimal value scale = .ok u) :
    u.toInt = Decimal.roundHalfAway (value.toRat * 10 ^ scale) := by
  simp only [quantizeDecimal] at h
  split at h
  · next hfit =>
    injection h with h
    rw [← h, Int64.toInt_ofInt_of_le (by omega) (by omega)]
    refine (value.rescale_spec hs).resolve_right ?_
    omega
  · cases h

/-- The number a decimal rounded at `scale` places denotes. -/
def Decimal.roundedAt (d : Decimal) (scale : Nat) : ℚ :=
  Decimal.roundHalfAway (d.toRat * 10 ^ scale) / 10 ^ scale

namespace Decimal

/-- Rounding moves a number by at most one half. -/
theorem abs_roundHalfAway_sub_le (q : ℚ) : |(roundHalfAway q : ℚ) - q| ≤ 1 / 2 := by
  have hfloor : ∀ x : ℚ, |(⌊x + 1 / 2⌋ : ℚ) - x| ≤ 1 / 2 := fun x => by
    have h₁ := Int.floor_le (x + 1 / 2)
    have h₂ := Int.lt_floor_add_one (x + 1 / 2)
    rw [abs_le]
    constructor <;> linarith
  unfold roundHalfAway
  split
  · exact hfloor q
  · have h := hfloor (-q)
    rw [abs_sub_comm] at h
    rw [Int.cast_neg]
    rwa [show -(⌊-q + 1 / 2⌋ : ℚ) - q = -q - ⌊-q + 1 / 2⌋ by ring]

/-- A rounded number other than zero is at least two thirds and at most twice the size of the
number. -/
theorem abs_bounds_of_round {n : ℤ} {q : ℚ} (hn : n ≠ 0) (h : |(n : ℚ) - q| ≤ 1 / 2) :
    |(n : ℚ)| ≤ 2 * |q| ∧ 2 * |q| ≤ 3 * |(n : ℚ)| := by
  have hone : 1 ≤ |(n : ℚ)| := by exact_mod_cast Int.one_le_abs hn
  have habs := abs_le.1 ((abs_abs_sub_abs_le (n : ℚ) q).trans h)
  constructor <;> linarith [habs.1, habs.2]

/-- Powers of ten within a factor of three are equal. -/
theorem le_of_pow_ten_le {a b : ℕ} (h : (10 : ℚ) ^ a ≤ 3 * 10 ^ b) : a ≤ b := by
  by_contra hlt
  have hpow : (10 : ℚ) ^ (b + 1) ≤ 10 ^ a := pow_le_pow_right₀ (by norm_num) (by omega)
  have hpos : (0 : ℚ) < 10 ^ b := by positivity
  rw [pow_succ] at hpow
  linarith

/-- **Reading at another scale.**  Units counted at `p` places and read at `p'` are the number
rounded at some scale only when there are none of them, or the scales are equal. -/
theorem scale_eq_of_eq_roundedAt {d : Decimal} {p p' r : ℕ}
    (hn : roundHalfAway (d.toRat * 10 ^ p) ≠ 0)
    (h : (roundHalfAway (d.toRat * 10 ^ p) : ℚ) / 10 ^ p' = d.roundedAt r) : p' = p := by
  unfold roundedAt at h
  have hround := abs_roundHalfAway_sub_le (d.toRat * 10 ^ p)
  have hround' := abs_roundHalfAway_sub_le (d.toRat * 10 ^ r)
  generalize roundHalfAway (d.toRat * 10 ^ p) = n at hn h hround
  generalize roundHalfAway (d.toRat * 10 ^ r) = m at h hround'
  have hpow : ∀ k : ℕ, (0 : ℚ) < 10 ^ k := fun k => by positivity
  have hcross : (n : ℚ) * 10 ^ r = m * 10 ^ p' := by
    have := (hpow p').ne'
    have := (hpow r).ne'
    field_simp at h
    linarith
  have hm : m ≠ 0 := by
    rintro rfl
    rw [Int.cast_zero, zero_mul, mul_eq_zero, Int.cast_eq_zero] at hcross
    exact hcross.elim hn (hpow r).ne'
  obtain ⟨hlo, hhi⟩ := abs_bounds_of_round hn hround
  obtain ⟨hlo', hhi'⟩ := abs_bounds_of_round hm hround'
  simp only [abs_mul, abs_of_pos (hpow _)] at hlo hhi hlo' hhi'
  have habs : |(n : ℚ)| * 10 ^ r = |(m : ℚ)| * 10 ^ p' := by
    have := congrArg abs hcross
    rwa [abs_mul, abs_mul, abs_of_pos (hpow r), abs_of_pos (hpow p')] at this
  have hnpos : 0 < |(n : ℚ)| := abs_pos.2 (by exact_mod_cast hn)
  have hmpos : 0 < |(m : ℚ)| := abs_pos.2 (by exact_mod_cast hm)
  -- both sides of `habs` are compared with the size of the number at the two scales
  have hnm := mul_pos hnpos hmpos
  have hle : (10 : ℚ) ^ p' ≤ 3 * 10 ^ p := by
    refine le_of_mul_le_mul_left ?_ hnm
    have h₁ := mul_le_mul_of_nonneg_left hlo (mul_pos hmpos (hpow p')).le
    have h₂ := mul_le_mul_of_nonneg_left hhi' (mul_pos hnpos (hpow p)).le
    calc |(n : ℚ)| * |(m : ℚ)| * 10 ^ p' = |(m : ℚ)| * 10 ^ p' * |(n : ℚ)| := by ring
      _ ≤ |(m : ℚ)| * 10 ^ p' * (2 * (|d.toRat| * 10 ^ p)) := h₁
      _ = |(n : ℚ)| * 10 ^ p * (2 * (|d.toRat| * 10 ^ r)) := by rw [← habs]; ring
      _ ≤ |(n : ℚ)| * 10 ^ p * (3 * |(m : ℚ)|) := h₂
      _ = |(n : ℚ)| * |(m : ℚ)| * (3 * 10 ^ p) := by ring
  have hge : (10 : ℚ) ^ p ≤ 3 * 10 ^ p' := by
    refine le_of_mul_le_mul_left ?_ hnm
    have h₁ := mul_le_mul_of_nonneg_left hlo' (mul_pos hnpos (hpow p)).le
    have h₂ := mul_le_mul_of_nonneg_left hhi (mul_pos hmpos (hpow p')).le
    calc |(n : ℚ)| * |(m : ℚ)| * 10 ^ p = |(n : ℚ)| * 10 ^ p * |(m : ℚ)| := by ring
      _ ≤ |(n : ℚ)| * 10 ^ p * (2 * (|d.toRat| * 10 ^ r)) := h₁
      _ = |(m : ℚ)| * 10 ^ p' * (2 * (|d.toRat| * 10 ^ p)) := by rw [← habs]; ring
      _ ≤ |(m : ℚ)| * 10 ^ p' * (3 * |(n : ℚ)|) := h₂
      _ = |(n : ℚ)| * |(m : ℚ)| * (3 * 10 ^ p') := by ring
  exact le_antisymm (le_of_pow_ten_le hle) (le_of_pow_ten_le hge)

end Decimal

/-- The number of units a successful quantisation gives. -/
theorem value_of_quantize {value : DecimalValue k} {fast : FastValue k} {scale : Nat}
    (hs : scale ≤ 28) (hq : value.quantize scale = .ok fast) :
    fast.value.toInt = Decimal.roundHalfAway (value.value.toRat * 10 ^ scale) := by
  unfold DecimalValue.quantize at hq
  cases hu : quantizeDecimal value.value scale with
  | error e => rw [hu] at hq; cases hq
  | ok u =>
    rw [hu] at hq
    rw [← Except.ok.inj hq]
    exact quantizeDecimal_eq_ok hs hu

/-- What reading gives. -/
theorem toRat_of_toDecimal {back : DecimalValue k} {fast : FastValue k} {scale : Nat}
    (hb : fast.toDecimal scale = .ok back) :
    scale ≤ 28 ∧ back.value.toRat = fast.value.toInt / 10 ^ scale := by
  unfold FastValue.toDecimal Decimal.new at hb
  split at hb
  · next hs =>
    have hback : back = ⟨⟨fast.value.toInt, scale, Decimal.int64_natAbs_lt fast.value, hs⟩⟩ :=
      (Except.ok.inj hb).symm
    rw [hback]
    exact ⟨hs, rfl⟩
  · cases hb

/-- **Reading back at the same scale** gives the decimal rounded at that scale. -/
theorem toDecimal_of_quantize {value back : DecimalValue k} {fast : FastValue k} {scale : Nat}
    (hq : value.quantize scale = .ok fast) (hb : fast.toDecimal scale = .ok back) :
    back.value.toRat = value.value.roundedAt scale := by
  obtain ⟨hs, hback⟩ := toRat_of_toDecimal hb
  rw [hback, value_of_quantize hs hq, Decimal.roundedAt]

/-- **Reading back at another scale** gives the decimal rounded at no scale, unless there are no
units at all. -/
theorem toDecimal_of_quantize_ne {value back : DecimalValue k} {fast : FastValue k}
    {scale scale' : Nat} (hs : scale ≤ 28) (hq : value.quantize scale = .ok fast)
    (hb : fast.toDecimal scale' = .ok back) (hne : scale' ≠ scale) (hzero : fast.value.toInt ≠ 0)
    (r : Nat) : back.value.toRat ≠ value.value.roundedAt r := by
  intro hr
  rw [(toRat_of_toDecimal hb).2] at hr
  rw [value_of_quantize hs hq] at hr hzero
  exact hne (Decimal.scale_eq_of_eq_roundedAt hzero hr)

end BatMarkets
