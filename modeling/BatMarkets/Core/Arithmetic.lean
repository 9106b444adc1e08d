import BatMarkets.Core.DecimalText

/-!
# Decimal arithmetic

The order and the product of decimals, by the documented behaviour of the decimal library: two
decimals are compared as numbers; a product with more digits or places than a decimal has is rounded
to the nearest decimal with as many places as fit, ties to the even one, and panics if not even its
integer part fits.
-/

namespace BatMarkets

namespace Decimal

/-- The first decimal is the smaller number. -/
def lt (a b : Decimal) : Bool := a.mantissa * 10 ^ b.scale < b.mantissa * 10 ^ a.scale

theorem lt_iff {a b : Decimal} : a.lt b = true ↔ a.toRat < b.toRat := by
  have ha : (0 : ℚ) < 10 ^ a.scale := by positivity
  have hb : (0 : ℚ) < 10 ^ b.scale := by positivity
  rw [lt, decide_eq_true_iff, toRat, toRat, div_lt_div_iff₀ ha hb]
  exact_mod_cast Iff.rfl

/-- The decimal without its sign. -/
def abs (d : Decimal) : Decimal :=
  ⟨d.mantissa.natAbs, d.scale, by rw [Int.natAbs_natCast]; exact d.mantissa_lt, d.scale_le⟩

@[simp] theorem isZero_abs (d : Decimal) : d.abs.isZero = d.isZero := by
  simp [abs, isZero]

/-- `n / m` to the nearest integer, ties to the even one. -/
def divRoundEven (n m : ℕ) : ℕ :=
  let q := n / m
  let r := n % m
  if m < 2 * r ∨ 2 * r = m ∧ q % 2 = 1 then q + 1 else q

/-- The magnitude with as many of its `scale` places as fit into a decimal, after `drop` of them
have been given up already. -/
def fitPlaces (magnitude scale : ℕ) : ℕ → ℕ → Option (ℕ × ℕ)
  | _, 0 => none
  | drop, fuel + 1 =>
    if drop ≤ scale ∧ scale ≤ drop + 28 ∧ divRoundEven magnitude (10 ^ drop) < 2 ^ 96 then
      some (divRoundEven magnitude (10 ^ drop), scale - drop)
    else fitPlaces magnitude scale (drop + 1) fuel

theorem fitPlaces_spec {magnitude scale drop fuel : ℕ} {x : ℕ × ℕ}
    (h : fitPlaces magnitude scale drop fuel = some x) : x.1 < 2 ^ 96 ∧ x.2 ≤ 28 := by
  induction fuel generalizing drop with
  | zero => cases h
  | succ fuel ih =>
    rw [fitPlaces] at h
    split at h
    · next hfit =>
      obtain rfl := Option.some.inj h
      exact ⟨hfit.2.2, by have := hfit.2.1; simp only; omega⟩
    · exact ih h

/-- The product; a panic when it does not fit. -/
def mul (a b : Decimal) : Except Failure Decimal :=
  if a.isZero || b.isZero then .ok 0
  else
    let scale := a.scale + b.scale
    match h : fitPlaces (a.mantissa * b.mantissa).natAbs scale 0 (scale + 1) with
    | some x => .ok ⟨(a.mantissa * b.mantissa).sign * x.1, x.2, by
        have hx := (fitPlaces_spec h).1
        have hsign : (a.mantissa * b.mantissa).sign.natAbs ≤ 1 := by
          rcases Int.sign_trichotomy (a.mantissa * b.mantissa) with hs | hs | hs <;> simp [hs]
        rw [Int.natAbs_mul, Int.natAbs_natCast]
        calc _ ≤ 1 * x.1 := Nat.mul_le_mul_right _ hsign
          _ < 2 ^ 96 := by omega, (fitPlaces_spec h).2⟩
    | none => .error .panic

end Decimal

end BatMarkets
