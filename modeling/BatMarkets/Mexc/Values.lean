import BatMarkets.Core.DecimalText
import BatMarkets.Runtime.Feed
import BatMarkets.Wire.Json

/-!
# The values in the messages of MEXC

The adapter of MEXC reads a decimal from a JSON string or a JSON number, possibly with an exponent
(`decimal_from_value` and its callers).  An exponent is applied one factor of ten at a time, by the
documented arithmetic of the decimal library: a product that does not fit into a decimal panics, a
quotient is rounded at the largest scale.

## Main results

* `Mexc.decimalFromValue_of_spells` : a value that is spelled as the runtime writes a decimal is read
  as that decimal.
-/

namespace BatMarkets

open Wire

namespace Mexc

/-- The error for something that cannot be decoded. -/
def decodeMessage (message : String) : MarketError :=
  MarketError.withVenue { kind := .decodeError, message } .mexc .linearUsdt

/-- The decimal times ten; a panic when it does not fit. -/
def mulTen (d : Decimal) : Except Failure Decimal :=
  if d.isZero then .ok 0
  else if h : (d.mantissa * 10).natAbs < 2 ^ 96 then .ok ⟨d.mantissa * 10, d.scale, h, d.scale_le⟩
  else if d.scale = 0 then .error .panic
  else .ok ⟨d.mantissa, d.scale - 1, d.mantissa_lt, d.pred_scale_le⟩

/-- The quotient of the mantissa by ten, to the nearest integer, ties to the even one. -/
def divTenRounded (n : ℤ) : ℤ :=
  let q := n.natAbs / 10
  let r := n.natAbs % 10
  n.sign * (if 5 < r ∨ r = 5 ∧ q % 2 = 1 then q + 1 else q : ℕ)

theorem natAbs_divTenRounded_lt {n : ℤ} {b : ℕ} (h : n.natAbs < b) :
    (divTenRounded n).natAbs < b := by
  have hsign : n.sign.natAbs ≤ 1 := by
    rcases Int.sign_trichotomy n with hs | hs | hs <;> simp [hs]
  have hle : (if 5 < n.natAbs % 10 ∨ n.natAbs % 10 = 5 ∧ n.natAbs / 10 % 2 = 1
      then n.natAbs / 10 + 1 else n.natAbs / 10) ≤ n.natAbs := by
    split <;> omega
  rw [divTenRounded, Int.natAbs_mul, Int.natAbs_natCast]
  calc n.sign.natAbs * _ ≤ 1 * n.natAbs := Nat.mul_le_mul hsign hle
    _ < b := by omega

/-- The decimal divided by ten, rounded at the largest scale. -/
def divTen (d : Decimal) : Decimal :=
  if h : d.scale + 1 ≤ 28 then ⟨d.mantissa, d.scale + 1, d.mantissa_lt, h⟩
  else ⟨divTenRounded d.mantissa, d.scale, natAbs_divTenRounded_lt d.mantissa_lt, d.scale_le⟩

/-- Multiply by ten, or divide by ten, `steps` times. -/
def scaleBy (up : Bool) : ℕ → Decimal → Except Failure Decimal
  | 0, d => .ok d
  | steps + 1, d => (if up then mulTen d else .ok (divTen d)) >>= scaleBy up steps

/-- A decimal, or why the text is not one.  A large exponent panics. -/
def decimalFromStr (value : String) : Except Failure (Except String Decimal) :=
  match Text.splitOnce (fun c => c == 'e' || c == 'E') value.toList with
  | none => .ok (Decimal.fromStrExact value)
  | some (mantissa, exponent) =>
    match Decimal.fromStrExact (String.ofList mantissa) with
    | .error e => .ok (.error e)
    | .ok parsed =>
      match Text.parseInt (-2 ^ 31) (2 ^ 31 - 1) exponent with
      | .error e => .ok (.error ("invalid exponent: " ++ e))
      | .ok exponent => Except.ok <$> scaleBy (0 ≤ exponent) exponent.natAbs parsed

/-- A decimal in any of its spellings; null counts as 0. -/
def decimalFromValue (value : Json) : Except Failure Decimal := do
  let parsed ← match value with
    | .number number => decimalFromStr number.display
    | .string text => decimalFromStr text
    | .null => .ok (.ok 0)
    | other => decimalFromStr other.display
  match parsed with
  | .ok d => return d
  | .error e => throw (.error (decodeMessage
      ("invalid mexc decimal '" ++ value.display ++ "': " ++ e)))

/-- A decimal that may be missing, which counts as 0. -/
def decimalFromOptionalValue (value : Option Json) : Except Failure Decimal :=
  (value.map decimalFromValue).getD (.ok 0)

/-- The result, if there is one; a panic is not caught. -/
def okOrNone {α : Type} : Except Failure α → Except Failure (Option α)
  | .ok a => .ok (some a)
  | .error (.error _) => .ok none
  | .error .panic => .error .panic

/-- An id as a text, whatever its spelling. -/
def valueToIdString : Json → String
  | .string value => value
  | .number value => value.display
  | .null => ""
  | value => value.display

/-- An integer, written as a number or as a text. -/
def valueToI64 (value : Json) : Option Int64 :=
  match value.asI64 with
  | some n => some (.ofInt n)
  | none => match value with
    | .string text => (Text.parseInt (-2 ^ 63) (2 ^ 63 - 1) text.toList).toOption.map .ofInt
    | _ => none

/-- The specification of a symbol the adapter knows. -/
def requireNativeSymbol (catalog : InstrumentCatalog) (symbol : String) :
    Except Failure InstrumentSpec :=
  (BatMarkets.requireNativeSymbol .mexc catalog symbol).mapError .error

/-! ### Values as the runtime writes them -/

/-- The value is the text, or a number that is written like the text. -/
def Spells (value : Json) (text : String) : Prop :=
  value = .string text ∨ ∃ number : JsonNumber, value = .number number ∧ number.display = text

/-- A decimal is written without an exponent. -/
theorem splitOnce_display (d : Decimal) :
    Text.splitOnce (fun c => c == 'e' || c == 'E') d.display.toList = none := by
  have hdigit : ∀ c : Char, c.isDigit = true → (c == 'e' || c == 'E') = false := by
    intro c hc
    have he : c ≠ 'e' := by
      rintro rfl
      cases hc
    have hE : c ≠ 'E' := by
      rintro rfl
      cases hc
    simp [he, hE]
  refine Text.splitOnce_eq_none fun c hc => ?_
  rw [Decimal.toList_display, List.mem_append, List.mem_append] at hc
  rcases hc with hc | hc | hc
  · split at hc
    · rw [List.mem_singleton.1 hc]
      rfl
    · cases hc
  · exact hdigit c (Decimal.isDigit_of_mem_digits (List.mem_of_mem_take hc))
  · split at hc
    · cases hc
    · rcases List.mem_cons.1 hc with rfl | hc
      · rfl
      · exact hdigit c (Decimal.isDigit_of_mem_digits (List.mem_of_mem_drop hc))

theorem decimalFromStr_display (d : Decimal) : decimalFromStr d.display = .ok (.ok d) := by
  rw [decimalFromStr, splitOnce_display]
  exact congrArg Except.ok (Decimal.fromStrExact_display d)

theorem decimalFromValue_of_spells {value : Json} {d : Decimal} (h : Spells value d.display) :
    decimalFromValue value = .ok d := by
  rcases h with rfl | ⟨number, rfl, hnumber⟩
  · simp only [decimalFromValue, decimalFromStr_display]
    rfl
  · simp only [decimalFromValue, hnumber, decimalFromStr_display]
    rfl

end Mexc

end BatMarkets
