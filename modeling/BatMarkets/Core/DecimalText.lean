import BatMarkets.Core.Numeric
import BatMarkets.Text.Numeral

/-!
# Decimals as texts

What the source does with the texts of decimals, by the documented behaviour of the decimal library
it uses: `Decimal.normalize` and `Decimal.display` on the way out, `Decimal.fromStrExact` and
`Decimal.fromStr` on the way in.  The two readers differ in what they do when the digits exceed the
precision of a decimal: the former fails, the latter rounds and ignores the rest of the text.

A reader keeps the decimal of the digits it has seen, so that its accumulator is in range by its
type.

## Main results

* `Decimal.fromStrExact_display`, `Decimal.fromStr_display` : both readers give back the decimal
  that was written, digit for digit.
* `Decimal.toRat_normalize` : normalising keeps the number.
-/

namespace BatMarkets

namespace Decimal

instance : Zero Decimal := ⟨.ofNat 0 zero_fits⟩

theorem pred_scale_le (d : Decimal) : d.scale - 1 ≤ 28 := (Nat.sub_le _ _).trans d.scale_le

/-- The decimal with the other sign. -/
def neg (d : Decimal) : Decimal :=
  ⟨-d.mantissa, d.scale, by rw [Int.natAbs_neg]; exact d.mantissa_lt, d.scale_le⟩

/-- The decimal denotes zero. -/
def isZero (d : Decimal) : Bool := d.mantissa == 0

/-! ### Writing -/

/-- Drop a decimal place that is zero, up to `steps` times. -/
def stripZeros : ℕ → Decimal → Decimal
  | 0, d => d
  | steps + 1, d =>
    if d.scale ≠ 0 ∧ d.mantissa % 10 = 0 then
      stripZeros steps ⟨d.mantissa / 10, d.scale - 1,
        (Int.natAbs_ediv_le_natAbs d.mantissa 10).trans_lt d.mantissa_lt, d.pred_scale_le⟩
    else d

/-- The decimal without decimal places that are zero at its end. -/
def normalize (d : Decimal) : Decimal := stripZeros d.scale d

theorem toRat_stripZeros (steps : ℕ) (d : Decimal) : (stripZeros steps d).toRat = d.toRat := by
  induction steps generalizing d with
  | zero => rfl
  | succ steps ih =>
    by_cases h : d.scale ≠ 0 ∧ d.mantissa % 10 = 0
    · have hmantissa : d.mantissa / 10 * 10 = d.mantissa := Int.ediv_mul_cancel
        (Int.dvd_of_emod_eq_zero h.2)
      have hscale : d.scale - 1 + 1 = d.scale := Nat.succ_pred_eq_of_ne_zero h.1
      have hpow : (10 : ℚ) ^ d.scale = 10 ^ (d.scale - 1) * 10 := by
        rw [← pow_succ, hscale]
      have hcast : (d.mantissa : ℚ) = (d.mantissa / 10 : ℤ) * 10 := by
        exact_mod_cast hmantissa.symm
      rw [stripZeros, if_pos h, ih, toRat, toRat, hpow, hcast]
      exact (mul_div_mul_right _ _ (by norm_num)).symm
    · rw [stripZeros, if_neg h]

@[simp] theorem toRat_normalize (d : Decimal) : d.normalize.toRat = d.toRat :=
  toRat_stripZeros _ _

/-! ### Reading -/

/-- Append a digit, after the decimal point or before it, if there is room for it. -/
def pushDigit (point : Bool) (d : Decimal) (digit : ℕ) : Option Decimal :=
  if h : (d.mantissa * 10 + digit).natAbs < 2 ^ 96 ∧ d.scale + point.toNat ≤ 28 then
    some ⟨d.mantissa * 10 + digit, d.scale + point.toNat, h.1, h.2⟩
  else none

/-- The message for a character that is not part of a decimal. -/
def invalidDigit (c : Char) : String :=
  if c = '.' then "Invalid decimal: two decimal points"
  else if c = '_' then "Invalid decimal: must start lead with a number"
  else "Invalid decimal: unknown character"

/-- Read the text after the digits `d`.  `has` tells whether there was a digit, `point` whether
there was a decimal point; `excess` is what to do with a digit beyond the precision. -/
def readChars (excess : Decimal → Char → Except String Decimal) (point has : Bool) (d : Decimal) :
    List Char → Except String Decimal
  | [] => if has then .ok d else .error "Invalid decimal: no digits found"
  | c :: cs =>
    if point && d.scale == 28 then excess d c
    else if c.isDigit then
      match d.pushDigit point (Text.digitValue c) with
      | some d => readChars excess point true d cs
      | none =>
        if point then excess d c
        else .error "Invalid decimal: overflow from too many digits"
    else if c == '.' && !point then readChars excess true has d cs
    else if c == '_' && has then readChars excess point has d cs
    else .error (invalidDigit c)

/-- Read a text with an optional sign. -/
def readText (excess : Decimal → Char → Except String Decimal) (text : String) :
    Except String Decimal :=
  match text.toList with
  | [] => .error "Invalid decimal: empty"
  | '-' :: cs => neg <$> readChars excess false false 0 cs
  | '+' :: cs => readChars excess false false 0 cs
  | cs => readChars excess false false 0 cs

/-- Read a text; digits beyond the precision of a decimal are an error. -/
def fromStrExact (text : String) : Except String Decimal :=
  readText (fun _ _ => .error "Number has a high precision that can not be represented.") text

/-- Round the decimal by the digit that follows it. -/
def maybeRound (d : Decimal) (c : Char) : Except String Decimal :=
  if c.isDigit || c == '_' || c == '.' then
    if c.isDigit && 5 ≤ Text.digitValue c then
      if h : (d.mantissa + 1).natAbs < 2 ^ 96 then .ok ⟨d.mantissa + 1, d.scale, h, d.scale_le⟩
      else if d.scale = 0 then .error "Invalid decimal: overflow from mantissa after rounding"
      else .ok ⟨(d.mantissa + 5) / 10, d.scale - 1, by have := d.mantissa_lt; omega,
        d.pred_scale_le⟩
    else .ok d
  else .error (invalidDigit c)

/-- Read a text; digits beyond the precision of a decimal are rounded. -/
def fromStr (text : String) : Except String Decimal := readText maybeRound text

/-! ### Reading what was written -/

theorem le_ofDigitChars (ds : List Char) (n : ℕ) : n ≤ Nat.ofDigitChars 10 ds n := by
  rw [Nat.ofDigitChars_eq_ofDigitChars_zero]
  have hpow : 1 * n ≤ 10 ^ ds.length * n := Nat.mul_le_mul_right n (Nat.one_le_pow _ _ (by decide))
  omega

/-- Digits for which there is room are appended one by one. -/
theorem readChars_digits (excess : Decimal → Char → Except String Decimal) (point has : Bool)
    {ds : List Char} (rest : List Char) (hds : ∀ c ∈ ds, c.isDigit = true) {d e : Decimal}
    (hd : 0 ≤ d.mantissa) (hmantissa : e.mantissa = Nat.ofDigitChars 10 ds d.mantissa.toNat)
    (hscale : e.scale = d.scale + point.toNat * ds.length) :
    readChars excess point has d (ds ++ rest) =
      readChars excess point (has || !ds.isEmpty) e rest := by
  induction ds generalizing d has with
  | nil =>
    have he : e = d := by
      refine Decimal.ext ?_ (by simpa using hscale)
      rw [hmantissa, Nat.ofDigitChars_nil, Int.toNat_of_nonneg hd]
    simp [he]
  | cons c cs ih =>
    have hc : c.isDigit = true := hds c (by simp)
    have hcs : ∀ x ∈ cs, x.isDigit = true := fun x hx => hds x (by simp [hx])
    rw [Nat.ofDigitChars_cons] at hmantissa
    set n := 10 * d.mantissa.toNat + (c.toNat - '0'.toNat) with hn
    -- the digits still to come only make the mantissa larger
    have hle : (n : Int) ≤ e.mantissa := by
      rw [hmantissa]
      exact_mod_cast le_ofDigitChars cs n
    have hnext : d.mantissa * 10 + Text.digitValue c = n := by
      rw [Text.digitValue, hn]
      omega
    have hroom : (d.mantissa * 10 + Text.digitValue c).natAbs < 2 ^ 96 := by
      have hlt := e.mantissa_lt
      omega
    have hplaces : d.scale + point.toNat ≤ 28 := by
      have hlast := e.scale_le
      rw [hscale, List.length_cons, Nat.mul_add] at hlast
      omega
    have hfull : (point && d.scale == 28) = false := by
      cases point with
      | false => rfl
      | true =>
        have : d.scale ≠ 28 := by simp at hplaces; omega
        simpa using this
    have hpush : d.pushDigit point (Text.digitValue c) =
        some ⟨d.mantissa * 10 + Text.digitValue c, d.scale + point.toNat, hroom, hplaces⟩ :=
      dif_pos ⟨hroom, hplaces⟩
    have hstep := ih true hcs (d := ⟨d.mantissa * 10 + Text.digitValue c,
      d.scale + point.toNat, hroom, hplaces⟩) (by simp only [hnext]; omega)
      (by simp only [hnext, Int.toNat_natCast]; exact hmantissa)
      (by
        show e.scale = d.scale + point.toNat + point.toNat * cs.length
        rw [hscale, List.length_cons, Nat.mul_add]
        omega)
    rw [List.cons_append, readChars, if_neg (by simp [hfull]), if_pos hc, hpush]
    simpa using hstep

/-- The digits of the mantissa, with zeros in front so that at least one is before the point. -/
def digits (d : Decimal) : List Char :=
  List.replicate (d.scale + 1 - (Nat.toDigits 10 d.mantissa.natAbs).length) '0' ++
    Nat.toDigits 10 d.mantissa.natAbs

theorem isDigit_of_mem_digits {d : Decimal} {c : Char} (h : c ∈ d.digits) : c.isDigit = true := by
  rcases List.mem_append.1 h with h | h
  · rw [List.eq_of_mem_replicate h]
    rfl
  · exact Nat.isDigit_of_mem_toDigits (by decide) (by decide) h

theorem ofDigitChars_digits (d : Decimal) : Nat.ofDigitChars 10 d.digits 0 = d.mantissa.natAbs := by
  rw [digits, Nat.ofDigitChars_append, Nat.ofDigitChars_replicate_zero, Nat.mul_zero,
    Nat.ofDigitChars_ten_toDigits]

theorem scale_lt_length_digits (d : Decimal) : d.scale < d.digits.length := by
  rw [digits, List.length_append, List.length_replicate]
  omega

/-- The digits before the point. -/
def whole (d : Decimal) : List Char := d.digits.take (d.digits.length - d.scale)

/-- The digits after the point. -/
def places (d : Decimal) : List Char := d.digits.drop (d.digits.length - d.scale)

theorem toList_display (d : Decimal) :
    d.display.toList = (if d.mantissa < 0 then ['-'] else []) ++
      (d.whole ++ if d.scale = 0 then [] else '.' :: d.places) := by
  rw [display, String.toList_ofList, List.append_assoc]
  rfl

theorem length_places (d : Decimal) : d.places.length = d.scale := by
  have hlt := d.scale_lt_length_digits
  rw [places, List.length_drop]
  omega

theorem whole_ne_nil (d : Decimal) : d.whole ≠ [] := by
  have hlt := d.scale_lt_length_digits
  rw [whole, Ne, List.take_eq_nil_iff]
  rintro (h | h)
  · omega
  · rw [h] at hlt
    simp at hlt

/-- Reading the digits of a decimal, with its point, gives its absolute value. -/
theorem readChars_digits_of_display (excess : Decimal → Char → Except String Decimal)
    (d e : Decimal) (hmantissa : e.mantissa = d.mantissa.natAbs) (hscale : e.scale = d.scale) :
    readChars excess false false 0 (d.whole ++ if d.scale = 0 then [] else '.' :: d.places) =
      .ok e := by
  have hwhole : ∀ c ∈ d.whole, c.isDigit = true := fun c hc =>
    isDigit_of_mem_digits (List.mem_of_mem_take hc)
  have hplaces : ∀ c ∈ d.places, c.isDigit = true := fun c hc =>
    isDigit_of_mem_digits (List.mem_of_mem_drop hc)
  have hdigits : Nat.ofDigitChars 10 d.places (Nat.ofDigitChars 10 d.whole 0) =
      d.mantissa.natAbs := by
    rw [← Nat.ofDigitChars_append, whole, places, List.take_append_drop, ofDigitChars_digits]
  -- the whole part alone, which is smaller than the number without its point
  have hfits : (Nat.ofDigitChars 10 d.whole 0 : Int).natAbs < 2 ^ 96 := by
    have hle := le_ofDigitChars d.places (Nat.ofDigitChars 10 d.whole 0)
    have hlt := d.mantissa_lt
    omega
  have hfirst := readChars_digits excess false false
    (if d.scale = 0 then [] else '.' :: d.places) hwhole (d := 0)
    (e := ⟨Nat.ofDigitChars 10 d.whole 0, 0, hfits, by decide⟩) (by decide) rfl (by simp; rfl)
  have hne : d.whole.isEmpty = false := by simpa using d.whole_ne_nil
  rw [hfirst, hne]
  by_cases h0 : d.scale = 0
  · have hnil : d.places = [] := List.eq_nil_of_length_eq_zero (by rw [length_places, h0])
    rw [hnil, Nat.ofDigitChars_nil] at hdigits
    have he : e = ⟨Nat.ofDigitChars 10 d.whole 0, 0, hfits, by decide⟩ :=
      Decimal.ext (hmantissa.trans (congrArg Nat.cast hdigits.symm)) (hscale.trans h0)
    rw [if_pos h0, he]
    rfl
  · have hsecond := readChars_digits excess true true [] hplaces
      (d := ⟨Nat.ofDigitChars 10 d.whole 0, 0, hfits, by decide⟩) (e := e)
      (Int.natCast_nonneg _) (by rw [hmantissa, Int.toNat_natCast, hdigits])
      (by simp [hscale, length_places])
    rw [List.append_nil] at hsecond
    rw [if_neg h0]
    exact hsecond

theorem readText_display (excess : Decimal → Char → Except String Decimal) (d : Decimal) :
    readText excess d.display = .ok d := by
  rw [readText, toList_display]
  by_cases hneg : d.mantissa < 0
  · have hread := readChars_digits_of_display excess d d.neg
      (by show -d.mantissa = d.mantissa.natAbs; omega) rfl
    have hd : d.neg.neg = d := Decimal.ext (neg_neg d.mantissa) rfl
    rw [if_pos hneg]
    simp only [List.cons_append, List.nil_append, hread]
    exact congrArg Except.ok hd
  · have hread := readChars_digits_of_display excess d d (by omega) rfl
    rw [if_neg hneg, List.nil_append]
    cases hw : d.whole with
    | nil => exact absurd hw d.whole_ne_nil
    | cons c cs =>
      have hc : c.isDigit = true :=
        isDigit_of_mem_digits (List.mem_of_mem_take (hw ▸ List.mem_cons_self : c ∈ d.whole))
      rw [hw, List.cons_append] at hread
      -- the first character is a digit, so it is not read as a sign
      rw [List.cons_append]
      split
      · next h => cases h
      · next h =>
        rw [(List.cons.inj h).1] at hc
        cases hc
      · next h =>
        rw [(List.cons.inj h).1] at hc
        cases hc
      · exact hread

theorem fromStrExact_display (d : Decimal) : fromStrExact d.display = .ok d := readText_display _ d

theorem fromStr_display (d : Decimal) : fromStr d.display = .ok d := readText_display _ d

end Decimal

end BatMarkets
