import BatMarkets.Core.Products
import BatMarkets.Decoding.Outcome
import BatMarkets.Mexc.Values
import BatMarkets.Text.Notation

/-!
# Which numbers MEXC's values are read as

`decimal_from_value` reads a text in decimal notation exactly or refuses it.  With an exponent it
does neither: it multiplies by ten, which panics once the number has no room in a decimal, or
divides by ten, which rounds once there is no place left.

`valueOutcome` says which of this happens, in terms of the number that the text denotes.

## Main results

* `Decimal.fromStrExact_eq_ok` : a text in decimal notation is read as its number.
* `Mexc.follows_decimalFromValue` : the outcome of reading a value.
-/

namespace BatMarkets

open Decoding Text Wire

namespace Decimal

/-! ### Texts without an exponent -/

/-- The digits that are read follow those that have been read. -/
theorem readChars_eq_ok {refuse : Decimal → Char → Except String Decimal}
    (hrefuse : ∀ d c, ∃ e, refuse d c = .error e) {cs : List Char} {point has : Bool}
    {d e : Decimal} (hd : 0 ≤ d.mantissa) (h : readChars refuse point has d cs = .ok e) :
    e.mantissa = Nat.ofDigitChars 10 (digitsOf cs) d.mantissa.toNat ∧
      e.scale = d.scale + if point then (digitsOf cs).length else placesOf cs := by
  induction cs generalizing d point has with
  | nil =>
    rw [readChars] at h
    split at h
    · obtain rfl := Except.ok.inj h
      refine ⟨?_, by cases point <;> rfl⟩
      rw [digitsOf_nil, Nat.ofDigitChars_nil, Int.toNat_of_nonneg hd]
    · cases h
  | cons c cs ih =>
    rw [readChars] at h
    split at h
    · obtain ⟨error, herror⟩ := hrefuse d c
      rw [herror] at h
      cases h
    split at h
    · next hdigit =>
      have hpoint : c ≠ '.' := by
        rintro rfl
        cases hdigit
      split at h
      · next d' hpush =>
        unfold pushDigit at hpush
        split at hpush
        · obtain rfl := Option.some.inj hpush
          obtain ⟨hmantissa, hscale⟩ := ih (by simp only; omega) h
          have hnext : (d.mantissa * 10 + digitValue c).toNat =
              10 * d.mantissa.toNat + digitValue c := by omega
          rw [digitsOf_cons_digit hdigit, ofDigitChars_cons_digitValue]
          refine ⟨by rw [hmantissa, hnext], ?_⟩
          rw [hscale, placesOf_cons hpoint, List.length_cons]
          cases point with
          | true => simp only [Bool.toNat_true, if_true]; omega
          | false => simp
        · cases hpush
      · split at h
        · obtain ⟨error, herror⟩ := hrefuse d c
          rw [herror] at h
          cases h
        · cases h
    · next hdigit =>
      rw [Bool.not_eq_true] at hdigit
      rw [digitsOf_cons_other hdigit]
      split at h
      · next hdot =>
        -- the digits from here on are decimal places
        rw [Bool.and_eq_true, beq_iff_eq, Bool.not_eq_true'] at hdot
        obtain ⟨rfl, rfl⟩ := hdot
        simpa using ih hd h
      · next hdot =>
        split at h
        · next hskip =>
          rw [Bool.and_eq_true, beq_iff_eq] at hskip
          obtain ⟨rfl, -⟩ := hskip
          rw [placesOf_cons (by decide)]
          exact ih hd h
        · cases h

/-- What is read is in decimal notation. -/
theorem unsignedNotation_of_readChars {refuse : Decimal → Char → Except String Decimal}
    (hrefuse : ∀ d c, ∃ e, refuse d c = .error e) {cs : List Char} {point has : Bool}
    {d e : Decimal} (h : readChars refuse point has d cs = .ok e) :
    unsignedNotation point has cs = true := by
  have hstop : ∀ {d : Decimal} {c : Char}, refuse d c ≠ .ok e := by
    intro d c hok
    obtain ⟨error, herror⟩ := hrefuse d c
    rw [herror] at hok
    cases hok
  induction cs generalizing d point has with
  | nil =>
    rw [readChars] at h
    split at h
    · next hhas => exact hhas
    · cases h
  | cons c cs ih =>
    rw [readChars] at h
    rw [unsignedNotation]
    split at h
    · exact absurd h hstop
    split at h
    · next hdigit =>
      rw [if_pos hdigit]
      split at h
      · exact ih h
      · split at h
        · exact absurd h hstop
        · cases h
    · next hdigit =>
      rw [if_neg hdigit]
      split at h
      · next hdot =>
        rw [if_pos hdot]
        exact ih h
      · next hdot =>
        rw [if_neg hdot]
        split at h
        · next hskip =>
          rw [hskip, ih h]
          rfl
        · cases h

theorem toRat_neg (d : Decimal) : d.neg.toRat = -d.toRat := by
  simp [toRat, neg, neg_div]

/-- What is read without a sign is the number of the digits. -/
theorem toRat_of_readChars {refuse : Decimal → Char → Except String Decimal}
    (hrefuse : ∀ d c, ∃ e, refuse d c = .error e) {cs : List Char} {d : Decimal}
    (h : readChars refuse false false 0 cs = .ok d) : d.toRat = unsignedNumber cs := by
  obtain ⟨hmantissa, hscale⟩ := readChars_eq_ok hrefuse (Int.le_refl 0) h
  have hzero : (0 : Decimal).scale = 0 := rfl
  have hzero' : (0 : Decimal).mantissa.toNat = 0 := rfl
  rw [hzero'] at hmantissa
  rw [hzero, zero_add, if_neg (by decide)] at hscale
  rw [toRat, hmantissa, hscale, unsignedNumber, Int.cast_natCast]

theorem fromStrExact_eq_ok {text : String} {d : Decimal} (h : fromStrExact text = .ok d) :
    plainNotation text.toList = true ∧ d.toRat = plainNumber text.toList := by
  have hrefuse : ∀ (_ : Decimal) (_ : Char), ∃ e, (Except.error
      "Number has a high precision that can not be represented." : Except String Decimal) =
        .error e := fun _ _ => ⟨_, rfl⟩
  unfold fromStrExact readText at h
  split at h
  · cases h
  · next cs htext =>
    obtain ⟨e, he, rfl⟩ := except_map_eq_ok.1 h
    rw [toRat_neg, toRat_of_readChars hrefuse he, htext]
    exact ⟨unsignedNotation_of_readChars hrefuse he, rfl⟩
  · next cs htext =>
    rw [toRat_of_readChars hrefuse h, htext]
    exact ⟨unsignedNotation_of_readChars hrefuse h, rfl⟩
  · next hminus hplus =>
    have hwritten := unsignedNotation_of_readChars hrefuse h
    rw [toRat_of_readChars hrefuse h]
    unfold plainNotation plainNumber
    split
    · next heq => exact absurd heq (hminus _)
    · next heq => exact absurd heq (hplus _)
    · exact ⟨hwritten, rfl⟩

/-! ### What a decimal can denote -/

theorem abs_toRat_lt (d : Decimal) : |d.toRat| < 2 ^ 96 := by
  have hpow : (1 : ℚ) ≤ 10 ^ d.scale := one_le_pow₀ (by norm_num)
  have hmantissa : |(d.mantissa : ℚ)| < 2 ^ 96 := by
    have hlt := d.mantissa_lt
    rw [← Int.cast_abs, Int.abs_eq_natAbs]
    exact_mod_cast hlt
  rw [toRat, abs_div, abs_of_pos (by positivity : (0 : ℚ) < 10 ^ d.scale)]
  exact (div_le_self (abs_nonneg _) hpow).trans_lt hmantissa

/-- The number has no more decimal places than a decimal can have. -/
def OnGrid (q : ℚ) : Prop := ∃ n : ℤ, q * 10 ^ 28 = n

theorem onGrid_iff {q : ℚ} : OnGrid q ↔ (q * 10 ^ 28).den = 1 := by
  constructor
  · rintro ⟨n, hn⟩
    rw [hn]
    rfl
  · intro h
    exact ⟨(q * 10 ^ 28).num, (Rat.den_eq_one_iff _).1 h |>.symm⟩

instance : DecidablePred OnGrid := fun _ => decidable_of_iff _ onGrid_iff.symm

theorem onGrid_toRat (d : Decimal) : OnGrid d.toRat := by
  refine ⟨d.mantissa * 10 ^ (28 - d.scale), ?_⟩
  have hsplit : (10 : ℚ) ^ 28 = 10 ^ (28 - d.scale) * 10 ^ d.scale := by
    rw [← pow_add, Nat.sub_add_cancel d.scale_le]
  rw [toRat, hsplit]
  push_cast
  field_simp

/-- Some decimal denotes the number. -/
def Representable (q : ℚ) : Prop := ∃ places < 29, (q * 10 ^ places).den = 1 ∧
  |q * 10 ^ places| < 2 ^ 96

instance : DecidablePred Representable := fun _ => by unfold Representable; infer_instance

theorem representable_toRat (d : Decimal) : Representable d.toRat := by
  have hpow : (10 : ℚ) ^ d.scale ≠ 0 := by positivity
  have hnumber : d.toRat * 10 ^ d.scale = d.mantissa := div_mul_cancel₀ _ hpow
  refine ⟨d.scale, Nat.lt_succ_of_le d.scale_le, ?_⟩
  rw [hnumber]
  refine ⟨rfl, ?_⟩
  rw [← Int.cast_abs, Int.abs_eq_natAbs]
  exact_mod_cast d.mantissa_lt

theorem representable_iff {q : ℚ} : Representable q ↔ ∃ d : Decimal, d.toRat = q := by
  refine ⟨fun ⟨places, hplaces, hden, hlt⟩ => ?_, fun ⟨d, hd⟩ => hd ▸ representable_toRat d⟩
  have hpow : (10 : ℚ) ^ places ≠ 0 := by positivity
  have hint : ((q * 10 ^ places).num : ℚ) = q * 10 ^ places := (Rat.den_eq_one_iff _).1 hden
  have hfits : (q * 10 ^ places).num.natAbs < 2 ^ 96 := by
    rw [← hint, ← Int.cast_abs, Int.abs_eq_natAbs] at hlt
    exact_mod_cast hlt
  refine ⟨⟨(q * 10 ^ places).num, places, hfits, Nat.le_of_lt_succ hplaces⟩, ?_⟩
  rw [toRat, hint, mul_div_cancel_right₀ _ hpow]

theorem Representable.onGrid {q : ℚ} (h : Representable q) : OnGrid q := by
  obtain ⟨d, rfl⟩ := representable_iff.1 h
  exact onGrid_toRat d

/-- A tenth of the number, rounded to the last place of a decimal. -/
def tenth (q : ℚ) : ℚ := roundPlaces (q / 10) 28

theorem tenth_of_onGrid {q : ℚ} (h : OnGrid (q / 10)) : tenth q = q / 10 := roundPlaces_of_int h

end Decimal

namespace Mexc

open Decimal

/-! ### Exponents -/

theorem mulTen_spec (d : Decimal) :
    (|d.toRat * 10| < 2 ^ 96 ∧ ∃ e, mulTen d = .ok e ∧ e.toRat = d.toRat * 10) ∨
      (2 ^ 96 ≤ |d.toRat * 10| ∧ mulTen d = .error .panic) := by
  unfold mulTen
  by_cases hzero : d.isZero = true
  · have hnumber := isZero_iff.1 hzero
    rw [if_pos hzero, hnumber]
    refine .inl ⟨by norm_num, 0, rfl, ?_⟩
    rw [zero_mul]
    exact isZero_iff.1 rfl
  rw [if_neg hzero]
  split
  · next hfits =>
    have hvalue : (⟨d.mantissa * 10, d.scale, hfits, d.scale_le⟩ : Decimal).toRat =
        d.toRat * 10 := by
      simp only [toRat]
      push_cast
      ring
    exact .inl ⟨hvalue ▸ abs_toRat_lt _, _, rfl, hvalue⟩
  · next hfits =>
    split
    · next hscale =>
      have hnumber : d.toRat * 10 = (d.mantissa * 10 : ℤ) := by
        rw [toRat, hscale]
        push_cast
        ring
      refine .inr ⟨?_, rfl⟩
      rw [hnumber, ← Int.cast_abs, Int.abs_eq_natAbs]
      exact_mod_cast not_lt.1 hfits
    · next hscale =>
      -- one place fewer
      have hpow : (10 : ℚ) ^ d.scale = 10 ^ (d.scale - 1) * 10 := by
        rw [← pow_succ, Nat.sub_add_cancel (Nat.one_le_iff_ne_zero.2 hscale)]
      have hvalue : (⟨d.mantissa, d.scale - 1, d.mantissa_lt, d.pred_scale_le⟩ : Decimal).toRat =
          d.toRat * 10 := by
        simp only [toRat, hpow]
        field_simp
      exact .inl ⟨hvalue ▸ abs_toRat_lt _, _, rfl, hvalue⟩

/-- Multiplied by ten again and again, until the number has no room. -/
theorem scaleBy_up (n : ℕ) (d : Decimal) :
    (|d.toRat * 10 ^ n| < 2 ^ 96 ∧ ∃ e, scaleBy true n d = .ok e ∧ e.toRat = d.toRat * 10 ^ n) ∨
      (2 ^ 96 ≤ |d.toRat * 10 ^ n| ∧ scaleBy true n d = .error .panic) := by
  induction n generalizing d with
  | zero =>
    have hone : d.toRat * 10 ^ 0 = d.toRat := by rw [pow_zero, mul_one]
    rw [hone]
    exact .inl ⟨abs_toRat_lt d, d, rfl, rfl⟩
  | succ n ih =>
    have hstep : scaleBy true (n + 1) d = mulTen d >>= scaleBy true n := rfl
    have hpow : d.toRat * 10 ^ (n + 1) = d.toRat * 10 * 10 ^ n := by ring
    rw [hstep, hpow]
    obtain ⟨-, e, he, hvalue⟩ | ⟨hlarge, hpanic⟩ := mulTen_spec d
    · rw [he, ← hvalue]
      exact ih e
    · rw [hpanic]
      refine .inr ⟨hlarge.trans ?_, rfl⟩
      have hone : (1 : ℚ) ≤ |10 ^ n| := by
        rw [abs_of_pos (by positivity)]
        exact one_le_pow₀ (by norm_num)
      rw [abs_mul _ ((10 : ℚ) ^ n)]
      exact le_mul_of_one_le_right (abs_nonneg _) hone

theorem divTenRounded_eq (n : ℤ) : divTenRounded n = n.sign * divRoundEven n.natAbs 10 := by
  unfold divTenRounded divRoundEven
  simp only
  congr 2
  split_ifs <;> omega

/-- Divided by ten, with one more place or rounded to the last one. -/
theorem toRat_divTen (d : Decimal) : (divTen d).toRat = tenth d.toRat := by
  unfold divTen
  split
  · next hscale =>
    have hvalue : (⟨d.mantissa, d.scale + 1, d.mantissa_lt, hscale⟩ : Decimal).toRat =
        d.toRat / 10 := by
      simp only [toRat, pow_succ]
      field_simp
    rw [hvalue, tenth_of_onGrid (hvalue ▸ onGrid_toRat _)]
  · next hscale =>
    have h28 : d.scale = 28 := by
      have hle := d.scale_le
      omega
    have htenth : d.toRat / 10 = (d.mantissa : ℚ) / 10 ^ 29 := by
      rw [toRat, h28]
      ring
    have hleft : (⟨divTenRounded d.mantissa, d.scale, natAbs_divTenRounded_lt d.mantissa_lt,
        d.scale_le⟩ : Decimal).toRat = (divTenRounded d.mantissa : ℚ) / 10 ^ 28 := by
      simp only [toRat, h28]
    rw [hleft, tenth, htenth]
    obtain hzero | hne := eq_or_ne d.mantissa 0
    · simp [hzero, divTenRounded, roundPlaces_zero]
    rw [roundPlaces, ← sign_scaled hne, ← divRoundEven_scaled (by norm_num), divTenRounded_eq]
    push_cast
    rw [mul_div_assoc]

/-- Divided by ten again and again.  The result is right exactly if the number is on the grid. -/
theorem scaleBy_down (n : ℕ) (d : Decimal) :
    ∃ e, scaleBy false n d = .ok e ∧ e.toRat = tenth^[n] d.toRat ∧
      (e.toRat = d.toRat / 10 ^ n ↔ OnGrid (d.toRat / 10 ^ n)) := by
  have hgrid : ∀ {e : Decimal} {q : ℚ}, e.toRat = q → OnGrid q := fun h => h ▸ onGrid_toRat _
  induction n generalizing d with
  | zero => exact ⟨d, rfl, rfl, by simp [onGrid_toRat]⟩
  | succ n ih =>
    have hstep : scaleBy false (n + 1) d = scaleBy false n (divTen d) := rfl
    have hpow : d.toRat / 10 ^ (n + 1) = d.toRat / 10 / 10 ^ n := by
      rw [pow_succ]
      field_simp
    obtain ⟨e, he, hread, hiff⟩ := ih (divTen d)
    rw [toRat_divTen] at hread hiff
    refine ⟨e, hstep.trans he, hread, hgrid, fun h => ?_⟩
    -- the number is on the grid before the last divisions as well
    have hfirst : OnGrid (d.toRat / 10) := by
      obtain ⟨m, hm⟩ := h
      refine ⟨m * 10 ^ n, ?_⟩
      rw [hpow] at hm
      push_cast
      rw [← hm]
      field_simp
    rw [tenth_of_onGrid hfirst, ← hpow] at hiff
    exact hiff.2 h

/-! ### Texts and values -/

/-- The outcome of a number with an exponent: a positive one can overflow, a negative one can take
the number off the grid. -/
def exponentOutcome (q : ℚ) (exponent : ℤ) : Outcome :=
  if 0 ≤ exponent then .computed (|q| < 2 ^ 96) else .taken (OnGrid q)

/-- What reading a text as a decimal should give, with or without an exponent. -/
def textOutcome (text : String) : Outcome :=
  match splitOnce isExponentMark text.toList with
  | none => .check (fromStrExact text).isOk
  | some (mantissa, exponent) =>
    .check (fromStrExact (String.ofList mantissa)).isOk *
      (.check (parseInt (-2 ^ 31) (2 ^ 31 - 1) exponent).isOk *
        exponentOutcome (number text.toList) (integerOf exponent))

/-- The number that a text is read as, if it is read: each division by ten is rounded. -/
def textRead (text : String) : ℚ :=
  match splitOnce isExponentMark text.toList with
  | none => plainNumber text.toList
  | some (mantissa, exponent) =>
    if 0 ≤ integerOf exponent then plainNumber mantissa * 10 ^ integerOf exponent
    else tenth^[(integerOf exponent).natAbs] (plainNumber mantissa)

/-- The text of a value; nothing is read as zero. -/
def valueText : Json → String
  | .null => "0"
  | .number number => number.display
  | .string text => text
  | other => other.display

/-- What reading a value as a decimal should give; null counts as 0. -/
def valueOutcome : Json → Outcome
  | .null => .exact
  | value => textOutcome (valueText value)

/-- The number that the value denotes. -/
def valueNumber (value : Json) : ℚ := number (valueText value).toList

/-- The number that the value is read as, if it is read. -/
def valueRead (value : Json) : ℚ := textRead (valueText value)

/-- The decimal is the number that the value denotes. -/
def Denotes (value : Json) (d : Decimal) : Prop := d.toRat = valueNumber value

/-- What the reader of texts returns, with its errors. -/
theorem decimalFromStr_cases (text : String) :
    (textOutcome text = .exact ∧ ∃ d, decimalFromStr text = .ok (.ok d) ∧
        d.toRat = number text.toList) ∨
      (textOutcome text = .inexact ∧ ∃ d, decimalFromStr text = .ok (.ok d) ∧
        d.toRat ≠ number text.toList) ∨
      (textOutcome text = .refused ∧ ∃ e, decimalFromStr text = .ok (.error e)) ∨
      (textOutcome text = .panics ∧ decimalFromStr text = .error .panic) := by
  unfold textOutcome decimalFromStr number
  have hmark : (fun c => c == 'e' || c == 'E') = isExponentMark := rfl
  rw [hmark]
  cases hsplit : splitOnce isExponentMark text.toList with
  | none =>
    cases hd : fromStrExact text with
    | error e => exact .inr (.inr (.inl ⟨rfl, e, rfl⟩))
    | ok d => exact .inl ⟨rfl, d, rfl, (fromStrExact_eq_ok hd).2⟩
  | some parts =>
    obtain ⟨mantissa, exponent⟩ := parts
    dsimp only
    cases hd : fromStrExact (String.ofList mantissa) with
    | error e => exact .inr (.inr (.inl ⟨rfl, e, rfl⟩))
    | ok d =>
      have hmantissa := (fromStrExact_eq_ok hd).2
      rw [String.toList_ofList] at hmantissa
      cases hk : parseInt (-2 ^ 31) (2 ^ 31 - 1) exponent with
      | error e => exact .inr (.inr (.inl ⟨rfl, _, rfl⟩))
      | ok k =>
        have hexponent := parseInt_eq_ok hk
        have hok : Outcome.check (Except.ok d : Except String Decimal).isOk = .exact := rfl
        have hok' : Outcome.check (Except.ok k : Except String ℤ).isOk = .exact := rfl
        simp only [hok, hok', Outcome.exact_mul, ← hexponent, ← hmantissa, exponentOutcome]
        by_cases hsign : 0 ≤ k
        · have hpow : (10 : ℚ) ^ k = 10 ^ k.natAbs := by
            rw [← zpow_natCast, Int.natAbs_of_nonneg hsign]
          rw [if_pos hsign, hpow, decide_eq_true hsign]
          obtain ⟨hsmall, e, he, hvalue⟩ | ⟨hlarge, hpanic⟩ := scaleBy_up k.natAbs d
          · rw [decide_eq_true hsmall, he]
            exact .inl ⟨rfl, e, rfl, hvalue⟩
          · rw [decide_eq_false (not_lt.2 hlarge), hpanic]
            exact .inr (.inr (.inr ⟨rfl, rfl⟩))
        · have hpow : d.toRat * (10 : ℚ) ^ k = d.toRat / 10 ^ k.natAbs := by
            rw [div_eq_mul_inv, ← zpow_natCast, ← zpow_neg,
              show -(k.natAbs : ℤ) = k by omega]
          rw [if_neg hsign, hpow, decide_eq_false hsign]
          obtain ⟨e, he, -, hiff⟩ := scaleBy_down k.natAbs d
          rw [he]
          by_cases hgrid : OnGrid (d.toRat / 10 ^ k.natAbs)
          · rw [decide_eq_true hgrid]
            exact .inl ⟨rfl, e, rfl, hiff.2 hgrid⟩
          · rw [decide_eq_false hgrid]
            exact .inr (.inl ⟨rfl, e, rfl, fun heq => hgrid (hiff.1 heq)⟩)

/-- What is read is in decimal notation, and its value is known. -/
theorem read_of_decimalFromStr {text : String} {d : Decimal}
    (h : decimalFromStr text = .ok (.ok d)) :
    isNumber text.toList = true ∧ d.toRat = textRead text := by
  unfold decimalFromStr at h
  have hmark : (fun c => c == 'e' || c == 'E') = isExponentMark := rfl
  rw [hmark] at h
  unfold isNumber textRead
  cases hsplit : splitOnce isExponentMark text.toList with
  | none =>
    rw [hsplit] at h
    exact fromStrExact_eq_ok (Except.ok.inj h)
  | some parts =>
    rw [hsplit] at h
    obtain ⟨mantissa, exponent⟩ := parts
    dsimp only at h ⊢
    split at h
    · cases h
    next parsed hparsed =>
    have hplain := fromStrExact_eq_ok hparsed
    rw [String.toList_ofList] at hplain
    split at h
    · cases h
    next k hk =>
    obtain ⟨e, he, hed⟩ := except_map_eq_ok.1 h
    obtain rfl : e = d := Except.ok.inj hed
    have hexponent := parseInt_eq_ok hk
    rw [hplain.1, integerNotation_of_parseInt hk, ← hplain.2, ← hexponent]
    refine ⟨rfl, ?_⟩
    by_cases hsign : 0 ≤ k
    · have hpow : (10 : ℚ) ^ k = 10 ^ k.natAbs := by
        rw [← zpow_natCast, Int.natAbs_of_nonneg hsign]
      rw [decide_eq_true hsign] at he
      rw [if_pos hsign, hpow]
      obtain ⟨-, e', he', hvalue⟩ | ⟨-, hpanic⟩ := scaleBy_up k.natAbs parsed
      · rw [he] at he'
        rw [Except.ok.inj he', hvalue]
      · rw [he] at hpanic
        cases hpanic
    · rw [decide_eq_false hsign] at he
      rw [if_neg hsign]
      obtain ⟨e', he', hread, -⟩ := scaleBy_down k.natAbs parsed
      rw [he] at he'
      rw [Except.ok.inj he', hread]

/-- A value that is not null is read by its text. -/
theorem decimalFromValue_of_text {value : Json} (hvalue : value ≠ .null) :
    (∀ d, decimalFromStr (valueText value) = .ok (.ok d) → decimalFromValue value = .ok d) ∧
      (∀ e, decimalFromStr (valueText value) = .ok (.error e) →
        ∃ e', decimalFromValue value = .error (.error e')) ∧
      (decimalFromStr (valueText value) = .error .panic →
        decimalFromValue value = .error .panic) := by
  cases value with
  | null => exact absurd rfl hvalue
  | _ =>
    refine ⟨fun d h => ?_, fun e h => ?_, fun h => ?_⟩ <;>
      simp only [valueText] at h <;> simp only [decimalFromValue, h]
    exacts [rfl, ⟨_, rfl⟩, rfl]

theorem valueOutcome_of_text {value : Json} (hvalue : value ≠ .null) :
    valueOutcome value = textOutcome (valueText value) := by
  cases value with
  | null => exact absurd rfl hvalue
  | _ => rfl

/-- **Reading a value.** -/
theorem follows_decimalFromValue (value : Json) :
    Follows .panic (decimalFromValue value) (valueOutcome value) (Denotes value) := by
  by_cases hvalue : value = .null
  · subst hvalue
    have hzero : (0 : Decimal).toRat = valueNumber .null := by decide +kernel
    refine ⟨.ok 0, fun d hd => ?_⟩
    obtain rfl := Except.ok.inj hd
    exact iff_of_true hzero rfl
  obtain ⟨hok, herror, hpanic⟩ := decimalFromValue_of_text hvalue
  rw [valueOutcome_of_text hvalue]
  obtain ⟨hout, d, hd, hnumber⟩ | ⟨hout, d, hd, hnumber⟩ | ⟨hout, e, he⟩ | ⟨hout, he⟩ :=
    decimalFromStr_cases (valueText value)
  · rw [hok d hd, hout]
    refine ⟨.ok d, fun d' hd' => ?_⟩
    obtain rfl := Except.ok.inj hd'
    exact iff_of_true hnumber rfl
  · rw [hok d hd, hout]
    refine ⟨⟨d, rfl⟩, fun d' hd' => ?_⟩
    obtain rfl := Except.ok.inj hd'
    exact iff_of_false hnumber (by decide)
  · obtain ⟨e', he'⟩ := herror e he
    rw [he', hout]
    exact ⟨⟨_, by simp, rfl⟩, by simp⟩
  · rw [hpanic he, hout]
    exact ⟨rfl, by simp⟩

/-- A number that is read inexactly has too many places. -/
theorem not_onGrid_of_inexact {value : Json} (h : valueOutcome value = .inexact) :
    ¬ OnGrid (valueNumber value) := by
  by_cases hvalue : value = .null
  · subst hvalue
    cases h
  rw [valueOutcome_of_text hvalue] at h
  unfold textOutcome at h
  split at h
  · exact absurd h Outcome.check_ne_inexact
  · rw [Outcome.mul_eq_inexact_of_ne Outcome.check_ne_inexact,
      Outcome.mul_eq_inexact_of_ne Outcome.check_ne_inexact] at h
    unfold exponentOutcome at h
    have hexponent := h.2.2
    split at hexponent
    · exact absurd hexponent Outcome.computed_ne_inexact
    · exact of_decide_eq_false (Outcome.taken_eq_inexact.1 hexponent)

/-- What is read of a value. -/
theorem read_of_decimalFromValue {value : Json} {d : Decimal}
    (h : decimalFromValue value = .ok d) :
    isNumber (valueText value).toList = true ∧ d.toRat = valueRead value := by
  by_cases hvalue : value = .null
  · subst hvalue
    obtain rfl : 0 = d := Except.ok.inj h
    exact ⟨by decide +kernel, by decide +kernel⟩
  obtain ⟨-, herror, hpanic⟩ := decimalFromValue_of_text hvalue
  obtain ⟨-, d', hd', -⟩ | ⟨-, d', hd', -⟩ | ⟨-, e, he⟩ | ⟨-, he⟩ :=
    decimalFromStr_cases (valueText value)
  · rw [(decimalFromValue_of_text hvalue).1 d' hd'] at h
    exact Except.ok.inj h ▸ read_of_decimalFromStr hd'
  · rw [(decimalFromValue_of_text hvalue).1 d' hd'] at h
    exact Except.ok.inj h ▸ read_of_decimalFromStr hd'
  · obtain ⟨e', he'⟩ := herror e he
    rw [he'] at h
    cases h
  · rw [hpanic he] at h
    cases h

end Mexc

end BatMarkets
