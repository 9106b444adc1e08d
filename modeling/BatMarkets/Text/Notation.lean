import BatMarkets.Text.Numeral

/-!
# Decimal notation

The number that a text in decimal notation denotes, with an optional sign and decimal point
(`plainNumber`), and with an optional exponent (`number`).  Underscores may stand after the first
digit and have no meaning.  `isNumber` tells whether a text is in this notation.

## Main results

* `parseInt_eq_ok` : an integer that is read is the one that the text denotes.
-/

namespace Text

/-- The digits of a text, in their order. -/
def digitsOf (cs : List Char) : List Char := cs.filter Char.isDigit

/-- How many digits there are after the point. -/
def placesOf (cs : List Char) : ℕ := (digitsOf (cs.dropWhile (· != '.'))).length

/-- The number without its sign. -/
def unsignedNumber (cs : List Char) : ℚ := Nat.ofDigitChars 10 (digitsOf cs) 0 / 10 ^ placesOf cs

/-- The number of a text without an exponent. -/
def plainNumber : List Char → ℚ
  | '-' :: cs => -unsignedNumber cs
  | '+' :: cs => unsignedNumber cs
  | cs => unsignedNumber cs

/-- The integer that a text of digits with an optional sign denotes. -/
def integerOf : List Char → ℤ
  | '-' :: cs => -Nat.ofDigitChars 10 cs 0
  | '+' :: cs => Nat.ofDigitChars 10 cs 0
  | cs => Nat.ofDigitChars 10 cs 0

/-- The character before an exponent. -/
def isExponentMark (c : Char) : Bool := c == 'e' || c == 'E'

/-- The number of a text. -/
def number (cs : List Char) : ℚ :=
  match splitOnce isExponentMark cs with
  | none => plainNumber cs
  | some (mantissa, exponent) => plainNumber mantissa * 10 ^ integerOf exponent

/-! ### Texts in this notation -/

/-- What follows is in decimal notation; `point` tells whether there was a point, `has` whether
there was a digit. -/
def unsignedNotation (point has : Bool) : List Char → Bool
  | [] => has
  | c :: cs =>
    if c.isDigit then unsignedNotation point true cs
    else if c == '.' && !point then unsignedNotation true has cs
    else c == '_' && has && unsignedNotation point has cs

/-- The text is a number without an exponent. -/
def plainNotation : List Char → Bool
  | '-' :: cs => unsignedNotation false false cs
  | '+' :: cs => unsignedNotation false false cs
  | cs => unsignedNotation false false cs

/-- The text has digits only, and at least one. -/
def digitNotation (cs : List Char) : Bool := !cs.isEmpty && cs.all Char.isDigit

/-- The text is an integer. -/
def integerNotation : List Char → Bool
  | '-' :: cs => digitNotation cs
  | '+' :: cs => digitNotation cs
  | cs => digitNotation cs

/-- The text is a number. -/
def isNumber (cs : List Char) : Bool :=
  match splitOnce isExponentMark cs with
  | none => plainNotation cs
  | some (mantissa, exponent) => plainNotation mantissa && integerNotation exponent

/-! ### Reading integers -/

section Read

variable {c : Char} {cs : List Char}

@[simp] theorem digitsOf_nil : digitsOf [] = [] := rfl

theorem digitsOf_cons_digit (h : c.isDigit = true) : digitsOf (c :: cs) = c :: digitsOf cs :=
  List.filter_cons_of_pos h

theorem digitsOf_cons_other (h : c.isDigit = false) : digitsOf (c :: cs) = digitsOf cs :=
  List.filter_cons_of_neg (by simp [h])

@[simp] theorem placesOf_point : placesOf ('.' :: cs) = (digitsOf cs).length := by
  have hpoint : ('.' :: cs).dropWhile (· != '.') = '.' :: cs := by simp
  rw [placesOf, hpoint, digitsOf_cons_other rfl]

theorem placesOf_cons (h : c ≠ '.') : placesOf (c :: cs) = placesOf cs := by
  have hdrop : (c :: cs).dropWhile (· != '.') = cs.dropWhile (· != '.') := by simp [h]
  rw [placesOf, hdrop, placesOf]

theorem ofDigitChars_cons_digitValue (m : ℕ) :
    Nat.ofDigitChars 10 (c :: cs) m = Nat.ofDigitChars 10 cs (10 * m + digitValue c) :=
  Nat.ofDigitChars_cons ..

variable {lo hi sign n : ℤ}

/-- The digits are read one by one, away from zero. -/
theorem parseDigits_eq_ok {m : ℕ} (h : parseDigits lo hi sign (sign * m) cs = .ok n) :
    n = sign * Nat.ofDigitChars 10 cs m := by
  induction cs generalizing m with
  | nil => exact (Except.ok.inj h).symm
  | cons c cs ih =>
    have hnext : sign * (m : ℤ) * 10 + sign * digitValue c = sign * (10 * m + digitValue c : ℕ) := by
      push_cast
      ring
    rw [parseDigits] at h
    simp only [hnext] at h
    split at h
    · split at h
      · rw [ofDigitChars_cons_digitValue]
        exact ih h
      · split at h <;> cases h
    · cases h

theorem parseInt_eq_ok (h : parseInt lo hi cs = .ok n) : n = integerOf cs := by
  have hread : ∀ {s : ℤ} {ds : List Char}, parseDigits lo hi s 0 ds = .ok n →
      n = s * Nat.ofDigitChars 10 ds 0 := by
    intro s ds hds
    have hacc : parseDigits lo hi s (s * (0 : ℕ)) ds = .ok n := by rwa [Nat.cast_zero, mul_zero]
    exact parseDigits_eq_ok hacc
  cases cs with
  | nil => cases h
  | cons c cs =>
    rw [parseInt] at h
    split at h
    · next hsign =>
      split at h
      · cases h
      · rcases hsign with rfl | rfl
        · have hvalue := hread h
          simpa [integerOf] using hvalue
        · have hvalue := hread h
          simpa [integerOf] using hvalue
    · next hsign =>
      rw [not_or] at hsign
      have hvalue := hread h
      rw [one_mul] at hvalue
      unfold integerOf
      split
      · next heq => exact absurd (List.cons.inj heq).1 hsign.2
      · next heq => exact absurd (List.cons.inj heq).1 hsign.1
      · exact hvalue

theorem all_isDigit_of_parseDigits {acc : ℤ} (h : parseDigits lo hi sign acc cs = .ok n) :
    cs.all Char.isDigit = true := by
  induction cs generalizing acc with
  | nil => rfl
  | cons c cs ih =>
    rw [parseDigits] at h
    split at h
    · next hdigit =>
      dsimp only at h
      split at h
      · rw [List.all_cons, hdigit, ih h]
        rfl
      · split at h <;> cases h
    · cases h

theorem integerNotation_of_parseInt (h : parseInt lo hi cs = .ok n) :
    integerNotation cs = true := by
  cases cs with
  | nil => cases h
  | cons c cs =>
    rw [parseInt] at h
    split at h
    · next hsign =>
      split at h
      · cases h
      · next hne =>
        have hall := all_isDigit_of_parseDigits h
        rcases hsign with rfl | rfl <;> simp [integerNotation, digitNotation, hne, hall]
    · next hsign =>
      rw [not_or] at hsign
      have hall := all_isDigit_of_parseDigits h
      unfold integerNotation
      split
      · next heq => exact absurd (List.cons.inj heq).1 hsign.2
      · next heq => exact absurd (List.cons.inj heq).1 hsign.1
      · rw [digitNotation, hall]
        rfl

end Read

end Text
