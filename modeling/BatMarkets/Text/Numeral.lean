import Mathlib

/-!
# Texts and numerals

Texts as lists of characters, split and read as the standard library of the source's language does
it: `splitOnce` cuts at the first character of a kind, and `parseInt` reads a signed integer of a
given range, with the error of the first character that does not fit.
-/

namespace Text

/-- The text before the first character of the kind and the text after it. -/
def splitOnce (p : Char → Bool) : List Char → Option (List Char × List Char)
  | [] => none
  | c :: cs => if p c then some ([], cs) else (splitOnce p cs).map fun x => (c :: x.1, x.2)

variable {p : Char → Bool}

/-- A text without a character of the kind is not split. -/
theorem splitOnce_eq_none {cs : List Char} (h : ∀ c ∈ cs, p c = false) : splitOnce p cs = none := by
  induction cs with
  | nil => rfl
  | cons c cs ih =>
    have hc : p c = false := h c (by simp)
    have hcs : splitOnce p cs = none := ih fun x hx => h x (by simp [hx])
    simp [splitOnce, hc, hcs]

/-- What follows a prefix is the rest of the text. -/
theorem map_toString_dropPrefix? (start rest : String) :
    ((start ++ rest).dropPrefix? start).map (·.toString) = some rest := by
  cases h : (start ++ rest).dropPrefix? start with
  | none =>
    rw [String.dropPrefix?_eq_dropPrefix?_toSlice, String.Slice.dropPrefix?_eq_none_iff,
      String.Slice.startsWith_string_eq_false_iff] at h
    simp at h
  | some tail =>
    have happend := String.eq_append_of_dropPrefix?_string_eq_some h
    have htail : rest = tail.copy := (String.append_right_inj _).1 happend
    simp [htail]

/-! ### Numerals -/

theorem toString_nat_injective {m n : ℕ} (h : toString m = toString n) : m = n := by
  have hlist := congrArg String.toList h
  simp only [Nat.toString_eq_repr, Nat.toList_repr] at hlist
  rw [← Nat.ofDigitChars_ten_toDigits (n := m), hlist, Nat.ofDigitChars_ten_toDigits]

/-- The number a digit stands for. -/
def digitValue (c : Char) : ℕ := c.toNat - '0'.toNat

/-- Read the digits that follow `acc`, upwards or downwards, as long as the number stays between
`lo` and `hi`. -/
def parseDigits (lo hi sign : Int) : Int → List Char → Except String Int
  | acc, [] => .ok acc
  | acc, c :: cs =>
    if c.isDigit then
      let next := acc * 10 + sign * digitValue c
      if lo ≤ next ∧ next ≤ hi then parseDigits lo hi sign next cs
      else if sign < 0 then .error "number too small to fit in target type"
      else .error "number too large to fit in target type"
    else .error "invalid digit found in string"

/-- Read a signed integer between `lo` and `hi`. -/
def parseInt (lo hi : Int) : List Char → Except String Int
  | [] => .error "cannot parse integer from empty string"
  | c :: cs =>
    if c = '+' ∨ c = '-' then
      if cs.isEmpty then .error "invalid digit found in string"
      else parseDigits lo hi (if c = '-' then -1 else 1) 0 cs
    else parseDigits lo hi 1 0 (c :: cs)

end Text
