import Mathlib

/-!
# Form-urlencoded texts

The pairs of names and values in the query of a URL (`application/x-www-form-urlencoded`).  A text
is written byte by byte: letters, digits and the bytes of `*-._` stand for themselves, a space is
written as a plus sign, and every other byte as a percent sign and two hexadecimal digits.  A pair
is a name and a value with an equals sign between them, and an ampersand stands between two pairs.

* `formText pairs` : the text of the pairs, written one after the other.
* `formPairs text` : the pairs that a reader finds in a text; it splits at ampersands, then at the
  first equals sign, and decodes last, since only what is decoded may contain either.

## Main results

* `formPairs_formText` : a reader finds the pairs that were written, in their order.
* `formText_append` : a text can be continued with further pairs.
-/

namespace Text

/-- What a text is in the encoding. -/
abbrev Bytes := List UInt8

/-- The bytes of a text in UTF-8. -/
def utf8 (text : String) : Bytes := text.toList.flatMap String.utf8EncodeChar

theorem utf8_injective : Function.Injective utf8 := by
  intro s t h
  have hencode : s.toList.utf8Encode = t.toList.utf8Encode := congrArg List.toByteArray h
  rw [← String.ofList_toList (s := s), ← String.ofList_toList (s := t)]
  refine String.toByteArray_inj.1 ?_
  rw [String.toByteArray_ofList, String.toByteArray_ofList, hencode]

/-! ### Bytes -/

/-- The byte stands for itself. -/
def isUnchanged (b : UInt8) : Bool :=
  b ∈ [0x2A, 0x2D, 0x2E, 0x5F] || (0x30 ≤ b && b ≤ 0x39) || (0x41 ≤ b && b ≤ 0x5A) ||
    (0x61 ≤ b && b ≤ 0x7A)

/-- The digits of a byte are written as capitals. -/
def hexDigit (n : ℕ) : Char := Char.ofNat (if n < 10 then 0x30 + n else 0x37 + n)

/-- The value of a digit, capital or not. -/
def hexValue (c : Char) : Option ℕ :=
  if '0' ≤ c ∧ c ≤ '9' then some (c.toNat - 0x30)
  else if 'A' ≤ c ∧ c ≤ 'F' then some (c.toNat - 0x37)
  else if 'a' ≤ c ∧ c ≤ 'f' then some (c.toNat - 0x57)
  else none

/-- A byte: as it is, as a plus if it is a blank, or by its number. -/
def encodeByte (b : UInt8) : List Char :=
  if isUnchanged b then [Char.ofNat b.toNat]
  else if b = 0x20 then ['+']
  else ['%', hexDigit (b.toNat / 16), hexDigit (b.toNat % 16)]

/-- The bytes, one after the other. -/
def encodeBytes (bs : Bytes) : List Char := bs.flatMap encodeByte

/-- What a reader makes of an encoded text.  A percent sign that no byte follows stands for
itself. -/
def decodeBytes : List Char → Bytes
  | [] => []
  | '+' :: cs => 0x20 :: decodeBytes cs
  | '%' :: hi :: lo :: cs =>
    match hexValue hi, hexValue lo with
    | some h, some l => UInt8.ofNat (16 * h + l) :: decodeBytes cs
    | _, _ => 0x25 :: decodeBytes (hi :: lo :: cs)
  | c :: cs => String.utf8EncodeChar c ++ decodeBytes cs

theorem hexValue_hexDigit {n : ℕ} (hn : n < 16) : hexValue (hexDigit n) = some n := by
  have hall : ∀ n < 16, hexValue (hexDigit n) = some n := by decide
  exact hall n hn

/-- What a byte that stands for itself is read as. -/
theorem unchanged_spec {b : UInt8} (h : isUnchanged b = true) :
    Char.ofNat b.toNat ∉ ['+', '%', '&', '='] ∧ String.utf8EncodeChar (.ofNat b.toNat) = [b] := by
  have hall : ∀ n < 256, isUnchanged (.ofNat n) = true →
      Char.ofNat n ∉ ['+', '%', '&', '='] ∧ String.utf8EncodeChar (.ofNat n) = [.ofNat n] := by
    decide +kernel
  have hb := hall b.toNat b.toNat_lt
  rw [UInt8.ofNat_toNat] at hb
  exact hb h

theorem decodeBytes_cons {c : Char} (hplus : c ≠ '+') (hpercent : c ≠ '%') (cs : List Char) :
    decodeBytes (c :: cs) = String.utf8EncodeChar c ++ decodeBytes cs := by
  rw [decodeBytes]
  · exact fun h => hplus h
  · exact fun _ _ _ h => absurd h hpercent

theorem decodeBytes_encodeByte (b : UInt8) (cs : List Char) :
    decodeBytes (encodeByte b ++ cs) = b :: decodeBytes cs := by
  unfold encodeByte
  split
  · next hunchanged =>
    obtain ⟨hspecial, hutf8⟩ := unchanged_spec hunchanged
    simp only [List.mem_cons, not_or] at hspecial
    rw [List.singleton_append, decodeBytes_cons hspecial.1 hspecial.2.1, hutf8]
    rfl
  · split
    · next hspace =>
      rw [hspace]
      rfl
    · have hlt := b.toNat_lt
      have hhigh : hexValue (hexDigit (b.toNat / 16)) = some (b.toNat / 16) :=
        hexValue_hexDigit (by omega)
      have hlow : hexValue (hexDigit (b.toNat % 16)) = some (b.toNat % 16) :=
        hexValue_hexDigit (by omega)
      have hdiv : 16 * (b.toNat / 16) + b.toNat % 16 = b.toNat := Nat.div_add_mod _ _
      show decodeBytes ('%' :: hexDigit (b.toNat / 16) :: hexDigit (b.toNat % 16) :: cs) = _
      rw [decodeBytes, hhigh, hlow]
      dsimp only
      rw [hdiv, UInt8.ofNat_toNat]

theorem decodeBytes_encodeBytes (bs : Bytes) : decodeBytes (encodeBytes bs) = bs := by
  induction bs with
  | nil => rfl
  | cons b bs ih =>
    show decodeBytes (encodeByte b ++ encodeBytes bs) = _
    rw [decodeBytes_encodeByte, ih]

/-- A text of characters that stand for themselves. -/
theorem encodeBytes_utf8 {text : String}
    (h : ∀ c ∈ text.toList, encodeBytes (String.utf8EncodeChar c) = [c]) :
    encodeBytes (utf8 text) = text.toList := by
  unfold utf8
  generalize text.toList = cs at h
  induction cs with
  | nil => rfl
  | cons c cs ih =>
    have hrest := ih fun d hd => h d (List.mem_cons_of_mem _ hd)
    unfold encodeBytes at hrest ⊢
    rw [List.flatMap_cons, List.flatMap_append, hrest]
    exact congrArg (· ++ cs) (h c List.mem_cons_self)

/-- An encoded text contains no separator. -/
theorem separator_not_mem_encodeBytes {c : Char} (hc : c ∈ ['&', '=']) (bs : Bytes) :
    c ∉ encodeBytes bs := by
  have hdigits : ∀ n < 16, hexDigit n ∉ ['&', '='] := by decide
  intro hmem
  obtain ⟨b, -, hb⟩ := List.mem_flatMap.1 hmem
  unfold encodeByte at hb
  split at hb
  · next hunchanged =>
    obtain ⟨hspecial, -⟩ := unchanged_spec hunchanged
    rw [List.mem_singleton] at hb
    rw [← hb] at hspecial
    simp only [List.mem_cons, not_or] at hspecial hc
    tauto
  · split at hb
    · rw [List.mem_singleton] at hb
      rw [hb] at hc
      exact absurd hc (by decide)
    · have hlt := b.toNat_lt
      simp only [List.mem_cons, List.not_mem_nil, or_false] at hb
      rcases hb with rfl | rfl | rfl
      · exact absurd hc (by decide)
      · exact hdigits _ (by omega) hc
      · exact hdigits _ (by omega) hc

/-! ### Pairs -/

/-- A name and a value. -/
abbrev FormPair := Bytes × Bytes

/-- The name, an equals sign and the value. -/
def encodePair (pair : FormPair) : List Char := encodeBytes pair.1 ++ '=' :: encodeBytes pair.2

/-- Write one more pair. -/
def appendPair (text : List Char) (pair : FormPair) : List Char :=
  (if text.isEmpty then text else text ++ ['&']) ++ encodePair pair

/-- The pairs, with ampersands between them. -/
def formText (pairs : List FormPair) : List Char := pairs.foldl appendPair []

/-- The text is cut at its first equals sign. -/
def decodePair (text : List Char) : FormPair :=
  (decodeBytes (text.takeWhile (· != '=')), decodeBytes ((text.dropWhile (· != '=')).drop 1))

/-- The text is cut at its ampersands; what is empty between them is left out. -/
def formPairs (text : List Char) : List FormPair :=
  ((text.splitOn '&').filter fun part => !part.isEmpty).map decodePair

theorem encodePair_ne_nil (pair : FormPair) : encodePair pair ≠ [] := by
  unfold encodePair
  exact List.append_ne_nil_of_right_ne_nil _ (List.cons_ne_nil _ _)

theorem ampersand_not_mem_encodePair (pair : FormPair) : '&' ∉ encodePair pair := by
  intro hmem
  rcases List.mem_append.1 hmem with hmem | hmem
  · exact separator_not_mem_encodeBytes (by decide) _ hmem
  · rcases List.mem_cons.1 hmem with hmem | hmem
    · exact absurd hmem (by decide)
    · exact separator_not_mem_encodeBytes (by decide) _ hmem

theorem decodePair_encodePair (pair : FormPair) : decodePair (encodePair pair) = pair := by
  have hname : ∀ c ∈ encodeBytes pair.1, (c != '=') = true := by
    intro c hc
    rw [bne_iff_ne]
    rintro rfl
    exact separator_not_mem_encodeBytes (by decide) _ hc
  unfold decodePair encodePair
  rw [List.takeWhile_append_of_pos hname, List.dropWhile_append_of_pos hname]
  simp [decodeBytes_encodeBytes]

/-- Further pairs, after a text that is not empty. -/
theorem foldl_appendPair {text : List Char} (htext : text ≠ []) (pairs : List FormPair) :
    pairs.foldl appendPair text = text ++ pairs.flatMap fun pair => '&' :: encodePair pair := by
  induction pairs generalizing text with
  | nil => simp
  | cons pair pairs ih =>
    have hnext : appendPair text pair = text ++ '&' :: encodePair pair := by
      unfold appendPair
      rw [if_neg (by simpa using htext), List.append_assoc]
      rfl
    rw [List.foldl_cons, hnext, ih (by simp), List.flatMap_cons, List.append_assoc]

theorem formText_cons (pair : FormPair) (pairs : List FormPair) :
    formText (pair :: pairs) =
      encodePair pair ++ pairs.flatMap fun pair => '&' :: encodePair pair :=
  foldl_appendPair (encodePair_ne_nil pair) pairs

theorem formText_eq_nil {pairs : List FormPair} : formText pairs = [] ↔ pairs = [] := by
  cases pairs with
  | nil => exact iff_of_true rfl rfl
  | cons pair pairs =>
    rw [formText_cons]
    simp [encodePair_ne_nil]

/-- A text is continued with one more pair. -/
theorem formText_append {pairs : List FormPair} (hpairs : pairs ≠ []) (pair : FormPair) :
    formText (pairs ++ [pair]) = formText pairs ++ '&' :: encodePair pair := by
  have htext : formText pairs ≠ [] := fun h => hpairs (formText_eq_nil.1 h)
  show (pairs ++ [pair]).foldl appendPair [] = _
  rw [List.foldl_append]
  show [pair].foldl appendPair (formText pairs) = _
  rw [foldl_appendPair htext]
  simp

theorem splitOn_formText (pair : FormPair) (pairs : List FormPair) :
    (formText (pair :: pairs)).splitOn '&' = (pair :: pairs).map encodePair := by
  rw [formText_cons]
  induction pairs generalizing pair with
  | nil =>
    rw [List.flatMap_nil, List.append_nil,
      List.splitOn_eq_singleton (ampersand_not_mem_encodePair pair)]
    rfl
  | cons next pairs ih =>
    rw [List.flatMap_cons, List.cons_append,
      List.splitOn_append_cons_self_of_not_mem (ampersand_not_mem_encodePair pair), ih]
    rfl

/-- A reader finds the pairs that were written, in their order. -/
@[simp] theorem formPairs_formText (pairs : List FormPair) : formPairs (formText pairs) = pairs := by
  cases pairs with
  | nil => rfl
  | cons pair pairs =>
    have hparts : ∀ part ∈ (pair :: pairs).map encodePair, (!part.isEmpty) = true := by
      intro part hpart
      obtain ⟨p, -, rfl⟩ := List.mem_map.1 hpart
      simpa using encodePair_ne_nil p
    unfold formPairs
    rw [splitOn_formText, List.filter_eq_self.2 hparts, List.map_map]
    have hid : decodePair ∘ encodePair = id := funext decodePair_encodePair
    rw [hid, List.map_id]

end Text
