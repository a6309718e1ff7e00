import DurableKV.Json.Printer
import DurableKV.Json.Scalar

/-!
# Written texts read back

The printer works on characters and the reader on bytes. `Bytes.ofChars` is the UTF-8 of a list of
characters, so that what is printed can be taken apart character by character on the reader's side.

`readText_quoted` says that a text that was written in quotes is read back as it was, whatever
follows it.

The reader treats a byte in one of three ways: as the end of the text, as the start of an escape, or
as a byte of the text (`PlainByte`). A character that is written as it stands has plain bytes only,
since the bytes of a character outside ASCII are all above `0x7F`.
-/

namespace DurableKV

/-! ## UTF-8 of characters -/

namespace Bytes

/-- The UTF-8 bytes of a list of characters. -/
def ofChars (cs : List Char) : Bytes := cs.flatMap String.utf8EncodeChar

/-- The empty text has no bytes. -/
@[simp] theorem ofChars_nil : ofChars [] = [] := rfl

/-- The bytes of a text are those of its first character and those of the rest. -/
theorem ofChars_cons (c : Char) (cs : List Char) :
    ofChars (c :: cs) = String.utf8EncodeChar c ++ ofChars cs := by
  simp [ofChars]

/-- The bytes of two texts one after the other are those of the first and those of the second. -/
@[simp] theorem ofChars_append (cs ds : List Char) :
    ofChars (cs ++ ds) = ofChars cs ++ ofChars ds := by
  simp [ofChars]

/-- The bytes of a text are those of its characters. -/
@[simp] theorem ofText_ofList (cs : List Char) : ofText (String.ofList cs) = ofChars cs := by
  simp [ofText, ofChars, List.utf8Encode]

/-- The bytes of a text are read as the text. -/
@[simp] theorem toText?_ofChars (cs : List Char) :
    toText? (ofChars cs) = some (String.ofList cs) := by
  rw [← ofText_ofList, toText?_ofText]

/-- An ASCII character is written as one byte. -/
theorem utf8EncodeChar_of_lt {c : Char} (h : c.toNat < 0x80) :
    String.utf8EncodeChar c = [UInt8.ofNat c.toNat] := by
  have hv : c.val.toNat ≤ 0x7F := Nat.le_of_lt_succ h
  simp only [String.utf8EncodeChar, hv, if_true]
  rfl

/-- A number below 256 is the value of its byte. -/
theorem toNat_ofNat_of_lt {n : Nat} (h : n < 0x100) : (UInt8.ofNat n).toNat = n :=
  UInt8.toNat_ofNat_of_lt' h

/-- Outside ASCII no byte of a character is an ASCII byte. -/
theorem le_of_mem_utf8EncodeChar {c : Char} (h : 0x80 ≤ c.toNat) {b : UInt8}
    (hb : b ∈ String.utf8EncodeChar c) : 0x80 ≤ b := by
  have hv : ¬ c.val.toNat ≤ 0x7F := fun hle => absurd (Nat.lt_of_lt_of_le (Nat.lt_succ_of_le hle) h)
    (Nat.lt_irrefl _)
  have hbyte : ∀ n : Nat, 0x80 ≤ n → n < 0x100 → (0x80 : UInt8) ≤ UInt8.ofNat n := by
    intro n hlow hhigh
    rw [UInt8.le_iff_toNat_le, toNat_ofNat_of_lt hhigh]
    exact hlow
  simp only [String.utf8EncodeChar, hv, if_false] at hb
  split at hb
  · simp only [List.mem_cons, List.not_mem_nil, or_false] at hb
    rcases hb with rfl | rfl <;> exact hbyte _ (by omega) (by omega)
  · split at hb
    · simp only [List.mem_cons, List.not_mem_nil, or_false] at hb
      rcases hb with rfl | rfl | rfl <;> exact hbyte _ (by omega) (by omega)
    · simp only [List.mem_cons, List.not_mem_nil, or_false] at hb
      rcases hb with rfl | rfl | rfl | rfl <;> exact hbyte _ (by omega) (by omega)

end Bytes

namespace Json

/-! ## Bytes of a text -/

/-- A byte that the reader of texts takes as it is. -/
def PlainByte (b : UInt8) : Prop := b ≠ quote ∧ b ≠ backslash ∧ ¬ b < 0x20

/-- Plain bytes of a string are read as they stand. -/
theorem readTextBytes_plain {bs : Bytes} (hbs : ∀ b ∈ bs, PlainByte b) {input tail rest : Bytes}
    (ih : ∀ bound : Bytes, input.length ≤ bound.length →
      readTextBytes bound input = .ok (tail, rest))
    {bound : Bytes} (hbound : (bs ++ input).length ≤ bound.length) :
    readTextBytes bound (bs ++ input) = .ok (bs ++ tail, rest) := by
  induction bs generalizing bound with
  | nil => exact ih bound hbound
  | cons b bs ihbs =>
    cases bound with
    | nil => simp at hbound
    | cons x bound =>
      obtain ⟨hquote, hslash, hlow⟩ := hbs b List.mem_cons_self
      have hrest : readTextBytes bound (bs ++ input) = .ok (bs ++ tail, rest) :=
        ihbs (fun c hc => hbs c (List.mem_cons_of_mem _ hc)) (by simpa using hbound)
      simp only [List.cons_append, readTextBytes, hquote, hslash, hlow, if_false, hrest]
      rfl

/-- A character that need not be escaped is written in plain bytes. -/
theorem plainByte_of_char {c : Char} (hquote : c ≠ '"') (hslash : c ≠ '\\')
    (hlow : ¬ c.toNat < 0x20) {b : UInt8} (hb : b ∈ String.utf8EncodeChar c) : PlainByte b := by
  by_cases hascii : c.toNat < 0x80
  · rw [Bytes.utf8EncodeChar_of_lt hascii, List.mem_singleton] at hb
    have hnat : b.toNat = c.toNat := by rw [hb, Bytes.toNat_ofNat_of_lt (by omega)]
    refine ⟨?_, ?_, ?_⟩
    · rintro rfl
      exact hquote (Char.toNat_inj.1 hnat.symm)
    · rintro rfl
      exact hslash (Char.toNat_inj.1 hnat.symm)
    · rw [UInt8.lt_iff_toNat_lt, hnat]
      exact hlow
  · have hle : (0x80 : UInt8) ≤ b := Bytes.le_of_mem_utf8EncodeChar (by omega) hb
    refine ⟨?_, ?_, ?_⟩
    · rintro rfl
      exact absurd hle (by decide)
    · rintro rfl
      exact absurd hle (by decide)
    · intro hlt
      exact absurd (UInt8.lt_of_le_of_lt hle hlt) (by decide)

/-! ## Escapes -/

/-- A hexadecimal digit has the value it is written for. -/
theorem hexValue?_hexDigit {n : Nat} (h : n < 16) :
    hexValue? (UInt8.ofNat (Bytes.hexDigit n).toNat) = some n := by
  have hall : ∀ n < 16, hexValue? (UInt8.ofNat (Bytes.hexDigit n).toNat) = some n := by decide
  exact hall n h

/-- A hexadecimal digit is an ASCII character. -/
theorem hexDigit_lt {n : Nat} (h : n < 16) : (Bytes.hexDigit n).toNat < 0x80 := by
  have hall : ∀ n < 16, (Bytes.hexDigit n).toNat < 0x80 := by decide
  exact hall n h

/-- The escape of a control character by its number is read as that character. -/
theorem readEscape_control {c : Char} (h : c.toNat < 0x20) (input : Bytes) :
    readEscape (Bytes.ofChars ['u', '0', '0', Bytes.hexDigit (c.toNat / 16),
      Bytes.hexDigit (c.toNat % 16)] ++ input) = .ok (String.utf8EncodeChar c, input) := by
  have hhigh :
      hexValue? (UInt8.ofNat (Bytes.hexDigit (c.toNat / 16)).toNat) = some (c.toNat / 16) :=
    hexValue?_hexDigit (by omega)
  have hlow : hexValue? (UInt8.ofNat (Bytes.hexDigit (c.toNat % 16)).toNat) = some (c.toNat % 16) :=
    hexValue?_hexDigit (by omega)
  have hzero : hexValue? 0x30 = some 0 := by decide
  have hcode : ((0 * 16 + 0) * 16 + c.toNat / 16) * 16 + c.toNat % 16 = c.toNat := by omega
  have hchars : Bytes.ofChars ['u', '0', '0', Bytes.hexDigit (c.toNat / 16),
      Bytes.hexDigit (c.toNat % 16)] =
      [0x75, 0x30, 0x30, UInt8.ofNat (Bytes.hexDigit (c.toNat / 16)).toNat,
        UInt8.ofNat (Bytes.hexDigit (c.toNat % 16)).toNat] := by
    simp only [Bytes.ofChars_cons, Bytes.ofChars_nil,
      Bytes.utf8EncodeChar_of_lt (hexDigit_lt (show c.toNat / 16 < 16 by omega)),
      Bytes.utf8EncodeChar_of_lt (hexDigit_lt (show c.toNat % 16 < 16 by omega))]
    rfl
  have hread : readHex ([0x30, 0x30, UInt8.ofNat (Bytes.hexDigit (c.toNat / 16)).toNat,
      UInt8.ofNat (Bytes.hexDigit (c.toNat % 16)).toNat] ++ input) = .ok (c.toNat, input) := by
    simp only [List.cons_append, List.nil_append, readHex, hzero, hhigh, hlow, hcode]
  rw [hchars]
  simp only [List.cons_append, readEscape, if_true, readUnicode] at hread ⊢
  rw [hread]
  have hsur : ¬ (0xDC00 ≤ c.toNat ∧ c.toNat ≤ 0xDFFF) := by omega
  have hscalar : c.toNat < 0xD800 ∨ 0xDFFF < c.toNat := by omega
  simp only [bind, Except.bind, hsur, hscalar, if_false, if_true, utf8OfCode, Char.ofNat_toNat]

/-- A character is either written as it stands or as an escape that is read as it. -/
theorem escaped_cases (c : Char) :
    (escaped c = [c] ∧ ∀ b ∈ String.utf8EncodeChar c, PlainByte b) ∨
      ∃ e, escaped c = '\\' :: e ∧
        ∀ input, readEscape (Bytes.ofChars e ++ input) = .ok (String.utf8EncodeChar c, input) := by
  unfold escaped
  split
  any_goals exact Or.inr ⟨_, rfl, fun _ => rfl⟩
  rename_i hquote hslash _ _ _ _ _
  split
  · rename_i hlow
    exact Or.inr ⟨_, rfl, readEscape_control hlow⟩
  · rename_i hlow
    exact Or.inl ⟨rfl, fun b hb => plainByte_of_char hquote hslash hlow hb⟩

/-- An escape in a string is read for the bytes it stands for. -/
theorem readTextBytes_escape {e bs : Bytes}
    (he : ∀ input, readEscape (e ++ input) = .ok (bs, input)) {input tail rest : Bytes}
    (ih : ∀ bound : Bytes, input.length ≤ bound.length →
      readTextBytes bound input = .ok (tail, rest))
    {bound : Bytes} (hbound : (backslash :: e ++ input).length ≤ bound.length) :
    readTextBytes bound (backslash :: e ++ input) = .ok (bs ++ tail, rest) := by
  cases bound with
  | nil => simp at hbound
  | cons x bound =>
    have hrest : readTextBytes bound input = .ok (tail, rest) := by
      apply ih bound
      simp only [List.cons_append, List.length_cons, List.length_append] at hbound
      omega
    have hne : ¬ (backslash = quote) := by decide
    simp only [List.cons_append, readTextBytes, hne, if_false, if_true, he, bind, Except.bind,
      hrest]

/-! ## Whole texts -/

/-- What stands in quotes is read back up to the closing quote. -/
theorem readTextBytes_escaped (cs : List Char) (rest : Bytes) {bound : Bytes}
    (hbound : (Bytes.ofChars (cs.flatMap escaped) ++ quote :: rest).length ≤ bound.length) :
    readTextBytes bound (Bytes.ofChars (cs.flatMap escaped) ++ quote :: rest) =
      .ok (Bytes.ofChars cs, rest) := by
  induction cs generalizing bound with
  | nil =>
    cases bound with
    | nil => simp at hbound
    | cons x bound => simp [readTextBytes]
  | cons c cs ih =>
    rw [List.flatMap_cons, Bytes.ofChars_append, List.append_assoc] at hbound ⊢
    rw [Bytes.ofChars_cons]
    rcases escaped_cases c with ⟨hc, hplain⟩ | ⟨e, hc, hread⟩
    · rw [hc, Bytes.ofChars_cons, Bytes.ofChars_nil, List.append_nil] at hbound ⊢
      exact readTextBytes_plain hplain (fun _ h => ih h) hbound
    · have hslash : Bytes.ofChars ('\\' :: e) = backslash :: Bytes.ofChars e := by
        rw [Bytes.ofChars_cons]
        rfl
      rw [hc, hslash] at hbound ⊢
      exact readTextBytes_escape hread (fun _ h => ih h) hbound

/-- The bytes of a text in quotes. -/
theorem ofChars_quotedChars (s : String) :
    Bytes.ofChars (quotedChars s) =
      quote :: (Bytes.ofChars (s.toList.flatMap escaped) ++ [quote]) := by
  have hquote : Bytes.ofChars ['"'] = [quote] := by decide
  rw [quotedChars, List.cons_append, Bytes.ofChars_cons, Bytes.ofChars_append, hquote]
  rfl

/-- **A written text reads back.** -/
theorem readText_quoted (s : String) (rest : Bytes) :
    readText (Bytes.ofChars (s.toList.flatMap escaped) ++ quote :: rest) = .ok (s, rest) := by
  simp only [readText, readTextBytes_escaped s.toList rest (Nat.le_refl _), bind, Except.bind,
    Bytes.toText?_ofChars, String.ofList_toList]

end Json

end DurableKV
