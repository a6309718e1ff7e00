import DurableKV.Proofs.Json.Depth

/-!
# A written value is one line

No written value holds a byte below `0x20`: control characters in texts are escaped, and everything
else is written with digits, letters and punctuation. So a newline behind a written value is the
first one (`newline_notMem_bytes`), which is what lets values be stored one on a line.
-/

namespace DurableKV.Json

/-- All characters are above the control characters. -/
def Printable (cs : List Char) : Prop := ∀ c ∈ cs, 0x20 ≤ c.toNat

/-- The empty text is printable. -/
@[simp] theorem printable_nil : Printable [] := fun _ h => absurd h List.not_mem_nil

/-- A text is printable if its first character is and the rest is. -/
@[simp] theorem printable_cons {c : Char} {cs : List Char} :
    Printable (c :: cs) ↔ 0x20 ≤ c.toNat ∧ Printable cs :=
  List.forall_mem_cons

/-- Two texts one after the other are printable if both are. -/
@[simp] theorem printable_append {cs ds : List Char} :
    Printable (cs ++ ds) ↔ Printable cs ∧ Printable ds :=
  List.forall_mem_append

/-- Whether a given text is printable can be computed. -/
theorem printable_of_all {cs : List Char} (h : cs.all (fun c => decide (0x20 ≤ c.toNat)) = true) :
    Printable cs :=
  fun c hc => of_decide_eq_true (List.all_eq_true.1 h c hc)

/-! ## Texts and numbers -/

/-- A hexadecimal digit is no control character. -/
theorem hexDigit_ge {n : Nat} (h : n < 16) : 0x20 ≤ (Bytes.hexDigit n).toNat := by
  revert n
  decide

/-- A character of a string is escaped if it is a control character. -/
theorem printable_escaped (c : Char) : Printable (escaped c) := by
  unfold escaped
  split
  any_goals
    simp only [printable_cons, printable_nil, and_true]
    decide
  split
  · rename_i hlow
    have hhigh := hexDigit_ge (show c.toNat / 16 < 16 by omega)
    have hdigit := hexDigit_ge (show c.toNat % 16 < 16 by omega)
    simp only [printable_cons, printable_nil, and_true]
    exact ⟨by decide, by decide, by decide, by decide, hhigh, hdigit⟩
  · rename_i hlow
    simp only [printable_cons, printable_nil, and_true]
    omega

/-- A quoted string has no control character. -/
theorem printable_quotedChars (s : String) : Printable (quotedChars s) := by
  rw [quotedChars, List.cons_append, printable_cons, printable_append, printable_cons]
  refine ⟨by decide, fun c hc => ?_, by decide, printable_nil⟩
  obtain ⟨d, -, hcd⟩ := List.mem_flatMap.1 hc
  exact printable_escaped d c hcd

/-- Digits are printable. -/
theorem AllDigits.printable {ds : List Char} (h : AllDigits ds) : Printable ds := by
  intro c hc
  have := (toNat_bounds (h c hc)).1
  omega

/-- A well-formed numeral is printable. -/
theorem Numeral.WellFormed.printable {m : Numeral} (h : m.WellFormed) : Printable m.chars := by
  rw [Numeral.chars, printable_append, printable_append]
  refine ⟨h.whole_digits.printable, ?_, ?_⟩
  · unfold Numeral.fractionChars
    split
    · exact printable_nil
    · exact printable_cons.2 ⟨by decide, h.fraction_digits.printable⟩
  · unfold Numeral.exponentChars
    split
    · exact printable_nil
    · rename_i negative ds heq
      refine printable_cons.2 ⟨by decide, printable_cons.2 ⟨?_, ?_⟩⟩
      · cases negative <;> decide
      · exact (h.exponent_digits negative ds heq).1.printable

/-- A number is written without control characters. -/
theorem printable_number (n : Number) : Printable n.chars := by
  obtain ⟨negative, m, hm, hchars, -, -⟩ := exists_numeral n
  rw [hchars, printable_append]
  refine ⟨?_, hm.printable⟩
  cases negative with
  | true => exact printable_cons.2 ⟨by decide, printable_nil⟩
  | false => exact printable_nil

/-! ## Values -/

mutual

/-- **A value is written without control characters**, by induction over its items and members. -/
theorem printable_chars : (v : Value) → Printable v.chars
  | .null => printable_of_all rfl
  | .bool true => printable_of_all rfl
  | .bool false => printable_of_all rfl
  | .number n => printable_number n
  | .string s => printable_quotedChars s
  | .array items => by
    rw [Value.chars, List.cons_append, printable_cons, printable_append, printable_cons]
    exact ⟨by decide, printable_itemChars items, by decide, printable_nil⟩
  | .object fields => by
    rw [Value.chars, List.cons_append, printable_cons, printable_append, printable_cons]
    exact ⟨by decide, printable_fieldChars fields, by decide, printable_nil⟩

/-- The items of an array are written without control characters. -/
theorem printable_itemChars : (vs : List Value) → Printable (Value.itemChars vs)
  | [] => printable_nil
  | [v] => printable_chars v
  | v :: w :: vs => by
    rw [Value.itemChars, printable_append, printable_cons]
    exact ⟨printable_chars v, by decide, printable_itemChars (w :: vs)⟩

/-- The members of an object are written without control characters. -/
theorem printable_fieldChars : (fs : List (String × Value)) → Printable (Value.fieldChars fs)
  | [] => printable_nil
  | [(k, v)] => by
    rw [Value.fieldChars, printable_append, printable_cons]
    exact ⟨printable_quotedChars k, by decide, printable_chars v⟩
  | (k, v) :: f :: fs => by
    simp only [Value.fieldChars, printable_append, printable_cons]
    exact ⟨⟨printable_quotedChars k, by decide, printable_chars v⟩, by decide,
      printable_fieldChars (f :: fs)⟩

end

/-! ## Bytes -/

/-- The bytes of a printable text are no control bytes: those of a character outside ASCII are at
least `0x80`. -/
theorem le_of_mem_ofChars {cs : List Char} (h : Printable cs) {b : UInt8}
    (hb : b ∈ Bytes.ofChars cs) : 0x20 ≤ b := by
  obtain ⟨c, hc, hbc⟩ := List.mem_flatMap.1 hb
  have hlow := h c hc
  by_cases hascii : c.toNat < 0x80
  · rw [Bytes.utf8EncodeChar_of_lt hascii, List.mem_singleton] at hbc
    rw [hbc, UInt8.le_iff_toNat_le, Bytes.toNat_ofNat_of_lt (by omega)]
    exact hlow
  · have := Bytes.le_of_mem_utf8EncodeChar (Nat.le_of_not_lt hascii) hbc
    rw [UInt8.le_iff_toNat_le] at this ⊢
    exact Nat.le_trans (by decide) this

/-- **A written value is one line.** -/
theorem newline_notMem_bytes (v : Value) : Bytes.newline ∉ v.bytes := by
  intro h
  rw [bytes_eq_ofChars] at h
  exact absurd (le_of_mem_ofChars (printable_chars v) h) (by decide)

end DurableKV.Json
