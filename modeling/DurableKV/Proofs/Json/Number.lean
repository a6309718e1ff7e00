import DurableKV.Proofs.Json.Text

/-!
# Written numbers and how they are read

A number is written as a `Numeral`: digits, perhaps a fraction, perhaps an exponent with its sign.
`Number.reread` is what the reader makes of a written number.

* `readNumber_chars`: the reader takes exactly the written number off its input, whatever follows
  it, as long as that cannot be a part of a number.
* `reread_int`: an integer of the reader's range is read back as itself.
* `reread_float`: a float is read back as some float or is refused as too large. It need not be the
  same float, since reading rounds twice and so may miss the number nearest to the decimal.

That is why `Number.reread` is a partial function on numbers and not the identity.
-/

namespace DurableKV.Json

open Nat (toDigits ofDigitChars)

/-! ## Digits -/

/-- All of these are decimal digits. -/
def AllDigits (ds : List Char) : Prop := ∀ c ∈ ds, c.isDigit

/-- Two runs of digits make one. -/
theorem AllDigits.append {ds es : List Char} (hd : AllDigits ds) (he : AllDigits es) :
    AllDigits (ds ++ es) := by
  intro c hc
  rcases List.mem_append.1 hc with h | h
  · exact hd c h
  · exact he c h

/-- The decimal digits of a number are digits. -/
theorem allDigits_toDigits (n : Nat) : AllDigits (toDigits 10 n) := fun _ hc =>
  Nat.isDigit_of_mem_toDigits (by decide) (by decide) hc

/-- Zeros are digits. -/
theorem allDigits_zeros (n : Nat) : AllDigits (List.replicate n '0') := by
  intro c hc
  rw [List.eq_of_mem_replicate hc]
  decide

/-- A decimal digit is one of the characters from `0x30` to `0x39`. -/
theorem toNat_bounds {c : Char} (h : c.isDigit) : 0x30 ≤ c.toNat ∧ c.toNat ≤ 0x39 :=
  Char.isDigit_iff_toNat.1 h

/-- A decimal digit is written as one byte. -/
theorem utf8EncodeChar_digit {c : Char} (h : c.isDigit) :
    String.utf8EncodeChar c = [UInt8.ofNat c.toNat] :=
  Bytes.utf8EncodeChar_of_lt (by have := toNat_bounds h; omega)

/-- The byte of a digit character is a digit byte. -/
theorem isDigit_ofNat {c : Char} (h : c.isDigit) : isDigit (UInt8.ofNat c.toNat) := by
  obtain ⟨hlow, hhigh⟩ := toNat_bounds h
  have hbyte : (UInt8.ofNat c.toNat).toNat = c.toNat := Bytes.toNat_ofNat_of_lt (by omega)
  simp only [isDigit, Bool.and_eq_true, decide_eq_true_eq, UInt8.le_iff_toNat_le, hbyte]
  exact ⟨hlow, hhigh⟩

/-- The byte of a digit character has the value of the digit. -/
theorem digitValue_ofNat {c : Char} (h : c.isDigit) :
    digitValue (UInt8.ofNat c.toNat) = c.toNat - 0x30 := by
  have := toNat_bounds h
  rw [digitValue, Bytes.toNat_ofNat_of_lt (by omega)]

/-- A text that begins with a digit begins with the byte of that digit. -/
theorem ofChars_digit_cons {c : Char} (h : c.isDigit) (cs : List Char) :
    Bytes.ofChars (c :: cs) = UInt8.ofNat c.toNat :: Bytes.ofChars cs := by
  rw [Bytes.ofChars_cons, utf8EncodeChar_digit h]
  rfl

/-- The bytes of digits are digit bytes. -/
theorem isDigit_of_mem_ofChars {ds : List Char} (hds : AllDigits ds) :
    ∀ b ∈ Bytes.ofChars ds, isDigit b := by
  induction ds with
  | nil => simp
  | cons c ds ih =>
    rw [ofChars_digit_cons (hds c List.mem_cons_self)]
    intro b hb
    rcases List.mem_cons.1 hb with rfl | hb
    · exact isDigit_ofNat (hds c List.mem_cons_self)
    · exact ih (fun d hd => hds d (List.mem_cons_of_mem _ hd)) b hb

/-- What follows does not begin with a digit. -/
def NoDigit (rest : Bytes) : Prop := ∀ b ∈ rest.head?, ¬ isDigit b

/-- Digits are taken up to the first byte that is none. -/
theorem takeWhile_digits {bs rest : Bytes} (hbs : ∀ b ∈ bs, isDigit b) (hrest : NoDigit rest) :
    (bs ++ rest).takeWhile isDigit = bs := by
  rw [List.takeWhile_append_of_pos hbs]
  cases rest with
  | nil => simp
  | cons b rest => simp [hrest b rfl]

/-- What is left after the digits begins with the first byte that is none. -/
theorem dropWhile_digits {bs rest : Bytes} (hbs : ∀ b ∈ bs, isDigit b) (hrest : NoDigit rest) :
    (bs ++ rest).dropWhile isDigit = rest := by
  rw [List.dropWhile_append_of_pos hbs]
  cases rest with
  | nil => rfl
  | cons b rest => simp [hrest b rfl]

/-- Digits whose number fits in a word are all gathered, none of them is dropped. -/
theorem gather_digits {ds : List Char} (hds : AllDigits ds) {s : Nat}
    (h : ofDigitChars 10 ds s < UInt64.size) :
    gather s (Bytes.ofChars ds) = (ofDigitChars 10 ds s, 0) := by
  induction ds generalizing s with
  | nil => simp [gather]
  | cons c ds ih =>
    have hc : c.isDigit := hds c List.mem_cons_self
    have hnext : s * 10 + digitValue (UInt8.ofNat c.toNat) = 10 * s + (c.toNat - '0'.toNat) := by
      rw [digitValue_ofNat hc]
      simp only [Char.reduceToNat]
      omega
    rw [Nat.ofDigitChars_cons] at h ⊢
    have hle : 10 * s + (c.toNat - '0'.toNat) ≤
        ofDigitChars 10 ds (10 * s + (c.toNat - '0'.toNat)) := by
      rw [Nat.ofDigitChars_eq_ofDigitChars_zero]
      have := Nat.le_mul_of_pos_left (10 * s + (c.toNat - '0'.toNat))
        (Nat.pow_pos (n := ds.length) (show 0 < 10 by decide))
      omega
    simp only [ofChars_digit_cons hc, gather, hnext, Nat.lt_of_le_of_lt hle h, if_true]
    exact ih (fun d hd => hds d (List.mem_cons_of_mem _ hd)) h

/-! ## Numerals -/

/-- A number as it is written, without its sign. -/
structure Numeral where
  /-- The digits before the point. -/
  whole : List Char
  /-- The digits after the point; none stand for no point. -/
  fraction : List Char := []
  /-- Is the exponent negative, and its digits. -/
  exponent : Option (Bool × List Char) := none

namespace Numeral

/-- The point and what follows it. -/
def fractionChars (n : Numeral) : List Char := if n.fraction = [] then [] else '.' :: n.fraction

/-- The exponent with its mark and sign. -/
def exponentChars (n : Numeral) : List Char :=
  match n.exponent with
  | none => []
  | some (negative, ds) => 'e' :: (if negative then '-' else '+') :: ds

/-- The written form of a numeral. -/
def chars (n : Numeral) : List Char := n.whole ++ (n.fractionChars ++ n.exponentChars)

/-- What JSON asks of a numeral. -/
structure WellFormed (n : Numeral) : Prop where
  /-- The whole part consists of digits. -/
  whole_digits : AllDigits n.whole
  /-- The whole part is there. -/
  whole_ne : n.whole ≠ []
  /-- The whole part does not begin with a zero, unless it is zero. -/
  whole_lead : ∀ c cs, n.whole = c :: cs → c = '0' → cs = []
  /-- The fraction consists of digits. -/
  fraction_digits : AllDigits n.fraction
  /-- The exponent has digits and nothing else. -/
  exponent_digits : ∀ s ds, n.exponent = some (s, ds) → AllDigits ds ∧ ds ≠ []

/-- The fraction as the reader gives it. -/
def fractionBytes (n : Numeral) : Option Bytes :=
  if n.fraction = [] then none else some (Bytes.ofChars n.fraction)

/-- The exponent as the reader gives it. -/
def exponentValue (n : Numeral) : Option Int :=
  n.exponent.map fun (negative, ds) =>
    let k := (Bytes.ofChars ds).foldl (fun n d => min (n * 10 + digitValue d) exponentLimit) 0
    if negative then -(k : Int) else k

/-- What the reader makes of a numeral. -/
def read (n : Numeral) (negative : Bool) : Except ReadError Number :=
  makeNumber negative (Bytes.ofChars n.whole) n.fractionBytes n.exponentValue

end Numeral

/-- What follows cannot be a part of a number. -/
def NumberEnd (rest : Bytes) : Prop :=
  ∀ b ∈ rest.head?, ¬ isDigit b ∧ b ≠ point ∧ b ≠ 0x65 ∧ b ≠ 0x45

/-- The end of the input ends a number. -/
theorem numberEnd_nil : NumberEnd [] := by
  intro b hb
  cases hb

/-- What ends a number does not begin with a digit. -/
theorem NumberEnd.noDigit {rest : Bytes} (h : NumberEnd rest) : NoDigit rest :=
  fun b hb => (h b hb).1

/-- The whole part of a well-formed numeral is read as it stands. -/
theorem readIntegerDigits_numeral {n : Numeral} (hn : n.WellFormed) {rest : Bytes}
    (hrest : NoDigit rest) :
    readIntegerDigits (Bytes.ofChars n.whole ++ rest) = .ok (Bytes.ofChars n.whole, rest) := by
  obtain ⟨c, cs, hwhole⟩ := List.exists_cons_of_ne_nil hn.whole_ne
  have hdigits := hn.whole_digits
  rw [hwhole] at hdigits ⊢
  have hc : c.isDigit := hdigits c List.mem_cons_self
  have hcs : AllDigits cs := fun d hd => hdigits d (List.mem_cons_of_mem _ hd)
  rw [ofChars_digit_cons hc, List.cons_append]
  simp only [readIntegerDigits, isDigit_ofNat hc, not_true_eq_false, if_false]
  split
  · rename_i hzero
    have hlead : cs = [] := by
      apply hn.whole_lead c cs hwhole
      have := congrArg UInt8.toNat hzero
      rw [Bytes.toNat_ofNat_of_lt (by have := toNat_bounds hc; omega)] at this
      exact Char.toNat_inj.1 this
    subst hlead
    rw [Bytes.ofChars_nil, List.nil_append]
    cases rest with
    | nil => rfl
    | cons b rest => simp [hrest b rfl]
  · rw [takeWhile_digits (isDigit_of_mem_ofChars hcs) hrest,
      dropWhile_digits (isDigit_of_mem_ofChars hcs) hrest]

/-- A non-empty run of digits is read as it stands. -/
theorem readSomeDigits_digits {ds : List Char} (hds : AllDigits ds) (hne : ds ≠ []) {rest : Bytes}
    (hrest : NoDigit rest) :
    readSomeDigits (Bytes.ofChars ds ++ rest) = .ok (Bytes.ofChars ds, rest) := by
  obtain ⟨c, cs, rfl⟩ := List.exists_cons_of_ne_nil hne
  have hc : c.isDigit := hds c List.mem_cons_self
  have htake := takeWhile_digits (isDigit_of_mem_ofChars hds) hrest
  have hdrop := dropWhile_digits (isDigit_of_mem_ofChars hds) hrest
  rw [ofChars_digit_cons hc, List.cons_append] at htake hdrop ⊢
  simp only [readSomeDigits, isDigit_ofNat hc, if_true, htake, hdrop]

/-- After a point the digits of a fraction are read. -/
theorem readFraction_point (rest : Bytes) :
    readFraction (point :: rest) = (readSomeDigits rest).map fun r => (some r.1, r.2) := by
  show (readSomeDigits rest >>= fun r => _) = _
  cases readSomeDigits rest <;> rfl

/-- The fraction of a well-formed numeral is read, or its absence. -/
theorem readFraction_numeral {n : Numeral} (hn : n.WellFormed) {rest : Bytes}
    (hdigit : NoDigit rest) (hpoint : ∀ b ∈ rest.head?, b ≠ point) :
    readFraction (Bytes.ofChars n.fractionChars ++ rest) = .ok (n.fractionBytes, rest) := by
  by_cases hf : n.fraction = []
  · rw [Numeral.fractionChars, Numeral.fractionBytes, if_pos hf, if_pos hf, Bytes.ofChars_nil,
      List.nil_append]
    unfold readFraction
    split
    · exact absurd rfl (hpoint _ rfl)
    · rfl
  · have hchars : Bytes.ofChars ('.' :: n.fraction) = point :: Bytes.ofChars n.fraction := by
      rw [Bytes.ofChars_cons]
      rfl
    rw [Numeral.fractionChars, Numeral.fractionBytes, if_neg hf, if_neg hf, hchars,
      List.cons_append, readFraction_point, readSomeDigits_digits hn.fraction_digits hf hdigit]
    rfl

/-- An exponent with its sign, given what the reader makes of its digits. -/
theorem readExponent_signed (negative : Bool) {ds input rest : Bytes}
    (hds : readSomeDigits input = .ok (ds, rest)) :
    readExponent (0x65 :: (if negative then minus else plus) :: input) =
      let k := ds.foldl (fun n d => min (n * 10 + digitValue d) exponentLimit) 0
      .ok (some (if negative then -(k : Int) else k), rest) := by
  cases negative with
  | false =>
    show (readSomeDigits input >>= fun r => _) = _
    rw [hds]
    rfl
  | true =>
    show (readSomeDigits input >>= fun r => _) = _
    rw [hds]
    rfl

/-- The exponent of a numeral is written as an `e`, a sign and the digits. -/
theorem ofChars_exponent (negative : Bool) (ds : List Char) :
    Bytes.ofChars ('e' :: (if negative then '-' else '+') :: ds) =
      0x65 :: (if negative then minus else plus) :: Bytes.ofChars ds := by
  rw [Bytes.ofChars_cons, Bytes.ofChars_cons]
  cases negative <;> rfl

/-- The exponent of a well-formed numeral is read, or its absence. -/
theorem readExponent_numeral {n : Numeral} (hn : n.WellFormed) {rest : Bytes}
    (hrest : NumberEnd rest) :
    readExponent (Bytes.ofChars n.exponentChars ++ rest) = .ok (n.exponentValue, rest) := by
  cases hexp : n.exponent with
  | none =>
    simp only [Numeral.exponentChars, Numeral.exponentValue, hexp, Bytes.ofChars_nil,
      List.nil_append, Option.map_none]
    cases rest with
    | nil => rfl
    | cons b rest =>
      obtain ⟨-, -, hlow, hup⟩ := hrest b rfl
      simp [readExponent, hlow, hup]
  | some e =>
    obtain ⟨negative, ds⟩ := e
    obtain ⟨hds, hne⟩ := hn.exponent_digits negative ds hexp
    have hread := readSomeDigits_digits hds hne hrest.noDigit
    simp only [Numeral.exponentChars, Numeral.exponentValue, hexp, Option.map_some,
      ofChars_exponent, List.cons_append]
    exact readExponent_signed negative hread

/-- **A numeral is taken off the input** and read as what its parts say. -/
theorem readUnsigned_numeral {n : Numeral} (hn : n.WellFormed) (negative : Bool) {rest : Bytes}
    (hrest : NumberEnd rest) :
    readUnsigned negative (Bytes.ofChars n.chars ++ rest) =
      (n.read negative).map fun x => (x, rest) := by
  -- What stands behind the whole part begins with a point or the mark, or is the rest.
  have hexp : NoDigit (Bytes.ofChars n.exponentChars ++ rest) ∧
      ∀ b ∈ (Bytes.ofChars n.exponentChars ++ rest).head?, b ≠ point := by
    cases hexp : n.exponent with
    | none =>
      simp only [Numeral.exponentChars, hexp, Bytes.ofChars_nil, List.nil_append]
      exact ⟨hrest.noDigit, fun b hb => (hrest b hb).2.1⟩
    | some e =>
      simp only [Numeral.exponentChars, hexp, ofChars_exponent, List.cons_append]
      refine ⟨fun b hb => ?_, fun b hb => ?_⟩ <;>
        (cases hb; decide)
  have hfrac :
      NoDigit (Bytes.ofChars n.fractionChars ++ (Bytes.ofChars n.exponentChars ++ rest)) := by
    by_cases hf : n.fraction = []
    · rw [Numeral.fractionChars, if_pos hf]
      exact hexp.1
    · rw [Numeral.fractionChars, if_neg hf, Bytes.ofChars_cons]
      intro b hb
      cases hb
      decide
  rw [Numeral.chars, Bytes.ofChars_append, Bytes.ofChars_append, List.append_assoc,
    List.append_assoc]
  simp only [readUnsigned, readIntegerDigits_numeral hn hfrac,
    readFraction_numeral hn hexp.1 hexp.2, readExponent_numeral hn hrest, bind, Except.bind]
  rw [Numeral.read]
  cases makeNumber negative (Bytes.ofChars n.whole) n.fractionBytes n.exponentValue <;> rfl

/-! ## Integers -/

/-- The digits of a positive number do not begin with a zero. -/
theorem toDigits_lead {n : Nat} (hn : 0 < n) {c : Char} {cs : List Char}
    (h : toDigits 10 n = c :: cs) : c ≠ '0' := by
  induction n using Nat.strongRecOn generalizing c cs with
  | ind n ih =>
    by_cases hlt : n < 10
    · rw [Nat.toDigits_of_lt_base hlt] at h
      have hall : ∀ m < 10, 0 < m → m.digitChar ≠ '0' := by decide
      cases h
      exact hall n hlt hn
    · rw [Nat.toDigits_of_base_le (by decide) (by omega)] at h
      obtain ⟨d, ds, hd⟩ := List.exists_cons_of_ne_nil (Nat.toDigits_ne_nil (n := n / 10) (b := 10))
      rw [hd] at h
      cases h
      exact ih (n / 10) (by omega) (by omega) hd

/-- A natural number as a numeral. -/
def natNumeral (n : Nat) : Numeral := { whole := toDigits 10 n }

/-- A natural number is written as its digits. -/
theorem natNumeral_chars (n : Nat) : (natNumeral n).chars = toDigits 10 n := by
  simp [Numeral.chars, natNumeral, Numeral.fractionChars, Numeral.exponentChars]

/-- The numeral of a natural number is well formed. -/
theorem natNumeral_wellFormed (n : Nat) : (natNumeral n).WellFormed where
  whole_digits := allDigits_toDigits n
  whole_ne := Nat.toDigits_ne_nil
  whole_lead := by
    intro c cs h hc
    cases Nat.eq_zero_or_pos n with
    | inl hzero =>
      subst hzero
      rw [natNumeral, Nat.toDigits_zero] at h
      cases h
      rfl
    | inr hpos => exact absurd hc (toDigits_lead hpos h)
  fraction_digits := by
    intro c hc
    cases hc
  exponent_digits := by
    intro s ds h
    cases h

/-- The digits of a word are read as the word, and as its negation after a minus sign, unless it is
too large to be negated in a word or is a zero, which are read as floating-point numbers. -/
theorem natNumeral_read {n : Nat} (hn : n < UInt64.size) (negative : Bool) :
    (natNumeral n).read negative =
      if ¬ negative then .ok (.int n)
      else if n = 0 ∨ Nat.pow 2 63 < n then
        makeNumber true (Bytes.ofChars (toDigits 10 n)) none none
      else .ok (.int (-(n : Int))) := by
  have hgather : gather 0 (Bytes.ofChars (toDigits 10 n)) = (n, 0) := by
    have h := gather_digits (allDigits_toDigits n) (s := 0)
    rw [Nat.ofDigitChars_ten_toDigits] at h
    exact h hn
  show makeNumber negative (Bytes.ofChars (toDigits 10 n)) none none = _
  cases negative with
  | false =>
    rw [if_pos Bool.false_ne_true, makeNumber, hgather]
    rfl
  | true =>
    rw [if_neg (fun h => h rfl)]
    by_cases hrange : n = 0 ∨ Nat.pow 2 63 < n
    · rw [if_pos hrange]
    · rw [if_neg hrange, makeNumber, hgather]
      dsimp only
      rw [if_neg (fun h => h rfl), if_neg (fun h => h rfl), if_neg hrange]

/-! ## Floats -/

/-- Trimming the zeros at the end of a decimal that is not zero does not make it zero. -/
theorem trim_digits_ne_zero (n : Nat) {x : Decimal} (h : x.digits ≠ 0) : (x.trim n).digits ≠ 0 := by
  induction n generalizing x with
  | zero => exact h
  | succ n ih =>
    rw [Decimal.trim]
    split
    · rename_i hdiv
      exact ih (by show x.digits / 10 ≠ 0; omega)
    · exact h

/-- Digits with a first digit that is not zero, as they stand in every numeral below. -/
structure LeadingDigits (ds : List Char) : Prop where
  /-- They are digits. -/
  digits : AllDigits ds
  /-- The first of them is there and not zero. -/
  lead : ∃ c cs, ds = c :: cs ∧ c ≠ '0'

/-- The digits of a positive number begin with a digit that is not zero. -/
theorem leadingDigits_toDigits {n : Nat} (hn : n ≠ 0) : LeadingDigits (toDigits 10 n) := by
  obtain ⟨c, cs, hd⟩ := List.exists_cons_of_ne_nil (Nat.toDigits_ne_nil (n := n) (b := 10))
  exact ⟨allDigits_toDigits n, c, cs, hd, toDigits_lead (Nat.pos_of_ne_zero hn) hd⟩

/-- The first of a run of digits are digits. -/
theorem AllDigits.take {ds : List Char} (h : AllDigits ds) (k : Nat) : AllDigits (ds.take k) :=
  fun c hc => h c (List.mem_of_mem_take hc)

/-- The last of a run of digits are digits. -/
theorem AllDigits.drop {ds : List Char} (h : AllDigits ds) (k : Nat) : AllDigits (ds.drop k) :=
  fun c hc => h c (List.mem_of_mem_drop hc)

/-- A numeral whose whole part goes on from a leading digit that is not zero. -/
theorem wellFormed_of_lead {n : Numeral} {c : Char} {cs : List Char} (hwhole : n.whole = c :: cs)
    (hc : c ≠ '0') (hdigits : AllDigits n.whole) (hfraction : AllDigits n.fraction)
    (hexponent : ∀ s ds, n.exponent = some (s, ds) → AllDigits ds ∧ ds ≠ []) : n.WellFormed where
  whole_digits := hdigits
  whole_ne := by
    rw [hwhole]
    exact List.cons_ne_nil c cs
  whole_lead := by
    intro d ds h hd
    rw [hwhole] at h
    cases h
    exact absurd hd hc
  fraction_digits := hfraction
  exponent_digits := hexponent

/-- A numeral whose whole part is zero. -/
theorem wellFormed_of_zero {fraction : List Char} (hfraction : AllDigits fraction) :
    ({ whole := ['0'], fraction } : Numeral).WellFormed where
  whole_digits := allDigits_zeros 1
  whole_ne := List.cons_ne_nil '0' []
  whole_lead := by
    intro c cs h _
    cases h
    rfl
  fraction_digits := hfraction
  exponent_digits := by
    intro s ds h
    cases h

/-- These characters are a numeral with a fraction or an exponent. -/
def FloatChars (cs : List Char) : Prop :=
  ∃ n : Numeral, n.WellFormed ∧ (n.fraction ≠ [] ∨ n.exponent ≠ none) ∧ cs = n.chars

/-- A numeral without an exponent says nothing about the digits of one. -/
theorem no_exponent_digits : ∀ s ds, (none : Option (Bool × List Char)) = some (s, ds) →
    AllDigits ds ∧ ds ≠ [] := by
  intro s ds h
  cases h

section

variable {ds : List Char}

/-- Digits, then zeros up to the point. -/
theorem floatChars_whole (hds : LeadingDigits ds) (k : Nat) :
    FloatChars (ds ++ List.replicate k '0' ++ ['.', '0']) := by
  obtain ⟨hdigits, c, cs, hlead, hc⟩ := hds
  refine ⟨{ whole := ds ++ List.replicate k '0', fraction := ['0'] },
    wellFormed_of_lead (by rw [hlead]; rfl) hc (hdigits.append (allDigits_zeros _))
      (allDigits_zeros 1) no_exponent_digits, Or.inl (List.cons_ne_nil '0' []), ?_⟩
  simp [Numeral.chars, Numeral.fractionChars, Numeral.exponentChars]

/-- The point stands among the digits. -/
theorem floatChars_point (hds : LeadingDigits ds) {k : Nat} (hk : k + 1 < ds.length) :
    FloatChars (ds.take (k + 1) ++ '.' :: ds.drop (k + 1)) := by
  obtain ⟨hdigits, c, cs, hlead, hc⟩ := hds
  have hne : ds.drop (k + 1) ≠ [] := by
    rw [Ne, List.drop_eq_nil_iff]
    omega
  refine ⟨{ whole := ds.take (k + 1), fraction := ds.drop (k + 1) },
    wellFormed_of_lead (by rw [hlead]; rfl) hc (hdigits.take _) (hdigits.drop _)
      no_exponent_digits, Or.inl hne, ?_⟩
  simp only [Numeral.chars, Numeral.fractionChars, Numeral.exponentChars, hne, if_false,
    List.append_nil]

/-- Zeros stand between the point and the digits. -/
theorem floatChars_small (hds : LeadingDigits ds) (k : Nat) :
    FloatChars ('0' :: '.' :: List.replicate k '0' ++ ds) := by
  obtain ⟨hdigits, c, cs, hlead, -⟩ := hds
  have hne : List.replicate k '0' ++ ds ≠ [] := by
    rw [hlead]
    exact List.append_ne_nil_of_right_ne_nil _ (List.cons_ne_nil c cs)
  refine ⟨{ whole := ['0'], fraction := List.replicate k '0' ++ ds },
    wellFormed_of_zero ((allDigits_zeros _).append hdigits), Or.inl hne, ?_⟩
  simp only [Numeral.chars, Numeral.fractionChars, Numeral.exponentChars, hne, if_false]
  simp

/-- One digit stands before the point, and an exponent behind the others. -/
theorem floatChars_scientific (hds : LeadingDigits ds) (lead : Int) :
    FloatChars (String.ofList (ds.take 1 ++ if ds.length ≤ 1 then [] else '.' :: ds.drop 1) ++
      "e" ++ (if lead < 0 then "-" else numberStyle.plus) ++ Nat.repr lead.natAbs).toList := by
  obtain ⟨hdigits, c, cs, hlead, hc⟩ := hds
  have hexponent : ∀ s es, some (decide (lead < 0), toDigits 10 lead.natAbs) = some (s, es) →
      AllDigits es ∧ es ≠ [] := by
    intro s es h
    cases h
    exact ⟨allDigits_toDigits _, Nat.toDigits_ne_nil⟩
  refine ⟨{ whole := ds.take 1, fraction := ds.drop 1,
            exponent := some (decide (lead < 0), toDigits 10 lead.natAbs) },
    wellFormed_of_lead (by rw [hlead]; rfl) hc (hdigits.take _) (hdigits.drop _) hexponent,
    Or.inr (Option.some_ne_none _), ?_⟩
  have hfraction : (if ds.length ≤ 1 then [] else '.' :: ds.drop 1) =
      if ds.drop 1 = [] then [] else '.' :: ds.drop 1 := by
    simp only [List.drop_eq_nil_iff]
  have hsign : (if lead < 0 then "-" else numberStyle.plus).toList =
      [if decide (lead < 0) then '-' else '+'] := by
    by_cases h : lead < 0
    · rw [if_pos h, decide_eq_true h]
      rfl
    · rw [if_neg h, decide_eq_false h]
      rfl
  rw [hfraction]
  simp only [Numeral.chars, Numeral.fractionChars, Numeral.exponentChars, String.toList_append,
    String.toList_ofList, hsign, Nat.toList_repr, List.append_assoc]
  rfl

end

/-- The text of a decimal is a numeral with a fraction or an exponent. -/
theorem floatChars_decimal (x : Decimal) : FloatChars (x.text numberStyle).toList := by
  unfold Decimal.text
  split
  · exact ⟨{ whole := ['0'], fraction := ['0'] }, wellFormed_of_zero (allDigits_zeros 1),
      Or.inl (List.cons_ne_nil '0' []), rfl⟩
  · rename_i hx
    have hds := leadingDigits_toDigits (trim_digits_ne_zero 20 (x := x) hx)
    dsimp only
    split
    · split
      · rw [String.toList_ofList]
        exact floatChars_whole hds _
      · rename_i hexponent
        split
        · rename_i hlead
          rw [String.toList_ofList]
          apply floatChars_point hds
          omega
        · rw [String.toList_ofList]
          exact floatChars_small hds _
    · exact floatChars_scientific hds _

/-! ## Reading what was written -/

/-- What the reader makes of a written number. -/
def Number.reread (n : Number) : Except ReadError Number :=
  (readNumber (Bytes.ofChars n.chars)).map Prod.fst

/-- A written number as a sign and a numeral; the sign of an integer is that of its value. -/
theorem exists_numeral (n : Number) :
    ∃ (negative : Bool) (m : Numeral), m.WellFormed ∧
      n.chars = (if negative then ['-'] else []) ++ m.chars ∧
      (∀ x, n = .float x → m.fraction ≠ [] ∨ m.exponent ≠ none) ∧
      ∀ i, n = .int i → negative = decide (i < 0) ∧ m = natNumeral i.natAbs := by
  cases n with
  | int i =>
    refine ⟨decide (i < 0), natNumeral i.natAbs, natNumeral_wellFormed _, ?_, ?_, ?_⟩
    · simp only [Number.chars, Number.text, String.toList_ofList, intChars, natNumeral_chars]
      by_cases h : i < 0 <;> simp [h]
    · intro x h
      cases h
    · intro j h
      cases h
      exact ⟨rfl, rfl⟩
  | float x =>
    obtain ⟨m, hm, hfloat, hchars⟩ := floatChars_decimal x.magnitude.shortest
    refine ⟨x.negative, m, hm, ?_, fun _ _ => hfloat, ?_⟩
    · rw [Number.chars, Number.text, Binary64.text, String.toList_append, hchars]
      cases x.negative <;> rfl
    · intro i h
      cases h

/-- A well-formed numeral, with or without a minus sign, is read for what it denotes wherever a
number can end. -/
theorem readNumber_numeral (negative : Bool) {m : Numeral} (hm : m.WellFormed) {rest : Bytes}
    (hrest : NumberEnd rest) :
    readNumber (Bytes.ofChars ((if negative then ['-'] else []) ++ m.chars) ++ rest) =
      (m.read negative).map fun x => (x, rest) := by
  rw [← readUnsigned_numeral hm negative hrest]
  cases negative with
  | true => rfl
  | false =>
    obtain ⟨c, cs, hwhole⟩ := List.exists_cons_of_ne_nil hm.whole_ne
    have hc : c.isDigit := hm.whole_digits c (by rw [hwhole]; exact List.mem_cons_self)
    have hminus : UInt8.ofNat c.toNat ≠ minus := by
      intro h
      have hdigit := isDigit_ofNat hc
      rw [h] at hdigit
      exact absurd hdigit (by decide)
    simp only [Bool.false_eq_true, if_false, List.nil_append, Numeral.chars, hwhole,
      List.cons_append, ofChars_digit_cons hc]
    unfold readNumber
    split
    · rename_i h
      exact absurd (List.cons.inj h).1 hminus
    · rfl

/-- **A written number is taken off the input**, and what it is read as does not depend on what
follows it. -/
theorem readNumber_chars (n : Number) {rest : Bytes} (hrest : NumberEnd rest) :
    readNumber (Bytes.ofChars n.chars ++ rest) = n.reread.map fun x => (x, rest) := by
  obtain ⟨negative, m, hm, hchars, -, -⟩ := exists_numeral n
  have halone := readNumber_numeral negative hm numberEnd_nil
  rw [List.append_nil] at halone
  rw [Number.reread, hchars, readNumber_numeral negative hm hrest, halone]
  cases m.read negative <;> rfl

/-- An integer of the reader's range is read back as itself. -/
theorem reread_int {i : Int} (hlow : -0x8000000000000000 ≤ i) (hhigh : i < UInt64.size) :
    (Number.int i).reread = .ok (.int i) := by
  obtain ⟨negative, m, hm, hchars, -, hint⟩ := exists_numeral (.int i)
  obtain ⟨rfl, rfl⟩ := hint i rfl
  have halone := readNumber_numeral (decide (i < 0)) hm numberEnd_nil
  have hsize : UInt64.size = 0x10000000000000000 := rfl
  have hhalf : Nat.pow 2 63 = 0x8000000000000000 := rfl
  rw [List.append_nil, natNumeral_read (by omega)] at halone
  rw [Number.reread, hchars, halone]
  by_cases hneg : i < 0
  · have hrange : ¬ (i.natAbs = 0 ∨ Nat.pow 2 63 < i.natAbs) := by omega
    have habs : -(i.natAbs : Int) = i := by omega
    simp only [hneg, decide_true, not_true_eq_false, if_false, hrange, habs]
    rfl
  · have habs : (i.natAbs : Int) = i := by omega
    simp [hneg, habs, Except.map]

/-- A float is read back as a float, if at all. -/
theorem reread_float {x : Binary64} {n : Number} (h : (Number.float x).reread = .ok n) :
    ∃ y, n = .float y := by
  obtain ⟨negative, m, hm, hchars, hfloat, -⟩ := exists_numeral (.float x)
  have halone := readNumber_numeral negative hm numberEnd_nil
  rw [List.append_nil] at halone
  rw [Number.reread, hchars, halone] at h
  -- With a fraction or an exponent the reader makes a float or refuses.
  have hmake : ∀ k, m.read negative = .ok k → ∃ y, k = .float y := by
    intro k hk
    rw [Numeral.read, Numeral.fractionBytes, Numeral.exponentValue] at hk
    rcases hfloat x rfl with hf | he
    · rw [if_neg hf] at hk
      simp only [makeNumber] at hk
      split at hk
      · cases hk
        exact ⟨_, rfl⟩
      · cases hk
    · obtain ⟨e, he⟩ := Option.ne_none_iff_exists'.1 he
      rw [he] at hk
      by_cases hf : m.fraction = []
      · simp only [hf, if_true, makeNumber, Option.map_some] at hk
        split at hk
        · cases hk
          exact ⟨_, rfl⟩
        · cases hk
      · simp only [hf, if_false, makeNumber, Option.map_some] at hk
        split at hk
        · cases hk
          exact ⟨_, rfl⟩
        · cases hk
  cases hread : m.read negative with
  | error e =>
    rw [hread] at h
    cases h
  | ok k =>
    rw [hread] at h
    cases h
    exact hmake _ hread

end DurableKV.Json
