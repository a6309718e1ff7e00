import DurableKV.Proofs.Json.RoundTrip

/-!
# The bound of the reader

A reader of values goes through a list of its own beside its input, the bound, and takes one element
off it in every step. The bound is there for the recursion only. Every step also takes a byte off the
input (`readText_shortens`, `readNumber_shortens` and the like), so what was read with some bound is
read with every bound that is as long as the input (`readers_settled`), and the bound decides nothing.
-/

namespace DurableKV.Json

/-! ## What is left is shorter -/

/-- A reader that takes at least one byte off its input. -/
def Shortens {α : Type} (read : Bytes → Except ReadError (α × Bytes)) : Prop :=
  ∀ {input : Bytes} {x : α} {rest : Bytes}, read input = .ok (x, rest) → rest.length < input.length

/-- Skipping blanks adds nothing. -/
theorem length_skipSpace_le (input : Bytes) : (skipSpace input).length ≤ input.length :=
  (List.dropWhile_sublist _).length_le

/-- What stands behind the first byte that is no blank is shorter than the input. -/
theorem length_lt_of_skipSpace {input rest : Bytes} {b : UInt8} (h : skipSpace input = b :: rest) :
    rest.length < input.length := by
  have hle := length_skipSpace_le input
  simpa [h, Nat.succ_le_iff] using hle

/-- The next item of an array begins behind a comma, or where the first one may begin. -/
theorem length_of_nextItem {first : Bool} {input start : Bytes}
    (h : nextItem first input = .ok (.more start)) :
    start.length ≤ input.length ∧ (first = false → start.length < input.length) := by
  have hle := length_skipSpace_le input
  unfold nextItem at h
  split at h
  · cases h
  rename_i b rest hspace
  have hlt := length_lt_of_skipSpace hspace
  rw [hspace] at hle
  split at h
  · cases h
  split at h
  · rename_i hfirst
    cases h
    exact ⟨hle, by simp [hfirst]⟩
  split at h
  · split at h
    · cases h
    · rename_i c tail hafter
      have hcomma := length_skipSpace_le rest
      rw [hafter] at hcomma
      split at h
      · cases h
      · cases h
        exact ⟨by omega, fun _ => by omega⟩
  · cases h

/-- The name of the next field of an object begins behind a quote. -/
theorem length_of_nextField {first : Bool} {input start : Bytes}
    (h : nextField first input = .ok (.more start)) : start.length < input.length := by
  unfold nextField at h
  split at h
  · cases h
  rename_i b rest hspace
  have hlt := length_lt_of_skipSpace hspace
  split at h
  · cases h
  split at h
  · split at h
    · cases h
      exact hlt
    · cases h
  split at h
  · split at h
    · cases h
    · rename_i c tail hafter
      have htail := length_lt_of_skipSpace hafter
      repeat' split at h
      all_goals cases h
      exact Nat.lt_trans htail hlt
  · cases h

/-- The end of an array is a byte of its own. -/
theorem length_of_nextItem_done {first : Bool} {input rest : Bytes}
    (h : nextItem first input = .ok (.done rest)) : rest.length < input.length := by
  unfold nextItem at h
  split at h
  · cases h
  rename_i b tail hspace
  have hlt := length_lt_of_skipSpace hspace
  repeat' split at h
  all_goals cases h
  exact hlt

/-- The end of an object is a byte of its own. -/
theorem length_of_nextField_done {first : Bool} {input rest : Bytes}
    (h : nextField first input = .ok (.done rest)) : rest.length < input.length := by
  unfold nextField at h
  split at h
  · cases h
  rename_i b tail hspace
  have hlt := length_lt_of_skipSpace hspace
  repeat' split at h
  all_goals cases h
  exact hlt

/-- A colon is a byte of its own. -/
theorem length_of_readColon {input rest : Bytes} (h : readColon input = .ok rest) :
    rest.length < input.length := by
  unfold readColon at h
  split at h
  · cases h
  rename_i b tail hspace
  have hlt := length_lt_of_skipSpace hspace
  split at h
  · cases h
    exact hlt
  · cases h

/-- Reading letters adds nothing. -/
theorem length_of_readWord {letters input rest : Bytes} (h : readWord letters input = .ok rest) :
    rest.length ≤ input.length := by
  induction letters generalizing input with
  | nil =>
    cases h
    exact Nat.le_refl _
  | cons a letters ih =>
    cases input with
    | nil => cases h
    | cons b input =>
      simp only [readWord] at h
      split at h
      · exact Nat.le_succ_of_le (ih h)
      · cases h

/-! ## Texts -/

/-- Four hexadecimal digits are four bytes. -/
theorem readHex_shortens : Shortens readHex := by
  intro input n rest h
  unfold readHex at h
  split at h
  · split at h
    · cases h
      simp only [List.length_cons]
      omega
    · cases h
  · cases h

/-- An escape of a code point takes its digits. -/
theorem readUnicode_shortens : Shortens readUnicode := by
  intro input bs rest h
  unfold readUnicode at h
  obtain ⟨⟨n, after⟩, hn, h⟩ := bind_eq_ok_iff.1 h
  have hlt := readHex_shortens hn
  dsimp only at h
  split at h
  · cases h
  split at h
  · cases h
    exact hlt
  split at h
  · cases h
  · cases h
  rename_i b u tail
  split at h
  · obtain ⟨⟨m, after⟩, hm, h⟩ := bind_eq_ok_iff.1 h
    have hlt' := readHex_shortens hm
    dsimp only at h
    simp only [List.length_cons] at hlt
    split at h
    · cases h
    · have hrest : after = rest := congrArg Prod.snd (Except.ok.inj h)
      subst hrest
      omega
  · cases h

/-- An escape takes its letter. -/
theorem readEscape_shortens : Shortens readEscape := by
  intro input bs rest h
  unfold readEscape at h
  split at h
  · cases h
  split at h
  · exact Nat.lt_succ_of_lt (readUnicode_shortens h)
  split at h
  · cases h
    exact Nat.lt_succ_self _
  · cases h

/-- The bytes of a text end with a quote. -/
theorem readTextBytes_shortens (bound : Bytes) : Shortens (readTextBytes bound) := by
  induction bound with
  | nil =>
    intro input bs rest h
    cases h
  | cons x bound ih =>
    intro input bs rest h
    cases input with
    | nil => cases h
    | cons b input =>
      simp only [readTextBytes] at h
      split at h
      · cases h
        exact Nat.lt_succ_self _
      split at h
      · obtain ⟨⟨es, after⟩, hes, h⟩ := bind_eq_ok_iff.1 h
        obtain ⟨⟨tail, after'⟩, htail, h⟩ := bind_eq_ok_iff.1 h
        cases h
        exact Nat.lt_succ_of_lt (Nat.lt_trans (ih htail) (readEscape_shortens hes))
      split at h
      · cases h
      · obtain ⟨⟨tail, after⟩, htail, h⟩ := bind_eq_ok_iff.1 h
        cases h
        exact Nat.lt_succ_of_lt (ih htail)

/-- A text takes its closing quote. -/
theorem readText_shortens : Shortens readText := by
  intro input s rest h
  unfold readText at h
  obtain ⟨⟨bs, after⟩, hbs, h⟩ := bind_eq_ok_iff.1 h
  have hlt := readTextBytes_shortens input hbs
  dsimp only at h
  split at h
  · cases h
    exact hlt
  · cases h

/-! ## Numbers -/

/-- The digits of an integer are at least one. -/
theorem readIntegerDigits_shortens : Shortens readIntegerDigits := by
  intro input ds rest h
  unfold readIntegerDigits at h
  split at h
  · cases h
  rename_i d tail
  have hdrop : (tail.dropWhile isDigit).length ≤ tail.length :=
    (List.dropWhile_sublist _).length_le
  repeat' split at h
  all_goals cases h
  all_goals simp only [List.length_cons]
  all_goals omega

/-- Taking digits adds nothing. -/
theorem length_of_readSomeDigits {input ds rest : Bytes}
    (h : readSomeDigits input = .ok (ds, rest)) : rest.length ≤ input.length := by
  unfold readSomeDigits at h
  split at h
  · cases h
  split at h
  · cases h
    exact (List.dropWhile_sublist _).length_le
  · cases h

/-- Taking a fraction adds nothing. -/
theorem length_of_readFraction {input rest : Bytes} {fraction : Option Bytes}
    (h : readFraction input = .ok (fraction, rest)) : rest.length ≤ input.length := by
  unfold readFraction at h
  split at h
  · obtain ⟨⟨ds, after⟩, hds, h⟩ := bind_eq_ok_iff.1 h
    cases h
    exact Nat.le_succ_of_le (length_of_readSomeDigits hds)
  · cases h
    exact Nat.le_refl _

/-- Taking an exponent adds nothing. -/
theorem length_of_readExponent {input rest : Bytes} {exponent : Option Int}
    (h : readExponent input = .ok (exponent, rest)) : rest.length ≤ input.length := by
  unfold readExponent at h
  split at h
  · cases h
    exact Nat.le_refl _
  split at h
  · dsimp only at h
    obtain ⟨⟨ds, after⟩, hds, h⟩ := bind_eq_ok_iff.1 h
    cases h
    have hle := length_of_readSomeDigits hds
    simp only [List.length_cons]
    split at hle
    all_goals
      simp only [List.length_cons] at hle ⊢
      omega
  · cases h
    exact Nat.le_refl _

/-- A number without its sign takes its digits. -/
theorem readUnsigned_shortens (negative : Bool) : Shortens (readUnsigned negative) := by
  intro input n rest h
  unfold readUnsigned at h
  obtain ⟨⟨digits, after⟩, hdigits, h⟩ := bind_eq_ok_iff.1 h
  obtain ⟨⟨fraction, after'⟩, hfraction, h⟩ := bind_eq_ok_iff.1 h
  obtain ⟨⟨exponent, after''⟩, hexponent, h⟩ := bind_eq_ok_iff.1 h
  obtain ⟨m, -, h⟩ := bind_eq_ok_iff.1 h
  cases h
  have hfirst := readIntegerDigits_shortens hdigits
  have hsecond := length_of_readFraction hfraction
  have hthird := length_of_readExponent hexponent
  omega

/-- A number takes its digits. -/
theorem readNumber_shortens : Shortens readNumber := by
  intro input n rest h
  unfold readNumber at h
  split at h
  · exact Nat.lt_succ_of_lt (readUnsigned_shortens true h)
  · exact readUnsigned_shortens false h

/-! ## Values -/

/-- A reader with a bound that takes at least one byte off its input, and reads the same with every
bound that is as long as the input. -/
def Settled {α : Type} (read : Bytes → Nat → Bytes → Except ReadError (α × Bytes))
    (bound : Bytes) : Prop :=
  ∀ {room : Nat} {input : Bytes} {x : α} {rest : Bytes}, read bound room input = .ok (x, rest) →
    rest.length < input.length ∧
      ∀ {other : Bytes}, input.length ≤ other.length → read other room input = .ok (x, rest)

section

variable {b : UInt8} {bound : Bytes}

/-- Items after an item, given the reader of values. -/
theorem readItems_settled (hvalue : Settled readValue bound) (hitems : Settled readItems bound) :
    Settled readItems (b :: bound) := by
  intro room input vs rest h
  unfold readItems at h
  obtain ⟨upcoming, hnext, h⟩ := bind_eq_ok_iff.1 h
  cases upcoming with
  | done after =>
    cases h
    refine ⟨length_of_nextItem_done hnext, fun {other} hother => ?_⟩
    obtain ⟨c, other, rfl⟩ := List.exists_cons_of_length_pos
      (Nat.lt_of_lt_of_le (Nat.zero_lt_of_lt (length_of_nextItem_done hnext)) hother)
    exact bind_eq_ok_iff.2 ⟨_, hnext, rfl⟩
  | more start =>
    obtain ⟨⟨v, between⟩, hv, h⟩ := bind_eq_ok_iff.1 h
    obtain ⟨⟨ws, after⟩, hws, h⟩ := bind_eq_ok_iff.1 h
    cases h
    obtain ⟨hvlength, hvother⟩ := hvalue hv
    obtain ⟨hwlength, hwother⟩ := hitems hws
    have hstart := (length_of_nextItem hnext).2 rfl
    refine ⟨by omega, fun {other} hother => ?_⟩
    obtain ⟨c, other, rfl⟩ := List.exists_cons_of_length_pos (show 0 < other.length by omega)
    rw [List.length_cons] at hother
    exact bind_eq_ok_iff.2 ⟨_, hnext, bind_eq_ok_iff.2 ⟨_, hvother (by omega),
      bind_eq_ok_iff.2 ⟨_, hwother (by omega), rfl⟩⟩⟩

/-- Fields after a field, given the reader of values. -/
theorem readFields_settled (hvalue : Settled readValue bound)
    (hfields : Settled readFields bound) : Settled readFields (b :: bound) := by
  intro room input fs rest h
  unfold readFields at h
  obtain ⟨upcoming, hnext, h⟩ := bind_eq_ok_iff.1 h
  cases upcoming with
  | done after =>
    cases h
    refine ⟨length_of_nextField_done hnext, fun {other} hother => ?_⟩
    obtain ⟨c, other, rfl⟩ := List.exists_cons_of_length_pos
      (Nat.lt_of_lt_of_le (Nat.zero_lt_of_lt (length_of_nextField_done hnext)) hother)
    exact bind_eq_ok_iff.2 ⟨_, hnext, rfl⟩
  | more start =>
    obtain ⟨⟨name, colon⟩, hname, h⟩ := bind_eq_ok_iff.1 h
    obtain ⟨inner, hcolon, h⟩ := bind_eq_ok_iff.1 h
    obtain ⟨⟨v, between⟩, hv, h⟩ := bind_eq_ok_iff.1 h
    obtain ⟨⟨gs, after⟩, hgs, h⟩ := bind_eq_ok_iff.1 h
    cases h
    obtain ⟨hvlength, hvother⟩ := hvalue hv
    obtain ⟨hglength, hgother⟩ := hfields hgs
    have hstart := length_of_nextField hnext
    have htext := readText_shortens hname
    have hinner := length_of_readColon hcolon
    refine ⟨by omega, fun {other} hother => ?_⟩
    obtain ⟨c, other, rfl⟩ := List.exists_cons_of_length_pos (show 0 < other.length by omega)
    rw [List.length_cons] at hother
    exact bind_eq_ok_iff.2 ⟨_, hnext, bind_eq_ok_iff.2 ⟨_, hname, bind_eq_ok_iff.2 ⟨_, hcolon,
      bind_eq_ok_iff.2 ⟨_, hvother (by omega), bind_eq_ok_iff.2 ⟨_, hgother (by omega), rfl⟩⟩⟩⟩⟩

/-- An array, given the readers of what may stand in it. -/
theorem readValue_settled_array {input tail rest : Bytes} {room : Nat} {v : Value}
    (hspace : skipSpace input = openBracket :: tail) (hvalue : Settled readValue bound)
    (hitems : Settled readItems bound) (h : readValue (b :: bound) room input = .ok (v, rest)) :
    rest.length ≤ tail.length ∧ ∀ {c : UInt8} {other : Bytes}, tail.length ≤ other.length →
      readValue (c :: other) room input = .ok (v, rest) := by
  have hquote : ¬ openBracket = quote := by decide
  unfold readValue at h ⊢
  simp only [hspace, hquote, if_false, if_true] at h ⊢
  obtain ⟨inner, hopen, h⟩ := bind_eq_ok_iff.1 h
  obtain ⟨upcoming, hnext, h⟩ := bind_eq_ok_iff.1 h
  cases upcoming with
  | done after =>
    cases h
    exact ⟨Nat.le_of_lt (length_of_nextItem_done hnext), fun _ =>
      bind_eq_ok_iff.2 ⟨_, hopen, bind_eq_ok_iff.2 ⟨_, hnext, rfl⟩⟩⟩
  | more start =>
    obtain ⟨⟨w, between⟩, hw, h⟩ := bind_eq_ok_iff.1 h
    obtain ⟨⟨ws, after⟩, hws, h⟩ := bind_eq_ok_iff.1 h
    cases h
    obtain ⟨hwlength, hwother⟩ := hvalue hw
    obtain ⟨hwslength, hwsother⟩ := hitems hws
    have hstart := (length_of_nextItem hnext).1
    dsimp only at hwslength hwsother ⊢
    refine ⟨by omega, fun hother => ?_⟩
    exact bind_eq_ok_iff.2 ⟨_, hopen, bind_eq_ok_iff.2 ⟨_, hnext, bind_eq_ok_iff.2
      ⟨_, hwother (by omega), bind_eq_ok_iff.2 ⟨_, hwsother (by omega), rfl⟩⟩⟩⟩

/-- An object, given the readers of what may stand in it. -/
theorem readValue_settled_object {input tail rest : Bytes} {room : Nat} {v : Value}
    (hspace : skipSpace input = openBrace :: tail) (hvalue : Settled readValue bound)
    (hfields : Settled readFields bound) (h : readValue (b :: bound) room input = .ok (v, rest)) :
    rest.length ≤ tail.length ∧ ∀ {c : UInt8} {other : Bytes}, tail.length ≤ other.length →
      readValue (c :: other) room input = .ok (v, rest) := by
  have hquote : ¬ openBrace = quote := by decide
  have hbracket : ¬ openBrace = openBracket := by decide
  unfold readValue at h ⊢
  simp only [hspace, hquote, hbracket, if_false, if_true] at h ⊢
  obtain ⟨inner, hopen, h⟩ := bind_eq_ok_iff.1 h
  obtain ⟨upcoming, hnext, h⟩ := bind_eq_ok_iff.1 h
  cases upcoming with
  | done after =>
    cases h
    exact ⟨Nat.le_of_lt (length_of_nextField_done hnext), fun _ =>
      bind_eq_ok_iff.2 ⟨_, hopen, bind_eq_ok_iff.2 ⟨_, hnext, rfl⟩⟩⟩
  | more start =>
    obtain ⟨⟨name, colon⟩, hname, h⟩ := bind_eq_ok_iff.1 h
    obtain ⟨behind, hcolon, h⟩ := bind_eq_ok_iff.1 h
    obtain ⟨⟨w, between⟩, hw, h⟩ := bind_eq_ok_iff.1 h
    obtain ⟨⟨gs, after⟩, hgs, h⟩ := bind_eq_ok_iff.1 h
    cases h
    obtain ⟨hwlength, hwother⟩ := hvalue hw
    obtain ⟨hgslength, hgsother⟩ := hfields hgs
    have hstart := length_of_nextField hnext
    have htext := readText_shortens hname
    have hbehind := length_of_readColon hcolon
    dsimp only at hgslength hgsother hbehind ⊢
    refine ⟨by omega, fun hother => ?_⟩
    exact bind_eq_ok_iff.2 ⟨_, hopen, bind_eq_ok_iff.2 ⟨_, hnext, bind_eq_ok_iff.2 ⟨_, hname,
      bind_eq_ok_iff.2 ⟨_, hcolon, bind_eq_ok_iff.2 ⟨_, hwother (by omega),
        bind_eq_ok_iff.2 ⟨_, hgsother (by omega), rfl⟩⟩⟩⟩⟩⟩

/-- Texts, numbers and words are read without the bound. -/
theorem readValue_settled_scalar {input tail rest : Bytes} {room : Nat} {v : Value} {c : UInt8}
    (hspace : skipSpace input = c :: tail) (hbracket : c ≠ openBracket) (hbrace : c ≠ openBrace)
    (h : readValue (b :: bound) room input = .ok (v, rest)) :
    rest.length ≤ tail.length ∧ ∀ {d : UInt8} {other : Bytes},
      readValue (d :: other) room input = .ok (v, rest) := by
  unfold readValue at h ⊢
  simp only [hspace, hbracket, hbrace, if_false] at h ⊢
  refine ⟨?_, h⟩
  split at h
  · obtain ⟨⟨s, after⟩, hs, h⟩ := bind_eq_ok_iff.1 h
    cases h
    exact Nat.le_of_lt (readText_shortens hs)
  split at h
  · obtain ⟨⟨n, after⟩, hn, h⟩ := bind_eq_ok_iff.1 h
    cases h
    exact Nat.le_of_lt_succ (readNumber_shortens hn)
  -- a word is left
  all_goals
    repeat' split at h
    all_goals
      first
      | cases h
      | obtain ⟨after, hword, h⟩ := bind_eq_ok_iff.1 h
        cases h
        exact length_of_readWord hword

/-- A value, given the readers of what may stand in it. -/
theorem readValue_settled (hvalue : Settled readValue bound) (hitems : Settled readItems bound)
    (hfields : Settled readFields bound) : Settled readValue (b :: bound) := by
  intro room input v rest h
  cases hspace : skipSpace input with
  | nil =>
    unfold readValue at h
    simp [hspace] at h
  | cons c tail =>
    have hlt := length_lt_of_skipSpace hspace
    -- another bound that is as long has a first element, and as many behind it as the input has
    suffices hother : rest.length ≤ tail.length ∧ ∀ {d : UInt8} {other : Bytes},
        tail.length ≤ other.length → readValue (d :: other) room input = .ok (v, rest) by
      refine ⟨by omega, fun {other} hlength => ?_⟩
      obtain ⟨d, other, rfl⟩ := List.exists_cons_of_length_pos (show 0 < other.length by omega)
      rw [List.length_cons] at hlength
      exact hother.2 (by omega)
    by_cases hbracket : c = openBracket
    · subst hbracket
      exact readValue_settled_array hspace hvalue hitems h
    by_cases hbrace : c = openBrace
    · subst hbrace
      exact readValue_settled_object hspace hvalue hfields h
    · obtain ⟨hlength, hread⟩ := readValue_settled_scalar hspace hbracket hbrace h
      exact ⟨hlength, fun _ => hread⟩

end

/-- **The bound decides nothing**, for values and for what stands behind an item or a field of
one. -/
theorem readers_settled (bound : Bytes) :
    Settled readValue bound ∧ Settled readItems bound ∧ Settled readFields bound := by
  induction bound with
  | nil =>
    refine ⟨?_, ?_, ?_⟩
    all_goals
      intro room input x rest h
      cases h
  | cons b bound ih =>
    obtain ⟨hvalue, hitems, hfields⟩ := ih
    exact ⟨readValue_settled hvalue hitems hfields, readItems_settled hvalue hitems,
      readFields_settled hvalue hfields⟩

section

variable {bound input tail rest : Bytes} {room : Nat} {v : Value}

/-- What is read with some bound is read with the input as the bound. -/
theorem readPrefix_of_readValue (h : readValue bound room input = .ok (v, rest)) :
    Value.readPrefix room input = .ok (v, rest) :=
  ((readers_settled bound).1 h).2 (Nat.le_refl _)

/-- What is read with the input as the bound is read with every bound that is as long. -/
theorem readValue_of_readPrefix (h : Value.readPrefix room input = .ok (v, rest))
    (hbound : input.length ≤ bound.length) : readValue bound room input = .ok (v, rest) :=
  ((readers_settled input).1 h).2 hbound

/-! ## Readers without a bound -/

/-- A text is read exactly where a quote stands. -/
theorem readPrefix_string_iff {s : String} :
    Value.readPrefix room input = .ok (.string s, rest) ↔
      ∃ tail, skipSpace input = quote :: tail ∧ readText tail = .ok (s, rest) := by
  cases input with
  | nil => simp [Value.readPrefix, readValue, skipSpace]
  | cons b input =>
    unfold Value.readPrefix readValue
    constructor
    · intro h
      split at h
      · cases h
      rename_i c tail hspace
      split at h
      · rename_i hquote
        obtain ⟨⟨t, after⟩, ht, h⟩ := bind_eq_ok_iff.1 h
        cases h
        exact ⟨tail, by rw [hspace, hquote], ht⟩
      -- whatever begins with another byte is no text
      split at h
      · obtain ⟨inner, -, h⟩ := bind_eq_ok_iff.1 h
        obtain ⟨upcoming, -, h⟩ := bind_eq_ok_iff.1 h
        cases upcoming with
        | done after => cases h
        | more start =>
          obtain ⟨_, -, h⟩ := bind_eq_ok_iff.1 h
          obtain ⟨_, -, h⟩ := bind_eq_ok_iff.1 h
          cases h
      split at h
      · obtain ⟨inner, -, h⟩ := bind_eq_ok_iff.1 h
        obtain ⟨upcoming, -, h⟩ := bind_eq_ok_iff.1 h
        cases upcoming with
        | done after => cases h
        | more start =>
          obtain ⟨_, -, h⟩ := bind_eq_ok_iff.1 h
          obtain ⟨_, -, h⟩ := bind_eq_ok_iff.1 h
          obtain ⟨_, -, h⟩ := bind_eq_ok_iff.1 h
          obtain ⟨_, -, h⟩ := bind_eq_ok_iff.1 h
          cases h
      repeat' split at h
      all_goals
        first
        | cases h
        | obtain ⟨_, -, h⟩ := bind_eq_ok_iff.1 h
          cases h
    · rintro ⟨tail, hspace, ht⟩
      simp only [hspace, if_true, ht]
      rfl

/-- An array is read item by item. -/
theorem readPrefix_array_iff (hspace : skipSpace input = openBracket :: tail) :
    Value.readPrefix (room + 1) input = .ok (v, rest) ↔
      (nextItem true tail = .ok (.done rest) ∧ v = .array []) ∨
      ∃ start w between ws, nextItem true tail = .ok (.more start) ∧
        Value.readPrefix room start = .ok (w, between) ∧
        readItems between room between = .ok (ws, rest) ∧ v = .array (w :: ws) := by
  have hquote : ¬ openBracket = quote := by decide
  have hshorter := length_lt_of_skipSpace hspace
  cases input with
  | nil => cases hspace
  | cons b input =>
    rw [List.length_cons, Nat.lt_succ_iff] at hshorter
    unfold Value.readPrefix
    rw [readValue]
    simp only [hspace, hquote, if_false, if_true]
    constructor
    · intro h
      obtain ⟨inner, hopen, h⟩ := bind_eq_ok_iff.1 h
      cases hopen
      obtain ⟨upcoming, hnext, h⟩ := bind_eq_ok_iff.1 h
      cases upcoming with
      | done after =>
        cases h
        exact Or.inl ⟨hnext, rfl⟩
      | more start =>
        obtain ⟨⟨w, between⟩, hw, h⟩ := bind_eq_ok_iff.1 h
        obtain ⟨⟨ws, after⟩, hws, h⟩ := bind_eq_ok_iff.1 h
        cases h
        exact Or.inr ⟨start, w, between, ws, hnext, readPrefix_of_readValue hw,
          ((readers_settled input).2.1 hws).2 (Nat.le_refl _), rfl⟩
    · rintro (⟨hnext, rfl⟩ | ⟨start, w, between, ws, hnext, hw, hws, rfl⟩)
      · exact bind_eq_ok_iff.2 ⟨_, rfl, bind_eq_ok_iff.2 ⟨_, hnext, rfl⟩⟩
      · have hstart := (length_of_nextItem hnext).1
        have hbetween := ((readers_settled start).1 hw).1
        exact bind_eq_ok_iff.2 ⟨_, rfl, bind_eq_ok_iff.2 ⟨_, hnext, bind_eq_ok_iff.2
          ⟨_, readValue_of_readPrefix hw (by omega), bind_eq_ok_iff.2
            ⟨_, ((readers_settled between).2.1 hws).2 (by omega), rfl⟩⟩⟩⟩

/-- The fields of an object up to its closing brace, one after the other. -/
inductive FieldsRead (room : Nat) : Bool → Bytes → List (String × Value) → Bytes → Prop where
  /-- The closing brace. -/
  | done {first : Bool} {input rest : Bytes} (hnext : nextField first input = .ok (.done rest)) :
      FieldsRead room first input [] rest
  /-- A field, and what stands behind it. -/
  | more {first : Bool} {input start between behind after rest : Bytes} {name : String}
      {v : Value} {fs : List (String × Value)}
      (hnext : nextField first input = .ok (.more start))
      (hname : readText start = .ok (name, between)) (hcolon : readColon between = .ok behind)
      (hvalue : Value.readPrefix room behind = .ok (v, after))
      (hrest : FieldsRead room false after fs rest) :
      FieldsRead room first input ((name, v) :: fs) rest

/-- Further fields are read one after the other. -/
theorem fieldsRead_of_readFields {fs : List (String × Value)}
    (h : readFields bound room input = .ok (fs, rest)) : FieldsRead room false input fs rest := by
  induction bound generalizing input fs with
  | nil => cases h
  | cons b bound ih =>
    unfold readFields at h
    obtain ⟨upcoming, hnext, h⟩ := bind_eq_ok_iff.1 h
    cases upcoming with
    | done after =>
      cases h
      exact .done hnext
    | more start =>
      obtain ⟨⟨name, between⟩, hname, h⟩ := bind_eq_ok_iff.1 h
      obtain ⟨behind, hcolon, h⟩ := bind_eq_ok_iff.1 h
      obtain ⟨⟨w, after⟩, hw, h⟩ := bind_eq_ok_iff.1 h
      obtain ⟨⟨gs, rest'⟩, hgs, h⟩ := bind_eq_ok_iff.1 h
      cases h
      exact .more hnext hname hcolon (readPrefix_of_readValue hw) (ih hgs)

/-- What stands behind a field is shorter than what stood before it. -/
theorem length_of_field {first : Bool} {start between behind after : Bytes} {name : String}
    (hnext : nextField first input = .ok (.more start))
    (hname : readText start = .ok (name, between)) (hcolon : readColon between = .ok behind)
    (hvalue : Value.readPrefix room behind = .ok (v, after)) :
    behind.length < input.length ∧ after.length < input.length := by
  have hstart := length_of_nextField hnext
  have hbetween := readText_shortens hname
  have hbehind := length_of_readColon hcolon
  have hafter := ((readers_settled behind).1 hvalue).1
  omega

/-- Further fields that stand there one after the other are read, with every bound that is as long
as the input. -/
theorem readFields_of_fieldsRead {first : Bool} {fs : List (String × Value)}
    (h : FieldsRead room first input fs rest) (hfirst : first = false)
    (hbound : input.length ≤ bound.length) : readFields bound room input = .ok (fs, rest) := by
  induction h generalizing bound with
  | done hnext =>
    subst hfirst
    obtain ⟨b, bound, rfl⟩ := List.exists_cons_of_length_pos
      (Nat.lt_of_lt_of_le (Nat.zero_lt_of_lt (length_of_nextField_done hnext)) hbound)
    exact bind_eq_ok_iff.2 ⟨_, hnext, rfl⟩
  | more hnext hname hcolon hvalue hrest ih =>
    subst hfirst
    obtain ⟨hbehind, hafter⟩ := length_of_field hnext hname hcolon hvalue
    obtain ⟨b, bound, rfl⟩ := List.exists_cons_of_length_pos (show 0 < bound.length by omega)
    rw [List.length_cons] at hbound
    exact bind_eq_ok_iff.2 ⟨_, hnext, bind_eq_ok_iff.2 ⟨_, hname, bind_eq_ok_iff.2 ⟨_, hcolon,
      bind_eq_ok_iff.2 ⟨_, readValue_of_readPrefix hvalue (by omega), bind_eq_ok_iff.2
        ⟨_, ih rfl (by omega), rfl⟩⟩⟩⟩⟩

/-- An object is read field by field. -/
theorem readPrefix_object_iff (hspace : skipSpace input = openBrace :: tail) :
    Value.readPrefix (room + 1) input = .ok (v, rest) ↔
      ∃ fs, FieldsRead room true tail fs rest ∧ v = .object fs := by
  have hquote : ¬ openBrace = quote := by decide
  have hbracket : ¬ openBrace = openBracket := by decide
  have hshorter := length_lt_of_skipSpace hspace
  cases input with
  | nil => cases hspace
  | cons b input =>
    rw [List.length_cons, Nat.lt_succ_iff] at hshorter
    unfold Value.readPrefix
    rw [readValue]
    simp only [hspace, hquote, hbracket, if_false, if_true]
    constructor
    · intro h
      obtain ⟨inner, hopen, h⟩ := bind_eq_ok_iff.1 h
      cases hopen
      obtain ⟨upcoming, hnext, h⟩ := bind_eq_ok_iff.1 h
      cases upcoming with
      | done after =>
        cases h
        exact ⟨[], .done hnext, rfl⟩
      | more start =>
        obtain ⟨⟨name, between⟩, hname, h⟩ := bind_eq_ok_iff.1 h
        obtain ⟨behind, hcolon, h⟩ := bind_eq_ok_iff.1 h
        obtain ⟨⟨w, after⟩, hw, h⟩ := bind_eq_ok_iff.1 h
        obtain ⟨⟨gs, rest'⟩, hgs, h⟩ := bind_eq_ok_iff.1 h
        cases h
        exact ⟨_, .more hnext hname hcolon (readPrefix_of_readValue hw)
          (fieldsRead_of_readFields hgs), rfl⟩
    · rintro ⟨fs, hfs, rfl⟩
      cases hfs with
      | done hnext => exact bind_eq_ok_iff.2 ⟨_, rfl, bind_eq_ok_iff.2 ⟨_, hnext, rfl⟩⟩
      | more hnext hname hcolon hvalue hrest =>
        obtain ⟨hbehind, hafter⟩ := length_of_field hnext hname hcolon hvalue
        exact bind_eq_ok_iff.2 ⟨_, rfl, bind_eq_ok_iff.2 ⟨_, hnext, bind_eq_ok_iff.2 ⟨_, hname,
          bind_eq_ok_iff.2 ⟨_, hcolon, bind_eq_ok_iff.2
            ⟨_, readValue_of_readPrefix hvalue (by omega), bind_eq_ok_iff.2
              ⟨_, readFields_of_fieldsRead hrest rfl (by dsimp only; omega), rfl⟩⟩⟩⟩⟩⟩

end

end DurableKV.Json
