import DurableKV.Json.Reader
import DurableKV.Proofs.Json.Number

/-!
# Written values and how they are read

`Value.reread` is what the reader makes of a written value: the same value, except that every number
in it is read as `Number.reread` says.

* `readValue_chars`: the reader takes exactly the written value off its input, provided that as many
  arrays and objects may be opened as are nested in it (`Value.depth`).
* `reread_eq_self_iff`: a value is read back as itself exactly if all its numbers are.

The proof of `readValue_chars` goes over the value, with a statement for the rest of an array and of
an object beside the one for values; the bound of the reader only has to be as long as its input.
-/

namespace DurableKV.Json

/-! ## Nesting and numbers of a value -/

namespace Value

mutual

/-- How many arrays and objects are open at once when the value is written. -/
def depth : Value → Nat
  | .array items => itemsDepth items + 1
  | .object fields => fieldsDepth fields + 1
  | _ => 0

/-- The greatest depth among items. -/
def itemsDepth : List Value → Nat
  | [] => 0
  | v :: vs => max v.depth (itemsDepth vs)

/-- The greatest depth among the values of fields. -/
def fieldsDepth : List (String × Value) → Nat
  | [] => 0
  | (_, v) :: fs => max v.depth (fieldsDepth fs)

end

mutual

/-- The numbers in a value, in the order in which they are written. -/
def numbers : Value → List Number
  | .number n => [n]
  | .array items => itemsNumbers items
  | .object fields => fieldsNumbers fields
  | _ => []

/-- The numbers in items. -/
def itemsNumbers : List Value → List Number
  | [] => []
  | v :: vs => v.numbers ++ itemsNumbers vs

/-- The numbers in the values of fields. -/
def fieldsNumbers : List (String × Value) → List Number
  | [] => []
  | (_, v) :: fs => v.numbers ++ fieldsNumbers fs

end

mutual

/-- What the reader makes of a written value. -/
def reread : Value → Except ReadError Value
  | .null => .ok .null
  | .bool b => .ok (.bool b)
  | .number n => n.reread.map .number
  | .string s => .ok (.string s)
  | .array items => (rereadItems items).map .array
  | .object fields => (rereadFields fields).map .object

/-- What the reader makes of written items. -/
def rereadItems : List Value → Except ReadError (List Value)
  | [] => .ok []
  | v :: vs => do
    let w ← v.reread
    let ws ← rereadItems vs
    .ok (w :: ws)

/-- What the reader makes of written fields. -/
def rereadFields : List (String × Value) → Except ReadError (List (String × Value))
  | [] => .ok []
  | (k, v) :: fs => do
    let w ← v.reread
    let gs ← rereadFields fs
    .ok ((k, w) :: gs)

end

end Value

/-! ## Where a value begins -/

/-- A byte with which a value may begin. -/
def StartByte (b : UInt8) : Prop := ¬ isSpace b ∧ b ≠ closeBracket

/-- No space is skipped in front of a byte that is none. -/
theorem skipSpace_cons {b : UInt8} (hb : ¬ isSpace b) (rest : Bytes) :
    skipSpace (b :: rest) = b :: rest := by
  rw [skipSpace, List.dropWhile_cons_of_neg hb]

/-- A digit is no space. -/
theorem not_isSpace_of_isDigit {b : UInt8} (h : isDigit b) : ¬ isSpace b := by
  simp only [isDigit, Bool.and_eq_true, decide_eq_true_eq, UInt8.le_iff_toNat_le] at h
  intro hs
  simp only [isSpace, Bool.or_eq_true, beq_iff_eq] at hs
  rcases hs with ((rfl | rfl) | rfl) | rfl <;> exact absurd h.1 (by decide)

/-- A digit is none of the other bytes. -/
theorem ne_of_isDigit {b c : UInt8} (h : isDigit b) (hc : ¬ isDigit c) : b ≠ c := by
  rintro rfl
  exact hc h

/-- A written number begins with a minus sign or a digit. -/
theorem ofChars_number (n : Number) :
    ∃ b bs, Bytes.ofChars n.chars = b :: bs ∧ (b = minus ∨ isDigit b) := by
  obtain ⟨negative, m, hm, hchars, -, -⟩ := exists_numeral n
  obtain ⟨c, cs, hwhole⟩ := List.exists_cons_of_ne_nil hm.whole_ne
  have hc : c.isDigit := hm.whole_digits c (by rw [hwhole]; exact List.mem_cons_self)
  rw [hchars]
  cases negative with
  | true => exact ⟨minus, Bytes.ofChars m.chars, rfl, Or.inl rfl⟩
  | false =>
    refine ⟨UInt8.ofNat c.toNat, Bytes.ofChars (cs ++ (m.fractionChars ++ m.exponentChars)), ?_,
      Or.inr (isDigit_ofNat hc)⟩
    rw [if_neg Bool.false_ne_true, List.nil_append, Numeral.chars, hwhole, List.cons_append,
      ofChars_digit_cons hc]

/-- A text that begins with an ASCII character begins with its byte. -/
theorem ofChars_head {c : Char} (hc : c.toNat < 0x80) (cs : List Char) :
    Bytes.ofChars (c :: cs) = UInt8.ofNat c.toNat :: Bytes.ofChars cs := by
  rw [Bytes.ofChars_cons, Bytes.utf8EncodeChar_of_lt hc]
  rfl

/-- The text of a value begins with a byte that a value can begin with. -/
theorem ofChars_value (v : Value) : ∃ b bs, Bytes.ofChars v.chars = b :: bs ∧ StartByte b := by
  cases v with
  | null => exact ⟨0x6E, _, rfl, by decide, by decide⟩
  | bool b => cases b <;> exact ⟨_, _, rfl, by decide, by decide⟩
  | number n =>
    obtain ⟨b, bs, hb, hstart⟩ := ofChars_number n
    refine ⟨b, bs, by rw [Value.chars, hb], ?_⟩
    rcases hstart with rfl | hdigit
    · exact ⟨by decide, by decide⟩
    · exact ⟨not_isSpace_of_isDigit hdigit, ne_of_isDigit hdigit (by decide)⟩
  | string s =>
    rw [Value.chars, ofChars_quotedChars]
    exact ⟨_, _, rfl, by decide, by decide⟩
  | array items =>
    rw [Value.chars, List.cons_append, ofChars_head (by decide)]
    exact ⟨_, _, rfl, by decide, by decide⟩
  | object fields =>
    rw [Value.chars, List.cons_append, ofChars_head (by decide)]
    exact ⟨_, _, rfl, by decide, by decide⟩

/-! ## Items and fields -/

/-- What is written after an item: the other items, each behind a comma. -/
def itemTail : List Value → List Char
  | [] => []
  | v :: vs => ',' :: Value.itemChars (v :: vs)

/-- What is written after a field: the other fields, each behind a comma. -/
def fieldTail : List (String × Value) → List Char
  | [] => []
  | f :: fs => ',' :: Value.fieldChars (f :: fs)

/-- The text of some items is that of the first and those of the others, each after a comma. -/
theorem itemChars_cons (v : Value) (vs : List Value) :
    Value.itemChars (v :: vs) = v.chars ++ itemTail vs := by
  cases vs <;> simp [Value.itemChars, itemTail]

/-- The text of some members is that of the first and those of the others, each after a comma. -/
theorem fieldChars_cons (k : String) (v : Value) (fs : List (String × Value)) :
    Value.fieldChars ((k, v) :: fs) = quotedChars k ++ ':' :: (v.chars ++ fieldTail fs) := by
  cases fs <;> simp [Value.fieldChars, fieldTail]

/-- A closing bracket ends the items. -/
theorem nextItem_close (first : Bool) (rest : Bytes) :
    nextItem first (closeBracket :: rest) = .ok (.done rest) := by
  cases first <;> rfl

/-- The first item of an array stands after the bracket. -/
theorem nextItem_first {b : UInt8} (hb : StartByte b) (rest : Bytes) :
    nextItem true (b :: rest) = .ok (.more (b :: rest)) := by
  simp [nextItem, skipSpace_cons hb.1, hb.2]

/-- Another item of an array stands after a comma. -/
theorem nextItem_comma {b : UInt8} (hb : StartByte b) (rest : Bytes) :
    nextItem false (comma :: b :: rest) = .ok (.more (b :: rest)) := by
  have hcomma : comma ≠ closeBracket := by decide
  simp [nextItem, skipSpace_cons (show ¬ isSpace comma by decide), skipSpace_cons hb.1, hb.2,
    hcomma]

/-- A closing brace ends the members. -/
theorem nextField_close (first : Bool) (rest : Bytes) :
    nextField first (closeBrace :: rest) = .ok (.done rest) := by
  cases first <;> rfl

/-- The first member of an object stands after the brace. -/
theorem nextField_first (rest : Bytes) : nextField true (quote :: rest) = .ok (.more rest) := rfl

/-- Another member of an object stands after a comma. -/
theorem nextField_comma (rest : Bytes) :
    nextField false (comma :: quote :: rest) = .ok (.more rest) := rfl

/-- A colon is read where one is due. -/
theorem readColon_colon (rest : Bytes) : readColon (colon :: rest) = .ok rest := rfl

/-- A comma or a closing bracket or brace ends a number. -/
theorem numberEnd_of_ne {b : UInt8} (h : b = comma ∨ b = closeBracket ∨ b = closeBrace)
    (rest : Bytes) : NumberEnd (b :: rest) := by
  intro c hc
  cases hc
  rcases h with rfl | rfl | rfl <;> decide

/-- A number in an array ends where the items after it begin. -/
theorem numberEnd_itemTail (vs : List Value) (rest : Bytes) :
    NumberEnd (Bytes.ofChars (itemTail vs) ++ closeBracket :: rest) := by
  cases vs with
  | nil => exact numberEnd_of_ne (Or.inr (Or.inl rfl)) rest
  | cons v vs =>
    rw [itemTail, ofChars_head (by decide)]
    exact numberEnd_of_ne (Or.inl rfl) _

/-- A number in an object ends where the members after it begin. -/
theorem numberEnd_fieldTail (fs : List (String × Value)) (rest : Bytes) :
    NumberEnd (Bytes.ofChars (fieldTail fs) ++ closeBrace :: rest) := by
  cases fs with
  | nil => exact numberEnd_of_ne (Or.inr (Or.inr rfl)) rest
  | cons f fs =>
    rw [fieldTail, ofChars_head (by decide)]
    exact numberEnd_of_ne (Or.inl rfl) _

/-! ## Reading what was written -/

/-- A value that begins with a minus sign or a digit is read as a number. -/
theorem readValue_number (x : UInt8) (bound : Bytes) (room : Nat) {b : UInt8}
    (hb : b = minus ∨ isDigit b) (bs : Bytes) :
    readValue (x :: bound) room (b :: bs) =
      (readNumber (b :: bs)).map fun r => (.number r.1, r.2) := by
  have hspace : ¬ isSpace b := by
    rcases hb with rfl | h
    · decide
    · exact not_isSpace_of_isDigit h
  have hne : ∀ c : UInt8, c ≠ minus → ¬ isDigit c → b ≠ c := by
    intro c hminus hdigit
    rcases hb with rfl | h
    · exact hminus.symm
    · exact ne_of_isDigit h hdigit
  simp only [readValue, skipSpace_cons hspace, hne quote (by decide) (by decide),
    hne openBracket (by decide) (by decide), hne openBrace (by decide) (by decide), hb, if_false,
    if_true]
  cases readNumber (b :: bs) <;> rfl

/-- A quoted string is read as the string. -/
theorem readValue_text (x : UInt8) (bound : Bytes) (room : Nat) (s : String) (rest : Bytes) :
    readValue (x :: bound) room (Bytes.ofChars (quotedChars s) ++ rest) =
      .ok (.string s, rest) := by
  rw [ofChars_quotedChars]
  simp only [List.cons_append, List.append_assoc, List.nil_append, readValue,
    skipSpace_cons (show ¬ isSpace quote by decide), if_true, readText_quoted]
  rfl

/-- A value that begins with a bracket is read as an array, item by item. -/
theorem readValue_array (x : UInt8) (bound : Bytes) (room : Nat) (rest : Bytes) :
    readValue (x :: bound) (room + 1) (openBracket :: rest) = (do
      match ← nextItem true rest with
      | .done rest => .ok (.array [], rest)
      | .more input => do
        let (v, rest) ← readValue bound room input
        let (vs, rest) ← readItems bound room rest
        .ok (.array (v :: vs), rest)) :=
  rfl

/-- A value that begins with a brace is read as an object, member by member. -/
theorem readValue_object (x : UInt8) (bound : Bytes) (room : Nat) (rest : Bytes) :
    readValue (x :: bound) (room + 1) (openBrace :: rest) = (do
      match ← nextField true rest with
      | .done rest => .ok (.object [], rest)
      | .more input => do
        let (name, rest) ← readText input
        let rest ← readColon rest
        let (v, rest) ← readValue bound room rest
        let (fs, rest) ← readFields bound room rest
        .ok (.object ((name, v) :: fs), rest)) :=
  rfl

/-- The bytes of the items that follow are a comma, those of the first and those of the others. -/
theorem ofChars_itemTail_cons (v : Value) (vs : List Value) (rest : Bytes) :
    Bytes.ofChars (itemTail (v :: vs)) ++ closeBracket :: rest =
      comma ::
        (Bytes.ofChars v.chars ++ (Bytes.ofChars (itemTail vs) ++ closeBracket :: rest)) := by
  rw [itemTail, ofChars_head (by decide), itemChars_cons, Bytes.ofChars_append, List.cons_append,
    List.append_assoc]
  rfl

/-- The bytes of a field from its name on. -/
theorem ofChars_field (k : String) (v : Value) (cs : List Char) :
    Bytes.ofChars (quotedChars k ++ ':' :: (v.chars ++ cs)) =
      quote :: (Bytes.ofChars (k.toList.flatMap escaped) ++
        quote :: colon :: (Bytes.ofChars v.chars ++ Bytes.ofChars cs)) := by
  rw [Bytes.ofChars_append, ofChars_quotedChars, ofChars_head (by decide), Bytes.ofChars_append]
  simp only [List.cons_append, List.append_assoc, List.nil_append]
  rfl

/-- The bytes of the members that follow are a comma, the name and the value of the first and those
of the others. -/
theorem ofChars_fieldTail_cons (k : String) (v : Value) (fs : List (String × Value))
    (rest : Bytes) :
    Bytes.ofChars (fieldTail ((k, v) :: fs)) ++ closeBrace :: rest =
      comma :: quote :: (Bytes.ofChars (k.toList.flatMap escaped) ++
        quote :: colon :: (Bytes.ofChars v.chars ++
          (Bytes.ofChars (fieldTail fs) ++ closeBrace :: rest))) := by
  rw [fieldTail, ofChars_head (by decide), fieldChars_cons, ofChars_field]
  simp only [List.cons_append, List.append_assoc]
  rfl

/-- The bytes of an array that is not empty are a bracket, those of its first item and those of the
others. -/
theorem ofChars_array_cons (v : Value) (vs : List Value) (rest : Bytes) :
    Bytes.ofChars (Value.array (v :: vs)).chars ++ rest =
      openBracket ::
        (Bytes.ofChars v.chars ++ (Bytes.ofChars (itemTail vs) ++ closeBracket :: rest)) := by
  rw [Value.chars, itemChars_cons, List.cons_append, ofChars_head (by decide)]
  simp only [Bytes.ofChars_append, List.cons_append, List.append_assoc]
  rfl

/-- The bytes of an object that is not empty are a brace, the name and the value of its first member
and those of the others. -/
theorem ofChars_object_cons (k : String) (v : Value) (fs : List (String × Value)) (rest : Bytes) :
    Bytes.ofChars (Value.object ((k, v) :: fs)).chars ++ rest =
      openBrace :: quote :: (Bytes.ofChars (k.toList.flatMap escaped) ++
        quote :: colon :: (Bytes.ofChars v.chars ++
          (Bytes.ofChars (fieldTail fs) ++ closeBrace :: rest))) := by
  rw [Value.chars, List.cons_append, ofChars_head (by decide), Bytes.ofChars_append,
    fieldChars_cons, ofChars_field]
  simp only [List.cons_append, List.append_assoc]
  rfl

/-- An item takes one byte more than its own text off the input. -/
theorem length_le_of_item {c x : UInt8} {item tail bound : Bytes}
    (h : (c :: (item ++ tail)).length ≤ (x :: bound).length) :
    (item ++ tail).length ≤ bound.length ∧ tail.length ≤ bound.length := by
  simp only [List.length_cons, List.length_append] at h ⊢
  omega

/-- A field takes more than the text of its value off the input. -/
theorem length_le_of_field {c x : UInt8} {name value tail bound : Bytes}
    (h : (c :: quote :: (name ++ quote :: colon :: (value ++ tail))).length ≤
      (x :: bound).length) :
    (value ++ tail).length ≤ bound.length ∧ tail.length ≤ bound.length := by
  simp only [List.length_cons, List.length_append] at h ⊢
  omega

section

variable {α : Type} {bound input between rest : Bytes} {room : Nat} {v : Value}

/-- An item and the items behind it, read one after the other. -/
theorem readItem_chars {vs : List Value}
    (hv : readValue bound room input = v.reread.map fun w => (w, between))
    (hvs : readItems bound room between = (Value.rereadItems vs).map fun ws => (ws, rest))
    (make : List Value → α) :
    (do
      let (w, after) ← readValue bound room input
      let (ws, after) ← readItems bound room after
      .ok (make (w :: ws), after)) =
      (Value.rereadItems (v :: vs)).map fun ws => (make ws, rest) := by
  simp only [bind, Except.bind, hv]
  rw [Value.rereadItems]
  cases v.reread with
  | error e => rfl
  | ok w =>
    simp only [Except.map, hvs, bind, Except.bind]
    cases Value.rereadItems vs <;> rfl

/-- A field from its name on and the fields behind it, read one after the other. -/
theorem readField_chars {fs : List (String × Value)}
    (hv : readValue bound room input = v.reread.map fun w => (w, between))
    (hfs : readFields bound room between = (Value.rereadFields fs).map fun gs => (gs, rest))
    (make : List (String × Value) → α) (k : String) :
    (do
      let (name, after) ←
        readText (Bytes.ofChars (k.toList.flatMap escaped) ++ quote :: colon :: input)
      let after ← readColon after
      let (w, after) ← readValue bound room after
      let (gs, after) ← readFields bound room after
      .ok (make ((name, w) :: gs), after)) =
      (Value.rereadFields ((k, v) :: fs)).map fun gs => (make gs, rest) := by
  simp only [bind, Except.bind, readText_quoted, readColon_colon, hv]
  rw [Value.rereadFields]
  cases v.reread with
  | error e => rfl
  | ok w =>
    simp only [Except.map, hfs, bind, Except.bind]
    cases Value.rereadFields fs <;> rfl

end

mutual

/-- **A written value is taken off the input**, whatever follows it. -/
theorem readValue_chars (v : Value) {room : Nat} (hdepth : v.depth ≤ room) {rest : Bytes}
    (hrest : NumberEnd rest) {bound : Bytes}
    (hbound : (Bytes.ofChars v.chars ++ rest).length ≤ bound.length) :
    readValue bound room (Bytes.ofChars v.chars ++ rest) = v.reread.map fun w => (w, rest) := by
  obtain ⟨b, bs, hv, hstart⟩ := ofChars_value v
  cases bound with
  | nil =>
    rw [hv] at hbound
    simp at hbound
  | cons x bound =>
    cases v with
    | null => rfl
    | bool b => cases b <;> rfl
    | number n =>
      obtain ⟨b, bs, hb, hstart⟩ := ofChars_number n
      have hread := readNumber_chars n hrest
      rw [hb, List.cons_append] at hread
      rw [Value.chars, hb, List.cons_append, readValue_number x bound room hstart, hread,
        Value.reread]
      cases n.reread <;> rfl
    | string s => exact readValue_text x bound room s rest
    | array items =>
      obtain ⟨room, rfl⟩ : ∃ r, room = r + 1 :=
        Nat.exists_eq_add_of_le' (Nat.le_trans (Nat.le_add_left 1 _) hdepth)
      cases items with
      | nil => rfl
      | cons v vs =>
        have hdepth : max v.depth (Value.itemsDepth vs) ≤ room := Nat.le_of_succ_le_succ hdepth
        obtain ⟨c, cs, hc, hcstart⟩ := ofChars_value v
        rw [ofChars_array_cons] at hbound ⊢
        obtain ⟨hitem, htail⟩ := length_le_of_item hbound
        have hv := readValue_chars v (Nat.le_trans (Nat.le_max_left _ _) hdepth)
          (numberEnd_itemTail vs rest) hitem
        have hvs := readItems_chars vs (Nat.le_trans (Nat.le_max_right _ _) hdepth) htail
        rw [readValue_array, hc, List.cons_append, nextItem_first hcstart, ← List.cons_append, ← hc]
        refine (readItem_chars hv hvs Value.array).trans ?_
        rw [Value.reread]
        cases Value.rereadItems (v :: vs) <;> rfl
    | object fields =>
      obtain ⟨room, rfl⟩ : ∃ r, room = r + 1 :=
        Nat.exists_eq_add_of_le' (Nat.le_trans (Nat.le_add_left 1 _) hdepth)
      cases fields with
      | nil => rfl
      | cons f fs =>
        obtain ⟨k, v⟩ := f
        have hdepth : max v.depth (Value.fieldsDepth fs) ≤ room := Nat.le_of_succ_le_succ hdepth
        rw [ofChars_object_cons] at hbound ⊢
        obtain ⟨hfield, htail⟩ := length_le_of_field hbound
        have hv := readValue_chars v (Nat.le_trans (Nat.le_max_left _ _) hdepth)
          (numberEnd_fieldTail fs rest) hfield
        have hfs := readFields_chars fs (Nat.le_trans (Nat.le_max_right _ _) hdepth) htail
        rw [readValue_object, nextField_first]
        refine (readField_chars hv hfs Value.object k).trans ?_
        rw [Value.reread]
        cases Value.rereadFields ((k, v) :: fs) <;> rfl

/-- The items behind an item are taken off the input. -/
theorem readItems_chars (vs : List Value) {room : Nat} (hdepth : Value.itemsDepth vs ≤ room)
    {rest bound : Bytes}
    (hbound : (Bytes.ofChars (itemTail vs) ++ closeBracket :: rest).length ≤ bound.length) :
    readItems bound room (Bytes.ofChars (itemTail vs) ++ closeBracket :: rest) =
      (Value.rereadItems vs).map fun ws => (ws, rest) := by
  cases bound with
  | nil => simp at hbound
  | cons x bound =>
    cases vs with
    | nil =>
      show (nextItem false (closeBracket :: rest) >>= fun r => _) = _
      rw [nextItem_close]
      rfl
    | cons v vs =>
      have hdepth : max v.depth (Value.itemsDepth vs) ≤ room := hdepth
      obtain ⟨c, cs, hc, hcstart⟩ := ofChars_value v
      rw [ofChars_itemTail_cons] at hbound ⊢
      obtain ⟨hitem, htail⟩ := length_le_of_item hbound
      have hv := readValue_chars v (Nat.le_trans (Nat.le_max_left _ _) hdepth)
        (numberEnd_itemTail vs rest) hitem
      have hvs := readItems_chars vs (Nat.le_trans (Nat.le_max_right _ _) hdepth) htail
      rw [readItems, hc, List.cons_append, nextItem_comma hcstart, ← List.cons_append, ← hc]
      exact readItem_chars hv hvs id

/-- The fields behind a field are taken off the input. -/
theorem readFields_chars (fs : List (String × Value)) {room : Nat}
    (hdepth : Value.fieldsDepth fs ≤ room) {rest bound : Bytes}
    (hbound : (Bytes.ofChars (fieldTail fs) ++ closeBrace :: rest).length ≤ bound.length) :
    readFields bound room (Bytes.ofChars (fieldTail fs) ++ closeBrace :: rest) =
      (Value.rereadFields fs).map fun gs => (gs, rest) := by
  cases bound with
  | nil => simp at hbound
  | cons x bound =>
    cases fs with
    | nil =>
      show (nextField false (closeBrace :: rest) >>= fun r => _) = _
      rw [nextField_close]
      rfl
    | cons f fs =>
      obtain ⟨k, v⟩ := f
      have hdepth : max v.depth (Value.fieldsDepth fs) ≤ room := hdepth
      rw [ofChars_fieldTail_cons] at hbound ⊢
      obtain ⟨hfield, htail⟩ := length_le_of_field hbound
      have hv := readValue_chars v (Nat.le_trans (Nat.le_max_left _ _) hdepth)
        (numberEnd_fieldTail fs rest) hfield
      have hfs := readFields_chars fs (Nat.le_trans (Nat.le_max_right _ _) hdepth) htail
      rw [readFields, nextField_comma]
      exact readField_chars hv hfs id k

end

/-! ## Values that are read back as themselves -/

/-- Two steps one after the other succeed if the first does and the second does with its result. -/
theorem bind_eq_ok_iff {ε α β : Type} {x : Except ε α} {f : α → Except ε β} {b : β} :
    x >>= f = .ok b ↔ ∃ a, x = .ok a ∧ f a = .ok b := by
  cases x with
  | error e =>
    constructor
    · intro h
      cases h
    · rintro ⟨a, h, -⟩
      cases h
  | ok a =>
    constructor
    · intro h
      exact ⟨a, rfl, h⟩
    · rintro ⟨a', h, hf⟩
      cases h
      exact hf

/-- A step succeeds under another name for its errors if it succeeds. -/
theorem mapError_eq_ok_iff {ε ε' α : Type} {x : Except ε α} {f : ε → ε'} {a : α} :
    x.mapError f = .ok a ↔ x = .ok a := by
  cases x with
  | error e =>
    constructor
    · intro h
      cases h
    · intro h
      cases h
  | ok b =>
    constructor
    · intro h
      cases h
      rfl
    · intro h
      cases h
      rfl

/-- A result that is mapped is that of a step that succeeded. -/
theorem map_eq_ok_iff {ε α β : Type} {x : Except ε α} {f : α → β} {b : β} :
    x.map f = .ok b ↔ ∃ a, x = .ok a ∧ f a = b := by
  cases x <;> simp [Except.map]

mutual

/-- A value is read back as itself exactly if all its numbers are. -/
theorem reread_eq_self_iff : (v : Value) →
    (v.reread = .ok v ↔ ∀ n ∈ v.numbers, n.reread = .ok n)
  | .null => by simp [Value.reread, Value.numbers]
  | .bool _ => by simp [Value.reread, Value.numbers]
  | .string _ => by simp [Value.reread, Value.numbers]
  | .number n => by simp [Value.reread, Value.numbers, map_eq_ok_iff]
  | .array items => by
    rw [Value.reread, map_eq_ok_iff, Value.numbers, ← rereadItems_eq_self_iff items]
    simp
  | .object fields => by
    rw [Value.reread, map_eq_ok_iff, Value.numbers, ← rereadFields_eq_self_iff fields]
    simp

/-- Items are read back as themselves exactly if all their numbers are. -/
theorem rereadItems_eq_self_iff : (vs : List Value) →
    (Value.rereadItems vs = .ok vs ↔ ∀ n ∈ Value.itemsNumbers vs, n.reread = .ok n)
  | [] => by simp [Value.rereadItems, Value.itemsNumbers]
  | v :: vs => by
    simp only [Value.rereadItems, bind_eq_ok_iff, Value.itemsNumbers, List.forall_mem_append,
      ← reread_eq_self_iff v, ← rereadItems_eq_self_iff vs]
    constructor
    · rintro ⟨w, hw, ws, hws, h⟩
      cases h
      exact ⟨hw, hws⟩
    · rintro ⟨hw, hws⟩
      exact ⟨v, hw, vs, hws, rfl⟩

/-- Fields are read back as themselves exactly if all their numbers are. -/
theorem rereadFields_eq_self_iff : (fs : List (String × Value)) →
    (Value.rereadFields fs = .ok fs ↔ ∀ n ∈ Value.fieldsNumbers fs, n.reread = .ok n)
  | [] => by simp [Value.rereadFields, Value.fieldsNumbers]
  | (k, v) :: fs => by
    simp only [Value.rereadFields, bind_eq_ok_iff, Value.fieldsNumbers, List.forall_mem_append,
      ← reread_eq_self_iff v, ← rereadFields_eq_self_iff fs]
    constructor
    · rintro ⟨w, hw, gs, hgs, h⟩
      cases h
      exact ⟨hw, hgs⟩
    · rintro ⟨hw, hgs⟩
      exact ⟨v, hw, fs, hgs, rfl⟩

end

end DurableKV.Json
