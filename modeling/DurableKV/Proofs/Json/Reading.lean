import DurableKV.Json.Reading
import DurableKV.Proofs.Json.RoundTrip

/-!
# What readings give

One lemma for each way in which a reading of the library takes something in: numbers and lists here
and there, and the fields of a record, from a value (`objectFromValue_field`) and from text
(`objectFromText_field`). Where a field stands in the declared order is followed by
`readNamed?_self` and `readNamed?_other`, one field at a time, so that a record is read field by
field whatever the kinds of its fields are.
-/

namespace DurableKV.Json

namespace Reading

variable {α β : Type}

/-! ## Numbers and lists -/

/-- What is read of a value is mapped. -/
theorem fromValue_map (f : α → β) (r : Reading α) (v : Value) :
    (r.map f).fromValue v = (r.fromValue v).map f :=
  rfl

/-- A natural number of that many bits is read as itself. -/
theorem natOfNumber_nat {bits n : Nat} (h : n < Nat.pow 2 bits) :
    natOfNumber bits (.int n) = .ok n := by
  have hn : (0 : Int) ≤ n ∧ (n : Int) < Nat.pow 2 bits :=
    ⟨Int.natCast_nonneg n, Int.ofNat_lt.2 h⟩
  rw [natOfNumber, if_pos hn, Int.toNat_natCast]

/-- The value of a natural number of that many bits is read as the number. -/
theorem fromValue_nat {bits n : Nat} (h : n < Nat.pow 2 bits) :
    (nat bits).fromValue (.ofNat n) = .ok n :=
  natOfNumber_nat h

/-- The value of a word is read as the word. -/
theorem fromValue_word64 (n : UInt64) : word64.fromValue (.ofWord n) = .ok n := by
  rw [word64, fromValue_map, Value.ofWord, fromValue_nat n.toNat_lt, Except.map, UInt64.ofNat_toNat]

/-- What is read of a text is mapped. -/
theorem fromText_map {f : α → β} {r : Reading α} {room : Nat} {input rest : Bytes} {x : α}
    (h : r.fromText room input = .ok (x, rest)) :
    (r.map f).fromText room input = .ok (f x, rest) := by
  show (r.fromText room input >>= fun p => Except.ok (f p.1, p.2)) = _
  rw [h]
  rfl

/-- The text of a natural number of that many bits is read as the number. -/
theorem fromText_nat {bits n : Nat} (hbits : n < Nat.pow 2 bits) (hn : n < UInt64.size) (room : Nat)
    {rest : Bytes} (hrest : NumberEnd rest) :
    (nat bits).fromText room (Bytes.ofChars (Value.ofNat n).chars ++ rest) = .ok (n, rest) := by
  obtain ⟨b, bs, hb, hstart⟩ := ofChars_number (.int n)
  have hspace : ¬ isSpace b := by
    rcases hstart with rfl | hdigit
    · decide
    · exact not_isSpace_of_isDigit hdigit
  have hread : readNumber (Bytes.ofChars (Number.int n).chars ++ rest) = .ok (.int n, rest) := by
    rw [readNumber_chars _ hrest, reread_int (by omega) (Int.ofNat_lt.2 hn)]
    rfl
  rw [Value.ofNat, Value.chars]
  rw [hb, List.cons_append] at hread ⊢
  simp only [nat, skipSpace_cons hspace, hstart, if_true, hread, bind, Except.bind,
    natOfNumber_nat hbits]

/-- The text of a word is read as the word. -/
theorem fromText_word64 (n : UInt64) (room : Nat) {rest : Bytes} (hrest : NumberEnd rest) :
    word64.fromText room (Bytes.ofChars (Value.ofWord n).chars ++ rest) = .ok (n, rest) := by
  have h := fromText_map (f := UInt64.ofNat)
    (fromText_nat (show n.toNat < Nat.pow 2 64 from n.toNat_lt) n.toNat_lt_size room hrest)
  rwa [UInt64.ofNat_toNat] at h

/-- The text of a word of 32 bits is read as the word. -/
theorem fromText_word32 (n : UInt32) (room : Nat) {rest : Bytes} (hrest : NumberEnd rest) :
    word32.fromText room (Bytes.ofChars (Value.ofNat n.toNat).chars ++ rest) = .ok (n, rest) := by
  have hn : n.toNat < UInt64.size := Nat.lt_trans n.toNat_lt (by decide)
  have h := fromText_map (f := UInt32.ofNat)
    (fromText_nat (show n.toNat < Nat.pow 2 32 from n.toNat_lt) hn room hrest)
  rwa [UInt32.ofNat_toNat] at h

/-- The array of the values of some things is read as those things, if each of the values is read as
its own. -/
theorem fromValue_list {r : Reading α} {f : α → Value} (h : ∀ x, r.fromValue (f x) = .ok x)
    (xs : List α) : r.list.fromValue (.array (xs.map f)) = .ok xs := by
  show (xs.map f).mapM r.fromValue = .ok xs
  induction xs with
  | nil => rfl
  | cons x xs ih =>
    rw [List.map_cons, List.mapM_cons, h x, ih]
    rfl

end Reading

/-! ## Fields of a record -/

namespace Fields

variable {α : Type} {αs : List Type} {ι ο : Type}
  {get : {α : Type} → Reading α → ι → Except ReadError (α × ο)}

/-- A member with the name of the first field is read into it. -/
theorem readNamed?_self {name : String} {r : Reading α} {default : Option α} {others : Fields αs}
    {draft : Draft αs} {input : ι} {result : Except ReadError (α × ο)} (h : get r input = result) :
    (cons name r default others).readNamed? get name input (none, draft) =
      some (result.map fun p => ((some p.1, draft), p.2)) := by
  cases h
  simp only [readNamed?, if_true]
  cases get r input <;> rfl

/-- A member with another name than that of the first field is read into the others. -/
theorem readNamed?_other {fieldName name : String} (hne : fieldName ≠ name) {r : Reading α}
    {default : Option α} {others : Fields αs} {held : Option α} {draft : Draft αs} {input : ι}
    {result : Except ReadError (Draft αs × ο)}
    (h : others.readNamed? get name input draft = some result) :
    (cons fieldName r default others).readNamed? get name input (held, draft) =
      some (result.map fun p => ((held, p.1), p.2)) := by
  simp only [readNamed?, if_neg hne, h]
  cases result <;> rfl

/-! ### From a value -/

/-- How the value of a field is read that has been read before as a value. -/
def getValue {α : Type} (r : Reading α) (v : Value) : Except ReadError (α × Unit) := do
  let x ← r.fromValue v
  .ok (x, ())

/-- A member's value is read by the field it belongs to. -/
theorem getValue_ok {r : Reading α} {v : Value} {x : α} (h : r.fromValue v = .ok x) :
    getValue r v = .ok (x, ()) := by
  rw [getValue, h]
  rfl

/-- A member that a field knows is read into the draft, and the others after it. -/
theorem objectFromValue_field {fields : Fields αs} {draft draft' : Draft αs} {name : String}
    {v : Value} (h : fields.readNamed? getValue name v draft = some (.ok (draft', ())))
    (members : List (String × Value)) :
    fields.objectFromValue draft ((name, v) :: members) =
      fields.objectFromValue draft' members := by
  unfold getValue at h
  rw [objectFromValue, h]
  rfl

/-! ### From text -/

/-- How the value of a field is read that stands behind a colon. -/
def getText (room : Nat) {α : Type} (r : Reading α) (input : Bytes) :
    Except ReadError (α × Bytes) := do
  let input ← readColon input
  r.fromText room input

/-- The text of a member is read after the colon. -/
theorem getText_colon (room : Nat) (r : Reading α) (input : Bytes) :
    getText room r (colon :: input) = r.fromText room input :=
  rfl

/-- What stands in front of a field: nothing for the first, a comma for the others. -/
def separator (first : Bool) : Bytes := if first then [] else [comma]

/-- After the separator comes the name of another member. -/
theorem nextField_separator (first : Bool) (rest : Bytes) :
    nextField first (separator first ++ quote :: rest) = .ok (.more rest) := by
  cases first <;> rfl

/-- A field of a record is read as its reading says, and then the others are. -/
theorem objectFromText_field {fields : Fields αs} {room : Nat} {draft : Draft αs} {name : String}
    {rest : Bytes} {result : Except ReadError (Draft αs × Bytes)}
    (h : fields.readNamed? (getText room) name (colon :: rest) draft = some result) (b : UInt8)
    (bound : Bytes) (first : Bool) :
    fields.objectFromText room (b :: bound) first draft
        (separator first ++ quote :: (Bytes.ofChars (name.toList.flatMap escaped) ++
          quote :: colon :: rest)) =
      result >>= fun p => fields.objectFromText room bound false p.1 p.2 := by
  rw [objectFromText, nextField_separator]
  unfold getText at h
  simp only [bind, Except.bind] at h ⊢
  rw [readText_quoted]
  dsimp only
  rw [h]

/-- The text of a member that a field knows is read into the draft, and the others after it. -/
theorem objectFromText_field_ok {fields : Fields αs} {room : Nat} {draft draft' : Draft αs}
    {name : String} {rest rest' : Bytes}
    (h : fields.readNamed? (getText room) name (colon :: rest) draft = some (.ok (draft', rest')))
    (b : UInt8) (bound : Bytes) (first : Bool) :
    fields.objectFromText room (b :: bound) first draft
        (separator first ++ quote :: (Bytes.ofChars (name.toList.flatMap escaped) ++
          quote :: colon :: rest)) =
      fields.objectFromText room bound false draft' rest' :=
  objectFromText_field h b bound first

/-- At the closing brace the draft is what has been read. -/
theorem objectFromText_close (fields : Fields αs) (room : Nat) (draft : Draft αs) (b : UInt8)
    (bound rest : Bytes) (first : Bool) :
    fields.objectFromText room (b :: bound) first draft (closeBrace :: rest) =
      .ok (draft, rest) := by
  rw [objectFromText, nextField_close]
  rfl

end Fields

end DurableKV.Json
