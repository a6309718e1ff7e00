import DurableKV.Log.Record
import DurableKV.Proofs.Entry

/-!
# Records read back

A record holds its entry one object deeper than the entry was decoded at, so it has room for one
array or object less, and its checksum is taken again of the entry that is read. `Entry.Lasting`
says what an entry needs to survive that: it is not nested too deep for a record, and all its
numbers are read back as themselves.

* `parse_body_iff`: the record of an entry is read back as itself if the entry is lasting, and only
  then. All commands are (`lasting_command`).
* `newline_notMem_body`: a record is one line.
-/

namespace DurableKV

open Json

namespace Entry

/-- An entry that outlasts being written to a log: one more object around it still leaves room for
all that is nested in it, and every number in it is read back as itself. -/
structure Lasting (e : Entry) : Prop where
  /-- There is room for the entry inside a record. -/
  depth_lt : e.toValue.depth < nestingLimit
  /-- The numbers of the entry are read back as themselves. -/
  reread_numbers : ∀ n ∈ e.toValue.numbers, n.reread = .ok n

/-- A command is read back from its record: it is nested less deeply than the reader allows, and its
numbers are whole. -/
theorem lasting_command (c : Command) : Lasting (.command c) where
  depth_lt := Nat.lt_of_le_of_lt c.depth_toValue_le (by decide)
  reread_numbers := c.reread_numbers

/-- What an entry is read as inside a record. -/
theorem fromText_toValue_eq_ok_iff (e : Entry) {room : Nat} {rest : Bytes}
    (hrest : NumberEnd rest) {e' : Entry} {after : Bytes} :
    reading.fromText room (Bytes.ofChars e.toValue.chars ++ rest) = .ok (e', after) ↔
      e.toValue.depth ≤ room ∧ after = rest ∧
        ∃ w, e.toValue.reread = .ok w ∧ ofValue w.canonical = .ok e' := by
  have hunfold : reading.fromText room (Bytes.ofChars e.toValue.chars ++ rest) =
      (Value.readPrefix room (Bytes.ofChars e.toValue.chars ++ rest) >>= fun p =>
        (ofValue p.1.canonical).mapError (fun e => .refused e.message) >>= fun e' =>
          .ok (e', p.2)) := by
    show (Value.readPrefix room (Bytes.ofChars e.toValue.chars ++ rest) >>= _) >>= _ = _
    cases Value.readPrefix room (Bytes.ofChars e.toValue.chars ++ rest) <;> rfl
  rw [hunfold, bind_eq_ok_iff]
  constructor
  · rintro ⟨⟨w, between⟩, hread, h⟩
    obtain ⟨y, hy, h⟩ := bind_eq_ok_iff.1 h
    cases h
    obtain ⟨hdepth, hreread, rfl⟩ := (readPrefix_chars_eq_ok_iff e.toValue hrest).1 hread
    exact ⟨hdepth, rfl, w, hreread, mapError_eq_ok_iff.1 hy⟩
  · rintro ⟨hdepth, rfl, w, hreread, hw⟩
    refine ⟨(w, after), (readPrefix_chars_eq_ok_iff e.toValue hrest).2 ⟨hdepth, hreread, rfl⟩, ?_⟩
    exact bind_eq_ok_iff.2 ⟨e', mapError_eq_ok_iff.2 hw, rfl⟩

end Entry

namespace Log.Record

/-! ## The fields of a record -/

/-- The fields of a record in their declared order. -/
def fields : Fields [UInt64, UInt32, Entry] :=
  .cons "seq" .word64 none <| .cons "checksum" .word32 none <|
    .cons "command" Entry.reading none .nil

/-- The text of a record is read member by member. -/
theorem reading_fromText (room : Nat) (rest : Bytes) :
    reading.fromText (room + 1) (openBrace :: rest) =
      (fields.objectFromText room rest true fields.blank rest >>= fun p =>
        fields.finish p.1 >>= fun xs => .ok (⟨xs.1, xs.2.1, xs.2.2.1⟩, p.2)) := by
  show ((fields.objectFromText room rest true fields.blank rest >>= fun p =>
      fields.finish p.1 >>= fun xs => Except.ok (xs, p.2)) >>= _) = _
  cases fields.objectFromText room rest true fields.blank rest with
  | error e => rfl
  | ok p =>
    simp only [bind, Except.bind]
    cases fields.finish p.1 <;> rfl

/-- What is known of a record so far. -/
def draft (sequence : Option UInt64) (checksum : Option UInt32) (entry : Option Entry) :
    Draft [UInt64, UInt32, Entry] :=
  (sequence, checksum, entry, ())

section

variable (room : Nat) (sequence : Option UInt64) (checksum : Option UInt32) (entry : Option Entry)

/-- The sequence number is read into its place. -/
theorem readNamed?_sequence (n : UInt64) {rest : Bytes} (hrest : NumberEnd rest) :
    fields.readNamed? (Fields.getText room) "seq"
        (colon :: (Bytes.ofChars (Value.ofWord n).chars ++ rest)) (draft none checksum entry) =
      some (.ok (draft (some n) checksum entry, rest)) :=
  Fields.readNamed?_self <| (Fields.getText_colon room _ _).trans <|
    Reading.fromText_word64 n room hrest

/-- The checksum is read into its place. -/
theorem readNamed?_checksum (n : UInt32) {rest : Bytes} (hrest : NumberEnd rest) :
    fields.readNamed? (Fields.getText room) "checksum"
        (colon :: (Bytes.ofChars (Value.ofNat n.toNat).chars ++ rest)) (draft sequence none entry) =
      some (.ok (draft sequence (some n) entry, rest)) :=
  Fields.readNamed?_other (by decide) <| Fields.readNamed?_self <|
    (Fields.getText_colon room _ _).trans <| Reading.fromText_word32 n room hrest

/-- The entry is read into its place, by its own reader. -/
theorem readNamed?_entry (input : Bytes) :
    fields.readNamed? (Fields.getText room) "command" (colon :: input)
        (draft sequence checksum none) =
      some ((Entry.reading.fromText room input).map fun p =>
        (draft sequence checksum (some p.1), p.2)) := by
  refine (Fields.readNamed?_other (by decide) <| Fields.readNamed?_other (by decide) <|
    Fields.readNamed?_self (Fields.getText_colon room Entry.reading input)).trans ?_
  cases Entry.reading.fromText room input <;> rfl

end

/-- A field and what follows it, as it is written. -/
def fieldBytes (first : Bool) (name : String) (v : Value) (rest : Bytes) : Bytes :=
  Fields.separator first ++ quote :: (Bytes.ofChars (name.toList.flatMap escaped) ++
    quote :: colon :: (Bytes.ofChars v.chars ++ rest))

/-- A number in a record ends where the next member begins. -/
theorem numberEnd_fieldBytes (name : String) (v : Value) (rest : Bytes) :
    NumberEnd (fieldBytes false name v rest) :=
  numberEnd_of_ne (Or.inl rfl) _

/-- The fields of a record, as they are written. -/
def fieldsBytes (r : Record) : Bytes :=
  fieldBytes true "seq" (.ofWord r.sequence) <|
    fieldBytes false "checksum" (.ofNat r.checksum.toNat) <|
      fieldBytes false "command" r.entry.toValue [closeBrace]

/-- A record's body is its members in braces. -/
theorem body_eq (r : Record) : r.body = openBrace :: r.fieldsBytes := by
  have h := ofChars_object_cons "seq" (.ofWord r.sequence)
    [("checksum", .ofNat r.checksum.toNat), ("command", r.entry.toValue)] []
  rw [ofChars_fieldTail_cons, ofChars_fieldTail_cons, List.append_nil] at h
  rw [body, toValue, bytes_eq_ofChars, h]
  rfl

/-- The fields of a record are read as they were written, up to the entry. -/
theorem objectFromText_fieldsBytes (r : Record) (room : Nat) {bound : Bytes}
    (hbound : 4 ≤ bound.length) :
    ∃ b tail, fields.objectFromText room bound true (draft none none none) r.fieldsBytes =
      (Entry.reading.fromText room
        (Bytes.ofChars r.entry.toValue.chars ++ [closeBrace]) >>= fun p =>
        fields.objectFromText room (b :: tail) false
          (draft (some r.sequence) (some r.checksum) (some p.1)) p.2) := by
  match bound, hbound with
  | b₁ :: b₂ :: b₃ :: b₄ :: tail, _ =>
    refine ⟨b₄, tail, ?_⟩
    rw [fieldsBytes, fieldBytes, Fields.objectFromText_field_ok
      (readNamed?_sequence room none none r.sequence (numberEnd_fieldBytes _ _ _)), fieldBytes,
      Fields.objectFromText_field_ok
        (readNamed?_checksum room _ none r.checksum (numberEnd_fieldBytes _ _ _)), fieldBytes,
      Fields.objectFromText_field (readNamed?_entry room _ _ _)]
    cases Entry.reading.fromText room (Bytes.ofChars r.entry.toValue.chars ++ [closeBrace]) <;> rfl

/-! ## Records read back -/

/-- What a written record is read as, its checksum not looked at: the same number and checksum, with
the entry that its own entry is read as. -/
theorem run_body_eq_ok_iff (r : Record) {r' : Record} :
    reading.run r.body = .ok r' ↔
      r.entry.toValue.depth < nestingLimit ∧ r'.sequence = r.sequence ∧ r'.checksum = r.checksum ∧
        ∃ w, r.entry.toValue.reread = .ok w ∧ Entry.ofValue w.canonical = .ok r'.entry := by
  have hlength : 4 ≤ r.fieldsBytes.length := by
    simp only [fieldsBytes, fieldBytes, List.length_append, List.length_cons]
    omega
  have hend : NumberEnd [closeBrace] := numberEnd_of_ne (Or.inr (Or.inr rfl)) []
  obtain ⟨b, tail, hfields⟩ := r.objectFromText_fieldsBytes 126 hlength
  have hrun : reading.run r.body =
      ((fields.objectFromText 126 r.fieldsBytes true
        (draft none none none) r.fieldsBytes >>= fun p =>
        fields.finish p.1 >>= fun xs => .ok (⟨xs.1, xs.2.1, xs.2.2.1⟩, p.2)) >>= fun p =>
          atEnd p.2 >>= fun _ => .ok p.1) := by
    rw [body_eq]
    exact congrArg (· >>= _) (reading_fromText 126 r.fieldsBytes)
  rw [hrun, hfields]
  constructor
  · intro h
    obtain ⟨⟨r'', rest⟩, h, hatEnd⟩ := bind_eq_ok_iff.1 h
    obtain ⟨⟨held, rest⟩, h, hfinish⟩ := bind_eq_ok_iff.1 h
    obtain ⟨⟨e, after⟩, hentry, hclose⟩ := bind_eq_ok_iff.1 h
    obtain ⟨hdepth, rfl, w, hw, he⟩ := (r.entry.fromText_toValue_eq_ok_iff hend).1 hentry
    rw [Fields.objectFromText_close] at hclose
    cases hclose
    cases hfinish
    cases hatEnd
    exact ⟨Nat.lt_succ_of_le hdepth, rfl, rfl, w, hw, he⟩
  · rintro ⟨hdepth, hsequence, hchecksum, w, hw, he⟩
    rw [(r.entry.fromText_toValue_eq_ok_iff hend).2 ⟨Nat.le_of_lt_succ hdepth, rfl, w, hw, he⟩]
    simp only [bind, Except.bind]
    rw [Fields.objectFromText_close, ← hsequence, ← hchecksum]
    rfl

/-- A line is parsed as a record exactly if it is read as the record and carries the checksum of
what it holds. -/
theorem parse_eq_ok_iff {line : Bytes} {offset : Nat} {r : Record} :
    parse line offset = .ok r ↔
      reading.run line = .ok r ∧ r.checksum = checksumOf r.sequence r.entry := by
  unfold parse
  cases reading.run line with
  | error cause =>
    constructor
    · intro h
      cases h
    · rintro ⟨h, -⟩
      cases h
  | ok r' =>
    dsimp only
    constructor
    · intro h
      split at h
      · rename_i hchecksum
        cases h
        exact ⟨rfl, hchecksum⟩
      · cases h
    · rintro ⟨h, hchecksum⟩
      cases h
      rw [if_pos hchecksum]

/-- A line is refused exactly if it is not read as a record, which is reported with its offset, or
is read as one that carries another checksum, which is reported with its number. -/
theorem parse_eq_error_iff {line : Bytes} {offset : Nat} {e : Failure} :
    parse line offset = .error e ↔
      (∃ cause, reading.run line = .error cause ∧
        e = .corrupt (.offset offset) (.unreadable cause)) ∨
      ∃ r, reading.run line = .ok r ∧ r.checksum ≠ checksumOf r.sequence r.entry ∧
        e = .corrupt (.sequence r.sequence)
          (.checksum r.checksum (checksumOf r.sequence r.entry)) := by
  unfold parse
  cases reading.run line with
  | error cause => simp [eq_comm]
  | ok r => by_cases h : r.checksum = checksumOf r.sequence r.entry <;> simp [h, eq_comm]

/-- Where a line begins matters only to what is reported of it. -/
theorem parse_of_parse {line : Bytes} {offset : Nat} {r : Record} (h : parse line offset = .ok r)
    (other : Nat) : parse line other = .ok r :=
  parse_eq_ok_iff.2 (parse_eq_ok_iff.1 h)

/-- **When a record is read back as itself**: if its entry is lasting, and only then. -/
theorem parse_body_iff {e : Entry} (he : e.SelfDescribed) (n : UInt64) (offset : Nat) :
    parse (make n e).body offset = .ok (make n e) ↔ e.Lasting := by
  rw [parse_eq_ok_iff, run_body_eq_ok_iff]
  constructor
  · rintro ⟨⟨hdepth, -, -, w, hw, h⟩, -⟩
    exact ⟨hdepth, (reread_eq_self_iff _).1 (Entry.reread_eq_self_of_ofValue he hw h)⟩
  · rintro ⟨hdepth, hnumbers⟩
    exact ⟨⟨hdepth, rfl, rfl, e.toValue, (reread_eq_self_iff _).2 hnumbers, he⟩, rfl⟩

/-- The record of a command is read back as itself, whatever its number. -/
theorem parse_body_command (n : UInt64) (c : Command) (offset : Nat) :
    parse (make n (.command c)).body offset = .ok (make n (.command c)) :=
  (parse_body_iff (Entry.selfDescribed_command c) n offset).2 (Entry.lasting_command c)

/-! ## Records as lines -/

/-- A record's body is one line. -/
theorem newline_notMem_body (r : Record) : Bytes.newline ∉ r.body := newline_notMem_bytes r.toValue

/-- A record's body is not empty. -/
theorem body_ne_nil (r : Record) : r.body ≠ [] := by
  rw [body_eq]
  exact List.cons_ne_nil _ _

end Log.Record

end DurableKV
