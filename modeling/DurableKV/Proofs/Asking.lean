import DurableKV.Request
import DurableKV.Proofs.Json.Bound
import DurableKV.Proofs.Json.Depth
import DurableKV.Proofs.Json.Members

/-!
# What a line asks for

The reader of requests goes through a line once and judges the name of a request as soon as it meets
it. Here is said what comes of that for whole lines: a line is read as a request exactly if it is the
JSON text of a value that asks for it (`read_eq_ok_iff`). A value asks for a request if it is an
object with the name and each argument of the request once, whatever else it has, or an array of the
name and the arguments (`AskedBy`). So what a client writes for a request is read as that request
(`read_toValue`).
-/

namespace DurableKV

open Json

namespace Request

/-! ## How requests are written -/

/-- The name by which clients ask for a request. -/
def name : Request → String
  | get _ => "get"
  | set .. => "set"
  | delete _ => "delete"
  | begin => "begin"
  | txRead .. => "tx_read"
  | txWrite .. => "tx_write"
  | txCommit _ => "tx_commit"
  | txAbort _ => "tx_abort"
  | join .. => "join"
  | status => "status"

/-- The arguments of a request with their names, in the order in which an array has them. -/
def arguments : Request → List (String × String)
  | get key => [("key", key)]
  | set key value => [("key", key), ("value", value)]
  | delete key => [("key", key)]
  | begin => []
  | txRead id key => [("tx_id", id), ("key", key)]
  | txWrite id key value => [("tx_id", id), ("key", key), ("value", value)]
  | txCommit id => [("tx_id", id)]
  | txAbort id => [("tx_id", id)]
  | join nodeId address => [("node_id", nodeId), ("addr", address)]
  | status => []

/-- A request as the fields of an object. -/
def fields (r : Request) : List (String × Value) :=
  ("op", .string r.name) :: r.arguments.map fun a => (a.1, .string a.2)

/-- A request as clients write it. -/
def toValue (r : Request) : Value := .object r.fields

/-- A value asks for a request. -/
inductive AskedBy (r : Request) : Value → Prop where
  /-- An object that has each field of the request once, whatever else it has. -/
  | object {members : List (String × Value)}
      (h : ∀ f ∈ r.fields, members.filter (·.1 == f.1) = [f]) : AskedBy r (.object members)
  /-- An array of the name and the arguments. -/
  | array : AskedBy r (.array (.string r.name :: r.arguments.map fun a => .string a.2))

/-! ## One field among others -/

/-- What is held of a field once some members have been gone through: what was held before if none
of them has its name, or what the only one of its name has. -/
def Held {α : Type} (form : α → Value) (name : String) (members : List (String × Value))
    (before after : Option α) : Prop :=
  (after = before ∧ members.filter (·.1 == name) = []) ∨
    (before = none ∧ ∃ x, after = some x ∧ members.filter (·.1 == name) = [(name, form x)])

section

variable {α : Type} {form : α → Value} {name other : String} {members : List (String × Value)}
  {v : Value} {before after : Option α}

/-- Nothing is taken from no members. -/
theorem held_nil : Held form name [] before after ↔ after = before := by
  simp [Held]

/-- A member of the name is taken if nothing was held. -/
theorem held_cons_self :
    Held form name ((name, v) :: members) before after ↔
      before = none ∧ ∃ x, v = form x ∧ Held form name members (some x) after := by
  simp only [Held, beq_self_eq_true, List.filter_cons_of_pos, List.cons_ne_nil, and_false,
    false_or, List.cons.injEq, Prod.mk.injEq, true_and, reduceCtorEq, false_and, or_false]
  constructor
  · rintro ⟨hbefore, x, hafter, hv, hnone⟩
    exact ⟨hbefore, x, hv, hafter, hnone⟩
  · rintro ⟨hbefore, x, hv, hafter, hnone⟩
    exact ⟨hbefore, x, hafter, hv, hnone⟩

/-- A member of another name plays no part. -/
theorem held_cons_of_ne (h : other ≠ name) :
    Held form name ((other, v) :: members) before after ↔
      Held form name members before after := by
  simp [Held, h]

/-- What is held in the end is held of the only member of the name. -/
theorem held_none_some_iff {x : α} :
    Held form name members none (some x) ↔ members.filter (·.1 == name) = [(name, form x)] := by
  simp [Held]

end

/-! ## The name -/

namespace Kind

/-- A kind is known by its name. -/
theorem ofTag_eq_ok_iff {tag : String} {k : Kind} : ofTag tag = .ok k ↔ tag = k.tag := by
  constructor
  · intro h
    unfold ofTag ofTag? at h
    split at h
    · rename_i found hfound
      cases h
      have htag := List.find?_some hfound
      exact (beq_iff_eq.1 htag).symm
    · cases h
  · rintro rfl
    cases k <;> rfl

/-- The name of a kind is read exactly where its text is read as a value. -/
theorem reading_eq_ok_iff {room : Nat} {input rest : Bytes} {k : Kind} :
    reading.fromText room input = .ok (k, rest) ↔
      Value.readPrefix room input = .ok (.string k.tag, rest) := by
  rw [readPrefix_string_iff]
  constructor
  · intro h
    obtain ⟨⟨tag, after⟩, htag, h⟩ := bind_eq_ok_iff.1 h
    obtain ⟨found, hfound, h⟩ := bind_eq_ok_iff.1 h
    cases h
    obtain rfl := ofTag_eq_ok_iff.1 hfound
    simp only [Reading.textNamed] at htag
    split at htag
    · rename_i tail hspace
      exact ⟨tail, hspace, htag⟩
    · cases htag
  · rintro ⟨tail, hspace, htag⟩
    refine bind_eq_ok_iff.2 ⟨(k.tag, rest), ?_, bind_eq_ok_iff.2 ⟨k, ofTag_eq_ok_iff.2 rfl, rfl⟩⟩
    simp only [Reading.textNamed, hspace]
    exact htag

end Kind

/-! ## The members of an object -/

/-- The form in which the name of a request stands. -/
abbrev tagged (k : Kind) : Value := .string k.tag

/-- What stands beside the name of a request. -/
def others (members : List (String × Value)) : List (String × Value) :=
  members.filter (·.1 != "op")

/-- The reader of requests goes through the fields of an object as the reader of values does. -/
theorem fieldsRead_of_readMembers {room : Nat} {bound input rest : Bytes} {first : Bool}
    {before after : Option Kind} {members : List (String × Value)}
    (h : readMembers room bound first before input = .ok ((after, members), rest)) :
    ∃ fs, FieldsRead room first input fs rest ∧ Held tagged "op" fs before after ∧
      members = others fs := by
  induction bound generalizing first before input members with
  | nil => cases h
  | cons b bound ih =>
    unfold readMembers at h
    obtain ⟨upcoming, hnext, h⟩ := bind_eq_ok_iff.1 h
    cases upcoming with
    | done behind =>
      cases h
      exact ⟨[], .done hnext, held_nil.2 rfl, rfl⟩
    | more start =>
      obtain ⟨⟨name, between⟩, hname, h⟩ := bind_eq_ok_iff.1 h
      dsimp only at h
      split at h
      · rename_i hop
        split at h
        · cases h
        rename_i hbefore
        obtain ⟨behind, hcolon, h⟩ := bind_eq_ok_iff.1 h
        obtain ⟨⟨k, follows⟩, hk, h⟩ := bind_eq_ok_iff.1 h
        obtain ⟨fs, hfs, hheld, hmembers⟩ := ih h
        rw [Option.not_isSome_iff_eq_none] at hbefore
        subst hop
        refine ⟨("op", .string k.tag) :: fs,
          .more hnext hname hcolon (Kind.reading_eq_ok_iff.1 hk) hfs, ?_, ?_⟩
        · exact held_cons_self.2 ⟨hbefore, k, rfl, hheld⟩
        · simpa [others] using hmembers
      · rename_i hop
        obtain ⟨behind, hcolon, h⟩ := bind_eq_ok_iff.1 h
        obtain ⟨⟨v, follows⟩, hv, h⟩ := bind_eq_ok_iff.1 h
        obtain ⟨⟨⟨kind, ms⟩, follows'⟩, hms, h⟩ := bind_eq_ok_iff.1 h
        cases h
        obtain ⟨fs, hfs, hheld, hmembers⟩ := ih hms
        refine ⟨(name, v) :: fs, .more hnext hname hcolon hv hfs, ?_, ?_⟩
        · exact (held_cons_of_ne hop).2 hheld
        · simp [others, hop, hmembers]

/-- Fields that stand there are gone through by the reader of requests, if the name is among them
at most once. -/
theorem readMembers_of_fieldsRead {room : Nat} {input rest : Bytes} {first : Bool}
    {fs : List (String × Value)} (h : FieldsRead room first input fs rest) {bound : Bytes}
    (hbound : input.length ≤ bound.length) {before after : Option Kind}
    (hheld : Held tagged "op" fs before after) :
    readMembers room bound first before input = .ok ((after, others fs), rest) := by
  induction h generalizing bound before with
  | done hnext =>
    obtain ⟨b, bound, rfl⟩ := List.exists_cons_of_length_pos
      (Nat.lt_of_lt_of_le (Nat.zero_lt_of_lt (length_of_nextField_done hnext)) hbound)
    obtain rfl := held_nil.1 hheld
    exact bind_eq_ok_iff.2 ⟨_, hnext, rfl⟩
  | @more first input start between behind follows rest name v fs hnext hname hcolon hvalue hrest
      ih =>
    obtain ⟨-, hfollows⟩ := length_of_field hnext hname hcolon hvalue
    obtain ⟨b, bound, rfl⟩ := List.exists_cons_of_length_pos (show 0 < bound.length by omega)
    rw [List.length_cons] at hbound
    refine bind_eq_ok_iff.2 ⟨_, hnext, bind_eq_ok_iff.2 ⟨_, hname, ?_⟩⟩
    by_cases hop : name = "op"
    · subst hop
      obtain ⟨rfl, k, rfl, hothersHeld⟩ := held_cons_self.1 hheld
      have hothers : others (("op", .string k.tag) :: fs) = others fs := by simp [others]
      dsimp only
      rw [if_pos rfl, hothers]
      exact bind_eq_ok_iff.2 ⟨_, hcolon, bind_eq_ok_iff.2
        ⟨_, Kind.reading_eq_ok_iff.2 hvalue, ih (by omega) hothersHeld⟩⟩
    · have hothers : others ((name, v) :: fs) = (name, v) :: others fs := by simp [others, hop]
      dsimp only
      rw [if_neg hop, hothers]
      exact bind_eq_ok_iff.2 ⟨_, hcolon, bind_eq_ok_iff.2 ⟨_, hvalue, bind_eq_ok_iff.2
        ⟨_, ih (by omega) ((held_cons_of_ne hop).1 hheld), rfl⟩⟩⟩

/-! ## The name of a line -/

/-- A value with the name of a request, and what stands beside the name. -/
inductive Tagged (k : Kind) : Value → Value → Prop where
  /-- An object with the name. -/
  | object {members : List (String × Value)}
      (h : members.filter (·.1 == "op") = [("op", .string k.tag)]) :
      Tagged k (.object (others members)) (.object members)
  /-- An array that begins with the name. -/
  | array (items : List Value) : Tagged k (.array items) (.array (.string k.tag :: items))

section

variable {room : Nat} {input tail rest : Bytes} {k : Kind} {beside : Value}

/-- The name in an object is found where it stands among the fields. -/
theorem readTagged_object_iff (hspace : skipSpace input = openBrace :: tail) :
    readTagged (room + 1) input = .ok ((k, beside), rest) ↔
      ∃ v, Value.readPrefix (room + 1) input = .ok (v, rest) ∧ Tagged k beside v := by
  unfold readTagged
  simp only [hspace, readPrefix_object_iff hspace]
  constructor
  · intro h
    obtain ⟨inner, hopen, h⟩ := bind_eq_ok_iff.1 h
    cases hopen
    obtain ⟨⟨⟨kind, members⟩, after⟩, hmembers, h⟩ := bind_eq_ok_iff.1 h
    obtain ⟨fs, hfs, hheld, rfl⟩ := fieldsRead_of_readMembers hmembers
    cases kind with
    | none => cases h
    | some k' =>
      cases h
      have hname := held_none_some_iff.1 hheld
      exact ⟨_, ⟨fs, hfs, rfl⟩, .object hname⟩
  · rintro ⟨_, ⟨fs, hfs, rfl⟩, htagged⟩
    cases htagged with
    | object hname =>
      have hread := readMembers_of_fieldsRead hfs (Nat.le_refl _) (held_none_some_iff.2 hname)
      exact bind_eq_ok_iff.2 ⟨_, rfl, bind_eq_ok_iff.2 ⟨_, hread, rfl⟩⟩

/-- The name in an array is found in front. -/
theorem readTagged_array_iff (hspace : skipSpace input = openBracket :: tail) :
    readTagged (room + 1) input = .ok ((k, beside), rest) ↔
      ∃ v, Value.readPrefix (room + 1) input = .ok (v, rest) ∧ Tagged k beside v := by
  unfold readTagged
  simp only [hspace, readPrefix_array_iff hspace]
  constructor
  · intro h
    obtain ⟨inner, hopen, h⟩ := bind_eq_ok_iff.1 h
    cases hopen
    obtain ⟨upcoming, hnext, h⟩ := bind_eq_ok_iff.1 h
    cases upcoming with
    | done after => cases h
    | more start =>
      obtain ⟨⟨k', between⟩, hk, h⟩ := bind_eq_ok_iff.1 h
      obtain ⟨⟨items, after⟩, hitems, h⟩ := bind_eq_ok_iff.1 h
      cases h
      exact ⟨_, Or.inr ⟨start, _, between, items, hnext, Kind.reading_eq_ok_iff.1 hk, hitems, rfl⟩,
        .array items⟩
  · rintro ⟨_, ⟨-, rfl⟩ | ⟨start, w, between, items, hnext, hw, hitems, rfl⟩, htagged⟩
    · cases htagged
    · cases htagged with
      | array =>
        exact bind_eq_ok_iff.2 ⟨_, rfl, bind_eq_ok_iff.2 ⟨_, hnext, bind_eq_ok_iff.2
          ⟨_, Kind.reading_eq_ok_iff.2 hw, bind_eq_ok_iff.2 ⟨_, hitems, rfl⟩⟩⟩⟩

/-- No name is found in front of anything but an object or an array. -/
theorem readTagged_scalar {b : UInt8} (hspace : skipSpace input = b :: tail)
    (hbracket : b ≠ openBracket) (hbrace : b ≠ openBrace) :
    readTagged room input ≠ .ok ((k, beside), rest) := by
  unfold readTagged
  rw [hspace]
  intro h
  split at h
  · rename_i heq
    cases heq
  · rename_i heq
    cases heq
    exact hbrace rfl
  · rename_i heq
    cases heq
    exact hbracket rfl
  · cases h

/-- A value with the name of a request is an object or an array. -/
theorem Tagged.depth_pos {v : Value} (h : Tagged k beside v) : 0 < v.depth := by
  cases h <;> exact Nat.succ_pos _

/-- **The name of a request is found exactly in the values that have one.** -/
theorem readTagged_eq_ok_iff :
    readTagged (room + 1) input = .ok ((k, beside), rest) ↔
      ∃ v, Value.readPrefix (room + 1) input = .ok (v, rest) ∧ Tagged k beside v := by
  cases hspace : skipSpace input with
  | nil =>
    constructor
    · intro h
      simp [readTagged, hspace] at h
    · rintro ⟨v, hv, -⟩
      cases input with
      | nil => cases hv
      | cons b input => simp [Value.readPrefix, readValue, hspace] at hv
  | cons b tail =>
    by_cases hbrace : b = openBrace
    · subst hbrace
      exact readTagged_object_iff hspace
    by_cases hbracket : b = openBracket
    · subst hbracket
      exact readTagged_array_iff hspace
    constructor
    · intro h
      exact absurd h (readTagged_scalar hspace hbracket hbrace)
    · rintro ⟨v, hv, htagged⟩
      cases input with
      | nil => cases hv
      | cons c input =>
        have hdepth := (readValue_within_scalar hspace hbracket hbrace hv).1
        exact absurd hdepth (Nat.ne_of_gt htagged.depth_pos)

end

/-! ## The arguments -/

section

variable {αs : List Type} {name key : String} {members : List (String × Value)} {v : Value}

/-- A text is read from a text and nothing else. -/
theorem text_fromValue_eq_ok_iff {s : String} :
    Reading.text.fromValue v = .ok s ↔ v = .string s := by
  cases v <;> simp [Reading.text, Reading.textNamed]

/-- A member is no field of a record without a field of its name. -/
theorem objectFromValue_cons_of_notMem {fields : Fields αs} (h : name ∉ fields.names)
    (draft : Draft αs) :
    fields.objectFromValue draft ((name, v) :: members) = fields.objectFromValue draft members := by
  rw [Fields.objectFromValue, Fields.readNamed?_eq_none h]

/-- A record is read member by member: one without a field of its name is passed over, and one with
a field is taken in. -/
theorem objectFromValue_cons_eq_ok_iff (fields : Fields αs) (draft draft' : Draft αs)
    (name : String) (v : Value) (members : List (String × Value)) :
    fields.objectFromValue draft ((name, v) :: members) = .ok draft' ↔
      (fields.readNamed? Fields.getValue name v draft = none ∧
        fields.objectFromValue draft members = .ok draft') ∨
      ∃ between, fields.readNamed? Fields.getValue name v draft = some (.ok (between, ())) ∧
        fields.objectFromValue between members = .ok draft' := by
  rw [Fields.objectFromValue_cons, Fields.takeIn, Table.lookupIn, if_pos rfl]
  dsimp only
  split
  · rename_i hnone
    simp [hnone, bind, Except.bind]
  · rename_i result hresult
    simp only [hresult, bind_eq_ok_iff, map_eq_ok_iff, Option.some.injEq, reduceCtorEq, false_and,
      false_or]
    constructor
    · rintro ⟨_, ⟨⟨between, _⟩, rfl, rfl⟩, h⟩
      exact ⟨between, rfl, h⟩
    · rintro ⟨between, rfl, h⟩
      exact ⟨between, ⟨(between, ()), rfl, rfl⟩, h⟩

/-- A field that is a text takes a text, once. -/
theorem readNamed?_textField_eq_some_ok_iff {others : Fields αs} {held held' : Option String}
    {draft draft' : Draft αs} :
    (Kind.textField name others).readNamed? Fields.getValue name v (held, draft) =
        some (.ok ((held', draft'), ())) ↔
      held = none ∧ draft' = draft ∧ ∃ x, v = .string x ∧ held' = some x := by
  simp only [Kind.textField, Fields.readNamed?, if_true, Option.some.injEq]
  cases held with
  | some s => simp
  | none =>
    simp only [Option.isSome_none, Bool.false_eq_true, if_false, bind_eq_ok_iff, true_and]
    constructor
    · rintro ⟨⟨x, _⟩, hx, h⟩
      obtain ⟨y, hy, hx⟩ := bind_eq_ok_iff.1 hx
      cases hx
      cases h
      exact ⟨rfl, x, text_fromValue_eq_ok_iff.1 hy, rfl⟩
    · rintro ⟨rfl, x, rfl, rfl⟩
      exact ⟨(x, ()), rfl, rfl⟩

/-- A field that is a text leaves a member of another name to the others. -/
theorem readNamed?_textField_of_ne (h : key ≠ name) {others : Fields αs} {held : Option String}
    {draft : Draft αs} :
    (Kind.textField name others).readNamed? Fields.getValue key v (held, draft) =
      (others.readNamed? Fields.getValue key v draft).map fun result =>
        result >>= fun p => .ok ((held, p.1), p.2) := by
  simp only [Kind.textField, Fields.readNamed?, if_neg (Ne.symm h)]
  rfl

/-- What is read of a record whose first field is a text: that field and the others, each from all
the members. -/
theorem objectFromValue_textField_iff {others : Fields αs} (hfresh : name ∉ others.names)
    {held held' : Option String} {draft draft' : Draft αs} :
    (Kind.textField name others).objectFromValue (held, draft) members = .ok (held', draft') ↔
      Held .string name members held held' ∧ others.objectFromValue draft members = .ok draft' := by
  induction members generalizing held draft with
  | nil =>
    rw [held_nil]
    constructor
    · intro h
      cases h
      exact ⟨rfl, rfl⟩
    · rintro ⟨rfl, h⟩
      cases h
      rfl
  | cons member members ih =>
    obtain ⟨key, v⟩ := member
    refine (objectFromValue_cons_eq_ok_iff (Kind.textField name others) (held, draft)
      (held', draft') key v members).trans ?_
    by_cases hkey : key = name
    · subst hkey
      rw [held_cons_self, objectFromValue_cons_of_notMem hfresh]
      constructor
      · rintro (⟨hnone, -⟩ | ⟨⟨taken, kept⟩, htaken, h⟩)
        · simp [Kind.textField, Fields.readNamed?] at hnone
        · obtain ⟨rfl, rfl, x, rfl, rfl⟩ := readNamed?_textField_eq_some_ok_iff.1 htaken
          obtain ⟨hheld, hothers⟩ := ih.1 h
          exact ⟨⟨rfl, x, rfl, hheld⟩, hothers⟩
      · rintro ⟨⟨rfl, x, rfl, hheld⟩, hothers⟩
        exact Or.inr ⟨(some x, draft),
          readNamed?_textField_eq_some_ok_iff.2 ⟨rfl, rfl, x, rfl, rfl⟩, ih.2 ⟨hheld, hothers⟩⟩
    · rw [held_cons_of_ne hkey, readNamed?_textField_of_ne hkey,
        objectFromValue_cons_eq_ok_iff others]
      cases others.readNamed? Fields.getValue key v draft with
      | none =>
        simp only [Option.map_none, true_and, reduceCtorEq, false_and, exists_false, or_false]
        exact (and_iff_right rfl).trans ih
      | some result =>
        simp only [Option.map_some, Option.some.injEq, reduceCtorEq, false_and, false_or]
        constructor
        · rintro ⟨⟨taken, kept⟩, htaken, h⟩
          obtain ⟨⟨between, _⟩, rfl, htaken⟩ := bind_eq_ok_iff.1 (Option.some.inj htaken)
          cases htaken
          obtain ⟨hheld, hothers⟩ := ih.1 h
          exact ⟨hheld, between, rfl, hothers⟩
        · rintro ⟨hheld, between, rfl, hothers⟩
          exact ⟨(held, between), rfl, ih.2 ⟨hheld, hothers⟩⟩

/-- A record as it is read from the members of an object. -/
def ofMembers (fields : Fields αs) (members : List (String × Value)) :
    Except ReadError (Contents αs) := do
  let draft ← fields.objectFromValue fields.blank members
  fields.finish draft

/-- A record without fields is read from any members. -/
theorem ofMembers_nil (members : List (String × Value)) : ofMembers .nil members = .ok () := by
  induction members with
  | nil => rfl
  | cons member members ih => exact ih

/-- A record that begins with a text is read from members of which one has that name and holds the
text, and from which the other fields are read. -/
theorem ofMembers_textField_iff {others : Fields αs} (hfresh : name ∉ others.names) {x : String}
    {xs : Contents αs} :
    ofMembers (Kind.textField name others) members = .ok (x, xs) ↔
      members.filter (·.1 == name) = [(name, .string x)] ∧ ofMembers others members = .ok xs := by
  rw [← held_none_some_iff]
  constructor
  · intro h
    obtain ⟨⟨held, draft⟩, hread, h⟩ := bind_eq_ok_iff.1 h
    obtain ⟨hheld, hothers⟩ := (objectFromValue_textField_iff hfresh).1 hread
    cases held with
    | none => cases h
    | some y =>
      obtain ⟨_, hy, h⟩ := bind_eq_ok_iff.1 h
      cases hy
      obtain ⟨ys, hys, h⟩ := bind_eq_ok_iff.1 h
      cases h
      exact ⟨hheld, bind_eq_ok_iff.2 ⟨draft, hothers, hys⟩⟩
  · rintro ⟨hheld, hothers⟩
    obtain ⟨draft, hdraft, hxs⟩ := bind_eq_ok_iff.1 hothers
    exact bind_eq_ok_iff.2 ⟨(some x, draft),
      (objectFromValue_textField_iff hfresh).2 ⟨hheld, hdraft⟩,
      bind_eq_ok_iff.2 ⟨x, rfl, bind_eq_ok_iff.2 ⟨xs, hxs, rfl⟩⟩⟩

/-- A record that begins with a text is read from items that begin with the text. -/
theorem arrayFromValue_textField_iff {others : Fields αs} {wanted : String} {position : Nat}
    {items left : List Value} {x : String} {xs : Contents αs} :
    (Kind.textField name others).arrayFromValue wanted position items = .ok ((x, xs), left) ↔
      ∃ behind, items = .string x :: behind ∧
        others.arrayFromValue wanted (position + 1) behind = .ok (xs, left) := by
  cases items with
  | nil =>
    constructor
    · intro h
      obtain ⟨_, hdefaults, -⟩ := bind_eq_ok_iff.1 h
      cases hdefaults
    · rintro ⟨behind, h, -⟩
      cases h
  | cons v items =>
    constructor
    · intro h
      obtain ⟨y, hy, h⟩ := bind_eq_ok_iff.1 h
      obtain ⟨⟨ys, behind⟩, hys, h⟩ := bind_eq_ok_iff.1 h
      cases h
      exact ⟨items, by rw [text_fromValue_eq_ok_iff.1 hy], hys⟩
    · rintro ⟨behind, h, hothers⟩
      cases h
      exact bind_eq_ok_iff.2 ⟨x, rfl, bind_eq_ok_iff.2 ⟨_, hothers, rfl⟩⟩

end

/-- The fields of a record of texts with these names. -/
def textFields : (args : List (String × String)) → Fields (args.map fun _ => String)
  | [] => .nil
  | a :: args => Kind.textField a.1 (textFields args)

/-- A record that holds these texts. -/
def texts : (args : List (String × String)) → Contents (args.map fun _ => String)
  | [] => ()
  | a :: args => (a.2, texts args)

/-- The names of a record of texts. -/
theorem names_textFields (args : List (String × String)) :
    (textFields args).names = args.map Prod.fst := by
  induction args with
  | nil => rfl
  | cons a args ih => exact congrArg (a.1 :: ·) ih

/-- Texts are read from members that have each of them once. -/
theorem ofMembers_textFields_iff {members : List (String × Value)} (args : List (String × String))
    (hnames : (args.map Prod.fst).Nodup) :
    ofMembers (textFields args) members = .ok (texts args) ↔
      ∀ a ∈ args, members.filter (·.1 == a.1) = [(a.1, .string a.2)] := by
  induction args with
  | nil => exact iff_of_true (ofMembers_nil members) (List.forall_mem_nil _)
  | cons a args ih =>
    obtain ⟨hfresh, hnames⟩ := List.nodup_cons.1 hnames
    rw [← names_textFields] at hfresh
    rw [List.forall_mem_cons, ← ih hnames]
    exact ofMembers_textField_iff hfresh

/-- Texts are read from an array that begins with them. -/
theorem arrayFromValue_textFields_iff {wanted : String} {items left : List Value}
    (args : List (String × String)) (position : Nat) :
    (textFields args).arrayFromValue wanted position items = .ok (texts args, left) ↔
      items = (args.map fun a => .string a.2) ++ left := by
  induction args generalizing items position with
  | nil =>
    constructor
    · intro h
      cases h
      rfl
    · rintro rfl
      rfl
  | cons a args ih =>
    refine arrayFromValue_textField_iff.trans ?_
    simp only [ih, List.map_cons, List.cons_append]
    constructor
    · rintro ⟨behind, rfl, rfl⟩
      rfl
    · rintro rfl
      exact ⟨_, rfl, rfl⟩

/-- A record is read from an array if its fields are read from the items and no item is left. -/
theorem recordFromValue_array_iff {αs : List Type} {fields : Fields αs} {title surplus : String}
    {items : List Value} {xs : Contents αs} :
    fields.recordFromValue title surplus (.array items) = .ok xs ↔
      fields.arrayFromValue (title ++ " with " ++ Fields.elements fields.count) 0 items =
        .ok (xs, []) := by
  rw [Fields.recordFromValue]
  constructor
  · intro h
    obtain ⟨⟨ys, left⟩, hread, h⟩ := bind_eq_ok_iff.1 h
    dsimp only at h
    split at h
    · rename_i hnone
      cases h
      rw [hread, List.isEmpty_iff.1 hnone]
    · cases h
  · intro h
    exact bind_eq_ok_iff.2 ⟨_, h, rfl⟩

/-! ## Requests -/

/-- The kind of a request. -/
def kind : Request → Kind
  | get _ => .get
  | set .. => .set
  | delete _ => .delete
  | begin => .begin
  | txRead .. => .txRead
  | txWrite .. => .txWrite
  | txCommit _ => .txCommit
  | txAbort _ => .txAbort
  | join .. => .join
  | status => .status

/-- A request is asked for by the name of its kind. -/
theorem tag_kind (r : Request) : r.kind.tag = r.name := by
  cases r <;> rfl

/-- A kind makes requests of its own. -/
theorem kind_of_request {k : Kind} {v : Value} {r : Request} (h : k.request v = .ok r) :
    k = r.kind := by
  cases k
  all_goals
    obtain ⟨_, -, h⟩ := bind_eq_ok_iff.1 h
    cases h
    rfl

/-- The request of the same kind with other arguments. -/
def withTexts : (r : Request) → Contents (r.arguments.map fun _ => String) → Request
  | get _, (key, ()) => get key
  | set .., (key, value, ()) => set key value
  | delete _, (key, ()) => delete key
  | begin, () => begin
  | txRead .., (id, key, ()) => txRead id key
  | txWrite .., (id, key, value, ()) => txWrite id key value
  | txCommit _, (id, ()) => txCommit id
  | txAbort _, (id, ()) => txAbort id
  | join .., (nodeId, address, ()) => join nodeId address
  | status, () => status

/-- A request is known by its kind and its arguments. -/
theorem withTexts_eq_self_iff (r : Request) (xs : Contents (r.arguments.map fun _ => String)) :
    r.withTexts xs = r ↔ xs = texts r.arguments := by
  constructor
  · intro h
    cases r with
    | get _ | delete _ | txCommit _ | txAbort _ =>
      obtain ⟨x, ⟨⟩⟩ := xs
      cases h
      rfl
    | set _ _ | txRead _ _ | join _ _ =>
      obtain ⟨x, y, ⟨⟩⟩ := xs
      cases h
      rfl
    | txWrite _ _ _ =>
      obtain ⟨x, y, z, ⟨⟩⟩ := xs
      cases h
      rfl
    | begin | status => rfl
  · rintro rfl
    cases r <;> rfl

/-- A request is made of what is read as its arguments. -/
theorem request_eq_ok_iff (r : Request) (v : Value) :
    r.kind.request v = .ok r ↔
      r.kind.argumentsFrom (textFields r.arguments) v = .ok (texts r.arguments) := by
  have hrequest : r.kind.request v =
      r.kind.argumentsFrom (textFields r.arguments) v >>= fun xs => .ok (r.withTexts xs) := by
    cases r <;> rfl
  rw [hrequest, bind_eq_ok_iff]
  simp only [Except.ok.injEq, withTexts_eq_self_iff, exists_eq_right]

/-- The fields of a request have different names. -/
theorem nodup_names (r : Request) : (r.fields.map Prod.fst).Nodup := by
  cases r <;> simp [fields, arguments]

/-- Members of another name than that of the request stand beside it. -/
theorem filter_others {name : String} (h : name ≠ "op") (members : List (String × Value)) :
    (others members).filter (·.1 == name) = members.filter (·.1 == name) := by
  rw [others, List.filter_filter]
  refine List.filter_congr fun member _ => ?_
  by_cases hname : member.1 = name
  · simp [hname, h]
  · simp [hname]

/-- A request is made of what stands beside its name in an object exactly if each of its arguments
stands there once. -/
theorem request_others_iff (r : Request) (members : List (String × Value)) :
    r.kind.request (.object (others members)) = .ok r ↔
      ∀ a ∈ r.arguments, members.filter (·.1 == a.1) = [(a.1, .string a.2)] := by
  have hfields := r.nodup_names
  rw [fields, List.map_cons, List.map_map] at hfields
  obtain ⟨hop, hnames⟩ := List.nodup_cons.1 hfields
  refine (r.request_eq_ok_iff _).trans ((ofMembers_textFields_iff r.arguments hnames).trans ?_)
  refine forall₂_congr fun a ha => ?_
  have hname : a.1 ≠ "op" := fun heq => hop (List.mem_map.2 ⟨a, ha, heq⟩)
  rw [filter_others hname]

/-- A request is made of the items behind its name in an array exactly if they are its arguments. -/
theorem request_array_iff (r : Request) (items : List Value) :
    r.kind.request (.array items) = .ok r ↔ items = r.arguments.map fun a => .string a.2 := by
  refine (r.request_eq_ok_iff _).trans (recordFromValue_array_iff.trans ?_)
  rw [arrayFromValue_textFields_iff, List.append_nil]

/-- A value asks for a request if it has its name, and the arguments stand beside the name. -/
theorem askedBy_iff (r : Request) (v : Value) :
    r.AskedBy v ↔ ∃ beside, Tagged r.kind beside v ∧ r.kind.request beside = .ok r := by
  constructor
  · intro h
    cases h with
    | @object members hfields =>
      rw [fields, List.forall_mem_cons, List.forall_mem_map, ← tag_kind] at hfields
      exact ⟨_, .object hfields.1, (r.request_others_iff members).2 hfields.2⟩
    | array =>
      rw [← tag_kind]
      exact ⟨_, .array _, (r.request_array_iff _).2 rfl⟩
  · rintro ⟨beside, htagged, hrequest⟩
    cases htagged with
    | @object members hname =>
      refine .object ?_
      rw [fields, List.forall_mem_cons, List.forall_mem_map, ← tag_kind]
      exact ⟨hname, (r.request_others_iff members).1 hrequest⟩
    | array items =>
      rw [(r.request_array_iff items).1 hrequest, tag_kind]
      exact .array

/-- **A line is read as a request exactly if it is the text of a value that asks for it.** -/
theorem read_eq_ok_iff {line : Bytes} {r : Request} :
    read line = .ok r ↔ ∃ v, Value.read line = .ok v ∧ r.AskedBy v := by
  constructor
  · intro h
    obtain ⟨⟨⟨k, beside⟩, rest⟩, htagged, h⟩ := bind_eq_ok_iff.1 h
    obtain ⟨made, hmade, h⟩ := bind_eq_ok_iff.1 h
    obtain ⟨_, hend, h⟩ := bind_eq_ok_iff.1 h
    cases h
    obtain rfl := kind_of_request hmade
    obtain ⟨v, hv, htagged⟩ := (@readTagged_eq_ok_iff 126 _ _ _ _).1 htagged
    exact ⟨v, bind_eq_ok_iff.2 ⟨_, hv, bind_eq_ok_iff.2 ⟨_, hend, rfl⟩⟩,
      (r.askedBy_iff v).2 ⟨beside, htagged, hmade⟩⟩
  · rintro ⟨v, hread, hasked⟩
    obtain ⟨beside, htagged, hmade⟩ := (r.askedBy_iff v).1 hasked
    obtain ⟨⟨w, rest⟩, hw, h⟩ := bind_eq_ok_iff.1 hread
    obtain ⟨_, hend, h⟩ := bind_eq_ok_iff.1 h
    cases h
    have htag := (@readTagged_eq_ok_iff 126 _ _ _ _).2 ⟨_, hw, htagged⟩
    exact bind_eq_ok_iff.2 ⟨_, htag, bind_eq_ok_iff.2 ⟨_, hmade, bind_eq_ok_iff.2 ⟨_, hend, rfl⟩⟩⟩

/-- A request asks for itself. -/
theorem askedBy_toValue (r : Request) : r.AskedBy r.toValue := by
  refine .object ?_
  cases r <;> simp [fields, arguments, name]

/-- **What a client writes for a request is read as that request.** -/
theorem read_toValue (r : Request) : read r.toValue.bytes = .ok r := by
  have hdepth : r.toValue.depth ≤ nestingLimit := by
    cases r <;> simp [toValue, fields, arguments, Value.depth, Value.fieldsDepth, nestingLimit]
  have hnumbers : r.toValue.numbers = [] := by
    cases r <;> simp [toValue, fields, arguments, Value.numbers, Value.fieldsNumbers]
  have hread : Value.read r.toValue.bytes = .ok r.toValue :=
    read_bytes hdepth (by simp [hnumbers])
  exact read_eq_ok_iff.2 ⟨_, hread, r.askedBy_toValue⟩

end Request

end DurableKV
