import DurableKV.Entry
import DurableKV.Proofs.Json.Canonical
import DurableKV.Proofs.Json.Members
import DurableKV.Proofs.Json.Printable
import DurableKV.Proofs.Json.Reading

/-!
# Entries through their JSON form

An entry is self-described if it is what `Entry.ofValue` makes of its own JSON form.

* `selfDescribed_command`: every command is, whatever texts and however many assignments and
  observations it holds.
* `selfDescribed_of_decode`: so is every entry that was decoded from bytes.
* `Command.decode_encode`: the bytes of a command are decoded to it.
* `Command.encode_canonical`: they are one of many ways to write it, and the only canonical one.

Commands are written in one order of fields and described by another, the order of the names. What
an object describes depends only on what it has for each name (`CommandForm.fromValue_ordered`). The
lists of a commit are left out where they are empty, so a list field is treated by itself
(`slot_listField`) instead of by four kinds of commits.
-/

namespace DurableKV

open Json

/-! ## The lists of a commit -/

/-- A record of two fields is read from an object of both. -/
theorem recordFromValue_pair {α β : Type} {r : Reading α} {s : Reading β} {k l : String}
    (hkl : k ≠ l) {v w : Value} {x : α} {y : β} (hx : r.fromValue v = .ok x)
    (hy : s.fromValue w = .ok y) (title : String) :
    ((Fields.cons k r none (.cons l s none .nil)).record title).fromValue
      (.object [(k, v), (l, w)]) = .ok (x, y, ()) := by
  have hfirst : (Fields.cons k r none (.cons l s none .nil)).readNamed? Fields.getValue k v
      (none, none, ()) = some (.ok ((some x, none, ()), ())) :=
    Fields.readNamed?_self (Fields.getValue_ok hx)
  have hsecond : (Fields.cons k r none (.cons l s none .nil)).readNamed? Fields.getValue l w
      (some x, none, ()) = some (.ok ((some x, some y, ()), ())) :=
    Fields.readNamed?_other hkl (Fields.readNamed?_self (Fields.getValue_ok hy))
  show (Fields.objectFromValue _ _ _ >>= fun draft => _) = _
  rw [Fields.blank, Fields.blank, Fields.blank, Fields.objectFromValue_field hfirst,
    Fields.objectFromValue_field hsecond]
  rfl

namespace Assignment

/-- An assignment is read back from its JSON form. -/
theorem fromValue_toValue (a : Assignment) : reading.fromValue a.toValue = .ok a := by
  rw [reading, Reading.fromValue_map, toValue, recordFromValue_pair (by decide) rfl rfl]
  rfl

/-- The JSON form of an assignment is canonical. -/
theorem canonical_toValue (a : Assignment) : a.toValue.canonical = a.toValue :=
  canonical_pair (by decide) rfl rfl

end Assignment

namespace Observation

/-- An observation is read back from its JSON form. -/
theorem fromValue_toValue (o : Observation) : reading.fromValue o.toValue = .ok o := by
  rw [reading, Reading.fromValue_map, toValue,
    recordFromValue_pair (by decide) rfl (Reading.fromValue_word64 o.version)]
  rfl

/-- The JSON form of an observation is canonical. -/
theorem canonical_toValue (o : Observation) : o.toValue.canonical = o.toValue :=
  canonical_pair (by decide) rfl rfl

end Observation

/-! ## The form of an object -/

namespace CommandForm

/-- The form of a command is read from an object field by field. -/
theorem fromValue_object (members : List (String × Value)) :
    reading.fromValue (.object members) =
      (fields.objectFromValue (none, none, none, none, none, ()) members >>= fields.finish).map
        fun (op, key, value, writes, reads, ()) => ⟨op, key, value, writes, reads⟩ :=
  rfl

/-- The form that members in order describe, if the operation is known already. The names are gone
through in their order, so the first field that is of the wrong kind is reported. -/
def ofMembers (members : List (String × Value)) (op : String) : Except ReadError CommandForm := do
  let key ← Fields.slot members "key" (.optional .text)
  let reads ← Fields.slot members "read_set" (.list Observation.reading)
  let value ← Fields.slot members "value" (.optional .text)
  let writes ← Fields.slot members "write_set" (.list Assignment.reading)
  .ok ⟨op, key.getD none, value.getD none, writes.getD [], reads.getD []⟩

/-- What has been read of a form. -/
def draft (op : Option String) (key value : Option (Option String))
    (writes : Option (List Assignment)) (reads : Option (List Observation)) :
    Draft [String, Option String, Option String, List Assignment, List Observation] :=
  (op, key, value, writes, reads, ())

section

variable (members : List (String × Value)) (op : Option String) (key value : Option (Option String))
  (writes : Option (List Assignment)) (reads : Option (List Observation))

/-- The field of the operation is taken in as a text. -/
theorem takeIn_op :
    fields.takeIn members (draft none key value writes reads) "op" =
      (Fields.slot members "op" .text).map fun op => draft op key value writes reads :=
  Fields.takeIn_self

/-- The field of the key is taken in as a text that may be missing. -/
theorem takeIn_key :
    fields.takeIn members (draft op none value writes reads) "key" =
      (Fields.slot members "key" (.optional .text)).map
        fun key => draft op key value writes reads :=
  Fields.takeIn_other (by decide) Fields.takeIn_self

/-- The field of the value is taken in as a text that may be missing. -/
theorem takeIn_value :
    fields.takeIn members (draft op key none writes reads) "value" =
      (Fields.slot members "value" (.optional .text)).map
        fun value => draft op key value writes reads :=
  Fields.takeIn_other (by decide) <| Fields.takeIn_other (by decide) Fields.takeIn_self

/-- The field of the writes is taken in as a list of assignments. -/
theorem takeIn_writes :
    fields.takeIn members (draft op key value none reads) "write_set" =
      (Fields.slot members "write_set" (.list Assignment.reading)).map
        fun writes => draft op key value writes reads :=
  Fields.takeIn_other (by decide) <| Fields.takeIn_other (by decide) <|
    Fields.takeIn_other (by decide) Fields.takeIn_self

/-- The field of the reads is taken in as a list of observations. -/
theorem takeIn_reads :
    fields.takeIn members (draft op key value writes none) "read_set" =
      (Fields.slot members "read_set" (.list Observation.reading)).map
        fun reads => draft op key value writes reads :=
  Fields.takeIn_other (by decide) <| Fields.takeIn_other (by decide) <|
    Fields.takeIn_other (by decide) <| Fields.takeIn_other (by decide) Fields.takeIn_self

/-- All fields but the operation have a default. -/
theorem finish_draft (op : String) :
    fields.finish (draft (some op) key value writes reads) =
      .ok (op, key.getD none, value.getD none, writes.getD [], reads.getD [], ()) := by
  cases key <;> cases value <;> cases writes <;> cases reads <;> rfl

end

/-- **A form is read name by name** from an object that has an operation. -/
theorem fromValue_ordered {members : List (String × Value)} {op : String}
    (hordered : members.Pairwise fun p q => p.1 < q.1)
    (hop : Table.lookupIn "op" members = some (.string op)) :
    reading.fromValue (.object members) = ofMembers members op := by
  have hknown : ∀ p ∈ members, p.1 ∈ fields.names →
      p.1 ∈ ["key", "op", "read_set", "value", "write_set"] := by
    intro p _ hp
    simp only [fields, Fields.names, List.mem_cons, List.not_mem_nil, or_false] at hp ⊢
    rcases hp with h | h | h | h | h <;> simp [h]
  have hread : fields.objectFromValue (none, none, none, none, none, ()) members = _ :=
    Fields.objectFromValue_ordered (draft none none none none none) hordered (by decide) hknown
  have hslot : Fields.slot members "op" .text = .ok (some op) := by
    rw [Fields.slot, hop]
    rfl
  have hmap : ∀ {α β : Type} (x : Except ReadError α) (f : α → β), x.map f = f <$> x :=
    fun _ _ => rfl
  have hok : ∀ {α : Type} (a : α), (Except.ok a : Except ReadError α) = pure a := fun _ => rfl
  rw [fromValue_object, hread]
  simp only [List.foldlM_cons, List.foldlM_nil, takeIn_key, takeIn_op, takeIn_reads,
    takeIn_value, takeIn_writes, finish_draft, hslot, hmap, hok, bind_map_left, map_bind,
    bind_assoc, pure_bind, ofMembers]
  rfl

/-- A form has the operation that it was read for. -/
theorem op_of_ofMembers {members : List (String × Value)} {op : String} {f : CommandForm}
    (h : ofMembers members op = .ok f) : f.op = op := by
  simp only [ofMembers, bind_eq_ok_iff] at h
  obtain ⟨key, -, reads, -, value, -, writes, -, h⟩ := h
  cases h
  rfl

end CommandForm

namespace Command

/-! ## Commands in canonical form -/

/-- The canonical form of a set. -/
theorem canonical_set (k v : String) :
    (set k v).toValue.canonical =
      .object [("key", .string k), ("op", .string setName), ("value", .string v)] := by
  simp only [toValue, Value.canonical, Value.canonicalFields, Table.ofList, List.foldl_cons,
    List.foldl_nil, Table.insert, Table.insertIn, Table.empty, String.reduceLT, String.reduceEq,
    if_true, if_false]

/-- The canonical form of a delete. -/
theorem canonical_delete (k : String) :
    (delete k).toValue.canonical = .object [("key", .string k), ("op", .string deleteName)] := by
  simp only [toValue, Value.canonical, Value.canonicalFields, Table.ofList, List.foldl_cons,
    List.foldl_nil, Table.insert, Table.insertIn, Table.empty, String.reduceLT, if_true]

/-- A list field has its own name and holds its items. -/
theorem mem_listField {α : Type} {name : String} {f : α → Value} {l : List α}
    {p : String × Value} (h : p ∈ listField name f l) : p = (name, .array (l.map f)) := by
  unfold listField at h
  split at h
  · exact absurd h List.not_mem_nil
  · exact List.mem_singleton.1 h

/-- A list field is canonical if its items are. -/
theorem canonicalFields_listField {α : Type} {f : α → Value} (h : ∀ x, (f x).canonical = f x)
    (name : String) (l : List α) :
    Value.canonicalFields (listField name f l) = listField name f l := by
  have hitems : Value.canonicalItems (l.map f) = l.map f := by
    rw [canonicalItems_eq_map, List.map_map]
    exact List.map_congr_left fun x _ => h x
  unfold listField
  split
  · rfl
  · rw [Value.canonicalFields, Value.canonical, hitems]
    rfl

/-- The canonical form of a commit. -/
theorem canonical_commit (reads : List Observation) (writes : List Assignment) :
    (commit reads writes).toValue.canonical =
      .object (("op", .string commitName) ::
        (listField "read_set" Observation.toValue reads ++
          (listField "write_set" Assignment.toValue writes ++ []))) := by
  have hsplit : ∀ fs gs : List (String × Value),
      Value.canonicalFields (fs ++ gs) = Value.canonicalFields fs ++ Value.canonicalFields gs := by
    intro fs gs
    simp only [canonicalFields_eq_map, List.map_append]
  rw [toValue, Value.canonical, Value.canonicalFields, hsplit,
    canonicalFields_listField Assignment.canonical_toValue,
    canonicalFields_listField Observation.canonical_toValue]
  unfold listField
  split <;> split <;>
    simp only [Value.canonical, Table.ofList, List.foldl_cons, List.foldl_nil, Table.insert,
      Table.insertIn, Table.empty, String.reduceLT, String.reduceEq, if_true, if_false,
      List.nil_append, List.append_nil, List.cons_append]

/-! ## Commands described by their JSON form -/

/-- The fields that a command is written with. -/
def form : Command → CommandForm
  | set key value => ⟨setName, some key, some value, [], []⟩
  | delete key => ⟨deleteName, some key, none, [], []⟩
  | commit reads writes => ⟨commitName, none, none, writes, reads⟩

section

variable {α β : Type} {f : α → Value} {name : String} {others : List (String × Value)}

/-- A list field is read back as its items, whether it was left out as empty or not. -/
theorem slot_listField {r : Reading α} (hf : ∀ x, r.fromValue (f x) = .ok x) (l : List α)
    (hothers : ∀ p ∈ others, name < p.1) :
    ∃ xs, Fields.slot (listField name f l ++ others) name r.list = .ok xs ∧ xs.getD [] = l := by
  unfold Fields.slot
  cases l with
  | nil =>
    refine ⟨none, ?_, rfl⟩
    rw [show listField name f [] ++ others = others from rfl, Table.lookupIn_eq_none hothers]
  | cons x l =>
    refine ⟨some (x :: l), ?_, rfl⟩
    have hlookup : Table.lookupIn name (listField name f (x :: l) ++ others) =
        some (.array ((x :: l).map f)) := if_pos rfl
    rw [hlookup]
    simp only [Reading.fromValue_list hf]
    rfl

/-- A list field has no part in what is read under another name. -/
theorem slot_listField_of_ne {l : List α} {other : String} {r : Reading β} (h : other ≠ name) :
    Fields.slot (listField other f l ++ others) name r = Fields.slot others name r := by
  unfold Fields.slot
  cases l with
  | nil => rfl
  | cons x l =>
    have hlookup : Table.lookupIn name (listField other f (x :: l) ++ others) =
        Table.lookupIn name others := if_neg h
    rw [hlookup]

end

/-- The form of a command is read back from its canonical form. -/
theorem fromValue_canonical (c : Command) :
    CommandForm.reading.fromValue c.toValue.canonical = .ok c.form := by
  cases c with
  | set key value =>
    rw [canonical_set,
      CommandForm.fromValue_ordered (ordered_of_canonical (canonical_set key value)) rfl]
    rfl
  | delete key =>
    rw [canonical_delete,
      CommandForm.fromValue_ordered (ordered_of_canonical (canonical_delete key)) rfl]
    rfl
  | commit reads writes =>
    have hcanonical := canonical_commit reads writes
    have hlast : ∀ p ∈ ([] : List (String × Value)), "write_set" < p.1 := List.forall_mem_nil _
    have hlater : ∀ p ∈ listField "write_set" Assignment.toValue writes ++ [],
        "read_set" < p.1 := by
      intro p hp
      rw [List.append_nil] at hp
      rw [mem_listField hp]
      exact (by decide : "read_set" < "write_set")
    obtain ⟨as, has, hwrites⟩ := slot_listField Assignment.fromValue_toValue writes hlast
    obtain ⟨os, hos, hreads⟩ := slot_listField Observation.fromValue_toValue reads hlater
    rw [hcanonical, CommandForm.fromValue_ordered (ordered_of_canonical hcanonical) rfl]
    simp (disch := decide) only [CommandForm.ofMembers, Fields.slot_cons_of_ne,
      slot_listField_of_ne, hos, has]
    show Except.ok (CommandForm.mk commitName none none (as.getD []) (os.getD [])) = _
    rw [hwrites, hreads]
    rfl

/-- A command is made of its form again. -/
theorem toCommand_form (c : Command) : c.form.toCommand = .ok c := by
  cases c <;> rfl

/-- The operation of a command is known. -/
theorem isKnownOp_opName (c : Command) : isKnownOp c.opName = true := by
  cases c <;> rfl

/-- The canonical form of a command names its operation. -/
theorem op_canonical (c : Command) :
    (c.toValue.canonical.get? "op").bind Value.text? = some c.opName := by
  cases c with
  | set key value => rw [canonical_set]; rfl
  | delete key => rw [canonical_delete]; rfl
  | commit reads writes => rw [canonical_commit]; rfl

end Command

namespace Entry

/-- An entry is described by a value if it is made of it, and *self-described* if it is made of its
own JSON form. -/
def SelfDescribed (e : Entry) : Prop := ofValue e.toValue.canonical = .ok e

/-- Every command is described by its own JSON form. -/
theorem selfDescribed_command (c : Command) : SelfDescribed (.command c) := by
  unfold SelfDescribed ofValue
  simp only [toValue, c.op_canonical, c.isKnownOp_opName, if_true, c.fromValue_canonical]
  show (c.form.toCommand >>= fun c => Except.ok (Entry.command c)) = _
  rw [c.toCommand_form]
  rfl

/-- A foreign entry keeps the value that it was made of. -/
theorem ofValue_eq_foreign {raw raw' : Value} {op : String}
    (h : ofValue raw = .ok (.foreign op raw')) : raw' = raw := by
  unfold ofValue at h
  split at h
  · cases h
  · split at h
    · obtain ⟨form, -, h⟩ := bind_eq_ok_iff.1 h
      obtain ⟨c, -, h⟩ := bind_eq_ok_iff.1 h
      cases h
    · cases h
      rfl

/-- Whatever is described by a canonical value is described by its own JSON form. -/
theorem selfDescribed_of_ofValue {raw : Value} (hraw : raw.canonical = raw) {e : Entry}
    (h : ofValue raw = .ok e) : e.SelfDescribed := by
  cases e with
  | command c => exact selfDescribed_command c
  | foreign op raw' =>
    obtain rfl := ofValue_eq_foreign h
    unfold SelfDescribed
    rw [toValue, hraw]
    exact h

/-- What is known of an entry that was decoded: it is described by its own JSON form, which is in
canonical form if the entry is foreign. -/
theorem selfDescribed_of_decode {b : Bytes} {e : Entry} (h : decode b = .ok e) :
    e.SelfDescribed := by
  obtain ⟨raw, -, h⟩ := bind_eq_ok_iff.1 h
  exact selfDescribed_of_ofValue (canonical_canonical raw) h

/-- A foreign entry that is described by its bytes is in canonical form. -/
theorem canonical_of_selfDescribed {op : String} {raw : Value}
    (h : SelfDescribed (.foreign op raw)) : raw.canonical = raw :=
  (ofValue_eq_foreign h).symm

end Entry

/-! ## Depth and numbers of commands -/

/-- A word is read back as itself. -/
theorem reread_ofWord (n : UInt64) : ∀ m ∈ (Value.ofWord n).numbers, m.reread = .ok m := by
  intro m hm
  obtain rfl := List.mem_singleton.1 hm
  have hn := n.toNat_lt
  exact reread_int (by omega) (by exact_mod_cast hn)

namespace Observation

/-- An observation is one object. -/
theorem depth_toValue (o : Observation) : o.toValue.depth = 1 := rfl

/-- The numbers of an observation are read back as themselves. -/
theorem reread_toValue (o : Observation) : ∀ m ∈ o.toValue.numbers, m.reread = .ok m := by
  intro m hm
  exact reread_ofWord o.version m (by simpa [toValue, Value.numbers, Value.fieldsNumbers] using hm)

end Observation

namespace Assignment

/-- An assignment is one object. -/
theorem depth_toValue (a : Assignment) : a.toValue.depth = 1 := rfl

/-- There is no number in an assignment. -/
theorem numbers_toValue (a : Assignment) : a.toValue.numbers = [] := rfl

end Assignment

namespace Command

/-- The fields of a commit other than its operation. -/
theorem mem_commit_fields {reads : List Observation} {writes : List Assignment}
    {p : String × Value}
    (h : p ∈ listField "write_set" Assignment.toValue writes ++
      listField "read_set" Observation.toValue reads) :
    p.2 = .array (writes.map Assignment.toValue) ∨
      p.2 = .array (reads.map Observation.toValue) := by
  rcases List.mem_append.1 h with h | h
  · exact Or.inl (by rw [mem_listField h])
  · exact Or.inr (by rw [mem_listField h])

/-- The form of a command is flat: its lists hold objects, and these hold texts and numbers. -/
theorem depth_toValue_le (c : Command) : c.toValue.depth ≤ 3 := by
  cases c with
  | set key value => exact (by decide : 1 ≤ 3)
  | delete key => exact (by decide : 1 ≤ 3)
  | commit reads writes =>
    refine Nat.succ_le_succ (Nat.max_le.2 ⟨Nat.zero_le _, (fieldsDepth_le_iff _).2 fun p hp => ?_⟩)
    rcases mem_commit_fields hp with h | h
    · rw [h, Value.depth]
      apply Nat.succ_le_succ
      rw [itemsDepth_le_iff]
      intro v hv
      obtain ⟨a, -, rfl⟩ := List.mem_map.1 hv
      exact Nat.le_of_eq a.depth_toValue
    · rw [h, Value.depth]
      apply Nat.succ_le_succ
      rw [itemsDepth_le_iff]
      intro v hv
      obtain ⟨o, -, rfl⟩ := List.mem_map.1 hv
      exact Nat.le_of_eq o.depth_toValue

/-- The numbers of a command are versions, and these are read back as themselves. -/
theorem reread_numbers (c : Command) : ∀ m ∈ c.toValue.numbers, m.reread = .ok m := by
  cases c with
  | set key value =>
    intro m hm
    exact absurd hm List.not_mem_nil
  | delete key =>
    intro m hm
    exact absurd hm List.not_mem_nil
  | commit reads writes =>
    intro m hm
    have hm : m ∈ Value.fieldsNumbers (listField "write_set" Assignment.toValue writes ++
      listField "read_set" Observation.toValue reads) := hm
    obtain ⟨p, hp, hm⟩ := (mem_fieldsNumbers _).1 hm
    rcases mem_commit_fields hp with h | h
    · rw [h, Value.numbers, mem_itemsNumbers] at hm
      obtain ⟨v, hv, hm⟩ := hm
      obtain ⟨a, -, rfl⟩ := List.mem_map.1 hv
      rw [a.numbers_toValue] at hm
      exact absurd hm List.not_mem_nil
    · rw [h, Value.numbers, mem_itemsNumbers] at hm
      obtain ⟨v, hv, hm⟩ := hm
      obtain ⟨o, -, rfl⟩ := List.mem_map.1 hv
      exact o.reread_toValue m hm

/-- The JSON form of a command is read back as itself. -/
theorem reread_toValue (c : Command) : c.toValue.reread = .ok c.toValue :=
  (reread_eq_self_iff c.toValue).2 c.reread_numbers

/-! ## Commands as bytes -/

/-- The bytes of a command are read as its JSON form. -/
theorem read_encode (c : Command) : Value.read c.encode = .ok c.toValue :=
  read_bytes (Nat.le_trans c.depth_toValue_le (by decide)) c.reread_numbers

/-- **The bytes of a command are decoded to it**, whatever texts it holds. -/
theorem decode_encode (c : Command) : Entry.decode c.encode = .ok (.command c) := by
  rw [Entry.decode, c.read_encode]
  exact Entry.selfDescribed_command c

end Command

namespace Entry

/-- An entry that is described by what its JSON form is read back as has that form again. -/
theorem reread_eq_self_of_ofValue {e : Entry} (he : e.SelfDescribed) {w : Value}
    (hw : e.toValue.reread = .ok w) (h : ofValue w.canonical = .ok e) :
    e.toValue.reread = .ok e.toValue := by
  cases e with
  | command c => exact c.reread_toValue
  | foreign op raw =>
    have hraw : raw.canonical = raw := canonical_of_selfDescribed he
    have hcanonical : w.canonical = w := canonical_of_reread raw hw hraw
    have hsame : raw = w := (ofValue_eq_foreign h).trans hcanonical
    rw [toValue, hsame] at hw ⊢
    exact hw

end Entry

/-- Bytes that describe an entry in its one written form. -/
def Entry.Canonical (b : Bytes) : Prop := ∃ e, Entry.decode b = .ok e ∧ e.bytes = b

/-- Among the bytes that describe an entry, only its written form can be canonical. -/
theorem Entry.canonical_iff_of_decode {b : Bytes} {e : Entry} (h : Entry.decode b = .ok e) :
    Canonical b ↔ b = e.bytes := by
  constructor
  · rintro ⟨e', hdecode, hbytes⟩
    rw [h] at hdecode
    cases hdecode
    exact hbytes.symm
  · intro hbytes
    exact ⟨e, h, hbytes.symm⟩

namespace Command

/-- **The bytes of a command are its canonical form.** They are decoded to it. Whatever other bytes
are decoded to it describe the same entry, which is written as the bytes of the command again, and
are canonical only if they are these bytes. -/
theorem encode_canonical (c : Command) :
    Entry.decode c.encode = .ok (.command c) ∧ Entry.Canonical c.encode ∧
      ∀ b, Entry.decode b = .ok (.command c) →
        Entry.decode c.encode = Entry.decode b ∧
        (∀ e, Entry.decode b = .ok e → e.bytes = c.encode) ∧
        (Entry.Canonical b ↔ b = c.encode) := by
  have hencode := c.decode_encode
  refine ⟨hencode, ⟨_, hencode, rfl⟩, ?_⟩
  intro b hb
  refine ⟨hencode.trans hb.symm, ?_, Entry.canonical_iff_of_decode hb⟩
  intro e he
  rw [hb] at he
  cases he
  rfl

/-- A set that is written with its fields in another order, with an escape, with blanks between them
and with a field that commands do not have. -/
theorem encode_canonical_set :
    let b := Bytes.ofText
      "\x7b \"value\": \"v\", \"key\": \"\\u006b\", \"note\": [1], \"op\": \"SET\" \x7d"
    Entry.decode b = .ok (.command (.set "k" "v")) ∧
      Entry.decode (Command.set "k" "v").encode = Entry.decode b ∧ ¬ Entry.Canonical b := by
  intro b
  have hb : Entry.decode b = .ok (.command (.set "k" "v")) := rfl
  have hne : b ≠ (Command.set "k" "v").encode := by decide +kernel
  obtain ⟨-, -, hothers⟩ := encode_canonical (.set "k" "v")
  obtain ⟨hdecode, -, hcanonical⟩ := hothers b hb
  exact ⟨hb, hdecode, fun h => hne (hcanonical.1 h)⟩

end Command

end DurableKV
