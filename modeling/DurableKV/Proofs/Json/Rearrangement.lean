import DurableKV.Proofs.Json.Range

/-!
# Values up to the order of their fields

The order in which an object names its fields means nothing. `Value.Rearranges` relates two values
that differ in nothing else, and says so without the tables that `Value.canonical` is made with.

* `canonical_rearranges`: the canonical form of a value rearranges it, if no object in the value
  names a field twice.
* `Value.Legible`: a value of this kind that is not nested too deep, with no numbers but words. Its
  canonical form is read back from its bytes (`Legible.read_canonical`).
-/

namespace DurableKV

/-! ## Tables of lists of bindings -/

namespace Table

variable {β : Type}

/-- A new binding goes somewhere between the others. -/
theorem insertIn_perm {k : String} (x : β) {l : List (String × β)} (h : k ∉ l.map Prod.fst) :
    (insertIn k x l).Perm ((k, x) :: l) := by
  induction l with
  | nil => exact .refl _
  | cons p l ih =>
    obtain ⟨a, y⟩ := p
    rw [List.map_cons, List.mem_cons, not_or] at h
    rw [insertIn]
    split
    · exact .refl _
    · rw [if_neg h.1]
      exact ((ih h.2).cons (a, y)).trans (.swap (k, x) (a, y) l)

/-- New bindings go somewhere between the others, one after the other. -/
theorem foldl_insert_perm : (l : List (String × β)) → {t : Table β} →
    ((t.entries ++ l).map Prod.fst).Nodup →
    (l.foldl (fun t p => t.insert p.1 p.2) t).entries.Perm (t.entries ++ l)
  | [], t, _ => by
    rw [List.append_nil]
    exact .refl _
  | (k, x) :: l, t, h => by
    have hmove : (t.entries ++ (k, x) :: l).Perm ((k, x) :: (t.entries ++ l)) :=
      List.perm_middle
    have hnew := ((hmove.map Prod.fst).nodup_iff.1 h)
    rw [List.map_cons, List.nodup_cons] at hnew
    have hk : k ∉ t.entries.map Prod.fst := fun hmem => hnew.1 (by simp [hmem])
    have hinsert : ((t.insert k x).entries ++ l).Perm (t.entries ++ (k, x) :: l) :=
      ((insertIn_perm x hk).append_right l).trans hmove.symm
    exact (foldl_insert_perm l ((hinsert.map Prod.fst).nodup_iff.2 h)).trans hinsert

/-- The table of a list that binds no key twice is the list in another order. -/
theorem ofList_perm {l : List (String × β)} (h : (l.map Prod.fst).Nodup) :
    (ofList l).entries.Perm l :=
  foldl_insert_perm l h

/-- A table binds no key twice. -/
theorem nodup_keys (t : Table β) : (t.entries.map Prod.fst).Nodup := by
  refine List.pairwise_map.2 (t.ordered.imp fun hlt heq => ?_)
  rw [heq] at hlt
  exact String.lt_irrefl _ hlt

end Table

namespace Json

namespace Value

/-! ## Rearranged values -/

mutual

/-- The first value is the second but for the order in which objects name their fields. -/
inductive Rearranges : Value → Value → Prop where
  /-- No fields are named in `null`. -/
  | null : Rearranges .null .null
  /-- No fields are named in a truth value. -/
  | bool (b : Bool) : Rearranges (.bool b) (.bool b)
  /-- No fields are named in a number. -/
  | number (n : Number) : Rearranges (.number n) (.number n)
  /-- No fields are named in a text. -/
  | string (s : String) : Rearranges (.string s) (.string s)
  /-- The items of an array keep their order. -/
  | array {vs ws : List Value} (h : ItemsRearrange vs ws) : Rearranges (.array vs) (.array ws)
  /-- The fields of an object may stand in another order. -/
  | object {es fs gs : List (String × Value)} (horder : es.Perm fs) (h : FieldsRearrange fs gs) :
    Rearranges (.object es) (.object gs)

/-- The items of one list are those of the other, each but for the order of fields. -/
inductive ItemsRearrange : List Value → List Value → Prop where
  /-- No items. -/
  | nil : ItemsRearrange [] []
  /-- An item and the others. -/
  | cons {v w : Value} {vs ws : List Value} (h : Rearranges v w) (hrest : ItemsRearrange vs ws) :
    ItemsRearrange (v :: vs) (w :: ws)

/-- The fields of one list are those of the other, by name and in that order, and what they name is
the same but for the order of fields in it. -/
inductive FieldsRearrange : List (String × Value) → List (String × Value) → Prop where
  /-- No fields. -/
  | nil : FieldsRearrange [] []
  /-- A field and the others. -/
  | cons {v w : Value} {fs gs : List (String × Value)} (name : String) (h : Rearranges v w)
    (hrest : FieldsRearrange fs gs) : FieldsRearrange ((name, v) :: fs) ((name, w) :: gs)

end

/-! ## Values that name no field twice -/

mutual

/-- No object in the value names a field twice. -/
def Distinct : Value → Prop
  | .array items => ItemsDistinct items
  | .object fields => (fields.map Prod.fst).Nodup ∧ FieldsDistinct fields
  | _ => True

/-- No object in an item names a field twice. -/
def ItemsDistinct : List Value → Prop
  | [] => True
  | v :: vs => v.Distinct ∧ ItemsDistinct vs

/-- No object in the value of a field names a field twice. -/
def FieldsDistinct : List (String × Value) → Prop
  | [] => True
  | (_, v) :: fs => v.Distinct ∧ FieldsDistinct fs

end

/-- The names of fields stay when what they name is brought into canonical form. -/
theorem names_canonicalFields (fs : List (String × Value)) :
    (canonicalFields fs).map Prod.fst = fs.map Prod.fst := by
  rw [canonicalFields_eq_map, List.map_map]
  rfl

mutual

/-- **The canonical form of a value rearranges it**, if no object in it names a field twice. -/
theorem canonical_rearranges : (v : Value) → v.Distinct → v.canonical.Rearranges v
  | .null, _ => .null
  | .bool b, _ => .bool b
  | .number n, _ => .number n
  | .string s, _ => .string s
  | .array items, h => .array (canonicalItems_rearrange items h)
  | .object fields, h =>
    .object (Table.ofList_perm ((names_canonicalFields fields).symm ▸ h.1))
      (canonicalFields_rearrange fields h.2)

/-- Bringing every item into canonical form rearranges the items. -/
theorem canonicalItems_rearrange : (vs : List Value) → ItemsDistinct vs →
    ItemsRearrange (canonicalItems vs) vs
  | [], _ => .nil
  | v :: vs, h => .cons (canonical_rearranges v h.1) (canonicalItems_rearrange vs h.2)

/-- Bringing what fields name into canonical form rearranges the fields. -/
theorem canonicalFields_rearrange : (fs : List (String × Value)) → FieldsDistinct fs →
    FieldsRearrange (canonicalFields fs) fs
  | [], _ => .nil
  | (k, v) :: fs, h => .cons k (canonical_rearranges v h.1) (canonicalFields_rearrange fs h.2)

end

/-! ## Values of words -/

/-- A value that is nested so deep at most, that names no field twice, and whose numbers are all
numbers of 64 bits without a sign. -/
structure Legible (room : Nat) (v : Value) : Prop where
  /-- No more arrays and objects are open at once. -/
  depth : v.depth ≤ room
  /-- No object in the value names a field twice. -/
  distinct : v.Distinct
  /-- Every number in the value is a word. -/
  numbers : ∀ n ∈ v.numbers, ∃ w : UInt64, n = .int w.toNat

/-- What it takes that no item names a field twice. -/
theorem itemsDistinct_iff (vs : List Value) : ItemsDistinct vs ↔ ∀ v ∈ vs, v.Distinct := by
  induction vs with
  | nil => simp [ItemsDistinct]
  | cons v vs ih => simp [ItemsDistinct, ih]

/-- What it takes that nothing in fields names a field twice. -/
theorem fieldsDistinct_iff (fs : List (String × Value)) :
    FieldsDistinct fs ↔ ∀ f ∈ fs, f.2.Distinct := by
  induction fs with
  | nil => simp [FieldsDistinct]
  | cons f fs ih => simp [FieldsDistinct, ih]

section

variable {room : Nat}

/-- `null` is legible. -/
@[simp] theorem legible_null : Legible room .null := ⟨Nat.zero_le _, trivial, by simp [numbers]⟩

/-- Truth values are legible. -/
@[simp] theorem legible_bool (b : Bool) : Legible room (.bool b) :=
  ⟨Nat.zero_le _, trivial, by simp [numbers]⟩

/-- Texts are legible. -/
@[simp] theorem legible_string (s : String) : Legible room (.string s) :=
  ⟨Nat.zero_le _, trivial, by simp [numbers]⟩

/-- Words are legible. -/
@[simp] theorem legible_ofWord (n : UInt64) : Legible room (.ofWord n) :=
  ⟨Nat.zero_le _, trivial, fun _ hm => ⟨n, List.mem_singleton.1 hm⟩⟩

/-- What stands for a text that may be missing is legible. -/
@[simp] theorem legible_ofText? (s : Option String) : Legible room (.ofText? s) := by
  cases s <;> simp [ofText?]

/-- An array is legible if its items are. -/
@[simp] theorem legible_array_iff {vs : List Value} :
    Legible (room + 1) (.array vs) ↔ ∀ v ∈ vs, v.Legible room := by
  constructor
  · intro h v hv
    refine ⟨?_, (itemsDistinct_iff vs).1 h.distinct v hv, fun n hn => ?_⟩
    · exact (itemsDepth_le_iff vs).1 (Nat.le_of_succ_le_succ h.depth) v hv
    · exact h.numbers n ((mem_itemsNumbers vs).2 ⟨v, hv, hn⟩)
  · intro h
    refine ⟨?_, (itemsDistinct_iff vs).2 fun v hv => (h v hv).distinct, fun n hn => ?_⟩
    · exact Nat.succ_le_succ ((itemsDepth_le_iff vs).2 fun v hv => (h v hv).depth)
    · obtain ⟨v, hv, hn⟩ := (mem_itemsNumbers vs).1 hn
      exact (h v hv).numbers n hn

/-- An object is legible if it names no field twice and what it names is. -/
@[simp] theorem legible_object_iff {fs : List (String × Value)} :
    Legible (room + 1) (.object fs) ↔
      (fs.map Prod.fst).Nodup ∧ ∀ f ∈ fs, f.2.Legible room := by
  constructor
  · intro h
    refine ⟨h.distinct.1, fun f hf => ⟨?_, ?_, fun n hn => ?_⟩⟩
    · exact (fieldsDepth_le_iff fs).1 (Nat.le_of_succ_le_succ h.depth) f hf
    · exact (fieldsDistinct_iff fs).1 h.distinct.2 f hf
    · exact h.numbers n ((mem_fieldsNumbers fs).2 ⟨f, hf, hn⟩)
  · rintro ⟨hnames, h⟩
    refine ⟨?_, ⟨hnames, (fieldsDistinct_iff fs).2 fun f hf => (h f hf).distinct⟩, ?_⟩
    · exact Nat.succ_le_succ ((fieldsDepth_le_iff fs).2 fun f hf => (h f hf).depth)
    · intro n hn
      obtain ⟨f, hf, hn⟩ := (mem_fieldsNumbers fs).1 hn
      exact (h f hf).numbers n hn

end

/-- More room does no harm. -/
theorem Legible.mono {room room' : Nat} {v : Value} (h : v.Legible room) (hroom : room ≤ room') :
    v.Legible room' :=
  ⟨Nat.le_trans h.depth hroom, h.distinct, h.numbers⟩

/-- **A legible value is read back from its canonical form.** -/
theorem Legible.read_canonical {v : Value} (h : v.Legible nestingLimit) :
    read v.canonical.bytes = .ok v.canonical := by
  refine read_bytes (Nat.le_trans (depth_canonical_le v) h.depth) fun n hn => ?_
  obtain ⟨w, rfl⟩ := h.numbers n (mem_numbers_of_canonical v hn)
  exact reread_int (by omega) (Int.ofNat_lt.2 w.toNat_lt)

end Value

end Json

end DurableKV
