import DurableKV.Proofs.Json.Depth

/-!
# Canonical values

A value is in canonical form if `Value.canonical` leaves it as it is. Entries of the log are kept in
that form, so what is proved here says what becomes of a foreign entry between memory and log.

* `canonical_object_iff`, `canonical_array_iff`: an object is canonical if its names increase and
  all its values are canonical, an array if all its items are.
* `get?_canonical`: the canonical form of an object has for a name what its last field of that name
  holds.
* `canonical_canonical`, `depth_canonical_le`: the canonical form is canonical, and no deeper.
* `canonical_of_reread`: reading a canonical value back gives a canonical one, for it changes no
  name.
-/

namespace DurableKV

/-! ## Tables of lists of bindings -/

namespace Table

variable {β : Type}

/-- Bindings that are put into a table add nothing else. -/
theorem mem_foldl_insert {p : String × β} : (l : List (String × β)) → {t : Table β} →
    p ∈ (l.foldl (fun t p => t.insert p.1 p.2) t).entries → p ∈ t.entries ∨ p ∈ l
  | [], _, h => Or.inl h
  | q :: l, t, h => by
    rcases mem_foldl_insert l h with h | h
    · rcases mem_insertIn h with rfl | h
      · exact Or.inr List.mem_cons_self
      · exact Or.inl h
    · exact Or.inr (List.mem_cons_of_mem _ h)

/-- The table of a list binds nothing but what the list binds. -/
theorem mem_ofList {p : String × β} {l : List (String × β)} (h : p ∈ (ofList l).entries) : p ∈ l :=
  (mem_foldl_insert l h).resolve_left List.not_mem_nil

/-- A binding behind all others goes to the end. -/
theorem insertIn_of_lt {k : String} {x : β} : {l : List (String × β)} → (∀ p ∈ l, p.1 < k) →
    insertIn k x l = l ++ [(k, x)]
  | [], _ => rfl
  | (a, y) :: l, h => by
    have hak : a < k := h (a, y) List.mem_cons_self
    have hka : ¬ k < a := fun hka => String.lt_irrefl a (String.lt_trans hak hka)
    have hne : k ≠ a := fun heq => String.lt_irrefl a (heq ▸ hak)
    rw [insertIn, if_neg hka, if_neg hne,
      insertIn_of_lt fun p hp => h p (List.mem_cons_of_mem _ hp)]
    rfl

/-- Bindings in order, behind those of a table, are put behind them. -/
theorem foldl_insert_of_ordered : (l : List (String × β)) → {t : Table β} →
    (t.entries ++ l).Pairwise (fun a b => a.1 < b.1) →
    (l.foldl (fun t p => t.insert p.1 p.2) t).entries = t.entries ++ l
  | [], t, _ => (List.append_nil _).symm
  | (k, x) :: l, t, h => by
    have hlast : ∀ p ∈ t.entries, p.1 < k := fun p hp =>
      (List.pairwise_append.1 h).2.2 p hp (k, x) List.mem_cons_self
    have hinsert : (t.insert k x).entries = t.entries ++ [(k, x)] := insertIn_of_lt hlast
    have hrest : ((t.insert k x).entries ++ l).Pairwise (fun a b => a.1 < b.1) := by
      rw [hinsert, List.append_assoc]
      exact h
    rw [List.foldl_cons, foldl_insert_of_ordered l hrest, hinsert, List.append_assoc]
    rfl

/-- The table of an ordered list has its bindings. -/
theorem entries_ofList {l : List (String × β)} (h : l.Pairwise (fun a b => a.1 < b.1)) :
    (ofList l).entries = l :=
  foldl_insert_of_ordered l h

/-- Of two bindings of one key in a list the later counts. -/
theorem get?_ofList (l : List (String × β)) (k : String) :
    (ofList l).get? k = lookupIn k l.reverse := by
  suffices h : ∀ l : List (String × β), (ofList l.reverse).get? k = lookupIn k l by
    simpa using h l.reverse
  intro l
  induction l with
  | nil => rfl
  | cons p l ih =>
    obtain ⟨a, x⟩ := p
    rw [ofList, List.reverse_cons, List.foldl_append, List.foldl_cons, List.foldl_nil, get?_insert,
      lookupIn]
    split
    · rfl
    · exact ih

/-- What a key is bound to if every binding is changed alike. -/
theorem lookupIn_map {γ : Type} (f : β → γ) (k : String) (l : List (String × β)) :
    lookupIn k (l.map fun p => (p.1, f p.2)) = (lookupIn k l).map f := by
  induction l with
  | nil => rfl
  | cons p l ih =>
    rw [List.map_cons, lookupIn, lookupIn]
    split
    · rfl
    · exact ih

end Table

namespace Json

/-! ## Items and fields one by one -/

/-- Items are brought into canonical form one by one. -/
theorem canonicalItems_eq_map (vs : List Value) :
    Value.canonicalItems vs = vs.map Value.canonical := by
  induction vs with
  | nil => rfl
  | cons v vs ih => rw [Value.canonicalItems, ih, List.map_cons]

/-- What fields name is brought into canonical form one by one. -/
theorem canonicalFields_eq_map (fs : List (String × Value)) :
    Value.canonicalFields fs = fs.map fun f => (f.1, f.2.canonical) := by
  induction fs with
  | nil => rfl
  | cons f fs ih => rw [Value.canonicalFields, ih, List.map_cons]

/-- Items are nested so deep at most exactly if each of them is. -/
theorem itemsDepth_le_iff {n : Nat} (vs : List Value) :
    Value.itemsDepth vs ≤ n ↔ ∀ v ∈ vs, v.depth ≤ n := by
  induction vs with
  | nil => exact ⟨fun _ v hv => absurd hv List.not_mem_nil, fun _ => Nat.zero_le n⟩
  | cons v vs ih => rw [Value.itemsDepth, Nat.max_le, ih, List.forall_mem_cons]

/-- Fields are nested so deep at most exactly if what each of them names is. -/
theorem fieldsDepth_le_iff {n : Nat} (fs : List (String × Value)) :
    Value.fieldsDepth fs ≤ n ↔ ∀ f ∈ fs, f.2.depth ≤ n := by
  induction fs with
  | nil => exact ⟨fun _ f hf => absurd hf List.not_mem_nil, fun _ => Nat.zero_le n⟩
  | cons f fs ih => rw [Value.fieldsDepth, Nat.max_le, ih, List.forall_mem_cons]

/-- A number in items is a number in one of them. -/
theorem mem_itemsNumbers {m : Number} (vs : List Value) :
    m ∈ Value.itemsNumbers vs ↔ ∃ v ∈ vs, m ∈ v.numbers := by
  induction vs with
  | nil => simp [Value.itemsNumbers]
  | cons v vs ih => simp [Value.itemsNumbers, ih]

/-- A number in fields is a number in what one of them names. -/
theorem mem_fieldsNumbers {m : Number} (fs : List (String × Value)) :
    m ∈ Value.fieldsNumbers fs ↔ ∃ f ∈ fs, m ∈ f.2.numbers := by
  induction fs with
  | nil => simp [Value.fieldsNumbers]
  | cons f fs ih => simp [Value.fieldsNumbers, ih]

/-! ## The canonical form -/

/-- Fields that name canonical values stay as they are. -/
theorem map_canonical_eq_self {fs : List (String × Value)} (h : ∀ f ∈ fs, f.2.canonical = f.2) :
    (fs.map fun f => (f.1, f.2.canonical)) = fs := by
  refine (List.map_congr_left fun f hf => ?_).trans (List.map_id' fs)
  rw [h f hf]

mutual

/-- The canonical form is canonical. -/
theorem canonical_canonical : (v : Value) → v.canonical.canonical = v.canonical
  | .null => rfl
  | .bool _ => rfl
  | .number _ => rfl
  | .string _ => rfl
  | .array items => by
    rw [Value.canonical, Value.canonical, canonicalItems_eq_map (Value.canonicalItems items),
      List.map_congr_left (canonicalItems_canonical items), List.map_id']
  | .object fields => by
    have hmem : ∀ f ∈ (Table.ofList (Value.canonicalFields fields)).entries,
        f.2.canonical = f.2 := fun f hf =>
      canonicalFields_canonical fields f (Table.mem_ofList hf)
    rw [Value.canonical, Value.canonical, canonicalFields_eq_map (Table.entries _),
      map_canonical_eq_self hmem, Table.entries_ofList (Table.ordered _)]

/-- Items in canonical form are canonical. -/
theorem canonicalItems_canonical : (vs : List Value) →
    ∀ v ∈ Value.canonicalItems vs, v.canonical = v
  | [], _, h => absurd h List.not_mem_nil
  | v :: vs, w, h => by
    rcases List.mem_cons.1 h with rfl | h
    · exact canonical_canonical v
    · exact canonicalItems_canonical vs w h

/-- What fields in canonical form name is canonical. -/
theorem canonicalFields_canonical : (fs : List (String × Value)) →
    ∀ f ∈ Value.canonicalFields fs, f.2.canonical = f.2
  | [], _, h => absurd h List.not_mem_nil
  | (k, v) :: fs, g, h => by
    rcases List.mem_cons.1 h with rfl | h
    · exact canonical_canonical v
    · exact canonicalFields_canonical fs g h

end

/-- An array is canonical exactly if its items are. -/
theorem canonical_array_iff (items : List Value) :
    (Value.array items).canonical = .array items ↔ ∀ v ∈ items, v.canonical = v := by
  rw [Value.canonical, Value.array.injEq]
  constructor
  · intro h v hv
    rw [← h] at hv
    exact canonicalItems_canonical items v hv
  · intro h
    rw [canonicalItems_eq_map, List.map_congr_left h, List.map_id']

/-- An object is canonical exactly if its names increase and what they name is canonical. -/
theorem canonical_object_iff (fields : List (String × Value)) :
    (Value.object fields).canonical = .object fields ↔
      fields.Pairwise (fun a b => a.1 < b.1) ∧ ∀ f ∈ fields, f.2.canonical = f.2 := by
  rw [Value.canonical, Value.object.injEq]
  constructor
  · intro h
    refine ⟨h ▸ Table.ordered _, fun f hf => ?_⟩
    rw [← h] at hf
    exact canonicalFields_canonical fields f (Table.mem_ofList hf)
  · rintro ⟨hordered, hcanonical⟩
    rw [canonicalFields_eq_map, map_canonical_eq_self hcanonical, Table.entries_ofList hordered]

/-- The names of a canonical object increase. -/
theorem ordered_of_canonical {v : Value} {members : List (String × Value)}
    (h : v.canonical = .object members) : members.Pairwise fun p q => p.1 < q.1 := by
  have hcanonical : (Value.object members).canonical = .object members := by
    rw [← h, canonical_canonical]
  exact ((canonical_object_iff members).1 hcanonical).1

/-- The canonical form of an object has for a name what the last field of that name holds. -/
theorem get?_canonical (fields : List (String × Value)) (name : String) :
    (Value.object fields).canonical.get? name =
      (Table.lookupIn name fields.reverse).map Value.canonical := by
  show (Table.ofList (Value.canonicalFields fields)).get? name = _
  rw [Table.get?_ofList, canonicalFields_eq_map, ← List.map_reverse, Table.lookupIn_map]

/-- Bringing a value into canonical form makes no text and loses none. -/
theorem text?_canonical (v : Value) : v.canonical.text? = v.text? := by
  cases v <;> rfl

/-- An object of two fields is canonical if its names increase and what they name is canonical. -/
theorem canonical_pair {j k : String} {v w : Value} (hnames : j < k) (hv : v.canonical = v)
    (hw : w.canonical = w) :
    (Value.object [(j, v), (k, w)]).canonical = .object [(j, v), (k, w)] := by
  refine (canonical_object_iff _).2 ⟨?_, ?_⟩
  · refine List.pairwise_cons.2 ⟨fun p hp => ?_, List.pairwise_singleton _ _⟩
    obtain rfl := List.mem_singleton.1 hp
    exact hnames
  · refine List.forall_mem_cons.2 ⟨hv, fun p hp => ?_⟩
    obtain rfl := List.mem_singleton.1 hp
    exact hw

mutual

/-- The canonical form is no deeper than the value. -/
theorem depth_canonical_le : (v : Value) → v.canonical.depth ≤ v.depth
  | .null => Nat.le_refl _
  | .bool _ => Nat.le_refl _
  | .number _ => Nat.le_refl _
  | .string _ => Nat.le_refl _
  | .array items => Nat.succ_le_succ (itemsDepth_canonical_le items)
  | .object fields => by
    apply Nat.succ_le_succ
    rw [fieldsDepth_le_iff]
    intro f hf
    exact (fieldsDepth_le_iff _).1 (fieldsDepth_canonical_le fields) f (Table.mem_ofList hf)

/-- Items in canonical form are nested no deeper. -/
theorem itemsDepth_canonical_le : (vs : List Value) →
    Value.itemsDepth (Value.canonicalItems vs) ≤ Value.itemsDepth vs
  | [] => Nat.le_refl _
  | v :: vs => by
    have hv := depth_canonical_le v
    have hvs := itemsDepth_canonical_le vs
    simp only [Value.canonicalItems, Value.itemsDepth]
    omega

/-- What fields in canonical form name is nested no deeper. -/
theorem fieldsDepth_canonical_le : (fs : List (String × Value)) →
    Value.fieldsDepth (Value.canonicalFields fs) ≤ Value.fieldsDepth fs
  | [] => Nat.le_refl _
  | (k, v) :: fs => by
    have hv := depth_canonical_le v
    have hfs := fieldsDepth_canonical_le fs
    simp only [Value.canonicalFields, Value.fieldsDepth]
    omega

end

/-! ## Canonical values read back -/

/-- Fields are read back with their names. -/
theorem rereadFields_names (fs : List (String × Value)) : {gs : List (String × Value)} →
    Value.rereadFields fs = .ok gs → gs.map Prod.fst = fs.map Prod.fst := by
  induction fs with
  | nil =>
    intro gs h
    cases h
    rfl
  | cons f fs ih =>
    intro gs h
    obtain ⟨w, -, h⟩ := bind_eq_ok_iff.1 h
    obtain ⟨gs, hgs, h⟩ := bind_eq_ok_iff.1 h
    cases h
    rw [List.map_cons, List.map_cons, ih hgs]

/-- A list of bindings is in order exactly if its keys are. -/
theorem ordered_iff_names {β : Type} (l : List (String × β)) :
    l.Pairwise (fun a b => a.1 < b.1) ↔ (l.map Prod.fst).Pairwise (· < ·) :=
  List.pairwise_map.symm

mutual

/-- What a canonical value is read back as is canonical. -/
theorem canonical_of_reread : (v : Value) → {w : Value} → v.reread = .ok w →
    v.canonical = v → w.canonical = w
  | .null, w, h, _ => by cases h; rfl
  | .bool _, w, h, _ => by cases h; rfl
  | .string _, w, h, _ => by cases h; rfl
  | .number _, w, h, _ => by
    obtain ⟨m, -, rfl⟩ := map_eq_ok_iff.1 h
    rfl
  | .array items, w, h, hcanonical => by
    obtain ⟨ws, hws, rfl⟩ := map_eq_ok_iff.1 h
    rw [canonical_array_iff] at hcanonical ⊢
    exact canonical_of_rereadItems items hws hcanonical
  | .object fields, w, h, hcanonical => by
    obtain ⟨gs, hgs, rfl⟩ := map_eq_ok_iff.1 h
    rw [canonical_object_iff] at hcanonical ⊢
    obtain ⟨hordered, hcanonical⟩ := hcanonical
    refine ⟨?_, canonical_of_rereadFields fields hgs hcanonical⟩
    rw [ordered_iff_names, rereadFields_names fields hgs, ← ordered_iff_names]
    exact hordered

/-- What canonical items are read back as is canonical. -/
theorem canonical_of_rereadItems : (vs : List Value) → {ws : List Value} →
    Value.rereadItems vs = .ok ws → (∀ v ∈ vs, v.canonical = v) → ∀ w ∈ ws, w.canonical = w
  | [], ws, h, _ => by
    cases h
    intro w hw
    exact absurd hw List.not_mem_nil
  | v :: vs, ws, h, hcanonical => by
    obtain ⟨w, hw, h⟩ := bind_eq_ok_iff.1 h
    obtain ⟨ws, hws, h⟩ := bind_eq_ok_iff.1 h
    cases h
    rw [List.forall_mem_cons] at hcanonical ⊢
    exact ⟨canonical_of_reread v hw hcanonical.1, canonical_of_rereadItems vs hws hcanonical.2⟩

/-- What fields that name canonical values are read back as names canonical values. -/
theorem canonical_of_rereadFields : (fs : List (String × Value)) → {gs : List (String × Value)} →
    Value.rereadFields fs = .ok gs → (∀ f ∈ fs, f.2.canonical = f.2) →
    ∀ g ∈ gs, g.2.canonical = g.2
  | [], gs, h, _ => by
    cases h
    intro g hg
    exact absurd hg List.not_mem_nil
  | (k, v) :: fs, gs, h, hcanonical => by
    obtain ⟨w, hw, h⟩ := bind_eq_ok_iff.1 h
    obtain ⟨gs, hgs, h⟩ := bind_eq_ok_iff.1 h
    cases h
    rw [List.forall_mem_cons] at hcanonical ⊢
    exact ⟨canonical_of_reread v hw hcanonical.1, canonical_of_rereadFields fs hgs hcanonical.2⟩

end

end Json

end DurableKV
