/-!
# Tables

Finite maps from texts, kept in the order of their keys. That order, code point by code point, is
also the order of the keys' UTF-8 bytes, and it is the order in which every table of the library is
written out.

A table is seen through `Table.get?`. `get?_insert`, `get?_erase` and `get?_empty` say what each
operation does to that view, and `Table.ext` that the view determines the table, since a strictly
ordered list has one arrangement.
-/

namespace DurableKV

/-- A finite map from texts to `β`, written in the order of the keys. -/
structure Table (β : Type) where
  /-- The bindings. -/
  entries : List (String × β)
  /-- Keys increase, so no key is bound twice. -/
  ordered : entries.Pairwise (fun a b => a.1 < b.1)

namespace Table

variable {β : Type}

instance [DecidableEq β] : DecidableEq (Table β) := fun s t =>
  decidable_of_iff (s.entries = t.entries)
    ⟨fun h => by cases s; cases t; cases h; rfl, fun h => h ▸ rfl⟩

instance [Repr β] : Repr (Table β) := ⟨fun t n => reprPrec t.entries n⟩

/-! ## Order of texts -/

/-- Of two different texts one is before the other. -/
theorem lt_or_lt_of_ne {a b : String} (h : a ≠ b) : a < b ∨ b < a := by
  by_cases hab : a < b
  · exact Or.inl hab
  · refine Or.inr (Classical.byContradiction fun hba => h ?_)
    exact String.le_antisymm (String.not_lt.1 hba) (String.not_lt.1 hab)

/-! ## Operations -/

/-- The table without bindings. -/
def empty : Table β := ⟨[], .nil⟩

instance : EmptyCollection (Table β) := ⟨empty⟩

instance : Inhabited (Table β) := ⟨empty⟩

/-- What `k` is bound to in a list of bindings. -/
def lookupIn (k : String) : List (String × β) → Option β
  | [] => none
  | (a, x) :: l => if a = k then some x else lookupIn k l

/-- What `k` is bound to. -/
def get? (t : Table β) (k : String) : Option β := lookupIn k t.entries

/-- Bind `k` in an ordered list of bindings, replacing an earlier binding of it. -/
def insertIn (k : String) (x : β) : List (String × β) → List (String × β)
  | [] => [(k, x)]
  | (a, y) :: l =>
    if k < a then (k, x) :: (a, y) :: l
    else if k = a then (k, x) :: l
    else (a, y) :: insertIn k x l

/-- A list holds nothing after an insertion but the new binding and what it held before. -/
theorem mem_insertIn {k : String} {x : β} {p : String × β} {l : List (String × β)} :
    p ∈ insertIn k x l → p = (k, x) ∨ p ∈ l := by
  induction l with
  | nil => simp [insertIn]
  | cons q l ih =>
    obtain ⟨a, y⟩ := q
    rw [insertIn]
    split
    · simp
    · split
      · simp only [List.mem_cons]
        exact fun h => h.imp_right Or.inr
      · simp only [List.mem_cons]
        rintro (h | h)
        · exact Or.inr (Or.inl h)
        · exact (ih h).imp_right Or.inr

/-- An insertion keeps the order of the keys. -/
theorem ordered_insertIn (k : String) (x : β) {l : List (String × β)}
    (h : l.Pairwise (fun a b => a.1 < b.1)) :
    (insertIn k x l).Pairwise (fun a b => a.1 < b.1) := by
  induction l with
  | nil => simp [insertIn]
  | cons q l ih =>
    obtain ⟨a, y⟩ := q
    obtain ⟨hhead, htail⟩ := List.pairwise_cons.1 h
    rw [insertIn]
    split
    · rename_i hka
      refine List.pairwise_cons.2 ⟨fun p hp => ?_, h⟩
      rcases List.mem_cons.1 hp with rfl | hp
      · exact hka
      · exact String.lt_trans hka (hhead p hp)
    · split
      · rename_i hka
        exact List.pairwise_cons.2 ⟨fun p hp => hka ▸ hhead p hp, htail⟩
      · rename_i hlt hne
        refine List.pairwise_cons.2 ⟨fun p hp => ?_, ih htail⟩
        rcases mem_insertIn hp with rfl | hp
        · exact (lt_or_lt_of_ne hne).resolve_left hlt
        · exact hhead p hp

/-- Bind `k` to `x`, whatever it was bound to. -/
def insert (t : Table β) (k : String) (x : β) : Table β :=
  ⟨insertIn k x t.entries, ordered_insertIn k x t.ordered⟩

/-- Unbind `k`. -/
def erase (t : Table β) (k : String) : Table β :=
  ⟨t.entries.filter (·.1 ≠ k), t.ordered.filter _⟩

/-- The number of bindings. -/
def size (t : Table β) : Nat := t.entries.length

/-- The table of a list of bindings; of two bindings of one key the later counts. -/
def ofList (l : List (String × β)) : Table β := l.foldl (fun t p => t.insert p.1 p.2) empty

/-! ## The view -/

/-- Nothing is bound in the empty table. -/
@[simp] theorem get?_empty (k : String) : (empty : Table β).get? k = none := rfl

/-- What a key is bound to in a list after an insertion. -/
theorem lookupIn_insertIn (k j : String) (x : β) (l : List (String × β)) :
    lookupIn j (insertIn k x l) = if k = j then some x else lookupIn j l := by
  induction l with
  | nil => simp [insertIn, lookupIn]
  | cons q l ih =>
    obtain ⟨a, y⟩ := q
    rw [insertIn]
    split
    · simp [lookupIn]
    · split
      · rename_i h
        subst h
        by_cases hj : k = j <;> simp [lookupIn, hj]
      · rename_i hne
        by_cases hj : a = j
        · subst hj
          simp [lookupIn, hne]
        · simp [lookupIn, hj, ih]

/-- What a key is bound to after another, or itself, has been bound. -/
@[simp] theorem get?_insert (t : Table β) (k j : String) (x : β) :
    (t.insert k x).get? j = if k = j then some x else t.get? j :=
  lookupIn_insertIn k j x t.entries

/-- What a key is bound to in a list from which the bindings of one are taken out. -/
theorem lookupIn_filter_ne (k j : String) (l : List (String × β)) :
    lookupIn j (l.filter (·.1 ≠ k)) = if k = j then none else lookupIn j l := by
  induction l with
  | nil => simp [lookupIn]
  | cons q l ih =>
    obtain ⟨a, y⟩ := q
    by_cases ha : a = k
    · subst ha
      by_cases hj : a = j <;> simp_all [lookupIn]
    · by_cases hj : a = j
      · subst hj
        simp_all [lookupIn, Ne.symm ha]
      · simp_all [lookupIn]

/-- What a key is bound to after another, or itself, has been unbound. -/
@[simp] theorem get?_erase (t : Table β) (k j : String) :
    (t.erase k).get? j = if k = j then none else t.get? j :=
  lookupIn_filter_ne k j t.entries

/-- A key before all keys of a list is not bound in it. -/
theorem lookupIn_eq_none {k : String} {l : List (String × β)} (h : ∀ p ∈ l, k < p.1) :
    lookupIn k l = none := by
  induction l with
  | nil => rfl
  | cons q l ih =>
    obtain ⟨a, y⟩ := q
    have hka : a ≠ k := fun e => String.lt_irrefl k (by simpa [e] using h (a, y) (by simp))
    simp [lookupIn, hka, ih fun p hp => h p (List.mem_cons_of_mem _ hp)]

/-- Two ordered lists that bind every key alike are the same. -/
theorem entries_ext {l m : List (String × β)} (hl : l.Pairwise (fun a b => a.1 < b.1))
    (hm : m.Pairwise (fun a b => a.1 < b.1)) (h : ∀ k, lookupIn k l = lookupIn k m) : l = m := by
  induction l generalizing m with
  | nil =>
    cases m with
    | nil => rfl
    | cons q m => simpa [lookupIn] using h q.1
  | cons p l ih =>
    obtain ⟨a, x⟩ := p
    obtain ⟨hpl, hl'⟩ := List.pairwise_cons.1 hl
    cases m with
    | nil => simpa [lookupIn] using h a
    | cons q m =>
      obtain ⟨b, y⟩ := q
      obtain ⟨hqm, hm'⟩ := List.pairwise_cons.1 hm
      have hab : a = b := by
        refine Classical.byContradiction fun hne => ?_
        rcases lt_or_lt_of_ne hne with hlt | hlt
        · have := h a
          rw [lookupIn_eq_none (l := (b, y) :: m)] at this
          · simp [lookupIn] at this
          · intro p hp
            rcases List.mem_cons.1 hp with rfl | hp
            · exact hlt
            · exact String.lt_trans hlt (hqm p hp)
        · have := h b
          rw [lookupIn_eq_none (l := (a, x) :: l)] at this
          · simp [lookupIn] at this
          · intro p hp
            rcases List.mem_cons.1 hp with rfl | hp
            · exact hlt
            · exact String.lt_trans hlt (hpl p hp)
      subst hab
      have hxy : x = y := by simpa [lookupIn] using h a
      subst hxy
      refine congrArg _ (ih hl' hm' fun k => ?_)
      by_cases hk : a = k
      · subst hk
        rw [lookupIn_eq_none hpl, lookupIn_eq_none hqm]
      · simpa [lookupIn, hk] using h k

/-- Two tables that bind every key alike are one table. -/
theorem ext {s t : Table β} (h : ∀ k, s.get? k = t.get? k) : s = t := by
  obtain ⟨l, hl⟩ := s
  obtain ⟨m, hm⟩ := t
  have : l = m := entries_ext hl hm h
  subst this
  rfl

end Table

end DurableKV
