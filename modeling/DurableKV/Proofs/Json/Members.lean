import DurableKV.Proofs.Json.Reading
import DurableKV.Table

/-!
# Members of an ordered object

A record is read from an object member by member, as they stand there. If the names of the members
increase, as they do in every canonical object, one can go through the names of the record instead,
in increasing order, and look up what the object has for each of them
(`Fields.objectFromValue_ordered`). So the member of one name is all that a field depends on
(`Fields.slot`), and members without a field of their name have no part in the record.
-/

namespace DurableKV.Json.Fields

/-- The names of the fields. -/
def names : {αs : List Type} → Fields αs → List String
  | _, nil => []
  | _, cons name _ _ others => name :: others.names

/-- What is read of the member of a name, if there is one. -/
def slot {α : Type} (members : List (String × Value)) (name : String) (r : Reading α) :
    Except ReadError (Option α) :=
  match Table.lookupIn name members with
  | none => .ok none
  | some v => (r.fromValue v).map some

/-- A member in front counts for its own name only. -/
theorem slot_cons_of_ne {α : Type} {members : List (String × Value)} {other name : String}
    (h : other ≠ name) (v : Value) (r : Reading α) :
    slot ((other, v) :: members) name r = slot members name r := by
  simp only [slot, Table.lookupIn, if_neg h]

/-- What has been read once the member of a name is taken in, if there is one. -/
def takeIn {αs : List Type} (fields : Fields αs) (members : List (String × Value))
    (draft : Draft αs) (name : String) : Except ReadError (Draft αs) :=
  match Table.lookupIn name members with
  | none => .ok draft
  | some v =>
    match fields.readNamed? getValue name v draft with
    | none => .ok draft
    | some result => result.map Prod.fst

section

variable {α : Type} {αs : List Type} {members : List (String × Value)} {name : String}

/-! ## One member -/

/-- A record has no field of a name that is none of its names. -/
theorem readNamed?_eq_none {ι ο : Type}
    {get : {α : Type} → Reading α → ι → Except ReadError (α × ο)} {fields : Fields αs}
    (h : name ∉ fields.names) (input : ι) (draft : Draft αs) :
    fields.readNamed? get name input draft = none := by
  induction fields with
  | nil => rfl
  | cons fieldName r default others ih =>
    obtain ⟨held, draft⟩ := draft
    simp only [names, List.mem_cons, not_or] at h
    simp only [readNamed?, if_neg (Ne.symm h.1), ih h.2]
    rfl

/-- The first field of a record takes in the member of its name. -/
theorem takeIn_self {r : Reading α} {default : Option α} {others : Fields αs} {draft : Draft αs} :
    (cons name r default others).takeIn members (none, draft) name =
      (slot members name r).map fun x => (x, draft) := by
  unfold takeIn slot
  cases Table.lookupIn name members with
  | none => rfl
  | some v =>
    simp only [readNamed?_self (show getValue r v = _ from rfl), getValue]
    cases r.fromValue v <;> rfl

/-- The member of a later field is taken in by the later fields. -/
theorem takeIn_other {β : Type} {fieldName : String} (hne : fieldName ≠ name) {r : Reading α}
    {default : Option α} {others : Fields αs} {held : Option α} {draft : Draft αs}
    {x : Except ReadError β} {f : β → Draft αs}
    (h : others.takeIn members draft name = x.map f) :
    (cons fieldName r default others).takeIn members (held, draft) name =
      x.map fun a => (held, f a) := by
  have hothers : (cons fieldName r default others).takeIn members (held, draft) name =
      (others.takeIn members draft name).map fun d => (held, d) := by
    unfold takeIn
    cases Table.lookupIn name members with
    | none => rfl
    | some v =>
      simp only [readNamed?, if_neg hne]
      cases others.readNamed? getValue name v draft with
      | none => rfl
      | some result => cases result <;> rfl
  rw [hothers, h]
  cases x <;> rfl

/-- The first member of an object is taken in before the others are looked at. -/
theorem objectFromValue_cons (fields : Fields αs) (draft : Draft αs) (v : Value) :
    fields.objectFromValue draft ((name, v) :: members) =
      fields.takeIn ((name, v) :: members) draft name >>= fun d =>
        fields.objectFromValue d members := by
  have hread : @getValue = fun {α : Type} (r : Reading α) (v : Value) =>
      r.fromValue v >>= fun x => Except.ok (x, ()) := rfl
  simp only [objectFromValue, takeIn, Table.lookupIn, if_true, hread]
  split
  · rename_i result hresult
    rw [hresult]
    cases result <;> rfl
  · rename_i hresult
    rw [hresult]
    rfl

/-- A member in front is not taken in for another name. -/
theorem takeIn_cons_of_ne {other : String} (hne : other ≠ name) (fields : Fields αs) (v : Value)
    (draft : Draft αs) :
    fields.takeIn ((other, v) :: members) draft name = fields.takeIn members draft name := by
  simp only [takeIn, Table.lookupIn, if_neg hne]

/-- Nothing is taken in for a name before those of all members. -/
theorem takeIn_of_lt (h : ∀ p ∈ members, name < p.1) (fields : Fields αs) (draft : Draft αs) :
    fields.takeIn members draft name = .ok draft := by
  rw [takeIn, Table.lookupIn_eq_none h]

/-- Nothing is taken in for a name that is none of the record's. -/
theorem takeIn_of_notMem {fields : Fields αs} (h : name ∉ fields.names) (draft : Draft αs) :
    fields.takeIn members draft name = .ok draft := by
  unfold takeIn
  split
  · rfl
  · rw [readNamed?_eq_none h]

/-! ## All members -/

/-- A member before all names of a record has no part in what it takes in. -/
theorem foldlM_takeIn_cons_of_lt {fields : Fields αs} {other : String} {ns : List String}
    (h : ∀ n ∈ ns, other < n) (v : Value) (draft : Draft αs) :
    ns.foldlM (fields.takeIn ((other, v) :: members)) draft =
      ns.foldlM (fields.takeIn members) draft := by
  induction ns generalizing draft with
  | nil => rfl
  | cons n ns ih =>
    obtain ⟨hn, hns⟩ := List.forall_mem_cons.1 h
    have hne : other ≠ n := fun heq => String.lt_irrefl n (heq ▸ hn)
    simp only [List.foldlM_cons, takeIn_cons_of_ne hne, ih hns]

/-- **Ordered members are taken in name by name.** The names may be more than those of the record
and of the members, as long as they increase. -/
theorem objectFromValue_ordered {fields : Fields αs} (draft : Draft αs)
    (hordered : members.Pairwise fun p q => p.1 < q.1) {ns : List String}
    (hns : ns.Pairwise (· < ·)) (hknown : ∀ p ∈ members, p.1 ∈ fields.names → p.1 ∈ ns) :
    fields.objectFromValue draft members = ns.foldlM (fields.takeIn members) draft := by
  -- The names are gone through for each member up to the one that is its own.
  induction members generalizing draft ns with
  | nil =>
    induction ns with
    | nil => rfl
    | cons n ns ih =>
      rw [List.foldlM_cons, takeIn_of_lt fun p hp => absurd hp List.not_mem_nil]
      exact ih (List.pairwise_cons.1 hns).2 fun p hp => absurd hp List.not_mem_nil
  | cons member members ihmembers =>
    obtain ⟨name, v⟩ := member
    obtain ⟨hfirst, hrest⟩ := List.pairwise_cons.1 hordered
    rw [List.forall_mem_cons] at hknown
    obtain ⟨hname, hknown⟩ := hknown
    induction ns with
    | nil =>
      rw [objectFromValue_cons, takeIn_of_notMem fun h => absurd (hname h) List.not_mem_nil]
      exact ihmembers draft hrest hns hknown
    | cons n ns ihnames =>
      obtain ⟨hn, hns'⟩ := List.pairwise_cons.1 hns
      by_cases heq : name = n
      · subst heq
        rw [objectFromValue_cons, List.foldlM_cons]
        congr 1
        funext d
        rw [foldlM_takeIn_cons_of_lt hn]
        refine ihmembers d hrest hns' fun p hp hp' => ?_
        refine (List.mem_cons.1 (hknown p hp hp')).resolve_left fun heq => ?_
        exact String.lt_irrefl name (heq ▸ hfirst p hp)
      · rcases Table.lt_or_lt_of_ne heq with hlt | hlt
        · have hall : ∀ m ∈ n :: ns, name < m :=
            List.forall_mem_cons.2 ⟨hlt, fun m hm => String.lt_trans hlt (hn m hm)⟩
          rw [objectFromValue_cons, takeIn_of_notMem fun h =>
            String.lt_irrefl name (hall name (hname h)), foldlM_takeIn_cons_of_lt hall]
          exact ihmembers draft hrest hns hknown
        · have hall : ∀ p ∈ (name, v) :: members, n < p.1 :=
            List.forall_mem_cons.2 ⟨hlt, fun p hp => String.lt_trans hlt (hfirst p hp)⟩
          rw [List.foldlM_cons, takeIn_of_lt hall]
          refine ihnames hns' (fun h => ?_) fun p hp hp' => ?_
          · exact (List.mem_cons.1 (hname h)).resolve_left heq
          · refine (List.mem_cons.1 (hknown p hp hp')).resolve_left fun heq => ?_
            exact String.lt_irrefl n (heq ▸ hall p (List.mem_cons_of_mem _ hp))

end

end DurableKV.Json.Fields
