import DurableKV.Store

/-!
# What writing does to a key

* `get?_set`: a set counts the version of its key up by one; another key stays as it is.
* `version_writeAll`, `get?_writeAll`: a list of assignments counts the version of a key up by one
  for every assignment to it, and leaves the other keys as they are.
* `conflict?_eq_none_iff`: there is no conflict exactly if all observed versions still hold.
* `dispatchAll` is the store after any commands, one after the other.
-/

namespace DurableKV.Store

/-- A key that two stores hold alike has the same version in both. -/
theorem version_of_get? {s t : Store} {k : String} (h : s.get? k = t.get? k) :
    s.version k = t.version k := by
  rw [version, version, h]

/-! ## Single keys -/

/-- After a write the key has the value and the next version, and other keys are as they were. -/
theorem get?_set (s : Store) (k v j : String) :
    (s.set k v).1.get? j = if k = j then some ⟨v, s.version k + 1⟩ else s.get? j :=
  Table.get?_insert s k j _

/-- A write counts the version of its key up by one. -/
theorem version_set_self (s : Store) (k v : String) :
    (s.set k v).1.version k = s.version k + 1 := by
  rw [version, get?_set, if_pos rfl]

/-- A write leaves the other keys. -/
theorem get?_set_of_ne (s : Store) {k j : String} (h : k ≠ j) (v : String) :
    (s.set k v).1.get? j = s.get? j := by
  rw [get?_set, if_neg h]

/-- A deleted key is absent. -/
theorem get?_erase_self (s : Store) (k : String) : Table.get? (s.erase k) k = none := by
  rw [Table.get?_erase, if_pos rfl]

/-- A delete leaves the other keys. -/
theorem get?_erase_of_ne (s : Store) {k j : String} (h : k ≠ j) :
    Table.get? (s.erase k) j = s.get? j := by
  rw [Table.get?_erase, if_neg h]

/-! ## Lists of assignments -/

/-- How many of these versions were given to a key. -/
def timesWritten (k : String) (versions : List KeyVersion) : Nat :=
  versions.countP fun v => v.key = k

/-- A version of the key is one write of it. -/
theorem timesWritten_cons_self (k : String) (n : UInt64) (versions : List KeyVersion) :
    timesWritten k (⟨k, n⟩ :: versions) = timesWritten k versions + 1 :=
  List.countP_cons_of_pos (decide_eq_true rfl)

/-- A version of another key is no write of it. -/
theorem timesWritten_cons_of_ne {k j : String} (h : j ≠ k) (n : UInt64)
    (versions : List KeyVersion) :
    timesWritten k (⟨j, n⟩ :: versions) = timesWritten k versions :=
  List.countP_cons_of_neg (fun hj => h (of_decide_eq_true hj))

/-- Writing some assignments is writing the first and then the others. -/
theorem writeAll_cons (s : Store) (a : Assignment) (as : List Assignment) :
    s.writeAll (a :: as) = (((s.set a.key a.value).1.writeAll as).1,
      ⟨a.key, (s.set a.key a.value).2⟩ :: ((s.set a.key a.value).1.writeAll as).2) :=
  rfl

/-- Writing some assignments and then others is writing them one after the other. -/
theorem writeAll_append (as bs : List Assignment) (s : Store) :
    s.writeAll (as ++ bs) = (((s.writeAll as).1.writeAll bs).1,
      (s.writeAll as).2 ++ ((s.writeAll as).1.writeAll bs).2) := by
  induction as generalizing s with
  | nil => rfl
  | cons a as ih => simp only [List.cons_append, writeAll_cons, ih]

/-- Every assignment is given one version, for its key. -/
theorem map_key_writeAll (as : List Assignment) (s : Store) :
    (s.writeAll as).2.map KeyVersion.key = as.map Assignment.key := by
  induction as generalizing s with
  | nil => rfl
  | cons a as ih => simp only [writeAll_cons, List.map_cons, ih]

/-- Every assignment gets a version. -/
theorem length_writeAll (as : List Assignment) (s : Store) :
    (s.writeAll as).2.length = as.length := by
  simpa using congrArg List.length (map_key_writeAll as s)

/-- Every assignment to a key counts its version up by one. -/
theorem version_writeAll (k : String) (as : List Assignment) : (s : Store) →
    (s.writeAll as).1.version k =
      s.version k + UInt64.ofNat (timesWritten k (s.writeAll as).2) := by
  induction as with
  | nil =>
    intro s
    exact (UInt64.add_zero _).symm
  | cons a as ih =>
    intro s
    rw [writeAll_cons, ih]
    dsimp only
    by_cases h : a.key = k
    · subst h
      rw [timesWritten_cons_self, version_set_self, UInt64.ofNat_add,
        UInt64.add_comm (UInt64.ofNat _), ← UInt64.add_assoc]
      rfl
    · rw [timesWritten_cons_of_ne h, version_of_get? (s.get?_set_of_ne h a.value)]

/-- A key without assignments stays as it is. -/
theorem get?_writeAll {k : String} {as : List Assignment} : {s : Store} →
    timesWritten k (s.writeAll as).2 = 0 → (s.writeAll as).1.get? k = s.get? k := by
  induction as with
  | nil =>
    intro s _
    rfl
  | cons a as ih =>
    intro s h
    rw [writeAll_cons] at h
    by_cases hk : a.key = k
    · subst hk
      rw [timesWritten_cons_self] at h
      omega
    · rw [timesWritten_cons_of_ne hk] at h
      rw [writeAll_cons]
      exact (ih h).trans (s.get?_set_of_ne hk a.value)

/-! ## Observations -/

/-- There is no conflict exactly if every key has the version that was observed. -/
theorem conflict?_eq_none_iff (s : Store) (os : List Observation) :
    s.conflict? os = none ↔ ∀ o ∈ os, s.version o.key = o.version := by
  induction os with
  | nil => exact ⟨fun _ o ho => absurd ho List.not_mem_nil, fun _ => rfl⟩
  | cons o os ih =>
    rw [List.forall_mem_cons, conflict?]
    by_cases h : s.version o.key = o.version
    · rw [if_pos h, ih]
      exact ⟨fun hos => ⟨h, hos⟩, fun hos => hos.2⟩
    · rw [if_neg h]
      constructor
      · intro hnone
        cases hnone
      · rintro ⟨ho, -⟩
        exact absurd ho h

/-- What a commit comes to: its versions if all observations hold, else a conflict. -/
theorem dispatch_commit (s : Store) (reads : List Observation) (writes : List Assignment) :
    s.dispatch (.commit reads writes) = match s.conflict? reads with
      | none => ((s.writeAll writes).1, .committed (s.writeAll writes).2)
      | some c => (s, .conflict c) := by
  rw [dispatch, commit]
  cases s.conflict? reads <;> rfl

/-! ## Lists of commands -/

/-- The store after commands, one after the other. -/
def dispatchAll (s : Store) (cs : List Command) : Store :=
  cs.foldl (fun s c => (s.dispatch c).1) s

/-- No commands leave the store. -/
@[simp] theorem dispatchAll_nil (s : Store) : s.dispatchAll [] = s := rfl

/-- Dispatching some commands is dispatching the first and then the others. -/
@[simp] theorem dispatchAll_cons (s : Store) (c : Command) (cs : List Command) :
    s.dispatchAll (c :: cs) = (s.dispatch c).1.dispatchAll cs := rfl

/-- Dispatching some commands and then others is dispatching them one after the other. -/
theorem dispatchAll_append (s : Store) (as bs : List Command) :
    s.dispatchAll (as ++ bs) = (s.dispatchAll as).dispatchAll bs :=
  List.foldl_append

end DurableKV.Store
