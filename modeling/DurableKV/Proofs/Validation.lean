import DurableKV.Proofs.Clients
import DurableKV.Proofs.Runs

/-!
# What a commit validates

A transaction commits only if every version that it observed is still the version of its key. A
version is how often the key has been written since it was last absent, so a key that is deleted and
written as often again has its old version with another value. `read_until_commit` says how far a
read is true at the commit: its value still stands, unless the key was recreated in between or its
version, a word of 64 bits, has come round. `commit_after_recreation` is a run in which it is not.

The invariant is `Store.Advanced`: as long as a key is not deleted, its version goes up by one with
every write, and without a write it keeps its value.
-/

namespace DurableKV

/-! ## Writes without a delete -/

/-- How a key changes if it is written so often and never deleted. -/
def Store.Advanced (k : String) (s t : Store) (n : Nat) : Prop :=
  t.version k = s.version k + UInt64.ofNat n ∧ (n = 0 → t.get? k = s.get? k)

namespace Store

/-- A key that nothing is done to has not advanced. -/
theorem Advanced.refl (k : String) (s : Store) : Advanced k s s 0 :=
  ⟨(UInt64.add_zero _).symm, fun _ => rfl⟩

/-- A key advances by the writes before and those after. -/
theorem Advanced.trans {k : String} {s t u : Store} {n m : Nat} (h : Advanced k s t n)
    (h' : Advanced k t u m) : Advanced k s u (n + m) := by
  refine ⟨?_, fun hnone => ?_⟩
  · rw [h'.1, h.1, UInt64.ofNat_add, UInt64.add_assoc]
  · rw [h'.2 (by omega), h.2 (by omega)]

/-- A write advances its key by one. -/
theorem advanced_set_self (s : Store) (k v : String) : Advanced k s (s.set k v).1 1 :=
  ⟨s.version_set_self k v, fun h => absurd h Nat.one_ne_zero⟩

/-- A write of another key does not advance a key. -/
theorem advanced_set_of_ne (s : Store) {k j : String} (h : j ≠ k) (v : String) :
    Advanced k s (s.set j v).1 0 := by
  have hget := s.get?_set_of_ne h v
  refine ⟨?_, fun _ => hget⟩
  rw [version_of_get? hget]
  exact (UInt64.add_zero _).symm

/-- A delete of another key does not advance a key. -/
theorem advanced_erase_of_ne (s : Store) {k j : String} (h : j ≠ k) :
    Advanced k s (s.erase j) 0 := by
  have hget := s.get?_erase_of_ne h
  refine ⟨?_, fun _ => hget⟩
  rw [version_of_get? hget]
  exact (UInt64.add_zero _).symm

/-- Assignments advance a key as often as they write it. -/
theorem advanced_writeAll (k : String) (s : Store) (as : List Assignment) :
    Advanced k s (s.writeAll as).1 (timesWritten k (s.writeAll as).2) :=
  ⟨s.version_writeAll k as, get?_writeAll⟩

end Store

/-! ## Runs of a service -/

namespace Service

/-- How often an operation writes a key, by its answer. -/
def timesWritten (k : String) (s : Service Replica) : Operation → Nat
  | .set key value =>
    match (s.set key value).1 with
    | .ok _ => if key = k then 1 else 0
    | .error _ => 0
  | .commit id =>
    match (s.commit id).1 with
    | .ok versions => Store.timesWritten k versions
    | .error _ => 0
  | _ => 0

/-- How often operations write a key, one after the other. -/
def timesWrittenIn (k : String) : Service Replica → List Operation → Nat
  | _, [] => 0
  | s, op :: ops => timesWritten k s op + timesWrittenIn k (s.perform op) ops

/-- One of these operations deletes a key. The operations before and after it are named. -/
def DeletesBetween (k : String) (s : Service Replica) (ops before after : List Operation) : Prop :=
  ops = before ++ .delete k :: after ∧ ((s.performAll before).delete k).1 = .ok ()

/-- A key is deleted and then written again. -/
def Recreates (k : String) (s : Service Replica) (ops : List Operation) : Prop :=
  ∃ before after, s.DeletesBetween k ops before after ∧
    0 < timesWrittenIn k (s.performAll (before ++ [.delete k])) after

/-- The version of a key has come round: a key that is present has version 0, or so many writes
follow that its version is what it was. -/
def ComesRound (k : String) (s : Service Replica) (ops : List Operation) : Prop :=
  (∃ x, s.store.get? k = some x ∧ x.version = 0) ∨ UInt64.size ≤ timesWrittenIn k s ops

/-! ## What an operation does to a key -/

/-- An operation that leaves the store as it was writes nothing. -/
theorem advanced_of_kept {k : String} {s : Service Replica} {op : Operation}
    (hstore : (s.perform op).store = s.store) (htimes : timesWritten k s op = 0) :
    Store.Advanced k s.store (s.perform op).store (timesWritten k s op) := by
  rw [hstore, htimes]
  exact Store.Advanced.refl k s.store

/-- Setting a key writes it once, if it is answered so. -/
theorem advanced_perform_set (k : String) (s : Service Replica) (key value : String) :
    Store.Advanced k s.store (s.perform (.set key value)).store
      (timesWritten k s (.set key value)) := by
  rw [perform_set, timesWritten]
  rcases s.set_cases key value with ⟨r, hset, hstore⟩ | ⟨e, s', hset, hstore, -⟩
  · rw [hset]
    show Store.Advanced k s.store r.store (if key = k then 1 else 0)
    rw [hstore]
    by_cases hkey : key = k
    · subst hkey
      rw [if_pos rfl]
      exact s.store.advanced_set_self key value
    · rw [if_neg hkey]
      exact s.store.advanced_set_of_ne hkey value
  · rw [hset]
    show Store.Advanced k s.store s'.store 0
    rw [hstore]
    exact Store.Advanced.refl k s.store

/-- A delete that succeeds makes its key absent; otherwise it does nothing to a key. -/
theorem perform_delete_cases (k : String) (s : Service Replica) (key : String) :
    (key = k ∧ (s.delete k).1 = .ok () ∧ (s.perform (.delete key)).store.get? k = none) ∨
      Store.Advanced k s.store (s.perform (.delete key)).store 0 := by
  rw [perform_delete]
  rcases s.delete_cases key with ⟨r, hdelete, hstore⟩ | ⟨e, s', hdelete, hstore, -⟩
  · by_cases hkey : key = k
    · subst hkey
      refine Or.inl ⟨rfl, congrArg Prod.fst hdelete, ?_⟩
      rw [hdelete]
      show Table.get? r.store key = none
      rw [hstore]
      exact s.store.get?_erase_self key
    · apply Or.inr
      rw [hdelete]
      show Store.Advanced k s.store r.store 0
      rw [hstore]
      exact s.store.advanced_erase_of_ne hkey
  · apply Or.inr
    rw [hdelete]
    show Store.Advanced k s.store s'.store 0
    rw [hstore]
    exact Store.Advanced.refl k s.store

/-- A commit writes a key as often as it answers with a version of it. -/
theorem advanced_perform_commit (k : String) (s : Service Replica) (id : String) :
    Store.Advanced k s.store (s.perform (.commit id)).store (timesWritten k s (.commit id)) := by
  rw [perform_commit, timesWritten]
  rcases s.commit_cases id with ⟨t, r, -, -, hcommit, hstore⟩ | ⟨e, s', hcommit, hstore, -⟩
  · rw [hcommit]
    show Store.Advanced k s.store r.store (Store.timesWritten k (s.store.writeAll t.writes).2)
    rw [hstore]
    exact s.store.advanced_writeAll k t.writes
  · rw [hcommit]
    show Store.Advanced k s.store s'.store 0
    rw [hstore]
    exact Store.Advanced.refl k s.store

/-- **One operation** deletes a key, or writes it as often as its answer tells. -/
theorem perform_cases (k : String) (s : Service Replica) (op : Operation) :
    (op = .delete k ∧ (s.delete k).1 = .ok () ∧ (s.perform op).store.get? k = none) ∨
      Store.Advanced k s.store (s.perform op).store (timesWritten k s op) := by
  cases op with
  | get key =>
    refine Or.inr (advanced_of_kept ?_ rfl)
    rw [perform_get, s.get_kept key]
  | set key value => exact Or.inr (s.advanced_perform_set k key value)
  | delete key =>
    rcases s.perform_delete_cases k key with ⟨rfl, hdelete, habsent⟩ | hkept
    · exact Or.inl ⟨rfl, hdelete, habsent⟩
    · exact Or.inr hkept
  | begin id => exact Or.inr (advanced_of_kept rfl rfl)
  | read id key =>
    refine Or.inr (advanced_of_kept ?_ rfl)
    rw [perform_read]
    rcases s.read_cases id key with ⟨t, -, hread⟩ | ⟨e, hread⟩
    · rw [hread]
      rfl
    · rw [hread]
  | stageWrite id key value =>
    refine Or.inr (advanced_of_kept ?_ rfl)
    rw [perform_stageWrite]
    rcases s.stageWrite_cases id key value with ⟨t, -, hwrite⟩ | ⟨e, hwrite⟩
    · rw [hwrite]
      rfl
    · rw [hwrite]
  | commit id => exact Or.inr (s.advanced_perform_commit k id)
  | abort id => exact Or.inr (advanced_of_kept rfl rfl)
  | join nodeId address => exact Or.inr (advanced_of_kept (s.join_kept nodeId address).1 rfl)

/-! ## What a run does to a key -/

/-- The writes of a key in a run are those in its first operations and those in the others. -/
theorem timesWrittenIn_append (k : String) (as bs : List Operation) : (s : Service Replica) →
    timesWrittenIn k s (as ++ bs) =
      timesWrittenIn k s as + timesWrittenIn k (s.performAll as) bs := by
  induction as with
  | nil =>
    intro s
    exact (Nat.zero_add _).symm
  | cons a as ih =>
    intro s
    rw [List.cons_append, timesWrittenIn, timesWrittenIn, ih, Nat.add_assoc]
    rfl

/-- **A run** either never deletes a key and writes it as often as the answers tell, or does so
since it last deleted it. -/
theorem performAll_cases (k : String) (ops : List Operation) : (s : Service Replica) →
    Store.Advanced k s.store (s.performAll ops).store (timesWrittenIn k s ops) ∨
      ∃ before after, s.DeletesBetween k ops before after ∧ ∃ t : Store, t.get? k = none ∧
        Store.Advanced k t (s.performAll ops).store
          (timesWrittenIn k (s.performAll (before ++ [.delete k])) after) := by
  induction ops with
  | nil =>
    intro s
    exact Or.inl (Store.Advanced.refl k s.store)
  | cons op ops ih =>
    intro s
    rcases ih (s.perform op) with hrest | ⟨before, after, ⟨hops, hdelete⟩, t, ht, hsince⟩
    · rcases s.perform_cases k op with ⟨rfl, hdelete, habsent⟩ | hstep
      · exact Or.inr ⟨[], ops, ⟨rfl, hdelete⟩, _, habsent, hrest⟩
      · exact Or.inl (hstep.trans hrest)
    · exact Or.inr ⟨op :: before, after, ⟨congrArg (op :: ·) hops, hdelete⟩, t, ht, hsince⟩

/-! ## What a transaction has observed -/

/-- An observation of a transaction, as long as it is open. -/
def Observes (s : Service Replica) (id : String) (o : Observation) : Prop :=
  ∀ t, s.transactions.get? id = some t → o ∈ t.reads

/-- An observation stays with a transaction where the open ones stay or one of them is closed. -/
theorem observes_of_transactions {s s' : Service Replica} {id : String} {o : Observation}
    (h : s.Observes id o)
    (hkept : s'.transactions = s.transactions ∨ ∃ id', s'.transactions = s.transactions.clear id') :
    s'.Observes id o := by
  intro t ht
  rcases hkept with hkept | ⟨id', hkept⟩
  · rw [hkept] at ht
    exact h t ht
  · rw [hkept, Transactions.clear, Table.get?_erase] at ht
    split at ht
    · cases ht
    · exact h t ht

/-- Changing what a transaction has staged keeps its observations. -/
theorem observes_of_insert {s s' : Service Replica} {id : String} {o : Observation}
    (h : s.Observes id o) {id' : String} {t t' : Transaction}
    (ht : s.transactions.get? id' = some t) (hreads : ∀ o ∈ t.reads, o ∈ t'.reads)
    (hinsert : s'.transactions = s.transactions.insert id' t') : s'.Observes id o := by
  intro u hu
  rw [hinsert, Table.get?_insert] at hu
  by_cases hid : id' = id
  · subst hid
    rw [if_pos rfl] at hu
    cases hu
    exact hreads o (h t ht)
  · rw [if_neg hid] at hu
    exact h u hu

/-- A transaction keeps its observations through every operation but another begin under its id. -/
theorem observes_perform {s : Service Replica} {id : String} {o : Observation} {op : Operation}
    (hop : op ≠ .begin id) (h : s.Observes id o) : (s.perform op).Observes id o := by
  cases op with
  | get key =>
    rw [perform_get, s.get_kept key]
    exact h
  | set key value =>
    rw [perform_set]
    rcases s.set_cases key value with ⟨r, hset, -⟩ | ⟨e, s', hset, -, hkept⟩
    · rw [hset]
      exact h
    · rw [hset]
      exact observes_of_transactions h (Or.inl hkept)
  | delete key =>
    rw [perform_delete]
    rcases s.delete_cases key with ⟨r, hdelete, -⟩ | ⟨e, s', hdelete, -, hkept⟩
    · rw [hdelete]
      exact h
    · rw [hdelete]
      exact observes_of_transactions h (Or.inl hkept)
  | begin id' =>
    intro t ht
    have hne : id' ≠ id := fun hid => hop (congrArg Operation.begin hid)
    rw [perform_begin, begin, Transactions.begin, Table.get?_insert, if_neg hne] at ht
    exact h t ht
  | read id' key =>
    rw [perform_read]
    rcases s.read_cases id' key with ⟨t, ht, hread⟩ | ⟨e, hread⟩
    · rw [hread]
      refine observes_of_insert h ht ?_ rfl
      intro o ho
      exact List.mem_append_left _ ho
    · rw [hread]
      exact h
  | stageWrite id' key value =>
    rw [perform_stageWrite]
    rcases s.stageWrite_cases id' key value with ⟨t, ht, hwrite⟩ | ⟨e, hwrite⟩
    · rw [hwrite]
      refine observes_of_insert h ht ?_ rfl
      intro o ho
      exact ho
    · rw [hwrite]
      exact h
  | commit id' =>
    rw [perform_commit]
    rcases s.commit_cases id' with ⟨t, r, -, -, hcommit, -⟩ | ⟨e, s', hcommit, -, hkept⟩
    · rw [hcommit]
      exact observes_of_transactions h (Or.inr ⟨id', rfl⟩)
    · rw [hcommit]
      exact observes_of_transactions h (hkept.imp_right fun hclear => ⟨id', hclear⟩)
  | abort id' => exact observes_of_transactions h (Or.inr ⟨id', rfl⟩)
  | join nodeId address =>
    exact observes_of_transactions h (Or.inl (s.join_kept nodeId address).2)

/-- An observation stays with a transaction over a run that does not begin it anew. -/
theorem observes_performAll {id : String} {o : Observation} {ops : List Operation} :
    {s : Service Replica} → .begin id ∉ ops → s.Observes id o →
    (s.performAll ops).Observes id o := by
  induction ops with
  | nil =>
    intro s _ h
    exact h
  | cons op ops ih =>
    intro s hfresh h
    rw [List.mem_cons, not_or] at hfresh
    exact ih hfresh.2 (observes_perform (fun hop => hfresh.1 hop.symm) h)

/-- What a read has observed stands at a commit that succeeds. -/
theorem version_eq_of_commit {s : Service Replica} {id : String} {o : Observation}
    (h : s.Observes id o) {versions : List KeyVersion} (hcommit : (s.commit id).1 = .ok versions) :
    s.store.version o.key = o.version := by
  rcases s.commit_cases id with ⟨t, r, ht, hconflict, -, -⟩ | ⟨e, s', herror, -, -⟩
  · exact (s.store.conflict?_eq_none_iff t.reads).1 hconflict o (h t ht)
  · rw [herror] at hcommit
    cases hcommit

/-! ## Reads at the commit -/

/-- A version that so many writes leave as it is has come round, or there was none. -/
theorem le_of_add_ofNat_eq_self {v : UInt64} {n : Nat} (h : v = v + UInt64.ofNat n) (hn : n ≠ 0) :
    UInt64.size ≤ n := by
  have hzero : UInt64.ofNat n = 0 :=
    ((UInt64.add_right_inj v).1 ((UInt64.add_zero v).trans h)).symm
  have hmod : n % UInt64.size = 0 := by
    have h := congrArg UInt64.toNat hzero
    rwa [UInt64.toNat_ofNat'] at h
  exact Nat.le_of_dvd (Nat.pos_of_ne_zero hn) (Nat.dvd_of_mod_eq_zero hmod)

/-- What a read stages is observed. -/
theorem observes_of_read {s s' : Service Replica} {id k : String} {v : Option String}
    (h : s.read id k = (.ok v, s')) :
    v = (s.store.get? k).map Versioned.value ∧ s'.store = s.store ∧
      s'.Observes id ⟨k, s.store.version k⟩ := by
  rcases s.read_cases id k with ⟨t, -, hread⟩ | ⟨e, hread⟩
  · rw [h] at hread
    cases hread
    refine ⟨rfl, rfl, fun u hu => ?_⟩
    rw [Table.get?_insert, if_pos rfl] at hu
    cases hu
    exact List.mem_append_right _ (List.mem_singleton_self _)
  · rw [h] at hread
    cases hread

/-- **How far a read is true at the commit.** A transaction reads a key. After any operations of any
clients, of which none begins a transaction under the same id, the transaction commits. Then what it
read is what the key holds just before the commit, unless a value was read and the key was deleted
and written again in between, or the version of the key has come round. -/
theorem read_until_commit {s s' : Service Replica} {id k : String} {v : Option String}
    (hread : s.read id k = (.ok v, s')) {ops : List Operation} (hfresh : .begin id ∉ ops)
    {versions : List KeyVersion} (hcommit : ((s'.performAll ops).commit id).1 = .ok versions) :
    ((s'.performAll ops).store.get? k).map Versioned.value = v ∨
      v ≠ none ∧ s'.Recreates k ops ∨ s'.ComesRound k ops := by
  obtain ⟨hv, hstore, hobserves⟩ := observes_of_read hread
  have hversion : (s'.performAll ops).store.version k = s'.store.version k := by
    rw [hstore]
    exact version_eq_of_commit (observes_performAll hfresh hobserves) hcommit
  rw [← hstore] at hv
  rcases performAll_cases k ops s' with ⟨hcount, hsame⟩ | ⟨before, after, hdeletes, t, ht, hsince⟩
  · by_cases hnone : timesWrittenIn k s' ops = 0
    · rw [hsame hnone]
      exact Or.inl hv.symm
    · rw [hversion] at hcount
      exact Or.inr (Or.inr (Or.inr (le_of_add_ofNat_eq_self hcount hnone)))
  · obtain ⟨hcount, hsame⟩ := hsince
    have habsent : t.version k = 0 := by rw [Store.version, ht]
    rw [hversion, habsent] at hcount
    by_cases hnone : timesWrittenIn k (s'.performAll (before ++ [.delete k])) after = 0
    · -- the key is absent at the commit, so it was observed at version 0
      rw [hsame hnone, ht]
      rw [hnone] at hcount
      cases hfound : s'.store.get? k with
      | none =>
        rw [hfound] at hv
        exact Or.inl hv.symm
      | some x =>
        rw [Store.version, hfound] at hcount
        exact Or.inr (Or.inr (Or.inl ⟨x, hfound, hcount⟩))
    · cases hfound : s'.store.get? k with
      | none =>
        -- a key that was absent has version 0 again after a write
        rw [Store.version, hfound] at hcount
        have hround := le_of_add_ofNat_eq_self hcount hnone
        refine Or.inr (Or.inr (Or.inr (Nat.le_trans hround ?_)))
        rw [hdeletes.1, List.append_cons before _ after, timesWrittenIn_append]
        exact Nat.le_add_left _ _
      | some x =>
        rw [hfound] at hv
        refine Or.inr (Or.inl ⟨?_, before, after, hdeletes, Nat.pos_of_ne_zero hnone⟩)
        rw [hv]
        exact Option.some_ne_none _

/-! ## A read and other clients -/

/-- A run in which nobody deletes the key does not recreate it. -/
theorem not_recreates_of_notMem {k : String} {ops : List Operation} (h : .delete k ∉ ops)
    (s : Service Replica) : ¬ s.Recreates k ops := by
  rintro ⟨before, after, ⟨hops, -⟩, -⟩
  apply h
  rw [hops]
  simp

/-- Setting another key does not write this one, whatever is answered. -/
theorem timesWritten_set_of_ne {k key : String} (h : key ≠ k) (s : Service Replica)
    (value : String) : timesWritten k s (.set key value) = 0 := by
  rw [timesWritten]
  split
  · exact if_neg h
  · rfl

/-- A service whose replica has accepted a command. -/
def accepting (s : Service Replica) (c : Command) : Service Replica :=
  { s with consensus := s.consensus.accept (.command c) }

section

variable {s : Service Replica} (h : s.consensus.Ready)

include h

/-- A service that has accepted a command accepts the next one too. -/
theorem ready_accepting (c : Command) : (s.accepting c).consensus.Ready := h.accept _

/-- A ready service sets a key. -/
theorem perform_set_of_ready {key : String} (hkey : key ≠ "") (value : String) :
    s.perform (.set key value) = s.accepting (.set key value) := by
  rw [perform_set, set_of_ready h hkey]
  rfl

/-- A ready service deletes a key. -/
theorem perform_delete_of_ready {key : String} (hkey : key ≠ "") :
    s.perform (.delete key) = s.accepting (.delete key) := by
  rw [perform_delete, delete_of_ready h hkey]
  rfl

end

/-- The store has taken the command. -/
theorem store_accepting (s : Service Replica) (c : Command) :
    (s.accepting c).store = (s.store.dispatch c).1 :=
  Replica.accept_store s.consensus (.command c)

/-- A key is set to `a` on a node that has just been booted, and a transaction reads it. -/
theorem exists_reader :
    let config : Config := { nodeId := "n", dataDir := "data" }
    ∃ node d' s', Node.boot {} config true Nat.repr = (.ok node, d') ∧
      (node.service.performAll [.set "k" "a", .begin "t"]).read "t" "k" = (.ok (some "a"), s') ∧
      s'.consensus.Ready ∧ s'.store = ((∅ : Store).set "k" "a").1 ∧
      s'.transactions.get? "t" = some { reads := [⟨"k", 1⟩] } := by
  intro config
  have hfresh : ({} : Disk).HoldsNoLog config.dataDir := Disk.holdsNoLog_empty
  obtain ⟨machine, stats, hboot, hrestored⟩ := Node.boot_of_holdsNoLog hfresh true Nat.repr
  let booted := (Node.ofMachine config true Nat.repr machine stats).service
  have hready : booted.consensus.Ready := Replica.ready_bootstrap hrestored.healthy _ _
  have hempty : booted.store = ∅ := hrestored.store
  let begun := (booted.accepting (.set "k" "a")).begin "t"
  have hbegun : booted.performAll [.set "k" "a", .begin "t"] = begun := by
    rw [performAll_cons, perform_set_of_ready hready (by decide), performAll_cons, perform_begin,
      performAll_nil]
  have hstore : begun.store = ((∅ : Store).set "k" "a").1 := by
    show (booted.accepting (.set "k" "a")).store = _
    rw [store_accepting, hempty]
    rfl
  have hopen : begun.transactions.get? "t" = some {} :=
    (Table.get?_insert booted.transactions "t" "t" {}).trans (if_pos rfl)
  let observed : Service Replica := { begun with
    transactions := begun.transactions.insert "t" { reads := [⟨"k", 1⟩] } }
  refine ⟨_, _, observed, Prod.ext hboot rfl, ?_, ready_accepting hready _, hstore, ?_⟩
  · rw [hbegun, begun.read_of_open (show "k" ≠ "" by decide) hopen, hstore]
    rfl
  · exact (Table.get?_insert begun.transactions "t" "t" _).trans (if_pos rfl)

/-- What a client does that sets a key and then writes it again in a transaction of its own. -/
def settingTwice (key x y id : String) : List Operation :=
  [.set key x, .begin id, .stageWrite id key y, .commit id]

/-- A ready service does all of it. No other key is written, and no other transaction is touched. -/
theorem settingTwice_of_ready {s : Service Replica} (h : s.consensus.Ready) {key : String}
    (hkey : key ≠ "") (x y id : String) :
    ∃ s', s.performAll (settingTwice key x y id) = s' ∧ s'.consensus.Ready ∧
      s'.store = ((s.store.set key x).1.set key y).1 ∧
      (∀ id', id' ≠ id → s'.transactions.get? id' = s.transactions.get? id') ∧
      ∀ k, key ≠ k → timesWrittenIn k s (settingTwice key x y id) = 0 := by
  let begun := (s.accepting (.set key x)).begin id
  have hset : s.perform (.set key x) = s.accepting (.set key x) := perform_set_of_ready h hkey x
  have hbegun : begun.transactions.get? id = some {} :=
    (Table.get?_insert s.transactions id id {}).trans (if_pos rfl)
  let t : Transaction := { writes := [⟨key, y⟩] }
  let staged : Service Replica := { begun with transactions := begun.transactions.insert id t }
  have hstage : begun.perform (.stageWrite id key y) = staged := by
    rw [perform_stageWrite, begun.stageWrite_of_open hkey hbegun]
    rfl
  have hready : staged.consensus.Ready := ready_accepting h _
  have hopen : staged.transactions.get? id = some t :=
    (Table.get?_insert begun.transactions id id t).trans (if_pos rfl)
  have hstore : staged.store = (s.store.set key x).1 := s.store_accepting (.set key x)
  let closed : Service Replica := { staged.accepting t.toCommand with
    transactions := staged.transactions.clear id }
  have hcommit : staged.commit id =
      (.ok [⟨key, ((s.store.set key x).1.set key y).2⟩], closed) := by
    rw [commit_of_ready hready hopen, hstore]
    rfl
  refine ⟨closed, ?_, hready.accept _, ?_, fun id' hid => ?_, fun k hk => ?_⟩
  · rw [settingTwice, performAll_cons, hset, performAll_cons, perform_begin, performAll_cons, hstage,
      performAll_cons, perform_commit, hcommit, performAll_nil]
  · show (staged.accepting t.toCommand).store = _
    rw [store_accepting, hstore]
    rfl
  · simp [closed, staged, begun, accepting, Service.begin, Transactions.begin, Transactions.clear,
      Ne.symm hid]
  · have hmine : timesWritten k staged (.commit id) = 0 := by
      rw [timesWritten, hcommit]
      simp [Store.timesWritten, hk]
    rw [settingTwice, timesWrittenIn, timesWritten_set_of_ne hk, hset, timesWrittenIn,
      timesWrittenIn, perform_begin, hstage, timesWrittenIn, hmine]
    rfl

/-- A transaction reads a key, another client sets another key twice, the second time in a
transaction of its own, and then the first one commits. What it read still stands. -/
theorem read_until_commit_contended :
    let config : Config := { nodeId := "n", dataDir := "data" }
    let others := settingTwice "j" "x" "y" "u"
    ∃ node d' s', Node.boot {} config true Nat.repr = (.ok node, d') ∧
      (node.service.performAll [.set "k" "a", .begin "t"]).read "t" "k" = (.ok (some "a"), s') ∧
      (s'.performAll others).store.version "j" = 2 ∧
      ((s'.performAll others).commit "t").1 = .ok [] ∧
      ((s'.performAll others).store.get? "k").map Versioned.value = some "a" := by
  intro config others
  obtain ⟨node, d', s', hboot, hread, hready, hstore, hopen⟩ := exists_reader
  obtain ⟨s'', hothers, hready', hstore', hkept, hnone⟩ :=
    settingTwice_of_ready hready (show "j" ≠ "" by decide) "x" "y" "u"
  rw [hstore] at hstore'
  have hopen' := (hkept "t" (by decide)).trans hopen
  have hcommit : ((s'.performAll others).commit "t").1 = .ok [] := by
    rw [hothers, commit_of_ready hready' hopen', hstore']
    rfl
  -- the key was present with version 1, and has not been written since
  have hround : ¬ s'.ComesRound "k" others := by
    rintro (⟨x, hx, hversion⟩ | hmany)
    · rw [hstore] at hx
      cases hx
      cases hversion
    · rw [hnone "k" (by decide)] at hmany
      exact absurd hmany (by decide)
  refine ⟨node, d', s', hboot, hread, ?_, hcommit, ?_⟩
  · rw [hothers, hstore']
    rfl
  · rcases read_until_commit hread (by decide) hcommit with hstands | ⟨-, hrecreated⟩ | hcame
    · exact hstands
    · exact absurd hrecreated (not_recreates_of_notMem (by decide) s')
    · exact absurd hcame hround

/-- **A commit on a replaced value**: a transaction reads the value `a`, the key is deleted and set
to `b`, and the transaction commits. Both values were the first of their key and have version 1. -/
theorem commit_after_recreation :
    let config : Config := { nodeId := "n", dataDir := "data" }
    ∃ node d' s', Node.boot {} config true Nat.repr = (.ok node, d') ∧
      (node.service.performAll [.set "k" "a", .begin "t"]).read "t" "k" = (.ok (some "a"), s') ∧
      ((s'.performAll [.delete "k", .set "k" "b"]).commit "t").1 = .ok [] ∧
      ((s'.performAll [.delete "k", .set "k" "b"]).store.get? "k").map Versioned.value =
        some "b" := by
  obtain ⟨node, d', s', hboot, hread, hready, hstore, hopen⟩ := exists_reader
  have hdeleted := ready_accepting hready (.delete "k")
  let replaced := (s'.accepting (.delete "k")).accepting (.set "k" "b")
  have hreplaced : s'.performAll [.delete "k", .set "k" "b"] = replaced := by
    rw [performAll_cons, perform_delete_of_ready hready (by decide), performAll_cons,
      perform_set_of_ready hdeleted (by decide), performAll_nil]
  have hstore' : replaced.store = ((∅ : Store).set "k" "b").1 := by
    rw [store_accepting, store_accepting, hstore]
    rfl
  refine ⟨node, d', s', hboot, hread, ?_, ?_⟩
  · rw [hreplaced, commit_of_ready (ready_accepting hdeleted _) hopen, hstore']
    rfl
  · rw [hreplaced, hstore']
    rfl

end Service

end DurableKV
