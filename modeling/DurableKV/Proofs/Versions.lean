import Mathlib.Data.List.DropRight
import DurableKV.Proofs.Commit

/-!
# Versions count writes

A store is what was done to its keys, and nothing else. `Change.ofCommands` is the account of that:
the writes and deletes that commands make, in order, where a commit makes its writes only if every
observation tells how often its key was written since it was last deleted. The account knows no
store and counts without a limit.

`versions_count_writes` says that the store agrees with it: a key is present exactly if it was
written since it was last deleted, its version is how often, and every outcome reports that number
as it was at the time. The invariant is `Store.Reflects`. It holds with versions counted in 64 bits
through every change (`Reflects.set`, `Reflects.erase`, `Reflects.writeAll`). That a commit is
refused by the store exactly if it is by the account takes more, namely that fewer than 2^64 writes
were made (`Reflects.conflict?_eq_none_iff`).
-/

namespace DurableKV

/-! ## The account of changes -/

/-- A change to a key. -/
inductive Change where
  /-- A key was given a value. -/
  | write (a : Assignment)
  /-- A key was forgotten. -/
  | delete (key : String)
  deriving DecidableEq, Repr

namespace Change

/-- The value that a change gives a key. -/
def valueFor (k : String) : Change → Option String
  | write a => if a.key = k then some a.value else none
  | delete _ => none

/-- The values that a key was given since it was last deleted, in order. -/
def valuesOf (k : String) (done : List Change) : List String :=
  (done.rtakeWhile (· ≠ delete k)).filterMap (valueFor k)

/-- How often a key was written since it was last deleted. -/
def count (k : String) (done : List Change) : Nat := (valuesOf k done).length

/-- Every observation tells how often its key was written since it was last deleted. -/
def Current (done : List Change) (reads : List Observation) : Prop :=
  ∀ o ∈ reads, o.version.toNat = count o.key done

instance (done : List Change) (reads : List Observation) : Decidable (Current done reads) :=
  inferInstanceAs (Decidable (∀ o ∈ reads, o.version.toNat = count o.key done))

/-- The changes that a command makes after others. -/
def ofCommand (done : List Change) : Command → List Change
  | .set k v => [write ⟨k, v⟩]
  | .delete k => [delete k]
  | .commit reads writes => if Current done reads then writes.map write else []

/-- The changes that commands make, one after the other. -/
def ofCommands (cs : List Command) : List Change :=
  cs.foldl (fun done c => done ++ ofCommand done c) []

/-- One more command changes what the commands before have left. -/
theorem ofCommands_concat (cs : List Command) (c : Command) :
    ofCommands (cs ++ [c]) = ofCommands cs ++ ofCommand (ofCommands cs) c := by
  simp [ofCommands]

/-- Is a change a write? -/
def isWrite : Change → Bool
  | write _ => true
  | delete _ => false

/-- How many of some changes are writes, whatever their keys. -/
def writes (done : List Change) : Nat := done.countP isWrite

/-- The writes among some changes and then others are those among the first and those among the
others. -/
theorem writes_append (done more : List Change) :
    writes (done ++ more) = writes done + writes more :=
  List.countP_append

/-- Commands that follow take no write back. -/
theorem writes_ofCommands_le (as bs : List Command) :
    writes (ofCommands as) ≤ writes (ofCommands (as ++ bs)) := by
  induction bs using List.reverseRecOn with
  | nil => rw [List.append_nil]
  | append_singleton bs c ih =>
    rw [← List.append_assoc, ofCommands_concat, writes_append]
    omega

/-! ## Values since the last delete -/

/-- A write adds its value to those of its key. -/
theorem valuesOf_write (k : String) (done : List Change) (a : Assignment) :
    valuesOf k (done ++ [write a]) =
      valuesOf k done ++ if a.key = k then [a.value] else [] := by
  unfold valuesOf
  rw [List.rtakeWhile_concat_pos _ _ _ (by simp)]
  by_cases h : a.key = k <;> simp [valueFor, h]

/-- A delete takes all values from its key. -/
theorem valuesOf_delete (k j : String) (done : List Change) :
    valuesOf k (done ++ [delete j]) = if j = k then [] else valuesOf k done := by
  unfold valuesOf
  by_cases h : j = k
  · simp [h]
  · simp [h, valueFor]

/-- A key is not written more often than all keys are. -/
theorem count_le_writes (k : String) (done : List Change) : count k done ≤ writes done := by
  have hsome : ∀ c : Change, (valueFor k c).isSome → c.isWrite := by
    intro c h
    cases c with
    | write a => rfl
    | delete j => cases h
  calc count k done
      = (done.rtakeWhile (· ≠ delete k)).countP (fun c => (valueFor k c).isSome) :=
        List.length_filterMap_eq_countP
    _ ≤ (done.rtakeWhile (· ≠ delete k)).countP isWrite :=
        List.countP_mono_left fun c _ => hsome c
    _ ≤ writes done := (List.rtakeWhile_suffix _ _).sublist.countP_le

end Change

/-! ## Stores and accounts -/

namespace Store

open Change

/-- A store holds what these changes leave, with versions in 64 bits. -/
def Reflects (s : Store) (done : List Change) : Prop :=
  ∀ k, s.get? k = (valuesOf k done).getLast?.map fun v => ⟨v, UInt64.ofNat (count k done)⟩

namespace Reflects

variable {s : Store} {done : List Change}

/-- The empty store reflects no changes. -/
theorem empty : Reflects ∅ [] := fun _ => rfl

/-- The version of a key is how often it was written since it was last deleted, in 64 bits. -/
theorem version (h : s.Reflects done) (k : String) :
    s.version k = UInt64.ofNat (count k done) := by
  unfold Store.version
  rw [h k]
  unfold count
  cases hvalues : (valuesOf k done).getLast? with
  | none => rw [List.getLast?_eq_none_iff.1 hvalues]; rfl
  | some v => rfl

/-- A write of the store is a write of the account. -/
theorem set (h : s.Reflects done) (a : Assignment) :
    (s.set a.key a.value).1.Reflects (done ++ [write a]) := by
  intro k
  rw [get?_set, h.version, h k]
  by_cases hk : a.key = k
  · subst hk
    simp [count, valuesOf_write, UInt64.ofNat_add]
  · simp [count, valuesOf_write, hk]

/-- A delete of the store is a delete of the account. -/
theorem erase (h : s.Reflects done) (j : String) :
    Reflects (s.erase j) (done ++ [delete j]) := by
  intro k
  rw [Table.get?_erase, h k]
  by_cases hk : j = k <;> simp [count, valuesOf_delete, hk]

/-- Assignments of the store are writes of the account. -/
theorem writeAll (as : List Assignment) {s : Store} {done : List Change} (h : s.Reflects done) :
    (s.writeAll as).1.Reflects (done ++ as.map write) := by
  induction as generalizing s done with
  | nil => rwa [List.map_nil, List.append_nil]
  | cons a as ih =>
    rw [writeAll_cons, List.map_cons, List.append_cons]
    exact ih (h.set a)

/-- After fewer than 2^64 writes no version has come round. -/
theorem toNat_version (h : s.Reflects done) (hfew : writes done < UInt64.size) (k : String) :
    (s.version k).toNat = count k done := by
  rw [h.version, UInt64.toNat_ofNat_of_lt' ((count_le_writes k done).trans_lt hfew)]

/-- The store refuses a commit exactly if the account does. -/
theorem conflict?_eq_none_iff (h : s.Reflects done) (hfew : writes done < UInt64.size)
    (reads : List Observation) : s.conflict? reads = none ↔ Current done reads := by
  rw [Store.conflict?_eq_none_iff]
  refine forall₂_congr fun o _ => ?_
  rw [← h.toNat_version hfew, UInt64.toNat_inj, eq_comm]

/-- **One command** makes of a store what it adds to the account. -/
theorem dispatch (h : s.Reflects done) (hfew : writes done < UInt64.size) (c : Command) :
    (s.dispatch c).1.Reflects (done ++ ofCommand done c) := by
  cases c with
  | set k v => exact h.set ⟨k, v⟩
  | delete k => exact h.erase k
  | commit reads writes =>
    have hcurrent := h.conflict?_eq_none_iff hfew reads
    rw [dispatch_commit, ofCommand]
    cases hconflict : s.conflict? reads with
    | none =>
      rw [if_pos (hcurrent.1 hconflict)]
      exact h.writeAll writes
    | some c =>
      rw [if_neg (by simp [← hcurrent, hconflict]), List.append_nil]
      exact h

/-- **A run of commands** makes of the empty store what is in the account. -/
theorem dispatchAll {cs : List Command} (hfew : writes (ofCommands cs) < UInt64.size) :
    ((∅ : Store).dispatchAll cs).Reflects (ofCommands cs) := by
  induction cs using List.reverseRecOn with
  | nil => exact empty
  | append_singleton cs c ih =>
    rw [ofCommands_concat, writes_append] at hfew
    rw [ofCommands_concat, dispatchAll_append]
    exact (ih (by omega)).dispatch (by omega) c

end Reflects

/-- A store shows what was done to a key: the key is present exactly if it was written since it was
last deleted, its version is how often, and its value is the last one that it was given. -/
structure Tells (s : Store) (done : List Change) (k : String) : Prop where
  /-- When the key is present. -/
  present : (∃ x, s.get? k = some x) ↔ 0 < count k done
  /-- What its version is. -/
  version : ∀ x, s.get? k = some x → x.version.toNat = count k done
  /-- What its value is. -/
  value : ∀ x, s.get? k = some x → (valuesOf k done).getLast? = some x.value

/-- A key is absent exactly if it was not written since it was last deleted. -/
theorem Tells.absent {s : Store} {done : List Change} {k : String} (h : s.Tells done k) :
    s.get? k = none ↔ count k done = 0 := by
  have hpresent := h.present
  cases hget : s.get? k with
  | none => simpa [hget] using hpresent
  | some x =>
    have hpos := hpresent.1 ⟨x, hget⟩
    simp
    omega

/-- **A store tells of its changes**, as long as the writes can be counted in 64 bits. -/
theorem Reflects.tells {s : Store} {done : List Change} (h : s.Reflects done)
    (hfew : writes done < UInt64.size) (k : String) : s.Tells done k := by
  constructor
  · rw [h k, count, List.length_pos_iff, ne_eq, ← List.getLast?_eq_none_iff]
    cases (valuesOf k done).getLast? <;> simp
  · intro x hx
    rw [← h.toNat_version hfew k, Store.version, hx]
  · intro x hx
    rw [h k, Option.map_eq_some_iff] at hx
    obtain ⟨v, hv, rfl⟩ := hx
    exact hv

end Store

/-! ## Outcomes -/

namespace Change

/-- An outcome of a command after these changes: a set reports how often its key was written with
it, and a commit whose observations are current how often each key was written with each
assignment; a commit whose observations are not current is a conflict. -/
def Reports (done : List Change) (c : Command) (o : Outcome) : Prop :=
  match c with
  | .set k v => ∃ n, o = .set k n ∧ n.toNat = count k (done ++ [write ⟨k, v⟩])
  | .delete k => o = .deleted k
  | .commit reads as =>
    if Current done reads then
      ∃ versions : List KeyVersion, o = .committed versions ∧ versions.length = as.length ∧
        ∀ (i : Nat) (a : Assignment), as[i]? = some a → ∃ n, versions[i]? = some ⟨a.key, n⟩ ∧
          n.toNat = count a.key (done ++ (as.take (i + 1)).map write)
    else ∃ conflict, o = .conflict conflict

end Change

namespace Store

open Change

/-- An outcome tells of the changes before it and its own, as long as the writes can be counted in
64 bits. -/
theorem Reflects.reports {s : Store} {done : List Change} (h : s.Reflects done) {c : Command}
    (hfew : writes (done ++ ofCommand done c) < UInt64.size) :
    Reports done c (s.dispatch c).2 := by
  cases c with
  | set k v =>
    refine ⟨_, rfl, ?_⟩
    rw [← (h.set ⟨k, v⟩).toNat_version hfew k, version_set_self]
  | delete k => rfl
  | commit reads as =>
    have hdone : writes done < UInt64.size := by
      rw [writes_append] at hfew
      omega
    rw [dispatch_commit, Reports]
    have hcurrent := h.conflict?_eq_none_iff hdone reads
    cases hconflict : s.conflict? reads with
    | some c => exact (if_neg (by simp [← hcurrent, hconflict])).mpr ⟨c, rfl⟩
    | none =>
      rw [if_pos (hcurrent.1 hconflict)]
      refine ⟨_, rfl, length_writeAll as s, fun i a hi => ⟨_, s.getElem?_writeAll hi, ?_⟩⟩
      rw [ofCommand, if_pos (hcurrent.1 hconflict)] at hfew
      have hpart : writes (done ++ (as.take (i + 1)).map write) ≤ writes (done ++ as.map write) :=
        (((List.take_sublist _ _).map _).append_left _).countP_le
      exact (h.writeAll _).toNat_version (hpart.trans_lt hfew) a.key

/-- A command whose outcome says that it did nothing leaves the store as it was. -/
theorem dispatch_of_isNoop {s : Store} {c : Command} (h : (s.dispatch c).2.isNoop) :
    (s.dispatch c).1 = s := by
  cases c with
  | set k v => simp [dispatch, Outcome.isNoop] at h
  | delete k => simp [dispatch, Outcome.isNoop] at h
  | commit reads writes =>
    rw [dispatch_commit] at h ⊢
    cases hconflict : s.conflict? reads with
    | none => simp [hconflict, Outcome.isNoop] at h
    | some c => rfl

/-- **Versions count writes.** Commands are applied to the empty store and make fewer than 2^64
writes. Then every key is present exactly if it was written since it was last deleted, its version
is how often, and its value is the last one. Every outcome reports these numbers as they were at its
time, and a command that says that it did nothing did nothing.

So a key that is present has a version of at least 1, and an observation of version 0 holds exactly
if its key is absent. -/
theorem versions_count_writes {cs : List Command} (hfew : writes (ofCommands cs) < UInt64.size) :
    (∀ k, ((∅ : Store).dispatchAll cs).Tells (ofCommands cs) k) ∧
    (∀ before c after, cs = before ++ c :: after →
      let s := (∅ : Store).dispatchAll before
      Reports (ofCommands before) c (s.dispatch c).2 ∧
        ((s.dispatch c).2.isNoop → (s.dispatch c).1 = s)) ∧
    (∀ k x, ((∅ : Store).dispatchAll cs).get? k = some x → 1 ≤ x.version) ∧
    ∀ k, ((∅ : Store).dispatchAll cs).conflict? [⟨k, 0⟩] = none ↔
      ((∅ : Store).dispatchAll cs).get? k = none := by
  have hreflects := Reflects.dispatchAll hfew
  have htells := hreflects.tells hfew
  refine ⟨htells, fun before c after hcs => ⟨?_, dispatch_of_isNoop⟩, fun k x hx => ?_, fun k => ?_⟩
  · -- the writes up to here are among those of the whole run
    have hmore := writes_ofCommands_le (before ++ [c]) after
    rw [← List.append_cons, ← hcs] at hmore
    have hpart : writes (ofCommands (before ++ [c])) < UInt64.size := hmore.trans_lt hfew
    have hbefore := (writes_ofCommands_le before [c]).trans_lt hpart
    rw [ofCommands_concat] at hpart
    exact (Reflects.dispatchAll hbefore).reports hpart
  · rw [UInt64.le_iff_toNat_le, (htells k).version x hx]
    exact (htells k).present.1 ⟨x, hx⟩
  · rw [hreflects.conflict?_eq_none_iff hfew, (htells k).absent]
    simp [Current, eq_comm]

/-- A commit that writes a key twice, one that comes too late, a delete, and a commit that creates
the key again. -/
theorem versions_count_writes_recreated :
    let cs : List Command :=
      [.set "k" "a", .commit [⟨"k", 1⟩] [⟨"k", "b"⟩, ⟨"j", "x"⟩, ⟨"k", "c"⟩],
        .commit [⟨"k", 1⟩] [⟨"j", "y"⟩], .delete "k", .commit [⟨"k", 0⟩] [⟨"k", "d"⟩]]
    writes (ofCommands cs) < UInt64.size ∧
      ((∅ : Store).dispatchAll cs).Tells (ofCommands cs) "k" ∧
      valuesOf "k" (ofCommands cs) = ["d"] ∧ valuesOf "j" (ofCommands cs) = ["x"] ∧
      Reports [.write ⟨"k", "a"⟩] (.commit [⟨"k", 1⟩] [⟨"k", "b"⟩, ⟨"j", "x"⟩, ⟨"k", "c"⟩])
        (.committed [⟨"k", 2⟩, ⟨"j", 1⟩, ⟨"k", 3⟩]) := by
  intro cs
  have hfew : writes (ofCommands cs) < UInt64.size := by decide
  obtain ⟨htells, hreports, -⟩ := versions_count_writes hfew
  exact ⟨hfew, htells "k", by decide, by decide, (hreports [.set "k" "a"] _ _ rfl).1⟩

end Store

end DurableKV
