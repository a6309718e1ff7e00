import Mathlib.Data.Fin.VecNotation
import Mathlib.Data.List.FinRange
import DurableKV.Proofs.Commit

/-!
# Independent commands commute

Two commands are independent if neither changes a key that the other observes or changes. Then it
does not matter which of them comes first: both have the same outcome and leave the same store.
`independent_commute` says this of two commands, and of whole logs: if a log is put into another
order in which no two commands that depend on each other change places, every command has the
outcome that it had, and the store is the same in the end.

A command depends on the store only through the keys that it observes and changes
(`dispatch_congr`), and it leaves all but the latter alone (`get?_dispatch_of_notMem`). From this
the case of two commands follows for all kinds at once. For logs the induction is on the new order:
its first command stands somewhere in the old one, behind commands that it is independent of, and is
moved to the front past them (`move_front`).
-/

namespace DurableKV

/-! ## What a command looks at -/

namespace Command

/-- The keys that a command observes. -/
def observed : Command → List String
  | commit reads _ => reads.map Observation.key
  | _ => []

/-- The keys that a command writes or deletes. -/
def changed : Command → List String
  | set key _ => [key]
  | delete key => [key]
  | commit _ writes => writes.map Assignment.key

/-- Neither of two commands changes a key that the other observes or changes. -/
def Independent (c d : Command) : Prop :=
  (∀ k ∈ c.changed, k ∉ d.observed ∧ k ∉ d.changed) ∧
    ∀ k ∈ d.changed, k ∉ c.observed ∧ k ∉ c.changed

instance (c d : Command) : Decidable (Independent c d) := inferInstanceAs (Decidable (_ ∧ _))

/-- If one command is independent of another, the other is independent of it. -/
theorem Independent.symm {c d : Command} (h : Independent c d) : Independent d c := ⟨h.2, h.1⟩

end Command

namespace Store

/-! ## What a command leaves alone -/

/-- A command leaves every key alone that it does not change. -/
theorem get?_dispatch_of_notMem {c : Command} {k : String} (h : k ∉ c.changed) (s : Store) :
    (s.dispatch c).1.get? k = s.get? k := by
  cases c with
  | set j v => exact s.get?_set_of_ne (fun hj => h (by simp [Command.changed, hj])) v
  | delete j => exact s.get?_erase_of_ne fun hj => h (by simp [Command.changed, hj])
  | commit reads writes =>
    rw [dispatch_commit]
    cases s.conflict? reads with
    | some c => rfl
    | none =>
      refine get?_writeAll_of_ne (fun a ha hk => h ?_) s
      exact hk ▸ List.mem_map_of_mem ha

/-! ## What a command depends on -/

/-- Validation sees no more of a store than the observed keys. -/
theorem conflict?_congr {s t : Store} {reads : List Observation}
    (h : ∀ o ∈ reads, s.get? o.key = t.get? o.key) : s.conflict? reads = t.conflict? reads := by
  induction reads with
  | nil => rfl
  | cons o reads ih =>
    rw [List.forall_mem_cons] at h
    simp only [conflict?, version_of_get? h.1, ih h.2]

/-- Assignments give the same versions on stores that agree on their keys, and keep agreement. -/
theorem writeAll_congr {as : List Assignment} {s t : Store}
    (h : ∀ a ∈ as, s.get? a.key = t.get? a.key) :
    (s.writeAll as).2 = (t.writeAll as).2 ∧
      ∀ k, s.get? k = t.get? k → (s.writeAll as).1.get? k = (t.writeAll as).1.get? k := by
  induction as generalizing s t with
  | nil => exact ⟨rfl, fun _ hk => hk⟩
  | cons a as ih =>
    rw [List.forall_mem_cons] at h
    have hset : ∀ k, s.get? k = t.get? k →
        (s.set a.key a.value).1.get? k = (t.set a.key a.value).1.get? k := by
      intro k hk
      rw [get?_set, get?_set, version_of_get? h.1, hk]
    obtain ⟨hversions, hkeys⟩ := ih fun b hb => hset _ (h.2 b hb)
    rw [writeAll_cons, writeAll_cons, hversions]
    refine ⟨?_, fun k hk => hkeys k (hset k hk)⟩
    rw [set, set, version_of_get? h.1]

/-- **A command sees no more** of a store than the keys that it observes or changes. -/
theorem dispatch_congr {c : Command} {s t : Store}
    (h : ∀ k, k ∈ c.observed ∨ k ∈ c.changed → s.get? k = t.get? k) :
    (s.dispatch c).2 = (t.dispatch c).2 ∧
      ∀ k, s.get? k = t.get? k → (s.dispatch c).1.get? k = (t.dispatch c).1.get? k := by
  cases c with
  | set j v =>
    have hj := version_of_get? (h j (by simp [Command.changed]))
    refine ⟨?_, fun k hk => ?_⟩
    · simp only [dispatch, set, hj]
    · show (s.set j v).1.get? k = (t.set j v).1.get? k
      rw [get?_set, get?_set, hj, hk]
  | delete j =>
    refine ⟨rfl, fun k hk => ?_⟩
    show Table.get? (s.erase j) k = Table.get? (t.erase j) k
    rw [Table.get?_erase, Table.get?_erase, hk]
  | commit reads writes =>
    have hconflict : s.conflict? reads = t.conflict? reads :=
      conflict?_congr fun o ho => h _ (Or.inl (List.mem_map_of_mem ho))
    have hkeys : ∀ a ∈ writes, s.get? a.key = t.get? a.key :=
      fun a ha => h _ (Or.inr (List.mem_map_of_mem ha))
    obtain ⟨hversions, hwrites⟩ := writeAll_congr hkeys
    rw [dispatch_commit, dispatch_commit, hconflict]
    cases t.conflict? reads with
    | some c => exact ⟨rfl, fun k hk => hk⟩
    | none => exact ⟨congrArg Outcome.committed hversions, hwrites⟩

/-! ## Two commands -/

section

variable {c d : Command} (h : c.Independent d) (s : Store)

include h

/-- A command leaves alone what an independent one looks at. -/
theorem get?_dispatch_of_independent {k : String} (hk : k ∈ d.observed ∨ k ∈ d.changed) :
    (s.dispatch c).1.get? k = s.get? k :=
  get?_dispatch_of_notMem (fun hc => hk.elim (h.1 k hc).1 (h.1 k hc).2) s

/-- A command has the outcome that it has without an independent one before it. -/
theorem outcome_dispatch_of_independent :
    ((s.dispatch c).1.dispatch d).2 = (s.dispatch d).2 :=
  (dispatch_congr fun _ hk => s.get?_dispatch_of_independent h hk).1

/-- A key that the second of two independent commands does not change is the same in either
order. -/
theorem get?_dispatch_swap {k : String} (hk : k ∉ d.changed) :
    ((s.dispatch c).1.dispatch d).1.get? k = ((s.dispatch d).1.dispatch c).1.get? k := by
  have hsame := (dispatch_congr fun _ hj => s.get?_dispatch_of_independent h.symm hj).2 k
    (get?_dispatch_of_notMem hk s)
  rw [hsame, get?_dispatch_of_notMem hk]

/-- Independent commands leave one store in either order. -/
theorem dispatch_swap :
    ((s.dispatch c).1.dispatch d).1 = ((s.dispatch d).1.dispatch c).1 := by
  apply Table.ext
  intro k
  by_cases hk : k ∈ d.changed
  · exact (s.get?_dispatch_swap h.symm (h.2 k hk).2).symm
  · exact s.get?_dispatch_swap h hk

end

/-! ## Logs -/

/-- What commands come to, one after the other. -/
def results : Store → List Command → List Outcome
  | _, [] => []
  | s, c :: cs => (s.dispatch c).2 :: (s.dispatch c).1.results cs

/-- Every command of a log has one result. -/
theorem length_results (s : Store) (cs : List Command) : (s.results cs).length = cs.length := by
  induction cs generalizing s with
  | nil => rfl
  | cons c cs ih => simp [results, ih]

section

variable {ι : Type} (command : ι → Command)

/-- What commands come to in some order, each with its name. -/
def resultsIn (s : Store) (order : List ι) : List (ι × Outcome) :=
  order.zip (s.results (order.map command))

/-- In any order of the places, the first one comes first. -/
theorem resultsIn_cons (s : Store) (i : ι) (order : List ι) :
    s.resultsIn command (i :: order) =
      (i, (s.dispatch (command i)).2) :: (s.dispatch (command i)).1.resultsIn command order :=
  rfl

/-- A place has the outcome of the command that stands where the order puts the place. -/
theorem mem_resultsIn_iff {s : Store} {order : List ι} {i : ι} {o : Outcome} :
    (i, o) ∈ s.resultsIn command order ↔
      ∃ n : Nat, order[n]? = some i ∧ (s.results (order.map command))[n]? = some o := by
  simp only [resultsIn, List.mem_iff_getElem?, List.getElem?_zip_eq_some]

/-- A command can be moved to the front past commands that it is independent of. -/
theorem move_front {before : List ι} {i : ι}
    (h : ∀ j ∈ before, (command j).Independent (command i)) (after : List ι) (s : Store) :
    s.dispatchAll ((before ++ i :: after).map command) =
        (s.dispatch (command i)).1.dispatchAll ((before ++ after).map command) ∧
      (s.resultsIn command (before ++ i :: after)).Perm
        ((i, (s.dispatch (command i)).2) ::
          (s.dispatch (command i)).1.resultsIn command (before ++ after)) := by
  induction before generalizing s with
  | nil => exact ⟨rfl, .refl _⟩
  | cons j before ih =>
    obtain ⟨hj, hbefore⟩ := List.forall_mem_cons.1 h
    obtain ⟨hstore, hresults⟩ := ih hbefore (s.dispatch (command j)).1
    rw [s.dispatch_swap hj] at hstore hresults
    rw [s.outcome_dispatch_of_independent hj] at hresults
    refine ⟨hstore, ?_⟩
    rw [List.cons_append, List.cons_append, resultsIn_cons, resultsIn_cons,
      s.outcome_dispatch_of_independent hj.symm]
    exact (hresults.cons _).trans (.swap _ _ _)

/-- **Another order.** Commands are put into another order, and only commands that are independent
of each other change places. -/
theorem reorder [LT ι] {order order' : List ι} (hperm : order'.Perm order)
    (hsorted : order.Pairwise (· < ·))
    (hkept : order'.Pairwise fun i j => j < i → (command j).Independent (command i)) (s : Store) :
    s.dispatchAll (order'.map command) = s.dispatchAll (order.map command) ∧
      (s.resultsIn command order').Perm (s.resultsIn command order) := by
  induction order' generalizing order s with
  | nil =>
    rw [List.nil_perm.1 hperm]
    exact ⟨rfl, .refl _⟩
  | cons i rest ih =>
    -- the first command of the new order stands somewhere in the old one
    obtain ⟨before, after, rfl⟩ := List.append_of_mem (hperm.subset List.mem_cons_self)
    have hrest : rest.Perm (before ++ after) := (hperm.trans List.perm_middle).cons_inv
    obtain ⟨hbefore, hafter, hcross⟩ := List.pairwise_append.1 hsorted
    obtain ⟨hfirst, hkept⟩ := List.pairwise_cons.1 hkept
    have hmoved : ∀ j ∈ before, (command j).Independent (command i) := fun j hj =>
      hfirst j (hrest.mem_iff.2 (List.mem_append_left _ hj)) (hcross j hj i List.mem_cons_self)
    have hsorted' : (before ++ after).Pairwise (· < ·) :=
      hsorted.sublist ((List.sublist_cons_self i after).append_left before)
    obtain ⟨hstore, hresults⟩ := ih hrest hsorted' hkept (s.dispatch (command i)).1
    obtain ⟨hstore', hresults'⟩ := move_front command hmoved after s
    exact ⟨hstore.trans hstore'.symm, (hresults.cons _).trans hresults'.symm⟩

end

/-! ## Orders given by places -/

/-- The places of a log in the order that `σ` brings them into. -/
def placesIn {n m : Nat} (σ : Fin n ≃ Fin m) : List (Fin n) := (List.finRange m).map σ.symm

/-- The `k`-th of the places of a list is the place `k`. -/
theorem getElem?_finRange_eq_some_iff {n k : Nat} {i : Fin n} :
    (List.finRange n)[k]? = some i ↔ i.val = k := by
  rw [List.getElem?_eq_some_iff]
  constructor
  · rintro ⟨hk, rfl⟩
    simp
  · rintro rfl
    exact ⟨by simp, by simp⟩

/-- In the order of a rearrangement, a place stands where the rearrangement sends it. -/
theorem getElem?_placesIn_eq_some_iff {n m k : Nat} {σ : Fin n ≃ Fin m} {i : Fin n} :
    (placesIn σ)[k]? = some i ↔ (σ i).val = k := by
  rw [← getElem?_finRange_eq_some_iff, placesIn, List.getElem?_map, Option.map_eq_some_iff]
  constructor
  · rintro ⟨j, hj, rfl⟩
    rwa [σ.apply_symm_apply]
  · exact fun h => ⟨σ i, h, σ.symm_apply_apply i⟩

/-- The order of a rearrangement has every place once. -/
theorem placesIn_perm {n m : Nat} (σ : Fin n ≃ Fin m) : (placesIn σ).Perm (List.finRange n) := by
  refine (List.perm_ext_iff_of_nodup ?_ (List.nodup_finRange n)).2 fun i => ?_
  · exact (List.nodup_finRange m).map σ.symm.injective
  · simpa [placesIn] using ⟨σ i, σ.symm_apply_apply i⟩

/-- Commands in the order of a rearrangement are the rearranged log. -/
theorem map_placesIn {log log' : List Command} {σ : Fin log.length ≃ Fin log'.length}
    (hsame : ∀ i, log'[σ i] = log[i]) : (placesIn σ).map (fun i => log[i]) = log' := by
  have hplaces : (fun i : Fin log.length => log[i]) ∘ σ.symm = fun j => log'[j] := by
    funext j
    simpa using (hsame (σ.symm j)).symm
  rw [placesIn, List.map_map, hplaces]
  exact List.map_getElem_finRange log'

/-- If commands that depend on each other keep their places, only independent ones change them. -/
theorem pairwise_placesIn {log log' : List Command} {σ : Fin log.length ≃ Fin log'.length}
    (hkept : ∀ i j, i < j → ¬ log[i].Independent log[j] → σ i < σ j) :
    (placesIn σ).Pairwise fun i j => j < i → log[j].Independent log[i] := by
  refine List.pairwise_map.2 ((List.pairwise_lt_finRange _).imp fun {i j} hij hlt => ?_)
  by_contra hdependent
  have hback := hkept _ _ hlt hdependent
  rw [σ.apply_symm_apply, σ.apply_symm_apply] at hback
  exact absurd hij hback.asymm

/-- **Independent commands commute.** If neither of two commands changes a key that the other
observes or changes, then in either order both have the same outcomes and leave the same store.

So a log can be put into any order in which commands that depend on each other keep their places:
the command at place `i` goes to place `σ i`, where it has the same outcome, and in the end the
store is the same. -/
theorem independent_commute (s : Store) :
    (∀ c d : Command, c.Independent d →
      (s.dispatch c).2 = ((s.dispatch d).1.dispatch c).2 ∧
      ((s.dispatch c).1.dispatch d).2 = (s.dispatch d).2 ∧
      ((s.dispatch c).1.dispatch d).1 = ((s.dispatch d).1.dispatch c).1) ∧
    ∀ (log log' : List Command) (σ : Fin log.length ≃ Fin log'.length),
      (∀ i, log'[σ i] = log[i]) →
      (∀ i j, i < j → ¬ log[i].Independent log[j] → σ i < σ j) →
      s.dispatchAll log' = s.dispatchAll log ∧
        ∀ i, ∃ o, (s.results log)[i.val]? = some o ∧ (s.results log')[(σ i).val]? = some o := by
  refine ⟨fun c d h => ⟨?_, s.outcome_dispatch_of_independent h, s.dispatch_swap h⟩, ?_⟩
  · exact (s.outcome_dispatch_of_independent h.symm).symm
  intro log log' σ hsame hkept
  have hlog : (List.finRange log.length).map (fun i => log[i]) = log :=
    List.map_getElem_finRange log
  obtain ⟨hstore, hresults⟩ := reorder (fun i => log[i]) (placesIn_perm σ)
    (List.pairwise_lt_finRange _) (pairwise_placesIn hkept) s
  rw [map_placesIn hsame, hlog] at hstore
  refine ⟨hstore, fun i => ?_⟩
  have hi : i.val < (s.results log).length := by simp [length_results]
  refine ⟨(s.results log)[i.val], List.getElem?_eq_getElem hi, ?_⟩
  have hold : (i, (s.results log)[i.val]) ∈
      s.resultsIn (fun i => log[i]) (List.finRange log.length) := by
    refine (mem_resultsIn_iff _).2 ⟨i.val, getElem?_finRange_eq_some_iff.2 rfl, ?_⟩
    rw [hlog, List.getElem?_eq_getElem hi]
  obtain ⟨n, hn, hresult⟩ := (mem_resultsIn_iff _).1 (hresults.mem_iff.2 hold)
  rwa [map_placesIn hsame, ← getElem?_placesIn_eq_some_iff.1 hn] at hresult

/-- A set and a delete of other keys go to the front of a log, past a commit and a set. -/
theorem independent_commute_moved :
    let commit : Command := .commit [⟨"a", 0⟩] [⟨"b", "x"⟩, ⟨"b", "y"⟩]
    let log : List Command := [commit, .set "a" "z", .delete "c", .set "d" "z"]
    let log' : List Command := [.set "d" "z", .delete "c", commit, .set "a" "z"]
    (Command.delete "c").Independent commit ∧ ¬ commit.Independent (.set "a" "z") ∧
      (((∅ : Store).dispatch commit).1.dispatch (.delete "c")).1 =
        (((∅ : Store).dispatch (.delete "c")).1.dispatch commit).1 ∧
      (∅ : Store).dispatchAll log' = (∅ : Store).dispatchAll log ∧
      ((∅ : Store).results log')[2]? = some (.committed [⟨"b", 1⟩, ⟨"b", 2⟩]) := by
  intro commit log log'
  obtain ⟨htwo, hlogs⟩ := independent_commute ∅
  have hindependent : commit.Independent (.delete "c") := by decide
  let σ : Fin log.length ≃ Fin log'.length :=
    ⟨![2, 3, 1, 0], ![3, 2, 0, 1], by unfold Function.LeftInverse; decide,
      by unfold Function.RightInverse Function.LeftInverse; decide⟩
  obtain ⟨hstore, hresults⟩ := hlogs log log' σ (by decide) (by decide)
  obtain ⟨o, ho, ho'⟩ := hresults 0
  have hcommit : ((∅ : Store).results log)[0]? = some (.committed [⟨"b", 1⟩, ⟨"b", 2⟩]) := rfl
  exact ⟨hindependent.symm, by decide, (htwo _ _ hindependent).2.2, hstore,
    ho'.trans (ho.symm.trans hcommit)⟩

end Store

end DurableKV
