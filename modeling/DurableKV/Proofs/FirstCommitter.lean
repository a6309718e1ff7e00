import DurableKV.Proofs.Validation

/-!
# The first committer wins

A transaction that has read a key cannot commit any more once the key has been written, and so of
several transactions that read a key in one state of the store and write it, only the first that
commits does. `first_committer_wins` says both, for runs in which the key is not deleted and written
fewer than 2^64 times.

As long as a key is not deleted, every write counts its version up (`Store.Advanced`). So after at
least one write the version is another one (`version_ne_of_written`), and a commit that observed the
old one is refused.
-/

namespace DurableKV

/-! ## Versions that writes give -/

/-- A list of assignments writes every key that it assigns. -/
theorem Store.timesWritten_pos (s : Store) {as : List Assignment} {a : Assignment} (ha : a ∈ as) :
    0 < timesWritten a.key (s.writeAll as).2 := by
  have hkey : a.key ∈ (s.writeAll as).2.map KeyVersion.key := by
    rw [map_key_writeAll]
    exact List.mem_map_of_mem ha
  obtain ⟨v, hv, hvkey⟩ := List.mem_map.1 hkey
  unfold timesWritten
  rw [List.countP_pos_iff]
  exact ⟨v, hv, by simpa using hvkey⟩

namespace Service

/-! ## A node that stays ready -/

/-- Every operation leaves a replica ready that was. -/
theorem ready_perform {s : Service Replica} (h : s.consensus.Ready) (op : Operation) :
    (s.perform op).consensus.Ready := by
  cases op with
  | get key =>
    rw [perform_get, s.get_kept key]
    exact h
  | set key value =>
    rw [perform_set]
    by_cases hkey : key = ""
    · rw [show s.set key value = _ from s.requiring_of_eq _ hkey "key"]
      exact h
    · rw [set_of_ready h hkey]
      exact h.accept _
  | delete key =>
    rw [perform_delete]
    by_cases hkey : key = ""
    · rw [show s.delete key = _ from s.requiring_of_eq _ hkey "key"]
      exact h
    · rw [delete_of_ready h hkey]
      exact h.accept _
  | begin id => exact h
  | read id key =>
    rw [perform_read]
    rcases s.read_cases id key with ⟨t, -, hread⟩ | ⟨e, hread⟩
    · rw [hread]
      exact h
    · rw [hread]
      exact h
  | stageWrite id key value =>
    rw [perform_stageWrite]
    rcases s.stageWrite_cases id key value with ⟨t, -, hwrite⟩ | ⟨e, hwrite⟩
    · rw [hwrite]
      exact h
    · rw [hwrite]
      exact h
  | commit id =>
    rw [perform_commit]
    rcases ht : s.transactions.get? id with _ | t
    · rw [commit_unknown_of_ready h ht]
      exact h
    · rw [commit_of_ready h ht]
      exact h.accept _
  | abort id => exact h
  | join nodeId address =>
    rw [perform_join]
    by_cases hid : nodeId = ""
    · rw [show s.join nodeId address = _ from s.requiring_of_eq _ hid "node_id"]
      exact h
    by_cases haddress : address = ""
    · rw [show s.join nodeId address = _ from s.requiring_of_ne _ hid "node_id",
        s.requiring_of_eq _ haddress "addr"]
      exact h
    · rw [join_of_ready h hid haddress]
      exact ⟨h.leads, h.running, h.healthy⟩

/-- A ready service stays ready, whatever its clients do. -/
theorem ready_performAll (ops : List Operation) {s : Service Replica} (h : s.consensus.Ready) :
    (s.performAll ops).consensus.Ready := by
  induction ops generalizing s with
  | nil => exact h
  | cons op ops ih => exact ih (ready_perform h op)

/-! ## Runs that do not delete a key -/

/-- No operation deletes the key. -/
def NeverDeletes (k : String) (s : Service Replica) (ops : List Operation) : Prop :=
  ∀ before after, ¬ s.DeletesBetween k ops before after

/-- Operations without a delete of the key never delete it. -/
theorem neverDeletes_of_notMem {k : String} {ops : List Operation} (h : .delete k ∉ ops)
    (s : Service Replica) : s.NeverDeletes k ops := by
  rintro before after ⟨hops, -⟩
  apply h
  rw [hops]
  simp

/-- A part of a run that does not delete the key does not delete it. -/
theorem NeverDeletes.part {k : String} {s : Service Replica} {as bs cs : List Operation}
    (h : s.NeverDeletes k (as ++ (bs ++ cs))) : (s.performAll as).NeverDeletes k bs := by
  rintro before after ⟨hops, hdelete⟩
  apply h (as ++ before) (after ++ cs)
  refine ⟨?_, ?_⟩
  · rw [hops]
    simp only [List.append_assoc, List.cons_append]
  · rw [performAll_append]
    exact hdelete

/-- A run that never deletes the key writes it as often as the answers tell, and does no more. -/
theorem NeverDeletes.advanced {k : String} {s : Service Replica} {ops : List Operation}
    (h : s.NeverDeletes k ops) :
    Store.Advanced k s.store (s.performAll ops).store (timesWrittenIn k s ops) := by
  rcases performAll_cases k ops s with hadvanced | ⟨before, after, hdeletes, -⟩
  · exact hadvanced
  · exact absurd hdeletes (h before after)

/-- **After a write the version is another one.** -/
theorem version_ne_of_written {k : String} {s : Service Replica} {ops : List Operation}
    (hkept : s.NeverDeletes k ops) (hwritten : 0 < timesWrittenIn k s ops)
    (hfew : timesWrittenIn k s ops < UInt64.size) :
    (s.performAll ops).store.version k ≠ s.store.version k := by
  intro hsame
  obtain ⟨hcount, -⟩ := hkept.advanced
  rw [hsame] at hcount
  have hround := le_of_add_ofNat_eq_self hcount (Nat.ne_of_gt hwritten)
  omega

/-! ## A commit that comes too late -/

/-- A commit whose observation no longer holds is refused as a conflict, and the store stays. -/
theorem commit_of_stale {s : Service Replica} (hready : s.consensus.Ready) {id : String}
    {t : Transaction} (ht : s.transactions.get? id = some t) {o : Observation} (ho : o ∈ t.reads)
    (hstale : s.store.version o.key ≠ o.version) :
    ∃ c, (s.commit id).1 = .error (.conflict c) ∧ (s.commit id).2.store = s.store := by
  have hconflict : s.store.conflict? t.reads ≠ none := by
    intro hnone
    exact hstale ((s.store.conflict?_eq_none_iff t.reads).1 hnone o ho)
  obtain ⟨c, hc⟩ := Option.ne_none_iff_exists'.1 hconflict
  refine ⟨c, ?_, ?_⟩
  · rw [commit_of_ready hready ht, hc]
  · rw [commit_of_ready hready ht]
    show (s.consensus.accept (.command t.toCommand)).store = s.store
    rw [Replica.accept_store]
    show (s.store.dispatch t.toCommand).1 = s.store
    rw [Transaction.toCommand, Store.dispatch_commit, hc]

/-! ## Transactions that read one state -/

/-- A transaction reads a key while the store is `seen`, and later it commits with a write to that
key. -/
def CommitsOn (k : String) (seen : Store) (s : Service Replica) (ops : List Operation)
    (id : String) : Prop :=
  ∃ before between after, ops = (before ++ .read id k :: between) ++ .commit id :: after ∧
    (s.performAll before).store = seen ∧
    (∃ v, ((s.performAll before).read id k).1 = .ok v) ∧ .begin id ∉ between ∧
    (∃ t value, (s.performAll (before ++ .read id k :: between)).transactions.get? id = some t ∧
      ⟨k, value⟩ ∈ t.writes) ∧
    ∃ versions, ((s.performAll (before ++ .read id k :: between)).commit id).1 = .ok versions

/-- Just before such a commit the key has the version that was read, and the commit writes it. -/
theorem version_of_commitsOn {k : String} {seen : Store} {s : Service Replica}
    {ops : List Operation} {id : String} (h : s.CommitsOn k seen ops id) :
    ∃ before after, ops = before ++ .commit id :: after ∧
      (s.performAll before).store.version k = seen.version k ∧
      0 < timesWritten k (s.performAll before) (.commit id) := by
  obtain ⟨before, between, after, hops, hseen, ⟨v, hread⟩, hfresh, ⟨t, value, ht, hwrite⟩,
    versions, hcommit⟩ := h
  refine ⟨before ++ .read id k :: between, after, hops, ?_, ?_⟩
  · obtain ⟨-, -, hobserves⟩ := observes_of_read (Prod.ext hread rfl)
    have hlater := observes_performAll hfresh hobserves
    rw [hseen] at hlater
    rw [performAll_append] at hcommit ⊢
    exact version_eq_of_commit hlater hcommit
  · rcases (s.performAll (before ++ .read id k :: between)).commit_cases id with
      ⟨t', r, ht', -, hok, -⟩ | ⟨e, s', herror, -⟩
    · rw [ht] at ht'
      cases ht'
      simp only [timesWritten, hok]
      exact Store.timesWritten_pos _ hwrite
    · rw [herror] at hcommit
      cases hcommit

/-- Two such commits of one run are one: at the later one the version would be another. -/
theorem eq_of_commit_before {k : String} {version : UInt64} {s : Service Replica}
    {before between after after' : List Operation} {id id' : String}
    (hkept : s.NeverDeletes k (before ++ .commit id :: after))
    (hfew : timesWrittenIn k s (before ++ .commit id :: after) < UInt64.size)
    (hversion : (s.performAll before).store.version k = version)
    (hwrites : 0 < timesWritten k (s.performAll before) (.commit id))
    (hversion' : (s.performAll (before ++ between)).store.version k = version)
    (hops : .commit id :: after = between ++ .commit id' :: after') : id = id' := by
  rcases between with _ | ⟨op, between⟩
  · rw [List.nil_append, List.cons.injEq, Operation.commit.injEq] at hops
    exact hops.1
  · exfalso
    rw [List.cons_append, List.cons.injEq] at hops
    obtain ⟨rfl, rfl⟩ := hops
    rw [← List.cons_append] at hkept hfew
    rw [timesWrittenIn_append, timesWrittenIn_append] at hfew
    have hwritten : 0 < timesWrittenIn k (s.performAll before) (.commit id :: between) := by
      rw [timesWrittenIn]
      omega
    have hne := version_ne_of_written hkept.part hwritten (by omega)
    rw [performAll_append] at hversion'
    exact hne (hversion'.trans hversion.symm)

/-- **The first committer wins.** A node leads and its log takes what is written. A transaction
reads a key; then any operations of any clients follow, of which none begins a transaction under the
same id or deletes the key, and at least one writes it, with fewer than 2^64 writes to it in all. If
the transaction is still open, its commit is refused as a conflict and leaves the store as it is.

So of all transactions that read a key while the store was `seen` and have staged a write to it, at
most one commits in a run that does not delete the key. -/
theorem first_committer_wins {s : Service Replica} (hready : s.consensus.Ready) (k : String) :
    (∀ id v s' ops t, s.read id k = (.ok v, s') → .begin id ∉ ops →
      (s'.performAll ops).transactions.get? id = some t → s'.NeverDeletes k ops →
      0 < timesWrittenIn k s' ops → timesWrittenIn k s' ops < UInt64.size →
      ∃ c, ((s'.performAll ops).commit id).1 = .error (.conflict c) ∧
        ((s'.performAll ops).commit id).2.store = (s'.performAll ops).store) ∧
    ∀ seen ops, s.NeverDeletes k ops → timesWrittenIn k s ops < UInt64.size →
      ∀ id id', s.CommitsOn k seen ops id → s.CommitsOn k seen ops id' → id = id' := by
  constructor
  · intro id v s' ops t hread hfresh ht hkept hwritten hfew
    obtain ⟨-, hstore, hobserves⟩ := observes_of_read hread
    have hready' : (s'.performAll ops).consensus.Ready := by
      have hs' : s.perform (.read id k) = s' := congrArg Prod.snd hread
      rw [← hs']
      exact ready_performAll ops (ready_perform hready _)
    have hobserved := observes_performAll hfresh hobserves t ht
    have hstale := version_ne_of_written hkept hwritten hfew
    rw [hstore] at hstale
    exact commit_of_stale hready' ht hobserved hstale
  · intro seen ops hkept hfew id id' h h'
    obtain ⟨before, after, hops, hversion, hwrites⟩ := version_of_commitsOn h
    obtain ⟨before', after', hops', hversion', hwrites'⟩ := version_of_commitsOn h'
    rcases List.append_eq_append_iff.1 (hops.symm.trans hops') with
      ⟨between, rfl, hrest⟩ | ⟨between, rfl, hrest⟩
    · rw [hops] at hkept hfew
      exact eq_of_commit_before hkept hfew hversion hwrites hversion' hrest
    · rw [hops'] at hkept hfew
      exact (eq_of_commit_before hkept hfew hversion' hwrites' hversion hrest).symm

/-- Two transactions have staged a write to an absent key and read it; the first commits, and the
second is refused. -/
theorem first_committer_wins_race :
    let config : Config := { nodeId := "n", dataDir := "data" }
    let opening := [Operation.begin "t", .begin "u", .stageWrite "t" "k" "1",
      .stageWrite "u" "k" "2"]
    let race := [Operation.read "u" "k", .read "t" "k", .commit "t"]
    ∃ node d' s, Node.boot {} config true Nat.repr = (.ok node, d') ∧
      s = node.service.performAll opening ∧ s.CommitsOn "k" ∅ (race ++ [.commit "u"]) "t" ∧
      (∃ c, ((s.performAll race).commit "u").1 = .error (.conflict c)) ∧
      ¬ s.CommitsOn "k" ∅ (race ++ [.commit "u"]) "u" := by
  let config : Config := { nodeId := "n", dataDir := "data" }
  have hfresh : ({} : Disk).HoldsNoLog config.dataDir := Disk.holdsNoLog_empty
  obtain ⟨machine, stats, hboot, hrestored⟩ := Node.boot_of_holdsNoLog hfresh true Nat.repr
  let opening := [Operation.begin "t", .begin "u", .stageWrite "t" "k" "1",
    .stageWrite "u" "k" "2"]
  let s := (Node.ofMachine config true Nat.repr machine stats).service.performAll opening
  have hready : s.consensus.Ready :=
    ready_performAll opening (Replica.ready_bootstrap hrestored.healthy _ _)
  have hstore : s.store = ∅ := hrestored.store
  -- both read the key, which is absent
  let u : Transaction := { reads := [⟨"k", 0⟩], writes := [⟨"k", "2"⟩] }
  let t : Transaction := { reads := [⟨"k", 0⟩], writes := [⟨"k", "1"⟩] }
  let s₁ : Service Replica := { s with transactions := s.transactions.insert "u" u }
  let s₂ : Service Replica := { s₁ with transactions := s₁.transactions.insert "t" t }
  have hu : s.read "u" "k" = (.ok none, s₁) := by
    rw [s.read_of_open (t := { writes := [⟨"k", "2"⟩] }) (by decide) rfl, hstore]
    rfl
  have ht : s₁.read "t" "k" = (.ok none, s₂) := by
    rw [s₁.read_of_open (t := { writes := [⟨"k", "1"⟩] }) (by decide) rfl,
      show s₁.store = ∅ from hstore]
    rfl
  -- the first of them commits
  have hcommit : (s₂.commit "t").1 = .ok [⟨"k", 1⟩] := by
    rw [commit_of_ready (s := s₂) (t := t) hready rfl, show s₂.store = ∅ from hstore]
    rfl
  have hopen : (s₂.commit "t").2.transactions.get? "u" = some u := by
    rw [commit_of_ready (s := s₂) (t := t) hready rfl]
    rfl
  have hrun : s₁.performAll [.read "t" "k", .commit "t"] = (s₂.commit "t").2 := by
    rw [performAll_cons, perform_read, ht, performAll_cons, perform_commit, performAll_nil]
  have hwritten : timesWrittenIn "k" s₁ [.read "t" "k", .commit "t"] = 1 := by
    simp only [timesWrittenIn, perform_read, ht, timesWritten, hcommit]
    rfl
  obtain ⟨hlate, hfirst⟩ := first_committer_wins hready "k"
  obtain ⟨c, hconflict, -⟩ := hlate "u" none s₁ [.read "t" "k", .commit "t"] u hu (by decide)
    (by rw [hrun]; exact hopen) (neverDeletes_of_notMem (by decide) s₁) (by omega)
    (by rw [hwritten]; decide)
  have hs₁ : s.performAll [.read "u" "k"] = s₁ := by
    rw [performAll_cons, perform_read, hu, performAll_nil]
  have hcommits : s.CommitsOn "k" ∅
      ([.read "u" "k", .read "t" "k", .commit "t"] ++ [.commit "u"]) "t" := by
    have hs₂ : s.performAll ([.read "u" "k"] ++ [.read "t" "k"]) = s₂ := by
      rw [performAll_append, hs₁, performAll_cons, perform_read, ht, performAll_nil]
    refine ⟨[.read "u" "k"], [], [.commit "u"], rfl, ?_, ⟨none, ?_⟩, List.not_mem_nil,
      ⟨t, "1", ?_, List.mem_singleton_self _⟩, [⟨"k", 1⟩], ?_⟩
    · rw [hs₁]
      exact hstore
    · rw [hs₁, ht]
    · rw [hs₂]
      rfl
    · rw [hs₂, hcommit]
  have hrace : s.performAll ([.read "u" "k"] ++ [.read "t" "k", .commit "t"]) =
      s₁.performAll [.read "t" "k", .commit "t"] := by
    rw [performAll_append, hs₁]
  have hfew : timesWrittenIn "k" s
      (([.read "u" "k"] ++ [.read "t" "k", .commit "t"]) ++ [.commit "u"]) = 1 := by
    have hnone :
        timesWritten "k" (s₁.performAll [.read "t" "k", .commit "t"]) (.commit "u") = 0 := by
      simp only [timesWritten, hconflict]
    rw [timesWrittenIn_append, timesWrittenIn_append, hs₁, hwritten, hrace]
    simp only [timesWrittenIn, hnone]
    rfl
  refine ⟨_, _, s, Prod.ext hboot rfl, rfl, hcommits, ⟨c, ?_⟩, ?_⟩
  · exact (congrArg (fun s' : Service Replica => (s'.commit "u").1) hrace).trans hconflict
  · intro hother
    have hlittle : timesWrittenIn "k" s
        (([.read "u" "k"] ++ [.read "t" "k", .commit "t"]) ++ [.commit "u"]) < UInt64.size := by
      rw [hfew]
      decide
    have hsame := hfirst ∅ _ (neverDeletes_of_notMem (by decide) s) hlittle "t" "u" hcommits hother
    exact absurd hsame (by decide)

end Service

end DurableKV
