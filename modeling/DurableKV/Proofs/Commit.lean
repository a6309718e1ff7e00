import DurableKV.Proofs.Store

/-!
# What a commit checks and what it writes

A commit works in two passes. The first compares every observation with the store as it stands and
stops at the first that does not hold; the second makes all assignments, one after the other.
`commit_checks_then_writes` is both passes in one statement, for lists that may name a key as often
as they like.

The second pass depends on itself, since an assignment counts up what the one before it left. It is
taken apart at one assignment at a time (`writeAll_append`): the version that is given for an
assignment is that of its key once the assignments up to it are made (`getElem?_writeAll`), and
`version_writeAll` says which one that is.
-/

namespace DurableKV.Store

/-! ## The observations -/

/-- The conflict of an observation that does not hold. -/
def conflictOf (s : Store) (o : Observation) : Conflict := ⟨o.key, o.version, s.version o.key⟩

/-- A commit is refused for the first observation that no longer holds. -/
theorem conflict?_eq_find? (s : Store) (reads : List Observation) :
    s.conflict? reads = (reads.find? fun o => o.version ≠ s.version o.key).map s.conflictOf := by
  induction reads with
  | nil => rfl
  | cons o reads ih =>
    unfold conflict?
    by_cases h : s.version o.key = o.version
    · simp [h, ih]
    · simp [h, Ne.symm h, conflictOf]

/-- The conflict of a commit is that of the first observation that does not hold. -/
theorem conflict?_eq_some_iff {s : Store} {reads : List Observation} {c : Conflict} :
    s.conflict? reads = some c ↔ ∃ before o after, reads = before ++ o :: after ∧
      (∀ p ∈ before, p.version = s.version p.key) ∧ o.version ≠ s.version o.key ∧
      c = ⟨o.key, o.version, s.version o.key⟩ := by
  rw [conflict?_eq_find?, Option.map_eq_some_iff]
  constructor
  · rintro ⟨o, hfind, rfl⟩
    obtain ⟨hne, before, after, rfl, hbefore⟩ := List.find?_eq_some_iff_append.1 hfind
    exact ⟨before, o, after, rfl, by simpa using hbefore, by simpa using hne, rfl⟩
  · rintro ⟨before, o, after, rfl, hbefore, hne, rfl⟩
    refine ⟨o, List.find?_eq_some_iff_append.2 ⟨?_, before, after, rfl, ?_⟩, rfl⟩
    · simpa using hne
    · simpa using hbefore

/-! ## The assignments -/

/-- How often assignments give a key a value. -/
def timesAssigned (k : String) (as : List Assignment) : Nat := as.countP (·.key = k)

/-- A key is written as often as it is assigned. -/
theorem timesWritten_writeAll (k : String) (as : List Assignment) (s : Store) :
    timesWritten k (s.writeAll as).2 = timesAssigned k as := by
  have hkeys := congrArg (List.countP (· = k)) (map_key_writeAll as s)
  simpa [List.countP_map, Function.comp_def, timesWritten, timesAssigned] using hkeys

/-- A key that no assignment names is assigned no times. -/
theorem timesAssigned_eq_zero {k : String} {as : List Assignment} (h : ∀ a ∈ as, a.key ≠ k) :
    timesAssigned k as = 0 := by
  simpa [timesAssigned, List.countP_eq_zero] using h

/-- A key that is not assigned stays as it is. -/
theorem get?_writeAll_of_ne {k : String} {as : List Assignment} (h : ∀ a ∈ as, a.key ≠ k)
    (s : Store) : (s.writeAll as).1.get? k = s.get? k := by
  apply get?_writeAll
  rw [timesWritten_writeAll, timesAssigned_eq_zero h]

/-- One assignment more at the end gives its key the next version. -/
theorem writeAll_concat (s : Store) (as : List Assignment) (a : Assignment) :
    s.writeAll (as ++ [a]) = (((s.writeAll as).1.set a.key a.value).1,
      (s.writeAll as).2 ++ [⟨a.key, (s.writeAll as).1.version a.key + 1⟩]) :=
  writeAll_append as [a] s

/-- A list of assignments up to one of them, and with what stands behind it. -/
theorem split_at {as : List Assignment} {i : Nat} {a : Assignment} (h : as[i]? = some a) :
    as.take (i + 1) = as.take i ++ [a] ∧ as = (as.take i ++ [a]) ++ as.drop (i + 1) := by
  have htake : as.take (i + 1) = as.take i ++ [a] := by simp [List.take_add_one, h]
  exact ⟨htake, by rw [← htake, List.take_append_drop]⟩

/-- The version that is given for an assignment is that of its key once it is made. -/
theorem getElem?_writeAll (s : Store) {as : List Assignment} {i : Nat} {a : Assignment}
    (h : as[i]? = some a) :
    (s.writeAll as).2[i]? = some ⟨a.key, (s.writeAll (as.take (i + 1))).1.version a.key⟩ := by
  obtain ⟨hi, -⟩ := List.getElem?_eq_some_iff.1 h
  obtain ⟨htake, hsplit⟩ := split_at h
  have hlength : (s.writeAll (as.take i)).2.length = i := by
    rw [length_writeAll, List.length_take_of_le (Nat.le_of_lt hi)]
  rw [htake, congrArg s.writeAll hsplit, writeAll_append, writeAll_concat, version_set_self]
  simp [hlength]

/-- A key that has just been assigned holds the value of the assignment. -/
theorem get?_writeAll_concat (s : Store) (as : List Assignment) (a : Assignment) :
    (s.writeAll (as ++ [a])).1.get? a.key =
      some ⟨a.value, (s.writeAll (as ++ [a])).1.version a.key⟩ := by
  rw [writeAll_concat, version_set_self, get?_set, if_pos rfl]

/-- `t` is what assignments make of `s`, and `versions` are the versions that they give. -/
structure Written (s : Store) (as : List Assignment) (t : Store)
    (versions : List KeyVersion) : Prop where
  /-- Every assignment is given one version. -/
  length_eq : versions.length = as.length
  /-- The version counts the assignments to the key so far, on top of what the key had. -/
  version_at : ∀ (i : Nat) (a : Assignment), as[i]? = some a →
    versions[i]? = some ⟨a.key,
      s.version a.key + UInt64.ofNat (timesAssigned a.key (as.take (i + 1)))⟩
  /-- A key holds the value of its last assignment, at the version that this was given. -/
  last : ∀ (i : Nat) (a : Assignment), as[i]? = some a →
    (∀ b ∈ as.drop (i + 1), b.key ≠ a.key) →
    ∃ n, versions[i]? = some ⟨a.key, n⟩ ∧ t.get? a.key = some ⟨a.value, n⟩
  /-- Every other key is as it was. -/
  kept : ∀ k, (∀ a ∈ as, a.key ≠ k) → t.get? k = s.get? k

/-- What `writeAll` comes to is described by `Written`. -/
theorem written_writeAll (s : Store) (as : List Assignment) :
    Written s as (s.writeAll as).1 (s.writeAll as).2 where
  length_eq := length_writeAll as s
  version_at i a h := by
    rw [getElem?_writeAll s h, version_writeAll, timesWritten_writeAll]
  last i a h hlast := by
    refine ⟨_, getElem?_writeAll s h, ?_⟩
    obtain ⟨htake, hsplit⟩ := split_at h
    rw [htake, congrArg s.writeAll hsplit, writeAll_append, get?_writeAll_of_ne hlast,
      get?_writeAll_concat]
  kept k h := get?_writeAll_of_ne h s

/-! ## Both passes -/

/-- A commit succeeds exactly if every observation holds, and then comes to its writes. -/
theorem commit_eq_ok_iff {s t : Store} {reads : List Observation} {writes : List Assignment}
    {versions : List KeyVersion} :
    s.commit reads writes = .ok (t, versions) ↔
      (∀ o ∈ reads, o.version = s.version o.key) ∧ s.writeAll writes = (t, versions) := by
  simp only [eq_comm (a := Observation.version _), ← conflict?_eq_none_iff, commit]
  cases s.conflict? reads <;> simp

/-- A commit fails exactly with the first conflict. -/
theorem commit_eq_error_iff {s : Store} {reads : List Observation} {writes : List Assignment}
    {c : Conflict} : s.commit reads writes = .error c ↔ s.conflict? reads = some c := by
  unfold commit
  cases s.conflict? reads <;> simp

/-- **A commit checks, then writes.** It succeeds exactly if every observation names the version
that its key has (0 if the key is absent). Otherwise it is refused for the first that does not, with
the version that the key has, and the store stays as it is. If it succeeds, all assignments are made
in order: each is given the version that its key had, counted up by the assignments to the key so
far (in 64 bits), and a key that is assigned holds its last value at its last version.

So a commit that observed a key at two versions is always refused. -/
theorem commit_checks_then_writes (s : Store) (reads : List Observation)
    (writes : List Assignment) :
    ((∃ t versions, s.commit reads writes = .ok (t, versions)) ↔
      ∀ o ∈ reads, o.version = s.version o.key) ∧
    (∀ c, s.commit reads writes = .error c ↔
      ∃ before o after, reads = before ++ o :: after ∧
        (∀ p ∈ before, p.version = s.version p.key) ∧ o.version ≠ s.version o.key ∧
        c = ⟨o.key, o.version, s.version o.key⟩) ∧
    (∀ c, s.commit reads writes = .error c →
      s.dispatch (.commit reads writes) = (s, .conflict c)) ∧
    (∀ t versions, s.commit reads writes = .ok (t, versions) →
      s.dispatch (.commit reads writes) = (t, .committed versions) ∧
        Written s writes t versions) ∧
    ∀ k n m, n ≠ m → ⟨k, n⟩ ∈ reads → ⟨k, m⟩ ∈ reads → ∃ c, s.commit reads writes = .error c := by
  refine ⟨?_, fun c => ?_, fun c h => ?_, fun t versions h => ?_, fun k n m hne hn hm => ?_⟩
  · simp only [commit_eq_ok_iff]
    exact ⟨fun ⟨_, _, hholds, _⟩ => hholds, fun hholds => ⟨_, _, hholds, rfl⟩⟩
  · rw [commit_eq_error_iff, conflict?_eq_some_iff]
  · rw [dispatch, h]
  · refine ⟨by rw [dispatch, h], ?_⟩
    have hwritten := s.written_writeAll writes
    rw [(commit_eq_ok_iff.1 h).2] at hwritten
    exact hwritten
  · cases hcommit : s.commit reads writes with
    | error c => exact ⟨c, rfl⟩
    | ok p =>
      obtain ⟨hholds, -⟩ := commit_eq_ok_iff.1 hcommit
      exact absurd ((hholds _ hn).trans (hholds _ hm).symm) hne

/-- A key that is assigned twice and holds the second value, and a commit that observed it at two
versions. -/
theorem commit_checks_then_writes_repeated :
    let s : Store := ((∅ : Store).set "a" "x").1
    let writes : List Assignment := [⟨"a", "y"⟩, ⟨"b", "y"⟩, ⟨"a", "z"⟩]
    (∃ t, s.commit [⟨"a", 1⟩, ⟨"b", 0⟩] writes = .ok (t, [⟨"a", 2⟩, ⟨"b", 1⟩, ⟨"a", 3⟩]) ∧
      t.get? "a" = some ⟨"z", 3⟩) ∧
    ∃ c, s.commit [⟨"a", 1⟩, ⟨"a", 2⟩] writes = .error c := by
  intro s writes
  obtain ⟨-, -, -, hwritten, -⟩ := commit_checks_then_writes s [⟨"a", 1⟩, ⟨"b", 0⟩] writes
  obtain ⟨-, -, -, -, htwice⟩ := commit_checks_then_writes s [⟨"a", 1⟩, ⟨"a", 2⟩] writes
  have hcommit : s.commit [⟨"a", 1⟩, ⟨"b", 0⟩] writes =
      .ok (_, [⟨"a", 2⟩, ⟨"b", 1⟩, ⟨"a", 3⟩]) := rfl
  refine ⟨⟨_, hcommit, ?_⟩, htwice "a" 1 2 (by decide) (by simp) (by simp)⟩
  obtain ⟨n, hn, hget⟩ := (hwritten _ _ hcommit).2.last 2 ⟨"a", "z"⟩ rfl (by simp [writes])
  cases hn
  exact hget

end DurableKV.Store
