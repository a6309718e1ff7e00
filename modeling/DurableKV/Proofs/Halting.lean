import DurableKV.Proofs.Submission

/-!
# A halt is for good

The first failure that ends a submission halts the replica. `halt_is_permanent` says what comes
after it: whatever else happens to the replica, submissions are refused, the reason stays the text
of that one failure, and the store, the positions and the file never change again. So a line that
was written in part stays the last one of its file.

The invariant is `HaltedSince`. One action keeps it (`HaltedSince.act`), and so does a run; the
other half is that nothing has failed before (`fatalsIn_of_running`), since a replica that halted
does not run any more.
-/

namespace DurableKV.Replica

/-! ## Failures of a run -/

/-- The failure that an action ends in. -/
def fatalBy (r : Replica) : Action → List ApplyError
  | .submit input timeout held =>
    match (r.submit input timeout held).1 with
    | .error (.fatal cause) => [cause]
    | _ => []
  | _ => []

/-- The failures that actions end in, one after the other. -/
def fatalsIn (r : Replica) : List Action → List ApplyError
  | [] => []
  | a :: actions => r.fatalBy a ++ (r.act a).fatalsIn actions

/-- The fatal causes of one run and of the next, one after the other. -/
theorem fatalsIn_append (as bs : List Action) (r : Replica) :
    r.fatalsIn (as ++ bs) = r.fatalsIn as ++ (r.run as).fatalsIn bs := by
  induction as generalizing r with
  | nil => rfl
  | cons a as ih =>
    rw [List.cons_append, fatalsIn, fatalsIn, ih, List.append_assoc]
    rfl

/-- A run goes on behind another. -/
theorem run_append (as bs : List Action) (r : Replica) :
    r.run (as ++ bs) = (r.run as).run bs :=
  List.foldl_append

/-! ## A halted replica -/

/-- How a replica that halted for this reason refuses a submission. -/
def refusal (r : Replica) (reason : String) (timeout : Nat) (held : Bool) : SubmitError :=
  if ¬ r.isLeader then .notLeader r.leaderAddress
  else if held then .timeout timeout
  else .halted reason

/-- A halted replica refuses what is submitted, but not with a fatal cause. -/
theorem refusal_ne_fatal (r : Replica) (reason : String) (timeout : Nat) (held : Bool)
    (cause : ApplyError) : r.refusal reason timeout held ≠ .fatal cause := by
  unfold refusal
  intro h
  split at h
  · simp at h
  · split at h
    · simp at h
    · simp at h

/-- A halted replica refuses every submission and stays as it is. -/
theorem submit_of_halted {r : Replica} {reason : String} (h : r.halted = some reason) (b : Bytes)
    (timeout : Nat) (held : Bool) :
    r.submit b timeout held = (.error (r.refusal reason timeout held), r) := by
  unfold submit refusal
  split
  · rfl
  · split
    · rfl
    · rw [h]

/-- A replica that halted for this reason and has changed its role, its voters and the faults of its
file since then, but nothing else. -/
structure HaltedSince (r : Replica) (reason : String) (later : Replica) : Prop where
  /-- It still has halted for this reason. -/
  halted : later.halted = some reason
  /-- The store is as it was. -/
  store : later.store = r.store
  /-- The position of the last entry is as it was. -/
  commitIndex : later.commitIndex = r.commitIndex
  /-- The number of the last record is as it was. -/
  lastSequence : later.machine.lastSequence = r.machine.lastSequence
  /-- The file of the log holds what it held. -/
  file : later.logContent = r.logContent

section

variable {r later : Replica} {reason : String}

/-- A halted replica is as it was when it halted. -/
theorem HaltedSince.refl (h : r.halted = some reason) : r.HaltedSince reason r :=
  ⟨h, rfl, rfl, rfl, rfl⟩

/-- Nothing that happens to a halted replica changes what counts. -/
theorem HaltedSince.act (h : r.HaltedSince reason later) (a : Action) :
    r.HaltedSince reason (later.act a) := by
  obtain ⟨hhalted, hstore, hindex, hlast, hfile⟩ := h
  cases a with
  | submit input timeout held =>
    have hsubmit := submit_of_halted hhalted input timeout held
    have hact : later.act (.submit input timeout held) = later := congrArg Prod.snd hsubmit
    rw [hact]
    exact ⟨hhalted, hstore, hindex, hlast, hfile⟩
  | stepDown leader => exact ⟨hhalted, hstore, hindex, hlast, hfile⟩
  | becomeLeader => exact ⟨hhalted, hstore, hindex, hlast, hfile⟩
  | addVoter nodeId address =>
    obtain ⟨voters, hact⟩ := later.addVoter_eq nodeId address
    rw [show later.act (.addVoter nodeId address) = { later with voters } from hact]
    exact ⟨hhalted, hstore, hindex, hlast, hfile⟩
  | fault write sync => exact ⟨hhalted, hstore, hindex, hlast, hfile⟩

/-- Whatever is done to it, a halted replica stays as it was when it halted. -/
theorem HaltedSince.run (actions : List Action) (h : r.HaltedSince reason later) :
    r.HaltedSince reason (later.run actions) := by
  induction actions generalizing later with
  | nil => exact h
  | cons a actions ih => exact ih (h.act a)

/-- A halted replica does not fail again. -/
theorem fatalsIn_of_halted (actions : List Action) (h : r.HaltedSince reason later) :
    later.fatalsIn actions = [] := by
  induction actions generalizing later with
  | nil => rfl
  | cons a actions ih =>
    have hnone : later.fatalBy a = [] := by
      unfold fatalBy
      split
      · rename_i input timeout held
        rw [submit_of_halted h.halted]
        split
        · rename_i cause heq
          simp only [Except.error.injEq] at heq
          exact absurd heq (later.refusal_ne_fatal reason timeout held cause)
        · rfl
      · rfl
    rw [fatalsIn, hnone, ih (h.act a), List.nil_append]

end

/-! ## The one failure -/

/-- A submission that fails for good halts a replica that was running. -/
theorem halted_of_fatal {r r' : Replica} {b : Bytes} {timeout : Nat} {held : Bool}
    {cause : ApplyError} (h : r.submit b timeout held = (.error (.fatal cause), r')) :
    r.halted = none ∧ r'.halted = some cause.message := by
  have hsubmission := r.submission b timeout held
  rw [h] at hsubmission
  cases hsubmission with
  | undecodable hleads hfree hrunning hdecode => exact ⟨hrunning, rfl⟩
  | unlogged hleads hfree hrunning hdecode hpart => exact ⟨hrunning, rfl⟩

/-- An action that leaves a replica running has no fatal cause. -/
theorem fatalBy_of_running {r : Replica} {a : Action} (h : (r.act a).halted = none) :
    r.fatalBy a = [] := by
  unfold fatalBy
  split
  · rename_i input timeout held
    split
    · rename_i cause hanswer
      have hhalted := (halted_of_fatal (Prod.ext hanswer rfl)).2
      have hrunning : (r.submit input timeout held).2.halted = none := h
      rw [hrunning] at hhalted
      cases hhalted
    · rfl
  · rfl

/-- Nothing has failed on a replica that runs. -/
theorem fatalsIn_of_running (actions : List Action) {r : Replica}
    (h : (r.run actions).halted = none) : r.fatalsIn actions = [] := by
  induction actions generalizing r with
  | nil => rfl
  | cons a actions ih =>
    have hrunning : (r.act a).halted = none := by
      cases hhalted : (r.act a).halted with
      | none => rfl
      | some reason =>
        -- a halt in the first action would still be there at the end of the run
        have hlater := (HaltedSince.refl hhalted).run actions
        exact hlater.halted.symm.trans h
    rw [fatalsIn, fatalBy_of_running hrunning, ih h, List.nil_append]

/-- **A halt is for good.** After any run of a replica, a submission fails for good, and then the
run goes on with submissions of any bytes, changes of leadership, new voters and other faults of the
file. This is the only failure of the whole run, and the replica has halted for its text ever since.
The store, the position of the last entry, the number of the last record and the file are as that
failure left them. Whatever is submitted then is refused and changes nothing: with the leader's
address exactly if the replica does not lead, else as timed out exactly if the log cannot be taken
in time, and else with the reason of the halt. -/
theorem halt_is_permanent {start r : Replica} {before : List Action} {b : Bytes} {timeout : Nat}
    {held : Bool} {cause : ApplyError}
    (hfatal : (start.run before).submit b timeout held = (.error (.fatal cause), r))
    (after : List Action) :
    start.fatalsIn (before ++ .submit b timeout held :: after) = [cause] ∧
      start.run (before ++ .submit b timeout held :: after) = r.run after ∧
      r.HaltedSince cause.message (r.run after) ∧
      ∀ b timeout held, (r.run after).submit b timeout held =
        (.error ((r.run after).refusal cause.message timeout held), r.run after) := by
  obtain ⟨hrunning, hhalted⟩ := halted_of_fatal hfatal
  have hsince := HaltedSince.refl hhalted
  have hact : (start.run before).act (.submit b timeout held) = r := congrArg Prod.snd hfatal
  have hcause : (start.run before).fatalBy (.submit b timeout held) = [cause] := by
    simp only [fatalBy, hfatal]
  refine ⟨?_, ?_, hsince.run after, submit_of_halted (hsince.run after).halted⟩
  · rw [fatalsIn_append, fatalsIn_of_running before hrunning, fatalsIn, hcause, hact,
      fatalsIn_of_halted after hsince]
    rfl
  · rw [run_append]
    exact congrArg (fun r' : Replica => r'.run after) hact

/-- A node that has been given something else than a command refuses a set after that, and once it
has stepped down it names the new leader. -/
theorem halt_is_permanent_undecodable :
    let config : Config := { nodeId := "n", dataDir := "data" }
    let noise := Bytes.ofText "not a command"
    let before := [Action.stepDown none, .becomeLeader]
    let after := [Action.submit (Command.set "k" "v").encode 0 false, .stepDown (some "h:1")]
    ∃ node d' cause r, Node.boot {} config true Nat.repr = (.ok node, d') ∧
      (node.replica.run before).submit noise 0 false = (.error (.fatal cause), r) ∧
      node.replica.fatalsIn (before ++ .submit noise 0 false :: after) = [cause] ∧
      (r.run after).store = ∅ ∧ (r.run after).halted = some cause.message ∧
      (r.run after).submit (Command.set "k" "v").encode 0 false =
        (.error (.notLeader (some "h:1")), r.run after) := by
  let config : Config := { nodeId := "n", dataDir := "data" }
  have hfresh : ({} : Disk).HoldsNoLog config.dataDir := Disk.holdsNoLog_empty
  obtain ⟨machine, stats, hboot, hrestored⟩ := Node.boot_of_holdsNoLog hfresh true Nat.repr
  let start := Replica.bootstrap config.nodeId config.raftAddress machine
  let noise := Bytes.ofText "not a command"
  obtain ⟨why, hdecode⟩ : ∃ why, Entry.decode noise = .error why := ⟨_, rfl⟩
  have happly : machine.apply noise = (.error (.decode why), machine) := by
    simp only [Machine.apply, hdecode]
  have hfatal := submit_of_apply_error (r := start.run [.stepDown none, .becomeLeader])
    rfl rfl happly 0
  obtain ⟨hfatals, -, hsince, hrefused⟩ := halt_is_permanent hfatal
    [.submit (Command.set "k" "v").encode 0 false, .stepDown (some "h:1")]
  refine ⟨_, _, _, _, Prod.ext hboot rfl, hfatal, hfatals, ?_, hsince.halted, hrefused _ 0 false⟩
  rw [hsince.store]
  exact hrestored.store

end DurableKV.Replica
