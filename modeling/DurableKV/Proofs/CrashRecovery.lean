import DurableKV.Proofs.Runs

/-!
# Recovery after a crash

A process that dies while it appends leaves its log with some first part of a line at the end.
`recover_after_crash` says what a start from there finds: everything that was acknowledged, and the
entry that was being appended exactly if its line is whole.

The part of the line is cut off with no look at what it holds. A line has its only newline at its
end, so a proper first part of it is what stands behind the last newline of the log.
-/

namespace DurableKV

/-! ## Submissions one after the other -/

namespace Replica

/-- The replica after inputs were submitted one after the other, each with its own timeout. -/
def submitAll (r : Replica) (submissions : List (Bytes × Nat)) : Replica :=
  submissions.foldl (fun r s => (r.submit s.1 s.2 false).2) r

/-- Commands that are submitted to a replica that is ready are all logged. -/
theorem submitAll_of_ready {lines : List Bytes} {last : UInt64} {before : Store}
    {submissions : List (Bytes × Nat)} : {cs : List Command} → {r : Replica} → {es : List Entry} →
    submissions.map (fun s => Entry.decode s.1) = cs.map (fun c => .ok (.command c)) →
    r.Ready → r.Logged lines last before es →
    (r.submitAll submissions).Ready ∧
      (r.submitAll submissions).Logged lines last before (es ++ cs.map .command) := by
  induction submissions with
  | nil =>
    intro cs r es hdecode hready hlogged
    obtain rfl := List.map_eq_nil_iff.1 hdecode.symm
    rw [List.map_nil, List.append_nil]
    exact ⟨hready, hlogged⟩
  | cons s submissions ih =>
    intro cs r es hdecode hready hlogged
    cases cs with
    | nil => cases hdecode
    | cons c cs =>
      obtain ⟨hc, hcs⟩ := List.cons.inj hdecode
      have hsubmit : (r.submit s.1 s.2 false).2 = r.accept (.command c) := by
        rw [submit_of_ready hready hc]
      rw [submitAll, List.foldl_cons, hsubmit, List.map_cons, List.append_cons]
      exact ih hcs (hready.accept _) (hlogged.accept _)

end Replica

/-! ## Starting again -/

namespace Recovery

/-- What a start finds on a disk whose log holds the lines of written records and a tail. -/
theorem recover_bodies {d : Disk} {dataDir : String} {es : List Entry}
    (hself : ∀ e ∈ es, e.SelfDescribed) (hlasting : ∀ e ∈ es, e.Lasting) {tail : Bytes}
    (htail : Bytes.newline ∉ tail)
    (hdisk : d.HoldsLog dataDir (Bytes.joinLines (Log.bodies 0 es) ++ tail)) :
    ∃ machine stats after, recover d dataDir = (.ok (machine, stats), after) ∧
      machine.store = Store.ofEntries es ∧ stats.finalSequence = Log.lastOf 0 es ∧
      stats.torn = !tail.isEmpty ∧ machine.log.next = Log.lastOf 0 es + 1 ∧
      machine.log.medium.Healthy ∧
      after.HoldsLog dataDir (Bytes.joinLines (Log.bodies 0 es)) := by
  have hlines := Bytes.lines_joinLines (Log.newline_notMem_bodies 0 es) htail
  obtain ⟨offset, htaken⟩ := Log.taken_bodies hself hlasting htail
  obtain ⟨machine, stats, after, hrecover, hrestored, hafter⟩ := recover_of_taken hdisk htaken
  rw [hlines] at hafter
  refine ⟨machine, stats, after, hrecover, ?_, hrestored.finalSequence, ?_, hrestored.next,
    hrestored.healthy, hafter⟩
  · rw [hrestored.store, Log.map_entry_numbered]
  · rw [hrestored.torn, hlines]

/-- What a start finds if the last line was written in part: the records before it, and the one in
it too if the part is the whole. -/
theorem recover_torn {d : Disk} {dataDir : String} {es : List Entry} {e : Entry}
    (hself : ∀ f ∈ es ++ [e], f.SelfDescribed) (hlasting : ∀ f ∈ es ++ [e], f.Lasting) {p : Bytes}
    (hpart : p <+: (Log.Record.make (Log.lastOf 0 es + 1) e).line)
    (hdisk : d.HoldsLog dataDir (Bytes.joinLines (Log.bodies 0 es) ++ p)) :
    ∃ found machine stats after,
      found = (if p = (Log.Record.make (Log.lastOf 0 es + 1) e).line then es ++ [e] else es) ∧
      recover d dataDir = (.ok (machine, stats), after) ∧
      machine.store = Store.ofEntries found ∧ stats.finalSequence = Log.lastOf 0 found ∧
      (stats.torn = true ↔ p ≠ [] ∧ p ≠ (Log.Record.make (Log.lastOf 0 es + 1) e).line) ∧
      machine.log.next = Log.lastOf 0 found + 1 ∧ machine.log.medium.Healthy ∧
      after.HoldsLog dataDir
        (Bytes.joinLines (Bytes.lines (Bytes.joinLines (Log.bodies 0 es) ++ p)).1) := by
  by_cases hwhole : p = (Log.Record.make (Log.lastOf 0 es + 1) e).line
  · rw [hwhole, ← Log.joinLines_bodies_concat, ← List.append_nil (Bytes.joinLines _)] at hdisk
    obtain ⟨machine, stats, after, hrecover, hstore, hfinal, htorn, hnext, hhealthy, hafter⟩ :=
      recover_bodies hself hlasting List.not_mem_nil hdisk
    refine ⟨es ++ [e], machine, stats, after, (if_pos hwhole).symm, hrecover, hstore, hfinal, ?_,
      hnext, hhealthy, ?_⟩
    · rw [htorn]
      exact ⟨fun h => absurd h Bool.false_ne_true, fun h => absurd hwhole h.2⟩
    · have hlines := Log.lines_bodies (es ++ [e])
      rw [Log.joinLines_bodies_concat, ← hwhole] at hlines
      rw [hlines]
      exact hafter
  · have hnewline := Bytes.newline_notMem_of_part (Log.Record.newline_notMem_body _) hpart hwhole
    rw [List.forall_mem_append] at hself hlasting
    obtain ⟨machine, stats, after, hrecover, hstore, hfinal, htorn, hnext, hhealthy, hafter⟩ :=
      recover_bodies hself.1 hlasting.1 hnewline hdisk
    refine ⟨es, machine, stats, after, (if_neg hwhole).symm, hrecover, hstore, hfinal, ?_,
      hnext, hhealthy, ?_⟩
    · rw [htorn, Bool.not_eq_true', List.isEmpty_eq_false_iff]
      exact ⟨fun h => ⟨h, hwhole⟩, fun h => h.1⟩
    · rw [Bytes.lines_joinLines (Log.newline_notMem_bodies 0 es) hnewline]
      exact hafter

/-- What is submitted after a start takes the position after the last record. -/
theorem index_after_start {machine : Machine} {last : UInt64}
    (hnext : machine.log.next = last + 1) (nodeId address : String) {b : Bytes} {timeout : Nat}
    {held : Bool} {acc : Accepted} {r : Replica}
    (h : (Replica.bootstrap nodeId address machine).submit b timeout held = (.ok acc, r)) :
    acc.index = last + 1 := by
  have hindex : (Replica.bootstrap nodeId address machine).commitIndex = last := by
    show machine.log.next - 1 = last
    rw [hnext, UInt64.add_sub_cancel]
  obtain ⟨e, -, -, rfl, -⟩ := Replica.submit_eq_ok h
  rw [hindex]

/-- The store of a log of commands is what dispatching them one after the other comes to. -/
theorem ofEntries_commands (cs : List Command) :
    Store.ofEntries (cs.map .command) = cs.foldl (fun s c => (s.dispatch c).1) ∅ := by
  rw [Store.ofEntries, List.foldl_map]
  rfl

/-- The last number in a log of commands is how many there are. -/
theorem lastOf_commands (cs : List Command) :
    Log.lastOf 0 (cs.map Entry.command) = UInt64.ofNat cs.length := by
  rw [Log.lastOf_zero, List.length_map]

/-- **A crash loses nothing that was acknowledged.** A node is booted where no log is, and commands
are submitted to it. Then it dies while it appends one more, leaving a first part `p` of the line of
that command behind what was written so far. Recovery from there succeeds. It finds the store that
the submitted commands make of the empty one, and the last command in it too exactly if its line is
whole. It reports the number of commands found, and a torn log exactly if `p` is a part of the line
that is neither empty nor whole. It leaves the complete lines in the log, and what is submitted next
takes the next position. -/
theorem recover_after_crash {d : Disk} {config : Config} (hfresh : d.HoldsNoLog config.dataDir)
    (ids : Nat → String) {submissions : List (Bytes × Nat)} {cs : List Command}
    (hdecode : submissions.map (fun s => Entry.decode s.1) = cs.map (fun c => .ok (.command c)))
    (c : Command) :
    ∃ node d', Node.boot d config true ids = (.ok node, d') ∧
      ∃ written line, (node.replica.submitAll submissions).machine.log.medium.content = written ∧
        ((node.replica.submitAll submissions).machine.log.append (.command c)).2.medium.content =
          written ++ line ∧
        ∀ (p : Bytes) (crashed : Disk), p <+: line →
          crashed.HoldsLog config.dataDir (written ++ p) →
          ∃ found machine stats after, found = (if p = line then cs ++ [c] else cs) ∧
            recover crashed config.dataDir = (.ok (machine, stats), after) ∧
            machine.store = found.foldl (fun s c => (s.dispatch c).1) ∅ ∧
            stats.finalSequence = UInt64.ofNat found.length ∧
            (stats.torn = true ↔ p ≠ [] ∧ p ≠ line) ∧
            after.HoldsLog config.dataDir (Bytes.joinLines (Bytes.lines (written ++ p)).1) ∧
            (∀ b e timeout, Entry.decode b = .ok e → ∃ acc r, (Replica.bootstrap config.nodeId
              config.raftAddress machine).submit b timeout false = (.ok acc, r)) ∧
            ∀ b timeout held acc r, (Replica.bootstrap config.nodeId config.raftAddress
              machine).submit b timeout held = (.ok acc, r) →
                acc.index = stats.finalSequence + 1 := by
  obtain ⟨machine, stats, hboot, hrestored⟩ := Node.boot_of_holdsNoLog hfresh true ids
  obtain ⟨hready, hlogged⟩ := Replica.submitAll_of_ready hdecode
    (Replica.ready_bootstrap hrestored.healthy config.nodeId config.raftAddress)
    (Replica.logged_bootstrap hrestored config.nodeId config.raftAddress)
  let es := cs.map Entry.command
  have hcommand : ∀ e ∈ es ++ [.command c], ∃ a, e = .command a := by
    intro e he
    rcases List.mem_append.1 he with he | he
    · obtain ⟨a, -, rfl⟩ := List.mem_map.1 he
      exact ⟨a, rfl⟩
    · exact ⟨c, List.mem_singleton.1 he⟩
  have hself : ∀ e ∈ es ++ [.command c], e.SelfDescribed := by
    intro e he
    obtain ⟨a, rfl⟩ := hcommand e he
    exact Entry.selfDescribed_command a
  have hlasting : ∀ e ∈ es ++ [.command c], e.Lasting := by
    intro e he
    obtain ⟨a, rfl⟩ := hcommand e he
    exact Entry.lasting_command a
  let line := (Log.Record.make (Log.lastOf 0 es + 1) (.command c)).line
  refine ⟨_, _, Prod.ext hboot rfl, Bytes.joinLines (Log.bodies 0 es), line, hlogged.holds, ?_, ?_⟩
  · show (((Replica.bootstrap config.nodeId config.raftAddress machine).submitAll
      submissions).machine.log.append (.command c)).2.medium.content = _
    rw [Log.Writer.append_of_healthy hready.healthy]
    show (Log.Medium.grown _ _).content = _
    rw [Log.Medium.content_grown hready.healthy.keeps, hlogged.holds, hlogged.next]
    rfl
  · intro p crashed hpart hdisk
    obtain ⟨found, machine', stats', after, hfound, hrecover, hstore, hfinal, htorn, hnext,
      hhealthy, hafter⟩ := recover_torn hself hlasting hpart hdisk
    have hcommands : found = (if p = line then cs ++ [c] else cs).map Entry.command := by
      rw [hfound]
      split <;> simp [es, *]
    rw [hcommands] at hstore hfinal hnext
    rw [ofEntries_commands] at hstore
    rw [lastOf_commands] at hfinal hnext
    refine ⟨_, machine', stats', after, rfl, hrecover, hstore, hfinal, htorn, hafter, ?_, ?_⟩
    · intro b e timeout hb
      exact ⟨_, _, Replica.submit_of_ready (Replica.ready_bootstrap hhealthy _ _) hb timeout⟩
    · intro b timeout held acc r hsubmit
      rw [hfinal]
      exact index_after_start hnext _ _ hsubmit

/-- A node sets a key and deletes it; it dies when the line of the delete has just been written. -/
theorem recover_after_crash_whole_line :
    let config : Config := { nodeId := "n", dataDir := "data" }
    ∃ node d', Node.boot {} config true Nat.repr = (.ok node, d') ∧
      ∃ content machine stats after,
        content = ((node.replica.submit (Command.set "k" "v").encode 0 false).2.machine.log.append
          (.command (.delete "k"))).2.medium.content ∧
        recover (.withLog content) "data" = (.ok (machine, stats), after) ∧
        machine.store = ∅ ∧ stats.finalSequence = 2 ∧ stats.torn = false := by
  let config : Config := { nodeId := "n", dataDir := "data" }
  have hfresh : ({} : Disk).HoldsNoLog config.dataDir := Disk.holdsNoLog_empty
  have hdecode : [((Command.set "k" "v").encode, 0)].map (fun s => Entry.decode s.1) =
      [Command.set "k" "v"].map (fun c => .ok (.command c)) :=
    congrArg (fun e => [e]) (Command.decode_encode _)
  obtain ⟨node, d', hboot, written, line, -, hcontent, hcrash⟩ :=
    recover_after_crash hfresh Nat.repr hdecode (.delete "k")
  obtain ⟨found, machine, stats, after, hfound, hrecover, hstore, hfinal, htorn, -⟩ :=
    hcrash line (.withLog (written ++ line)) List.prefix_rfl (Disk.holdsLog_withLog _)
  rw [if_pos rfl] at hfound
  rw [hfound] at hstore hfinal
  refine ⟨node, d', hboot, written ++ line, machine, stats, after, hcontent.symm, hrecover, hstore,
    hfinal, ?_⟩
  rw [← Bool.not_eq_true, htorn]
  exact fun h => h.2 rfl

end Recovery

end DurableKV
