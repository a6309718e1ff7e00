import DurableKV.Proofs.Host

/-!
# Positions over a life

A data directory outlives the nodes that are booted on it. Each of them counts positions on from the
last record that it finds, and numbers records by another counter; the one is told to clients, and
the other is written. `index_eq_position` says that the two never part: over all boots, accepted
entries get the positions 1, 2, 3 and so on, and each has its record in the line of its position.

`Host.History` is such a life, with what was accepted before the last boot and since, and `InStep` is
the invariant that every step keeps. A foreign entry is logged and counted like a command, so it takes
a position too. Nothing is assumed of the entries: a boot that succeeds has read its log, and the
number that it goes on with depends on nothing but how many lines there are.
-/

namespace DurableKV

namespace Host

/-! ## A life -/

/-- An entry that was accepted, and the position that was answered. -/
structure Acknowledged where
  /-- The position. -/
  index : UInt64
  /-- The entry. -/
  entry : Entry

/-- The life of a data directory, from the first boot on: what was accepted before the last boot and
since, and the host after that. Every boot may have its own configuration of the node, and may bring
up a leader or a follower; the node may change sides later. -/
inductive History (dataDir : String) : List Acknowledged → List Acknowledged → Host → Prop where
  /-- A node is booted where no log is. -/
  | first {l : LiveDisk} {config : Config} {leads : Bool} {ids : Nat → String} {h : Host}
      (hroom : l.full = false) (hnothing : l.disk.HoldsNothing dataDir)
      (hdir : config.dataDir = dataDir) (hboot : boot l config leads ids = .ok h) :
      History dataDir [] [] h
  /-- An entry is accepted. -/
  | accepted {before since : List Acknowledged} {h h' : Host} {b : Bytes} {e : Entry}
      {timeout : Nat} {acc : Accepted} (hlife : History dataDir before since h)
      (hdecode : Entry.decode b = .ok e) (hsubmit : h.submit b timeout = (.ok acc, h')) :
      History dataDir before (since ++ [⟨acc.index, e⟩]) h'
  /-- An entry is refused. -/
  | refused {before since : List Acknowledged} {h h' : Host} {b : Bytes} {timeout : Nat}
      {why : SubmitError} (hlife : History dataDir before since h)
      (hsubmit : h.submit b timeout = (.error why, h')) : History dataDir before since h'
  /-- The node follows, whether it led or not. -/
  | steppedDown {before since : List Acknowledged} {h : Host}
      (hlife : History dataDir before since h) (leader : Option String) :
      History dataDir before since (h.stepDown leader)
  /-- The node leads, whether it followed or not. -/
  | becameLeader {before since : List Acknowledged} {h : Host}
      (hlife : History dataDir before since h) : History dataDir before since h.becomeLeader
  /-- The node is shut down, and another is booted. -/
  | again {before since : List Acknowledged} {h h' : Host} {node : Node} {l : LiveDisk}
      {config : Config} {leads : Bool} {ids : Nat → String} (hlife : History dataDir before since h)
      (hshutdown : h.disk.act h.node (fun n => (n.shutdown, n)) = (.ok (), node, l))
      (hdir : config.dataDir = dataDir) (hboot : boot l config leads ids = .ok h') :
      History dataDir (before ++ since) [] h'

/-- The entries of what was accepted. -/
def entries (acked : List Acknowledged) : List Entry := acked.map Acknowledged.entry

/-- There are as many entries as acknowledgements. -/
theorem length_entries (acked : List Acknowledged) : (entries acked).length = acked.length :=
  List.length_map _

/-- The entries of some acknowledgements and then others are those of the first and those of the
others. -/
theorem entries_append (acked more : List Acknowledged) :
    entries (acked ++ more) = entries acked ++ entries more :=
  List.map_append

/-- What a life keeps: both counters and the file have come as far as what was accepted. -/
structure InStep (dataDir : String) (before since : List Acknowledged) (h : Host) : Prop where
  /-- The disk holds the file of the log. -/
  serves : h.disk.Serves (Log.pathOf dataDir) h.node
  /-- The log goes on behind the lines that the node found when it booted. -/
  logged : ∃ store, h.node.replica.Logged (Log.bodies 0 (entries before))
    (Log.lastOf 0 (entries before)) store (entries since)
  /-- The node reported when it booted how many lines it found. -/
  booted : h.node.stats.finalSequence = Log.lastOf 0 (entries before)
  /-- What was answered are the numbers of the records. -/
  answered : (before ++ since).map (fun a => Log.Record.make a.index a.entry) =
    Log.numbered 0 (entries (before ++ since))

section

variable {dataDir : String} {before since : List Acknowledged} {h : Host}

/-- The file of a node in step holds a line for every acknowledged entry, and the commit index is
the number of the last one. -/
theorem InStep.logged_all (hh : h.InStep dataDir before since) :
    h.node.replica.machine.log.medium.content =
        Bytes.joinLines (Log.bodies 0 (entries (before ++ since))) ∧
      h.node.replica.commitIndex = Log.lastOf 0 (entries (before ++ since)) := by
  obtain ⟨store, hlogged⟩ := hh.logged
  rw [hlogged.holds, hlogged.commitIndex, entries_append, Log.bodies_append, Log.lastOf_append]
  exact ⟨rfl, rfl⟩

/-! ## One step -/

/-- A boot is in step with whatever it finds. -/
theorem inStep_of_recovered {l : LiveDisk} (hroom : l.full = false) {config : Config}
    (hdir : config.dataDir = dataDir) {machine : Machine} {stats : ReplayStats} {d : Disk}
    (hrecover : Recovery.recover l.disk dataDir = (.ok (machine, stats), d))
    {acked : List Acknowledged} {rs : List Log.Record} {c : Log.Cursor}
    (htaken : Log.taken (Bytes.joinLines (Log.bodies 0 (entries acked))) = .ok (rs, c))
    (hrestored : Recovery.Restored (Log.pathOf dataDir)
      (Bytes.joinLines (Log.bodies 0 (entries acked))) rs c machine stats)
    (hafter : d.HoldsLog dataDir
      (Bytes.joinLines (Bytes.lines (Bytes.joinLines (Log.bodies 0 (entries acked)))).1))
    (hanswered : acked.map (fun a => Log.Record.make a.index a.entry) =
      Log.numbered 0 (entries acked))
    {leads : Bool} {ids : Nat → String} {h : Host} (hboot : boot l config leads ids = .ok h) :
    h.InStep dataDir acked [] := by
  subst hdir
  -- the counters go on from how many lines were read, not from what was read in them
  have hlast : c.last = Log.lastOf 0 (entries acked) := by
    rw [Log.taken, Log.lines_bodies] at htaken
    rw [Log.Cursor.last_takeAll htaken, Log.length_bodies]
    rfl
  have hlogged := Node.logged_ofMachine hrestored config leads ids
  rw [Log.lines_bodies, hlast] at hlogged
  rw [boot_of_recovered hrecover hrestored.path leads ids] at hboot
  cases hboot
  refine ⟨serves_of_recovered hroom hrestored hafter leads ids, ⟨_, hlogged⟩, ?_, ?_⟩
  · rw [← hlast]
    exact hrestored.finalSequence
  · rw [List.append_nil]
    exact hanswered

/-- The first boot, in a data directory in which nothing is, is in step. -/
theorem inStep_of_boot {l : LiveDisk} (hroom : l.full = false) {config : Config}
    (hdir : config.dataDir = dataDir) (hnothing : l.disk.HoldsNothing dataDir) {leads : Bool}
    {ids : Nat → String} (hboot : boot l config leads ids = .ok h) : h.InStep dataDir [] [] := by
  obtain ⟨machine, stats, d, hrecover, hrestored, hafter⟩ :=
    Recovery.recover_of_holdsNothing hnothing
  have htaken : Log.taken (Bytes.joinLines (Log.bodies 0 (entries []))) = .ok ([], {}) := rfl
  exact inStep_of_recovered hroom hdir hrecover htaken hrestored hafter rfl hboot

/-- An accepted entry is acknowledged with the number of its record. -/
theorem InStep.accepted (hh : h.InStep dataDir before since) {b : Bytes} {e : Entry}
    (hdecode : Entry.decode b = .ok e) {timeout : Nat} {acc : Accepted} {h' : Host}
    (hsubmit : h.submit b timeout = (.ok acc, h')) :
    h'.InStep dataDir before (since ++ [⟨acc.index, e⟩]) := by
  obtain ⟨store, hlogged⟩ := hh.logged
  obtain ⟨-, hindex⟩ := hh.logged_all
  rcases submit_cases_of_serves hh.serves b timeout with
    ⟨e', disk, hdecode', hok, hserves⟩ | ⟨why, halted, disk, herror, -⟩
  · rw [hdecode] at hdecode'
    cases hdecode'
    rw [hok] at hsubmit
    cases hsubmit
    refine ⟨hserves, ⟨store, ?_⟩, hh.booted, ?_⟩
    · rw [entries_append]
      exact hlogged.accept e
    · rw [← List.append_assoc, List.map_append, hh.answered, entries_append (before ++ since),
        Log.numbered_append, hindex]
      rfl
  · rw [herror] at hsubmit
    cases hsubmit

/-- A refused submission leaves the node in step: nothing has been written. -/
theorem InStep.refused (hh : h.InStep dataDir before since) {b : Bytes} {timeout : Nat}
    {why : SubmitError} {h' : Host} (hsubmit : h.submit b timeout = (.error why, h')) :
    h'.InStep dataDir before since := by
  obtain ⟨store, hlogged⟩ := hh.logged
  rcases submit_cases_of_serves hh.serves b timeout with
    ⟨e, disk, -, hok, -⟩ | ⟨why, halted, disk, herror, hserves⟩
  · rw [hok] at hsubmit
    cases hsubmit
  · rw [herror] at hsubmit
    cases hsubmit
    exact ⟨hserves, ⟨store, hlogged.keeps, hlogged.holds, hlogged.next, hlogged.store,
      hlogged.commitIndex⟩, hh.booted, hh.answered⟩

/-- Who leads is no matter of the counters and the log. -/
theorem InStep.withRole (hh : h.InStep dataDir before since) (role : Role) :
    InStep dataDir before since
      { h with node := h.node.withReplica fun r => { r with role } } := by
  obtain ⟨store, hlogged⟩ := hh.logged
  refine ⟨⟨hh.serves.attached, hh.serves.room, hh.serves.stored, hh.serves.healthy⟩, ⟨store, ?_⟩,
    hh.booted, hh.answered⟩
  exact ⟨hlogged.keeps, hlogged.holds, hlogged.next, hlogged.store, hlogged.commitIndex⟩

/-- A node that is shut down and booted anew is in step with what was acknowledged so far. -/
theorem InStep.again (hh : h.InStep dataDir before since) {node : Node} {l : LiveDisk}
    (hshutdown : h.disk.act h.node (fun n => (n.shutdown, n)) = (.ok (), node, l))
    {config : Config} (hdir : config.dataDir = dataDir) {leads : Bool} {ids : Nat → String}
    {h' : Host} (hboot : boot l config leads ids = .ok h') :
    h'.InStep dataDir (before ++ since) [] := by
  obtain ⟨hcontent, -⟩ := hh.logged_all
  rw [hh.serves.act (f := fun n => (n.shutdown, n)) rfl rfl hh.serves.healthy.keeps] at hshutdown
  obtain ⟨-, rfl⟩ := Prod.mk.inj (Prod.mk.inj hshutdown).2
  -- what the node leaves behind is what the next boot has read, as it succeeded
  have hserves := hh.serves.saved hh.serves.healthy
  have hsaved := hserves.find
  rw [show (Holder.log h.node).medium.content = _ from hcontent] at hsaved
  obtain ⟨machine, stats, d, hrecover⟩ := recovered_of_boot hboot
  rw [hdir] at hrecover
  obtain ⟨rs, c, htaken, hrestored, hafter⟩ := Recovery.restored_of_holdsLog hsaved hrecover
  exact inStep_of_recovered hserves.room hdir hrecover htaken hrestored hafter hh.answered hboot

/-! ## All steps -/

/-- **A life keeps in step.** -/
theorem History.inStep (hlife : History dataDir before since h) :
    h.InStep dataDir before since := by
  induction hlife with
  | first hroom hnothing hdir hboot => exact inStep_of_boot hroom hdir hnothing hboot
  | accepted _ hdecode hsubmit ih => exact ih.accepted hdecode hsubmit
  | refused _ hsubmit ih => exact ih.refused hsubmit
  | steppedDown _ leader ih => exact ih.withRole (.follower leader)
  | becameLeader _ ih => exact ih.withRole .leader
  | again _ hshutdown hdir hboot ih => exact ih.again hshutdown hdir hboot

/-- A restart of the node is a step of the life as well. -/
theorem History.restart (hlife : History dataDir before since h)
    (hdir : h.node.config.dataDir = dataDir) {h' : Host} (hrestart : h.restart = .ok h') :
    History dataDir (before ++ since) [] h' := by
  have hserves := hlife.inStep.serves
  have hact := hserves.act (f := fun n => (n.shutdown, n)) rfl rfl hserves.healthy.keeps
  unfold Host.restart at hrestart
  split at hrestart
  · rename_i node disk hshutdown
    rw [hact] at hshutdown
    obtain ⟨rfl, -⟩ := Prod.mk.inj (Prod.mk.inj hshutdown).2
    exact .again hlife (hact.trans hshutdown) hdir hrestart
  · cases hrestart

/-- **The position of an entry is the line of its record.** At any time in the life of a data
directory, the position of the last entry is the number of the last record, which is the number that
the boot reported and one for each entry accepted since, and the number of lines in the file. Over
all boots, the positions of the accepted entries are 1, 2, 3 and so on, and the lines of the file are
the records of the entries at their positions and nothing else. -/
theorem index_eq_position (hlife : History dataDir before since h) :
    let acked := before ++ since
    ∃ content, h.disk.content? (Log.pathOf dataDir) = some content ∧
      h.node.replica.commitIndex = h.node.replica.machine.lastSequence ∧
      h.node.replica.commitIndex = h.node.stats.finalSequence + UInt64.ofNat since.length ∧
      h.node.replica.commitIndex = UInt64.ofNat (Bytes.lines content).1.length ∧
      acked.map Acknowledged.index = Log.positions acked.length ∧
      (acked.length < UInt64.size →
        acked.map (fun a => a.index.toNat) = List.range' 1 acked.length) ∧
      Bytes.lines content =
        (acked.map fun a => (Log.Record.make a.index a.entry).body, []) := by
  intro acked
  have hh := hlife.inStep
  obtain ⟨store, hlogged⟩ := hh.logged
  obtain ⟨hcontent, hindex⟩ := hh.logged_all
  have hpositions : acked.map Acknowledged.index = Log.positions acked.length := by
    have hsequences := congrArg (List.map Log.Record.sequence) hh.answered
    rw [List.map_map, Log.map_sequence_numbered_zero, length_entries] at hsequences
    exact hsequences
  have hlines : Bytes.lines (Bytes.joinLines (Log.bodies 0 (entries acked))) =
      (acked.map fun a => (Log.Record.make a.index a.entry).body, []) := by
    rw [Log.lines_bodies, Log.bodies, ← hh.answered, List.map_map]
    rfl
  refine ⟨_, hh.serves.content?.trans (congrArg some hcontent), ?_, ?_, ?_, hpositions, ?_, hlines⟩
  · rw [hlogged.commitIndex, Machine.lastSequence, Log.Writer.last, hlogged.next,
      UInt64.add_sub_cancel]
  · rw [hlogged.commitIndex, hh.booted, Log.lastOf, length_entries]
  · rw [hindex, Log.lastOf_zero, Log.lines_bodies, Log.length_bodies]
  · intro hsize
    rw [← Log.map_toNat_positions hsize, ← hpositions, List.map_map]
    rfl

/-- A node that has stepped down and leads again accepts what it would have accepted before. -/
theorem Holds.reelected {config : Config} {es : List Entry} (hh : h.Holds config es)
    (leader : Option String) : (h.stepDown leader).becomeLeader.Holds config es where
  told := hh.told
  ready := ⟨rfl, hh.ready.running, hh.ready.healthy⟩
  logged := ⟨hh.logged.keeps, hh.logged.holds, hh.logged.next, hh.logged.store,
    hh.logged.commitIndex⟩
  selfDescribed := hh.selfDescribed
  lasting := hh.lasting
  attached := hh.attached
  room := hh.room
  stored := hh.stored

/-- A key is set, the node loses the lead and regains it, and a note is logged that no node
understands; then the node is restarted, and the key is deleted. -/
theorem index_eq_position_restarted :
    let note : Entry := .foreign "note" (.object [("op", .string "note")])
    ∃ (h : Host) (content : Bytes), h.disk.content? (Log.pathOf "data") = some content ∧
      h.node.stats.finalSequence = 2 ∧ h.node.replica.commitIndex = 3 ∧
      Bytes.lines content = ([(Log.Record.make 1 (.command (.set "k" "v"))).body,
        (Log.Record.make 2 note).body, (Log.Record.make 3 (.command (.delete "k"))).body], []) := by
  intro note
  let config : Config := { nodeId := "n", dataDir := "data" }
  have hnothing : ({} : LiveDisk).disk.HoldsNothing config.dataDir := Disk.holdsNothing_empty
  have hdecode : Entry.decode (Bytes.ofText "\x7b\"op\":\"note\"\x7d") = .ok note := rfl
  have hlasting : note.Lasting := ⟨by decide, by
    simp [note, Entry.toValue, Json.Value.numbers, Json.Value.fieldsNumbers]⟩
  obtain ⟨h₀, hboot, hh₀⟩ := boot_of_holdsNothing rfl hnothing Nat.repr
  obtain ⟨h₁, hset, hh₁⟩ :=
    submit_of_holds hh₀ (Command.decode_encode (.set "k" "v")) (Entry.lasting_command _) 0
  obtain ⟨h₂, hnote, hh₂⟩ := submit_of_holds (hh₁.reelected (some "h:1")) hdecode hlasting 0
  obtain ⟨h₃, hrestart, hh₃⟩ := restart_of_holds hh₂
  obtain ⟨h₄, hdelete, hh₄⟩ :=
    submit_of_holds hh₃ (Command.decode_encode (.delete "k")) (Entry.lasting_command _) 0
  have hlife₁ := (History.first rfl hnothing rfl hboot).accepted (Command.decode_encode _) hset
  have hlife₂ := (hlife₁.steppedDown (some "h:1")).becameLeader.accepted hdecode hnote
  have hdir : h₂.node.config.dataDir = config.dataDir := congrArg Config.dataDir hh₂.told
  have hlife := (hlife₂.restart hdir hrestart).accepted (Command.decode_encode _) hdelete
  obtain ⟨content, hcontent, -, hsince, hcommitted, -, -, hlines⟩ := index_eq_position hlife
  rw [hlines] at hcommitted
  have hthree : h₄.node.replica.commitIndex = 3 := hcommitted
  rw [hthree] at hsince
  have hfinal : h₄.node.stats.finalSequence + 1 = 2 + 1 := hsince.symm
  exact ⟨h₄, content, hcontent, (UInt64.add_left_inj 1).1 hfinal, hthree, hlines⟩

end

end Host

end DurableKV
