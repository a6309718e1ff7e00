import DurableKV.Proofs.Host

/-!
# Replicas agree

Two nodes start in empty data directories and are given the same commands. The inputs may write the
commands in different ways, and each node may be restarted whenever it likes. `replicas_converge`
says that nobody can tell the two apart: they give the same answers and end with the same store, the
same position and the same bytes in the log.

Both runs are compared with one account of the commands (`life_of_commands`), which knows neither
the text of the inputs nor the restarts.
-/

namespace DurableKV.Host

/-- The file of the log as the disk shows it. -/
theorem Holds.content? {config : Config} {es : List Entry} {h : Host} (hh : h.Holds config es) :
    h.disk.content? (Log.pathOf config.dataDir) = some (Bytes.joinLines (Log.bodies 0 es)) := by
  rw [LiveDisk.content?, Disk.read, hh.stored, ← hh.content_eq]
  rfl

/-- A node that starts in an empty data directory and is given commands. -/
theorem life_of_commands {l : LiveDisk} {config : Config} (hroom : l.full = false)
    (hnothing : l.disk.HoldsNothing config.dataDir) (ids : Nat → String) {events : List Event}
    {cs : List Command}
    (hcommands : (inputs events).map Entry.decode = cs.map fun c => .ok (.command c)) :
    ∃ h, life l config ids events =
        .ok ((Store.answers ∅ 0 (cs.map .command)).map .ok, h) ∧
      h.Holds config (cs.map .command) := by
  have hdecode : (inputs events).map Entry.decode = (cs.map Entry.command).map .ok := by
    rw [hcommands, List.map_map]
    rfl
  have hlasting : ∀ e ∈ cs.map Entry.command, e.Lasting := by
    intro e he
    obtain ⟨c, -, rfl⟩ := List.mem_map.1 he
    exact Entry.lasting_command c
  obtain ⟨h, hboot, hh⟩ := boot_of_holdsNothing hroom hnothing ids
  obtain ⟨h', hrun, hh'⟩ := run_of_holds hh hdecode hlasting
  rw [List.nil_append] at hh'
  refine ⟨h', ?_, hh'⟩
  rw [life, hboot]
  exact hrun

/-- **Replicas converge.** Two nodes are booted in data directories in which nothing is, on disks
that are not full, and then entries are submitted to both, whose bytes describe the same commands in
the same order. Each node is shut down and booted again at times of its own. Then all of this
succeeds. Every submission is accepted, the `i`-th with the same position and the same outcome on
both sides, and in the end the two nodes have the same store, the same position of the last entry,
and logs of the same bytes on their disks. -/
theorem replicas_converge {l l' : LiveDisk} {config config' : Config}
    (hroom : l.full = false) (hroom' : l'.full = false)
    (hnothing : l.disk.HoldsNothing config.dataDir)
    (hnothing' : l'.disk.HoldsNothing config'.dataDir) (ids ids' : Nat → String)
    {events events' : List Event} {cs : List Command}
    (hcommands : (inputs events).map Entry.decode = cs.map fun c => .ok (.command c))
    (hcommands' : (inputs events').map Entry.decode = cs.map fun c => .ok (.command c)) :
    ∃ (answers : List Accepted) (h h' : Host) (content : Bytes),
      life l config ids events = .ok (answers.map .ok, h) ∧
      life l' config' ids' events' = .ok (answers.map .ok, h') ∧
      answers.length = cs.length ∧ h.node.store = h'.node.store ∧
      h.node.replica.commitIndex = h'.node.replica.commitIndex ∧
      h.disk.content? (Log.pathOf config.dataDir) = some content ∧
      h'.disk.content? (Log.pathOf config'.dataDir) = some content := by
  obtain ⟨h, hlife, hh⟩ := life_of_commands hroom hnothing ids hcommands
  obtain ⟨h', hlife', hh'⟩ := life_of_commands hroom' hnothing' ids' hcommands'
  refine ⟨_, h, h', _, hlife, hlife', ?_, ?_, ?_, hh.content?, hh'.content?⟩
  · rw [Store.length_answers, List.length_map]
  · calc h.node.store
        = Store.ofEntries (cs.map .command) := hh.logged.store
      _ = h'.node.store := hh'.logged.store.symm
  · calc h.node.replica.commitIndex
        = Log.lastOf 0 (cs.map .command) := hh.logged.commitIndex
      _ = h'.node.replica.commitIndex := hh'.logged.commitIndex.symm

/-- A set, and a commit that comes too late, each written in two ways. One node is restarted between
them, the other before the first and after the last. -/
theorem replicas_converge_restarted :
    let first := Bytes.ofText
      "\x7b \"value\": \"v\", \"key\": \"\\u006b\", \"note\": [1], \"op\": \"SET\" \x7d"
    let second := Bytes.ofText ("\x7b\"read_set\":[\x7b\"version\":0,\"key\":\"k\"\x7d]," ++
      "\"op\":\"TX_COMMIT\",\"write_set\":[\x7b\"value\":\"w\",\"key\":\"k\"\x7d]\x7d")
    let config : Config := { nodeId := "a", dataDir := "data" }
    let config' : Config := { nodeId := "b", dataDir := "/srv/data" }
    ∃ (answers : List Accepted) (h h' : Host) (content : Bytes),
      life {} config Nat.repr
        [.submit (Command.set "k" "v").encode 0, .restart,
          .submit (Command.commit [⟨"k", 0⟩] [⟨"k", "w"⟩]).encode 0] =
        .ok (answers.map .ok, h) ∧
      life {} config' Nat.repr [.restart, .submit first 7, .submit second 7, .restart] =
        .ok (answers.map .ok, h') ∧
      answers.length = 2 ∧ h.node.store = h'.node.store ∧
      h.node.replica.commitIndex = h'.node.replica.commitIndex ∧
      h.disk.content? (Log.pathOf config.dataDir) = some content ∧
      h'.disk.content? (Log.pathOf config'.dataDir) = some content := by
  intro first second config config'
  let cs : List Command := [.set "k" "v", .commit [⟨"k", 0⟩] [⟨"k", "w"⟩]]
  have hnothing : ({} : Disk).HoldsNothing "data" := Disk.holdsNothing_empty
  have hnothing' : ({} : Disk).HoldsNothing "/srv/data" := ⟨_, rfl, rfl, rfl⟩
  have hfirst : Entry.decode first = .ok (.command (.set "k" "v")) := rfl
  have hsecond : Entry.decode second = .ok (.command (.commit [⟨"k", 0⟩] [⟨"k", "w"⟩])) := rfl
  have hcommands : (inputs [.submit (Command.set "k" "v").encode 0, .restart,
      .submit (Command.commit [⟨"k", 0⟩] [⟨"k", "w"⟩]).encode 0]).map Entry.decode =
        cs.map fun c => .ok (.command c) := by
    simp only [inputs, List.map_cons, List.map_nil, Command.decode_encode, cs]
  have hcommands' : (inputs [.restart, .submit first 7, .submit second 7, .restart]).map
      Entry.decode = cs.map fun c => .ok (.command c) := by
    simp only [inputs, List.map_cons, List.map_nil, hfirst, hsecond, cs]
  exact @replicas_converge {} {} config config' rfl rfl hnothing hnothing' Nat.repr Nat.repr _ _ cs
    hcommands hcommands'

end DurableKV.Host
