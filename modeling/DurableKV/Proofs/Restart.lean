import DurableKV.Proofs.Runs

/-!
# Restarts

What a restart reads back of the entries that a node accepted since it was booted. A submission is
accepted if its bytes can be decoded as an entry. That is less than a log needs: the entry is
written inside a record, and is read back from there.

* `readsBack_iff_lasting`: a restart reads everything back if all accepted entries are lasting, and
  only then.
* `accepted_and_lost`: an entry that is accepted, and no later start succeeds.
-/

namespace DurableKV

/-! ## The log of a running replica -/

namespace Replica

section

variable {content : Bytes} {rs : List Log.Record} {c : Log.Cursor} {before : Store}
  {es : List Entry} {r : Replica}

/-- The log of a replica is all complete lines. -/
theorem Logged.lines_eq (h : r.Logged (Bytes.lines content).1 c.last before es) :
    Bytes.lines r.machine.log.medium.content =
      ((Bytes.lines content).1 ++ Log.bodies c.last es, []) := by
  have hlines : ∀ l ∈ (Bytes.lines content).1 ++ Log.bodies c.last es, Bytes.newline ∉ l := by
    intro l hl
    rcases List.mem_append.1 hl with hl | hl
    · exact (Bytes.newline_notMem_lines content).1 l hl
    · exact Log.newline_notMem_bodies c.last es l hl
  rw [h.holds]
  exact Bytes.lines_joinLines_whole hlines

/-- What is taken of the log of a replica: what was taken at its start, and then the lines of the
entries that it accepted. -/
theorem Logged.taken (h : r.Logged (Bytes.lines content).1 c.last before es)
    (hstart : Log.taken content = .ok (rs, c)) :
    Log.taken r.machine.log.medium.content =
      (c.takeAll (Log.bodies c.last es)).map fun p => (rs ++ p.1, p.2) := by
  rw [Log.taken, h.lines_eq]
  exact Log.Cursor.takeAll_append_of_ok hstart

/-- The log of a replica that has accepted lasting entries can be read. -/
theorem Logged.taken_of_lasting (h : r.Logged (Bytes.lines content).1 c.last before es)
    (hstart : Log.taken content = .ok (rs, c)) (hself : ∀ e ∈ es, e.SelfDescribed)
    (hlasting : ∀ e ∈ es, e.Lasting) :
    ∃ offset, Log.taken r.machine.log.medium.content =
      .ok (rs ++ Log.numbered c.last es, ⟨offset, Log.lastOf c.last es⟩) := by
  obtain ⟨offset, htake⟩ := Log.Cursor.takeAll_numbered hself hlasting
  refine ⟨offset, ?_⟩
  rw [h.taken hstart, htake]
  rfl

/-- If the log of a replica can be read and ends in the entries that it accepted, then these are
lasting. -/
theorem Logged.lasting_of_taken (h : r.Logged (Bytes.lines content).1 c.last before es)
    (hstart : Log.taken content = .ok (rs, c)) (hself : ∀ e ∈ es, e.SelfDescribed)
    {ss : List Log.Record} {c' : Log.Cursor}
    (htaken : Log.taken r.machine.log.medium.content = .ok (ss, c'))
    (hsuffix : es <:+ ss.map Log.Record.entry) : ∀ e ∈ es, e.Lasting := by
  rw [h.taken hstart] at htaken
  obtain ⟨⟨new, last⟩, htake, hss⟩ := Json.map_eq_ok_iff.1 htaken
  cases hss
  rw [List.map_append] at hsuffix
  have hlength : (new.map Log.Record.entry).length = es.length := by
    rw [List.length_map, Log.Cursor.length_takeAll htake, Log.length_bodies]
  have hle : es.length ≤ (new.map Log.Record.entry).length := Nat.le_of_eq hlength.symm
  have hnew : es <:+ new.map Log.Record.entry :=
    List.suffix_of_suffix_length_le hsuffix (List.suffix_append _ _) hle
  exact Log.Cursor.lasting_of_takeAll hself htake (hnew.eq_of_length hlength.symm).symm

end

end Replica

namespace Recovery

/-! ## What a restart reads back -/

/-- A restart succeeds, finds this store and reads these entries back, the last of them at this
position and with nothing behind it. -/
def ReadsBack (d : Disk) (dataDir : String) (content : Bytes) (store : Store) (index : UInt64)
    (es : List Entry) : Prop :=
  ∃ machine stats after records, recover d dataDir = (.ok (machine, stats), after) ∧
    machine.store = store ∧ stats.finalSequence = index ∧ stats.torn = false ∧
    (Log.Scan.ofContent content).all.1 = .ok records ∧ es <:+ records.map Log.Record.entry

/-- **A restart reads everything back if all accepted entries are lasting, and only then.** A node
is booted on any disk, anything happens to it, and then an input is accepted. Its bytes describe an
entry `e`. A restart on the log that is there now finds the store as it was, and the entries that
were accepted since the boot, `e` the last of them and at the position that was answered, exactly if
each of these entries fits into a record and has no number that is read back as another one. -/
theorem readsBack_iff_lasting {d d' : Disk} {config : Config} {leads : Bool} {ids : Nat → String}
    {node : Node} (hboot : Node.boot d config leads ids = (.ok node, d'))
    (actions : List Replica.Action) {b : Bytes} {timeout : Nat} {held : Bool} {acc : Accepted}
    {r : Replica} (hsubmit : (node.replica.run actions).submit b timeout held = (.ok acc, r))
    {restarted : Disk} (hdisk : restarted.HoldsLog config.dataDir r.machine.log.medium.content) :
    ∃ e, Entry.decode b = .ok e ∧
      (ReadsBack restarted config.dataDir r.machine.log.medium.content r.store acc.index
          (node.replica.accepted actions ++ [e]) ↔
        ∀ f ∈ node.replica.accepted actions ++ [e], f.Lasting) := by
  obtain ⟨content, rs, c, hstart, hlogged⟩ := Node.logged_boot hboot
  obtain ⟨e, hdecode, hrunning, rfl, rfl⟩ := Replica.submit_eq_ok hsubmit
  have hrun := (Replica.logged_run actions (fun _ => hlogged) hrunning).accept e
  rw [List.nil_append] at hrun
  have hself : ∀ f ∈ node.replica.accepted actions ++ [e], f.SelfDescribed := by
    intro f hf
    rcases List.mem_append.1 hf with hf | hf
    · exact Replica.selfDescribed_of_accepted actions _ f hf
    · obtain rfl := List.mem_singleton.1 hf
      exact Entry.selfDescribed_of_decode hdecode
  refine ⟨e, hdecode, ?_⟩
  constructor
  · rintro ⟨machine, stats, after, records, hrecover, -, -, -, hall, hsuffix⟩
    obtain ⟨c', htaken⟩ := Log.taken_of_all hall
    exact hrun.lasting_of_taken hstart hself htaken hsuffix
  · intro hlasting
    obtain ⟨offset, htaken⟩ := hrun.taken_of_lasting hstart hself hlasting
    obtain ⟨machine, stats, hrestore, hrestored⟩ :=
      restore_some_of_taken (Log.pathOf config.dataDir) htaken
    refine ⟨machine, stats, _, _, recover_of_holdsLog hdisk hrestore, ?_, ?_, ?_,
      congrArg Prod.fst (Log.all_of_taken htaken), ?_⟩
    · rw [hrestored.store, List.map_append, Store.ofEntries_append, Log.map_entry_numbered]
      exact hrun.store.symm
    · rw [hrestored.finalSequence]
      exact hrun.commitIndex.symm
    · rw [hrestored.torn, hrun.lines_eq]
      rfl
    · rw [List.map_append, Log.map_entry_numbered]
      exact List.suffix_append _ _

/-- A node on an empty disk sets a key, and a restart reads it back. -/
theorem readsBack_set :
    let config : Config := { nodeId := "n", dataDir := "data" }
    ∃ node d' acc r, Node.boot {} config true Nat.repr = (.ok node, d') ∧
      node.replica.submit (Command.set "k" "v").encode 0 false = (.ok acc, r) ∧
      ReadsBack (.withLog r.machine.log.medium.content) "data" r.machine.log.medium.content r.store
        acc.index [.command (.set "k" "v")] := by
  let config : Config := { nodeId := "n", dataDir := "data" }
  have hfresh : ({} : Disk).HoldsNoLog config.dataDir := Disk.holdsNoLog_empty
  obtain ⟨machine, stats, hboot, hrestored⟩ := Node.boot_of_holdsNoLog hfresh true Nat.repr
  have hready := Replica.ready_bootstrap hrestored.healthy config.nodeId config.raftAddress
  have hsubmit := Replica.submit_of_ready hready (Command.decode_encode (.set "k" "v")) 0
  refine ⟨_, _, _, _, Prod.ext hboot rfl, hsubmit, ?_⟩
  obtain ⟨e, hdecode, hiff⟩ :=
    readsBack_iff_lasting (Prod.ext hboot rfl) [] hsubmit (Disk.holdsLog_withLog _)
  rw [Command.decode_encode] at hdecode
  cases hdecode
  apply hiff.2
  intro f hf
  obtain rfl := List.mem_singleton.1 hf
  exact Entry.lasting_command _

end Recovery

/-! ## An entry that is accepted and lost -/

namespace Json.Value

/-- An array in arrays, so many of them. -/
def nested : Nat → Value
  | 0 => .array []
  | n + 1 => .array [nested n]

/-- Every list around it makes a value one deeper. -/
theorem depth_nested (n : Nat) : (nested n).depth = n + 1 := by
  induction n with
  | zero => rfl
  | succ n ih =>
    show max (nested n).depth 0 + 1 = _
    rw [ih, Nat.max_zero]

/-- There is no number in lists of lists. -/
theorem numbers_nested (n : Nat) : (nested n).numbers = [] := by
  induction n with
  | zero => rfl
  | succ n ih =>
    show (nested n).numbers ++ [] = _
    rw [ih, List.append_nil]

/-- Lists of lists are in canonical form. -/
theorem canonical_nested (n : Nat) : (nested n).canonical = nested n := by
  induction n with
  | zero => rfl
  | succ n ih =>
    show Value.array [(nested n).canonical] = _
    rw [ih]
    rfl

/-- A note of arrays, nested as deep as an input may be. -/
def deepest : Value := .object [("op", .string "note"), ("value", nested 125)]

/-- The deepest value is as deep as a value may be that is read. -/
theorem depth_deepest : deepest.depth = nestingLimit := by
  show max 0 (max (nested 125).depth 0) + 1 = nestingLimit
  rw [depth_nested]
  rfl

/-- There is no number in the deepest value. -/
theorem numbers_deepest : deepest.numbers = [] := by
  show [] ++ ((nested 125).numbers ++ []) = _
  rw [numbers_nested]
  rfl

/-- The deepest value is read back from its text. -/
theorem read_deepest : Value.read deepest.bytes = .ok deepest := by
  apply read_bytes (Nat.le_of_eq depth_deepest)
  intro n hn
  rw [numbers_deepest] at hn
  exact absurd hn List.not_mem_nil

/-- The deepest value is in canonical form. -/
theorem canonical_deepest : deepest.canonical = deepest :=
  canonical_pair (by decide) rfl (canonical_nested 125)

end Json.Value

open Json

/-- The deepest value is accepted as a foreign entry. -/
theorem Entry.decode_deepest :
    Entry.decode Value.deepest.bytes = .ok (.foreign "note" Value.deepest) := by
  rw [Entry.decode, Value.read_deepest]
  show Entry.ofValue Value.deepest.canonical = _
  rw [Value.canonical_deepest]
  rfl

/-- A log with a record that is nested too deep cannot be read. -/
theorem Log.taken_of_deep {e : Entry} (h : nestingLimit ≤ e.toValue.depth) (n : UInt64) :
    ∃ cause, Log.taken (Bytes.joinLines [(Log.Record.make n e).body]) = .error cause := by
  have hnewline : ∀ l ∈ [(Log.Record.make n e).body], Bytes.newline ∉ l := by
    intro l hl
    obtain rfl := List.mem_singleton.1 hl
    exact (Log.Record.make n e).newline_notMem_body
  rw [Log.taken, Bytes.lines_joinLines_whole hnewline]
  cases htake : Log.Cursor.takeAll {} [(Log.Record.make n e).body] with
  | error cause => exact ⟨cause, rfl⟩
  | ok p =>
    obtain ⟨r, between, ss, hr, -, -⟩ := Log.Cursor.takeAll_cons_eq_ok_iff.1 htake
    obtain ⟨hparse, -, -⟩ := Log.Cursor.take_eq_ok hr
    obtain ⟨hrun, -⟩ := Log.Record.parse_eq_ok_iff.1 hparse
    have hdepth := ((Log.Record.make n e).run_body_eq_ok_iff.1 hrun).1
    exact absurd hdepth (Nat.not_lt_of_le h)

/-- **An entry that is accepted and lost**: a node on an empty disk accepts the note of arrays as
its first entry, and no start on its log succeeds after that. -/
theorem Recovery.accepted_and_lost :
    let config : Config := { nodeId := "n", dataDir := "data" }
    ∃ node d' acc r, Node.boot {} config true Nat.repr = (.ok node, d') ∧
      node.replica.submit Value.deepest.bytes 0 false = (.ok acc, r) ∧
      ∃ cause, (recover (.withLog r.machine.log.medium.content) "data").1 = .error cause := by
  let config : Config := { nodeId := "n", dataDir := "data" }
  have hfresh : ({} : Disk).HoldsNoLog config.dataDir := Disk.holdsNoLog_empty
  obtain ⟨machine, stats, hboot, hrestored⟩ := Node.boot_of_holdsNoLog hfresh true Nat.repr
  have hready := Replica.ready_bootstrap hrestored.healthy config.nodeId config.raftAddress
  have hlogged := (Replica.logged_bootstrap hrestored config.nodeId config.raftAddress).accept
    (.foreign "note" Value.deepest)
  refine ⟨_, _, _, _, Prod.ext hboot rfl, Replica.submit_of_ready hready Entry.decode_deepest 0, ?_⟩
  have hdeep : nestingLimit ≤ (Entry.foreign "note" Value.deepest).toValue.depth :=
    Nat.le_of_eq Value.depth_deepest.symm
  obtain ⟨cause, htaken⟩ := Log.taken_of_deep hdeep 1
  obtain ⟨cause', hrestore⟩ := restore_of_error (Log.pathOf config.dataDir) htaken
  refine ⟨cause', ?_⟩
  have hrecover := recover_of_holdsLog (Disk.holdsLog_withLog _) hrestore
  show (recover (.withLog ((Replica.bootstrap config.nodeId config.raftAddress machine).accept
    (.foreign "note" Value.deepest)).machine.log.medium.content) "data").1 = _
  rw [hlogged.holds]
  exact congrArg Prod.fst hrecover

end DurableKV
