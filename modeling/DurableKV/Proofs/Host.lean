import DurableKV.Proofs.CrashRecovery
import DurableKV.Proofs.Creation
import DurableKV.Proofs.LiveDisk

/-!
# A node over its restarts

A `Host` is a node and the disk that it keeps its log on. Entries are submitted to the node, and the
file on the disk grows with the log; or the node is shut down and booted again from what the disk
holds (`Host.run`).

`Host.Holds` is what a restart cannot change: the log holds the accepted entries from the first one
on, the store is what they make of the empty one, and the disk holds the same file as the log. It is
there after the first boot in an empty data directory (`boot_of_holdsNothing`), and each submission
(`submit_of_holds`) and each restart (`restart_of_holds`) keeps it. So a run depends on the entries
alone, and not on when the node was restarted (`run_of_holds`).
-/

namespace DurableKV

/-- Submit an entry to the replica of a node. -/
def Node.submit (n : Node) (input : Bytes) (timeout : Nat) :
    Except SubmitError Accepted × Node :=
  let (answer, r) := n.replica.submit input timeout false
  (answer, n.withReplica fun _ => r)

/-- A node and the disk that it lives on. -/
structure Host where
  /-- The disk, with the log of the node open. -/
  disk : LiveDisk
  /-- The node. -/
  node : Node

namespace Host

/-- Boot a node. -/
def boot (l : LiveDisk) (config : Config) (leads : Bool) (ids : Nat → String) :
    Except NodeError Host :=
  match l.release.opened (Node.boot l.disk config leads ids) with
  | (.ok node, disk) => .ok ⟨disk, node⟩
  | (.error cause, _) => .error cause

/-- Submit an entry to the node. -/
def submit (h : Host) (input : Bytes) (timeout : Nat) : Except SubmitError Accepted × Host :=
  let (answer, node, disk) := h.disk.act h.node fun n => n.submit input timeout
  (answer, ⟨disk, node⟩)

/-- Let the node follow another leader, if one is known. -/
def stepDown (h : Host) (leader : Option String) : Host :=
  { h with node := h.node.withReplica fun r => r.stepDown leader }

/-- Make the node the leader. -/
def becomeLeader (h : Host) : Host := { h with node := h.node.withReplica Replica.becomeLeader }

/-- Shut the node down and boot it again, as a leader. Transaction ids that were drawn are not drawn
again. -/
def restart (h : Host) : Except NodeError Host :=
  match h.disk.act h.node fun n => (n.shutdown, n) with
  | (.ok (), node, disk) => boot disk node.config true fun n => node.ids (node.issued + n)
  | (.error cause, _, _) => .error cause

/-- What can happen to a node that is not disturbed. -/
inductive Event where
  /-- An entry is submitted. -/
  | submit (input : Bytes) (timeout : Nat)
  /-- The node is shut down and booted again. -/
  | restart

/-- What is submitted. -/
def inputs : List Event → List Bytes
  | [] => []
  | .submit input _ :: events => input :: inputs events
  | .restart :: events => inputs events

/-- The answers to what is submitted, and the host after all events. -/
def run (h : Host) : List Event → Except NodeError (List (Except SubmitError Accepted) × Host)
  | [] => .ok ([], h)
  | .submit input timeout :: events => do
    let (answer, h) := h.submit input timeout
    let (answers, h) ← h.run events
    .ok (answer :: answers, h)
  | .restart :: events => do
    let h ← h.restart
    h.run events

/-- Boot a node that leads and let events happen to it. -/
def life (l : LiveDisk) (config : Config) (ids : Nat → String) (events : List Event) :
    Except NodeError (List (Except SubmitError Accepted) × Host) := do
  let h ← boot l config true ids
  h.run events

end Host

/-! ## A log that goes on -/

/-- What a replica has accepted since its log held some entries counts from before them as well. -/
theorem Replica.Logged.rebase {r : Replica} {lines : List Bytes} {last : UInt64} {before : Store}
    {es : List Entry}
    (h : r.Logged (lines ++ Log.bodies last es) (Log.lastOf last es) (es.foldl Store.absorb before)
      []) : r.Logged lines last before es := by
  have hlast := Log.lastOf_nil (Log.lastOf last es)
  refine ⟨h.keeps, ?_, ?_, h.store, ?_⟩
  · rw [h.holds]
    exact congrArg _ (List.append_nil _)
  · rw [h.next, hlast]
  · rw [h.commitIndex, hlast]

/-! ## What entries come to -/

/-- What is answered to entries that are accepted one after the other, by a store and behind a
position. -/
def Store.answers (s : Store) (last : UInt64) : List Entry → List Accepted
  | [] => []
  | e :: es => ⟨last + 1, s.outcomeOf e⟩ :: (s.absorb e).answers (last + 1) es

/-- Every entry is answered. -/
theorem Store.length_answers (es : List Entry) : (s : Store) → (last : UInt64) →
    (s.answers last es).length = es.length := by
  induction es with
  | nil => exact fun _ _ => rfl
  | cons e es ih =>
    intro s last
    rw [answers, List.length_cons, List.length_cons, ih]

namespace Host

/-- A host whose node has accepted some entries over all its boots, the first of them in an empty
data directory. -/
structure Holds (config : Config) (es : List Entry) (h : Host) : Prop where
  /-- The node was told nothing else. -/
  told : h.node.config = config
  /-- It accepts whatever can be decoded. -/
  ready : h.node.replica.Ready
  /-- Its log and its store hold the entries. -/
  logged : h.node.replica.Logged [] 0 ∅ es
  /-- Every entry is described by its bytes. -/
  selfDescribed : ∀ e ∈ es, e.SelfDescribed
  /-- Every entry can be read back from a record. -/
  lasting : ∀ e ∈ es, e.Lasting
  /-- The log is open. -/
  attached : h.disk.attached = some (Log.pathOf config.dataDir)
  /-- Files can grow. -/
  room : h.disk.full = false
  /-- The disk holds the file of the log. -/
  stored : h.disk.disk.find (Log.pathOf config.dataDir) =
    .ok (.file h.node.replica.machine.log.medium.toFile)

section

variable {config : Config} {es : List Entry} {h : Host}

/-- The log holds the records of the entries and nothing else. -/
theorem Holds.content_eq (hh : h.Holds config es) :
    h.node.replica.machine.log.medium.content = Bytes.joinLines (Log.bodies 0 es) :=
  hh.logged.holds

/-- The disk serves the node. -/
theorem Holds.serves (hh : h.Holds config es) :
    h.disk.Serves (Log.pathOf config.dataDir) h.node :=
  ⟨hh.attached, hh.room, hh.stored, hh.ready.healthy⟩

/-! ## Booting -/

/-- A boot opens the log that recovery brings up. -/
theorem boot_of_recovered {l : LiveDisk} {machine : Machine} {stats : ReplayStats} {d : Disk}
    (hrecover : Recovery.recover l.disk config.dataDir = (.ok (machine, stats), d))
    (hpath : machine.log.path = Log.pathOf config.dataDir) (leads : Bool) (ids : Nat → String) :
    boot l config leads ids =
      .ok ⟨{ l with disk := d, attached := some (Log.pathOf config.dataDir) },
        .ofMachine config leads ids machine stats⟩ := by
  unfold boot Node.boot
  rw [hrecover, ← hpath]
  cases leads <;> rfl

/-- The disk serves the node whose log recovery has brought up. -/
theorem serves_of_recovered {l : LiveDisk} (hroom : l.full = false) {d : Disk} {content : Bytes}
    {rs : List Log.Record} {c : Log.Cursor} {machine : Machine} {stats : ReplayStats}
    (hrestored : Recovery.Restored (Log.pathOf config.dataDir) content rs c machine stats)
    (hafter : d.HoldsLog config.dataDir (Bytes.joinLines (Bytes.lines content).1))
    (leads : Bool) (ids : Nat → String) :
    LiveDisk.Serves { l with disk := d, attached := some (Log.pathOf config.dataDir) }
      (Log.pathOf config.dataDir) (Node.ofMachine config leads ids machine stats) := by
  rw [Disk.HoldsLog, ← hrestored.holds, File.ofContent_content hrestored.healthy.keeps] at hafter
  cases leads with
  | true => exact ⟨rfl, hroom, hafter, hrestored.healthy⟩
  | false => exact ⟨rfl, hroom, hafter, hrestored.healthy⟩

/-- A boot that succeeded has recovered. -/
theorem recovered_of_boot {l : LiveDisk} {leads : Bool} {ids : Nat → String}
    (hboot : boot l config leads ids = .ok h) :
    ∃ machine stats d, Recovery.recover l.disk config.dataDir = (.ok (machine, stats), d) := by
  unfold boot Node.boot at hboot
  split at hboot
  · rename_i hopened
    split at hopened
    · cases hopened
    · exact ⟨_, _, _, by assumption⟩
  · cases hboot

/-- The boot of a leader that recovers from the lines of some entries. -/
theorem boot_of_recover {l : LiveDisk} (hroom : l.full = false) {offset : Nat} {machine : Machine}
    {stats : ReplayStats} {d : Disk}
    (hrecover : Recovery.recover l.disk config.dataDir = (.ok (machine, stats), d))
    (hrestored : Recovery.Restored (Log.pathOf config.dataDir) (Bytes.joinLines (Log.bodies 0 es))
      (Log.numbered 0 es) ⟨offset, Log.lastOf 0 es⟩ machine stats)
    (hafter : d.HoldsLog config.dataDir
      (Bytes.joinLines (Bytes.lines (Bytes.joinLines (Log.bodies 0 es))).1))
    (hself : ∀ e ∈ es, e.SelfDescribed) (hlasting : ∀ e ∈ es, e.Lasting) (ids : Nat → String) :
    ∃ h, boot l config true ids = .ok h ∧ h.Holds config es := by
  have hready := Replica.ready_bootstrap hrestored.healthy config.nodeId config.raftAddress
  have hlogged := Replica.logged_bootstrap hrestored config.nodeId config.raftAddress
  rw [Log.lines_bodies, Log.map_entry_numbered] at hlogged
  have hserves := serves_of_recovered (l := l) hroom hrestored hafter true ids
  exact ⟨_, boot_of_recovered hrecover hrestored.path true ids, rfl, hready, hlogged.rebase, hself,
    hlasting, hserves.attached, hserves.room, hserves.stored⟩

/-- **A node boots in an empty data directory.** -/
theorem boot_of_holdsNothing {l : LiveDisk} (hroom : l.full = false)
    (hnothing : l.disk.HoldsNothing config.dataDir) (ids : Nat → String) :
    ∃ h, boot l config true ids = .ok h ∧ h.Holds config [] := by
  obtain ⟨machine, stats, d, hrecover, hrestored, hafter⟩ :=
    Recovery.recover_of_holdsNothing hnothing
  exact @boot_of_recover config [] l hroom 0 machine stats d hrecover hrestored hafter
    (List.forall_mem_nil _) (List.forall_mem_nil _) ids

/-! ## One event -/

/-- What a submission does to a node is done to the disk as well. -/
theorem submit_of_serves {path : String} (hserves : h.disk.Serves path h.node) {b : Bytes}
    {timeout : Nat} {answer : Except SubmitError Accepted} {r : Replica}
    (hsubmit : h.node.replica.submit b timeout false = (answer, r))
    (hhealthy : r.machine.log.medium.Healthy) :
    ∃ disk, h.submit b timeout = (answer, ⟨disk, h.node.withReplica fun _ => r⟩) ∧
      disk.Serves path (h.node.withReplica fun _ => r) := by
  have hnode : h.node.submit b timeout = (answer, h.node.withReplica fun _ => r) := by
    rw [Node.submit, hsubmit]
  have hact := hserves.act (f := fun n => n.submit b timeout) rfl hnode hhealthy.keeps
  refine ⟨_, ?_, hserves.saved (y := h.node.withReplica fun _ => r) hhealthy⟩
  rw [submit, hact]

/-- What a submission comes to if nothing is in the way of writing: the entry is accepted, or nothing
but a halt is left of it. -/
theorem submit_cases_of_serves {path : String} (hserves : h.disk.Serves path h.node)
    (b : Bytes) (timeout : Nat) :
    (∃ e disk, Entry.decode b = .ok e ∧
        h.submit b timeout =
          (.ok ⟨h.node.replica.commitIndex + 1, h.node.replica.store.outcomeOf e⟩,
            ⟨disk, h.node.withReplica fun _ => h.node.replica.accept e⟩) ∧
        disk.Serves path (h.node.withReplica fun _ => h.node.replica.accept e)) ∨
      ∃ why halted disk,
        h.submit b timeout =
          (.error why, ⟨disk, h.node.withReplica fun _ => { h.node.replica with halted }⟩) ∧
        disk.Serves path (h.node.withReplica fun _ => { h.node.replica with halted }) := by
  cases hsubmit : h.node.replica.submit b timeout false with
  | mk answer r =>
    cases answer with
    | ok acc =>
      obtain ⟨e, hdecode, -, rfl, rfl⟩ := Replica.submit_eq_ok hsubmit
      have hhealthy := Replica.healthy_accept hserves.healthy e
      obtain ⟨disk, hsubmitted, hserves'⟩ := submit_of_serves hserves hsubmit hhealthy
      exact Or.inl ⟨e, disk, hdecode, hsubmitted, hserves'⟩
    | error why =>
      obtain ⟨halted, rfl⟩ := Replica.submit_error_of_healthy hserves.healthy hsubmit
      obtain ⟨disk, hsubmitted, hserves'⟩ := submit_of_serves hserves hsubmit hserves.healthy
      exact Or.inr ⟨why, halted, disk, hsubmitted, hserves'⟩

/-- **Every entry that can be decoded is accepted**, and is on the disk. -/
theorem submit_of_holds (hh : h.Holds config es) {b : Bytes} {e : Entry}
    (hdecode : Entry.decode b = .ok e) (hlasting : e.Lasting) (timeout : Nat) :
    ∃ h', h.submit b timeout =
        (.ok ⟨Log.lastOf 0 es + 1, (Store.ofEntries es).outcomeOf e⟩, h') ∧
      h'.Holds config (es ++ [e]) := by
  have hready := hh.ready.accept e
  have hsubmit : h.node.replica.submit b timeout false =
      (.ok ⟨Log.lastOf 0 es + 1, (Store.ofEntries es).outcomeOf e⟩, h.node.replica.accept e) := by
    rw [Replica.submit_of_ready hh.ready hdecode, hh.logged.commitIndex, hh.logged.store]
    rfl
  obtain ⟨disk, hsubmitted, hserves⟩ := submit_of_serves hh.serves hsubmit hready.healthy
  refine ⟨_, hsubmitted, hh.told, hready, hh.logged.accept e, ?_, ?_, hserves.attached,
    hserves.room, hserves.stored⟩
  · rw [List.forall_mem_append, List.forall_mem_singleton]
    exact ⟨hh.selfDescribed, Entry.selfDescribed_of_decode hdecode⟩
  · rw [List.forall_mem_append, List.forall_mem_singleton]
    exact ⟨hh.lasting, hlasting⟩

/-- A node is shut down and booted again from what its log holds. -/
theorem restart_of_serves {path : String} (hserves : h.disk.Serves path h.node) :
    h.restart = boot (h.disk.saved path (Holder.log h.node).medium.toFile) h.node.config true
      (fun n => h.node.ids (h.node.issued + n)) := by
  have hsyncs : h.node.replica.machine.log.medium.syncFault = none := hserves.healthy.syncs
  have hshutdown : h.node.shutdown = .ok () := by
    rw [Node.shutdown, Replica.shutdown, Machine.close, Log.Writer.close, hsyncs]
    rfl
  have hnode : (h.node.shutdown, h.node) = (.ok (), h.node) := by
    rw [hshutdown]
  rw [restart, hserves.act (f := fun n => (n.shutdown, n)) rfl hnode hserves.healthy.keeps]

/-- **A restart changes nothing.** -/
theorem restart_of_holds (hh : h.Holds config es) :
    ∃ h', h.restart = .ok h' ∧ h'.Holds config es := by
  have hsaved : (h.disk.saved (Log.pathOf config.dataDir)
      (Holder.log h.node).medium.toFile).disk.HoldsLog config.dataDir
        (Bytes.joinLines (Log.bodies 0 es)) := by
    rw [← hh.content_eq]
    exact (hh.serves.saved hh.serves.healthy).find
  obtain ⟨offset, htaken⟩ :=
    Log.taken_bodies hh.selfDescribed hh.lasting List.not_mem_nil
  rw [List.append_nil] at htaken
  obtain ⟨machine, stats, d, hrecover, hrestored, hafter⟩ :=
    Recovery.recover_of_taken hsaved htaken
  rw [restart_of_serves hh.serves, hh.told]
  exact boot_of_recover (l := h.disk.saved _ _) hh.room hrecover hrestored hafter hh.selfDescribed
    hh.lasting _

/-! ## A run -/

/-- **A run depends on the accepted entries alone**, and not on when the node was restarted. -/
theorem run_of_holds {events : List Event} : {h : Host} → {es fs : List Entry} →
    h.Holds config es → (inputs events).map Entry.decode = fs.map .ok → (∀ f ∈ fs, f.Lasting) →
    ∃ h', h.run events =
        .ok (((Store.ofEntries es).answers (Log.lastOf 0 es) fs).map .ok, h') ∧
      h'.Holds config (es ++ fs) := by
  induction events with
  | nil =>
    intro h es fs hh hdecode _
    obtain rfl := List.map_eq_nil_iff.1 hdecode.symm
    rw [List.append_nil]
    exact ⟨h, rfl, hh⟩
  | cons event events ih =>
    intro h es fs hh hdecode hlasting
    cases event with
    | restart =>
      obtain ⟨h', hrestart, hh'⟩ := restart_of_holds hh
      rw [run, hrestart]
      exact ih hh' hdecode hlasting
    | submit input timeout =>
      cases fs with
      | nil => cases hdecode
      | cons f fs =>
        obtain ⟨hf, hfs⟩ := List.cons.inj hdecode
        obtain ⟨hlast, hlasting⟩ := List.forall_mem_cons.1 hlasting
        obtain ⟨h', hsubmit, hh'⟩ := submit_of_holds hh hf hlast timeout
        obtain ⟨h'', hrun, hh''⟩ := ih hh' hfs hlasting
        rw [List.append_assoc] at hh''
        refine ⟨h'', ?_, hh''⟩
        have hstore : Store.ofEntries (es ++ [f]) = (Store.ofEntries es).absorb f :=
          Store.ofEntries_append es [f]
        rw [hstore, Log.lastOf_concat] at hrun
        rw [run, hsubmit]
        show (h'.run events >>= _) = _
        rw [hrun]
        rfl

end

end Host

end DurableKV
