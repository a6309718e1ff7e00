import DurableKV.Proofs.Log.Opening

/-!
# Writers that come one after the other

A log outlives its writers. Each of them opens it, appends some commands, and closes it or is merely
dropped (`Session`); the next one knows nothing but the file. It counts the lines anew, so the numbers
go on, and there is nothing for it to cut off, so the file stays as it is (`Rests.opened`).

Hence it does not matter how appends are spread over writers: a run of sessions gives the commands
the numbers 1, 2, 3 and so on, and reading and replay find exactly these commands in their order
(`sessions_read_back`).
-/

namespace DurableKV

namespace Log

/-! ## Sessions -/

/-- What one writer does with a log: it appends commands and goes. -/
structure Session where
  /-- The commands. -/
  commands : List Command
  /-- Is the log closed? Otherwise the writer is dropped. -/
  closes : Bool

/-- Append commands one after the other; their numbers are the result. -/
def appendAll (l : LiveDisk) (w : Writer) :
    List Command → Except Failure (List UInt64 × Writer × LiveDisk)
  | [] => .ok ([], w, l)
  | c :: cs =>
    match l.act w (·.append (.command c)) with
    | (.error cause, _, _) => .error cause
    | (.ok n, w, l) => do
      let (ns, w, l) ← appendAll l w cs
      .ok (n :: ns, w, l)

namespace Session

/-- The writer goes. -/
def leave (s : Session) (l : LiveDisk) (w : Writer) : Except Failure LiveDisk :=
  if s.closes then
    match l.act w fun w => (w.close, w) with
    | (.ok (), _, l) => .ok l.release
    | (.error cause, _, _) => .error cause
  else .ok l.release

/-- A whole session, from opening the log on. -/
def run (s : Session) (l : LiveDisk) (path : String) : Except Failure (List UInt64 × LiveDisk) :=
  match l.release.opened (Writer.open l.disk path) with
  | (.error cause, _) => .error cause
  | (.ok w, l) => do
    let (ns, w, l) ← appendAll l w s.commands
    let l ← s.leave l w
    .ok (ns, l)

/-- Sessions one after the other, with the numbers of all their commands. -/
def runAll (l : LiveDisk) (path : String) :
    List Session → Except Failure (List UInt64 × LiveDisk)
  | [] => .ok ([], l)
  | s :: ss => do
    let (ns, l) ← s.run l path
    let (ms, l) ← runAll l path ss
    .ok (ns ++ ms, l)

end Session

end Log

/-! ## A log between two writers -/

/-- A log that nobody has open, and the records that are read from it. -/
structure LiveDisk.Rests (l : LiveDisk) (path : String) (content : Bytes) (rs : List Log.Record) :
    Prop where
  /-- Files can grow. -/
  room : l.full = false
  /-- The log stands at its path. -/
  found : l.disk.find path = .ok (.file (.ofContent content))
  /-- It holds the records. -/
  whole : Log.Whole content rs

namespace LiveDisk

variable {l : LiveDisk} {path : String} {w : Log.Writer} {rs : List Log.Record} {content : Bytes}

/-- A writer leaves its file behind. -/
theorem Logs.rests (h : l.Logs path w rs) : l.release.Rests path w.medium.content rs :=
  ⟨h.serves.room, h.serves.find, h.whole⟩

/-- A log that rests on the disk is the content at its path. -/
theorem Rests.content? (h : l.Rests path content rs) : l.content? path = some content := by
  unfold LiveDisk.content? Disk.read
  rw [h.found]
  exact congrArg some (File.content_ofContent content)

/-- **Opening a log again changes none of its bytes**, as there is nothing to cut off. -/
theorem Rests.opened (h : l.Rests path content rs) :
    ∃ w l', l.release.opened (Log.Writer.open l.disk path) = (.ok w, l') ∧ l'.Logs path w rs ∧
      w.medium.content = content := by
  obtain ⟨c, hreads⟩ := h.whole.reads
  obtain ⟨w, l', hopened, hlogs, hcontent⟩ := Log.logs_of_find h.room h.found hreads
  exact ⟨w, l', hopened, hlogs, hcontent.trans h.whole.joinLines_lines⟩

/-- Closing a log writes nothing. -/
theorem Logs.leave (h : l.Logs path w rs) (s : Log.Session) :
    ∃ l', s.leave l w = .ok l' ∧ l'.Rests path w.medium.content rs := by
  unfold Log.Session.leave
  split
  · have hsyncs : w.medium.syncFault = none := h.serves.healthy.syncs
    have hclose : w.close = .ok () := by
      unfold Log.Writer.close
      rw [hsyncs]
    have hact := h.serves.act (f := fun w => (w.close, w)) rfl (Prod.ext hclose rfl)
      h.serves.healthy.keeps
    rw [hact]
    exact ⟨_, rfl, Logs.rests ⟨h.serves.saved h.serves.healthy, h.whole, h.next⟩⟩
  · exact ⟨_, rfl, h.rests⟩

end LiveDisk

namespace Log

/-! ## What sessions come to -/

variable {l : LiveDisk} {path : String} {w : Writer} {es : List Entry}

/-- The numbers of appended commands follow those of the log. -/
theorem appendAll_of_logs {cs : List Command} {l : LiveDisk} {w : Writer} {es : List Entry}
    (h : l.Logs path w (numbered 0 es)) :
    ∃ w' l', appendAll l w cs =
        .ok ((numbered (lastOf 0 es) (cs.map .command)).map Record.sequence, w', l') ∧
      l'.Logs path w' (numbered 0 (es ++ cs.map .command)) := by
  induction cs generalizing l w es with
  | nil =>
    rw [List.map_nil, List.append_nil]
    exact ⟨w, l, rfl, h⟩
  | cons c cs ih =>
    obtain ⟨w', l', hact, hlogs⟩ :=
      h.append (Entry.selfDescribed_command c) (Entry.lasting_command c)
    have hnext : w.next = lastOf 0 es + 1 := by
      rw [h.next, length_numbered, lastOf_zero, UInt64.ofNat_add]
      rfl
    have hone : numbered 0 es ++ [Record.make w.next (.command c)] =
        numbered 0 (es ++ [.command c]) := by
      rw [numbered_append, hnext]
      rfl
    rw [hone] at hlogs
    obtain ⟨w'', l'', hrest, hlogs'⟩ := ih hlogs
    rw [List.append_assoc] at hlogs'
    refine ⟨w'', l'', ?_, hlogs'⟩
    unfold appendAll
    rw [hact]
    dsimp only
    rw [hrest, lastOf_concat, hnext]
    rfl

/-- A session adds its commands to the log, whether it was made or found. -/
theorem run_of_opened (s : Session) {l opened : LiveDisk} {w : Writer} {es : List Entry}
    (hopened : l.release.opened (Writer.open l.disk path) = (.ok w, opened))
    (hlogs : opened.Logs path w (numbered 0 es)) :
    ∃ l' content, s.run l path =
        .ok ((numbered (lastOf 0 es) (s.commands.map .command)).map Record.sequence, l') ∧
      l'.Rests path content (numbered 0 (es ++ s.commands.map .command)) := by
  obtain ⟨w', after, happend, hlogs'⟩ := appendAll_of_logs hlogs
  obtain ⟨l', hleave, hrests⟩ := hlogs'.leave s
  refine ⟨l', _, ?_, hrests⟩
  unfold Session.run
  rw [hopened]
  show (appendAll opened w s.commands >>= _) = _
  rw [happend]
  show (s.leave after w' >>= _) = _
  rw [hleave]
  rfl

/-- Running some sessions is running the first and then the others on the disk that it leaves. -/
theorem runAll_cons {s : Session} {l l' : LiveDisk} {ns : List UInt64}
    (h : s.run l path = .ok (ns, l')) (ss : List Session) :
    Session.runAll l path (s :: ss) =
      (Session.runAll l' path ss).map fun p => (ns ++ p.1, p.2) := by
  rw [Session.runAll, h]
  show (Session.runAll l' path ss >>= _) = _
  cases Session.runAll l' path ss <;> rfl

/-- **Sessions one after the other** add all their commands, in order. -/
theorem runAll_of_rests (ss : List Session) {l : LiveDisk} {es : List Entry} {content : Bytes}
    (h : l.Rests path content (numbered 0 es)) :
    ∃ l' content', Session.runAll l path ss = .ok
        ((numbered (lastOf 0 es) ((ss.flatMap Session.commands).map .command)).map Record.sequence,
          l') ∧
      l'.Rests path content' (numbered 0 (es ++ (ss.flatMap Session.commands).map .command)) := by
  induction ss generalizing l es content with
  | nil =>
    rw [List.flatMap_nil, List.map_nil, List.append_nil]
    exact ⟨l, content, rfl, h⟩
  | cons s ss ih =>
    obtain ⟨w, opened, hopened, hlogs, -⟩ := h.opened
    obtain ⟨l₁, content₁, hrun, hrests₁⟩ := run_of_opened s hopened hlogs
    obtain ⟨l₂, content₂, hrest, hrests₂⟩ := ih hrests₁
    rw [List.append_assoc, ← List.map_append] at hrests₂
    refine ⟨l₂, content₂, ?_, hrests₂⟩
    rw [runAll_cons hrun, hrest, lastOf_append, List.flatMap_cons, List.map_append,
      numbered_append, List.map_append]
    rfl

/-! ## Reading what sessions wrote -/

/-- Others find what was left behind, and replay hands it to a visitor. -/
theorem replay_of_rests {content : Bytes} {cs : List Command}
    (h : l.Rests path content (numbered 0 (cs.map .command))) :
    ∃ scan after, Scan.find l.disk path = .ok (some scan) ∧
      scan.all = (.ok (numbered 0 (cs.map .command)), after) ∧ after.torn = false ∧
      ∀ {σ ε : Type} (visit : Visitor σ ε) (lift : Failure → ε) (s : σ),
        (∀ s c, (visit s c).2 = none) →
        ∃ p, replay visit lift (some scan) s = (.ok p, cs.foldl (fun s c => (visit s c).1) s) := by
  obtain ⟨c, hreads⟩ := h.whole.reads
  obtain ⟨after, hall, htorn⟩ := h.whole.all
  refine ⟨.ofContent content, after, ?_, hall, htorn, ?_⟩
  · unfold Scan.find Scan.open
    rw [h.found]
    dsimp only
    rw [File.content_ofContent]
  · intro σ ε visit lift s hvisit
    have haccepts := Visitor.accepts_of_forall hvisit (commands (numbered 0 (cs.map .command))) s
    rw [replay_of_ok hreads haccepts, commands_numbered, List.filterMap_map]
    simp only [Function.comp_def, Entry.command?, List.filterMap_some]
    exact ⟨_, rfl⟩

/-- **Commands are read back as they were appended, by however many writers.** Sessions one after the
other, the first of which makes the log, give their commands the numbers 1, 2, 3 and so on. Then the
log is read as one record for each command, in order and with these numbers, and has no torn tail;
replay hands exactly the commands to a visitor that refuses none; and the next writer finds the file
as it is and goes on behind the last number. -/
theorem sessions_read_back {l : LiveDisk} (hroom : l.full = false) {path : String}
    (hoffers : l.disk.Offers path) (first : Session) (others : List Session) :
    let cs := (first :: others).flatMap Session.commands
    ∃ l' scan records after, Session.runAll l path (first :: others) = .ok (positions cs.length, l') ∧
      Scan.find l'.disk path = .ok (some scan) ∧
      scan.all = (.ok records, after) ∧ after.torn = false ∧
      records.map Record.sequence = positions cs.length ∧
      records.map Record.entry = cs.map .command ∧
      (∀ {σ ε : Type} (visit : Visitor σ ε) (lift : Failure → ε) (s : σ),
        (∀ s c, (visit s c).2 = none) →
        ∃ p, replay visit lift (some scan) s = (.ok p, cs.foldl (fun s c => (visit s c).1) s)) ∧
      ∃ w l'', l'.release.opened (Writer.open l'.disk path) = (.ok w, l'') ∧
        l''.content? path = l'.content? path ∧ w.next = UInt64.ofNat (cs.length + 1) := by
  intro cs
  obtain ⟨w, opened, hopened, hlogs⟩ := logs_of_offers hroom hoffers
  -- the first session makes the log, and the others find it at rest
  have hempty : opened.Logs path w (numbered 0 []) := hlogs
  obtain ⟨l₁, content₁, hrun, hrests₁⟩ := run_of_opened first hopened hempty
  rw [List.nil_append] at hrests₁
  obtain ⟨l', content, hrest, hrests⟩ := runAll_of_rests others hrests₁
  rw [← List.map_append, ← List.flatMap_cons] at hrests
  obtain ⟨scan, after, hfind, hall, htorn, hreplay⟩ := replay_of_rests hrests
  obtain ⟨w', l'', hreopened, hlogs', hcontent⟩ := hrests.opened
  have hpositions : (numbered 0 (cs.map .command)).map Record.sequence = positions cs.length := by
    rw [map_sequence_numbered_zero, List.length_map]
  refine ⟨l', scan, _, after, ?_, hfind, hall, htorn, hpositions, map_entry_numbered 0 _, hreplay,
    w', l'', hreopened, ?_, ?_⟩
  · have hlast := lastOf_nil 0
    rw [runAll_cons hrun, hrest, ← hpositions, hlast]
    show Except.ok (_ ++ _, l') = Except.ok (_, l')
    rw [← List.map_append, ← numbered_append, ← List.map_append]
    rfl
  · have hserved : l''.content? path = some w'.medium.content := hlogs'.serves.content?
    rw [hserved, hcontent, hrests.content?]
  · rw [hlogs'.next, length_numbered, List.length_map]

/-- One writer sets a key and closes the log, the next does nothing, and the third deletes the key
and is dropped. -/
theorem sessions_read_back_three :
    let ss : List Session := [⟨[.set "k" "v"], true⟩, ⟨[], true⟩, ⟨[.delete "k"], false⟩]
    ∃ l' scan records after, Session.runAll {} (pathOf "data") ss = .ok ([1, 2], l') ∧
      Scan.find l'.disk (pathOf "data") = .ok (some scan) ∧
      scan.all = (.ok records, after) ∧ after.torn = false ∧
      records.map Record.sequence = [1, 2] ∧
      records.map Record.entry = [.command (.set "k" "v"), .command (.delete "k")] := by
  intro ss
  have hoffers : ({} : LiveDisk).disk.Offers (pathOf "data") := Disk.offers_empty
  obtain ⟨l', scan, records, after, hrun, hfind, hall, htorn, hsequences, hentries, -⟩ :=
    sessions_read_back rfl hoffers ⟨[.set "k" "v"], true⟩ [⟨[], true⟩, ⟨[.delete "k"], false⟩]
  exact ⟨l', scan, records, after, hrun, hfind, hall, htorn, hsequences, hentries⟩

end Log

end DurableKV
