import DurableKV.Proofs.Creation
import DurableKV.Proofs.LiveDisk
import DurableKV.Proofs.Replica

/-!
# Opening a log for appending

What opening a log comes to, at any path. A log that is there is found by its path, so the directory
of the path is there too, and nothing has to be made (`Log.prepare_of_find`). Then the log is opened
behind its complete lines (`Log.logs_of_find`). A log that is missing is made as an empty file first
(`Log.logs_of_offers`). In both cases the log is open afterwards and holds its records and nothing
else (`LiveDisk.Logs`), and each entry that is appended adds one (`LiveDisk.Logs.append`).

The directory of a path is cut out of its text: parts that name nothing are dropped from its end, and
what is left may be no more than the beginning of the path. `Path.parts_of_parent` is all that is
needed of it.
-/

namespace DurableKV

/-! ## The directory that a path stands in -/

namespace Path

/-- Only slashes have no parts between them. -/
theorem eq_slash_of_written {cs : List Char} (h : written cs = []) : ∀ c ∈ cs, c = '/' := by
  induction cs with
  | nil => simp
  | cons c cs ih =>
    obtain ⟨part, parts, hsplit⟩ := List.exists_cons_of_ne_nil (splitSlashes_ne_nil cs)
    unfold written splitSlashes at h
    rw [hsplit] at h
    by_cases hc : c = '/'
    · rw [if_pos hc] at h
      have hcs : written cs = [] := by
        rw [written, hsplit]
        simpa using h
      intro c' hc'
      rcases List.mem_cons.1 hc' with rfl | hc'
      · exact hc
      · exact ih hcs c' hc'
    · simp [hc] at h

/-- A path that is not empty and does not end in a slash names something. -/
theorem written_ne_nil {cs : List Char} (hne : cs ≠ []) (hlast : cs.getLast? ≠ some '/') :
    written cs ≠ [] := by
  intro h
  apply hlast
  rw [List.getLast?_eq_some_getLast hne, eq_slash_of_written h _ (List.getLast_mem hne)]

/-- What more parts add behind parts with slashes between them. -/
theorem intercalate_append {ps qs : List (List Char)} (hp : ps ≠ []) (hq : qs ≠ []) :
    List.intercalate ['/'] (ps ++ qs) =
      List.intercalate ['/'] ps ++ '/' :: List.intercalate ['/'] qs := by
  obtain ⟨q, qs, rfl⟩ := List.exists_cons_of_ne_nil hq
  induction ps with
  | nil => exact absurd rfl hp
  | cons p ps ih =>
    cases ps with
    | nil => simp [List.intercalate_cons_cons]
    | cons p' ps =>
      have h := ih (List.cons_ne_nil _ _)
      simp only [List.cons_append, List.intercalate_cons_cons] at h ⊢
      rw [h]
      simp

/-- A path is its lead and what is written behind it. -/
theorem toList_eq_lead_append (path : String) :
    path.toList = (lead path).toList ++ path.toList.drop (lead path).length := by
  rcases lead_eq path with h | ⟨h, cs, hcs⟩ | ⟨h, rfl | ⟨cs, hcs⟩⟩
  · rw [h]
    rfl
  · rw [h, hcs]
    rfl
  · rw [h]
    rfl
  · rw [h, hcs]
    rfl

/-- The nearest of the paths up drops the parts that name nothing. -/
theorem head?_waysUp (lead : String) (parts : List (List Char)) :
    (waysUp lead parts).head? = some (lead ++ String.ofList
      (List.intercalate ['/'] (parts.dropWhile (! isNamed ·)).reverse)) := by
  induction parts with
  | nil =>
    unfold waysUp
    split <;> simp_all
  | cons part parts ih =>
    unfold waysUp
    by_cases h : isNamed part
    · simp [h]
    · simp [h, ih]

/-- The directory that a path stands in keeps the first of its parts, and not the last. -/
theorem exists_of_parent {path folder : String} (h : parent? path = some folder)
    (hne : folder ≠ "") :
    ∃ shown hidden, hidden ≠ [] ∧
      path.toList = (lead path).toList ++ List.intercalate ['/'] (shown ++ hidden) ∧
      folder.toList = (lead path).toList ++ List.intercalate ['/'] shown := by
  unfold parent? above at h
  dsimp only at h
  have hpath := toList_eq_lead_append path
  generalize path.toList.drop (lead path).length = rest at h hpath
  split at h
  · split at h <;> simp_all
  · rename_i name parts hnamed
    rw [head?_waysUp, Option.some_inj] at h
    -- from the end, the parts are: those without a name, the name, those without a name again, and
    -- those that the directory shows
    have hskipped : _ ++ name :: parts = (splitSlashes rest).reverse :=
      hnamed ▸ List.takeWhile_append_dropWhile
    have hdots : _ ++ parts.dropWhile (! isNamed ·) = parts := List.takeWhile_append_dropWhile
    generalize parts.dropWhile (! isNamed ·) = shown at h hdots
    generalize parts.takeWhile (! isNamed ·) = dots at hdots
    generalize (splitSlashes rest).reverse.takeWhile (! isNamed ·) = skipped at hskipped
    have hsplit : splitSlashes rest =
        shown.reverse ++ (dots.reverse ++ name :: skipped.reverse) := by
      rw [← List.reverse_reverse (splitSlashes rest), ← hskipped, ← hdots]
      simp
    refine ⟨shown.reverse, dots.reverse ++ name :: skipped.reverse, by simp, ?_, ?_⟩
    · rw [← hsplit, intercalate_splitSlashes]
      exact hpath
    · rw [← h, String.toList_append, String.toList_ofList]

/-- **A path goes on behind the directory that it stands in** with a slash, which is that of the root
if it stands there. -/
theorem toList_of_parent {path folder : String} (h : parent? path = some folder)
    (hne : folder ≠ "") :
    ∃ cs, path.toList = folder.toList ++ '/' :: cs ∨ folder = "/" ∧ path.toList = '/' :: cs := by
  obtain ⟨shown, hidden, hhidden, hpath, hfolder⟩ := exists_of_parent h hne
  by_cases hshown : shown = []
  · rw [hshown] at hpath hfolder
    simp only [List.intercalate_nil, List.append_nil, List.nil_append] at hpath hfolder
    rcases lead_eq path with hlead | ⟨hlead, -⟩ | ⟨hlead, hdot⟩
    · rw [hlead] at hfolder
      exact absurd (String.toList_injective hfolder) hne
    · rw [hlead] at hpath hfolder
      exact ⟨_, Or.inr ⟨String.toList_injective hfolder, hpath⟩⟩
    · rw [hlead] at hfolder
      rcases hdot with rfl | ⟨cs, hcs⟩
      · have hdot : parent? "." = some "" := by decide
        rw [hdot, Option.some_inj] at h
        exact absurd h.symm hne
      · rw [hfolder, hcs]
        exact ⟨cs, Or.inl rfl⟩
  · rw [intercalate_append hshown hhidden, ← List.append_assoc, ← hfolder] at hpath
    exact ⟨_, Or.inl hpath⟩

/-- The parts of a path that ends in no slash are those of its directory, and more. -/
theorem parts_of_parent {path folder : String} (h : parent? path = some folder) (hne : folder ≠ "")
    (hslash : endsInSlash path = false) : ∃ ps, ps ≠ [] ∧ parts path = parts folder ++ ps := by
  obtain ⟨cs, hcs⟩ := toList_of_parent h hne
  have hlast : path.toList.getLast? ≠ some '/' := by
    simpa [endsInSlash] using hslash
  -- behind a slash that is not the last character, something is written
  have hend : ∀ init : List Char, path.toList = init ++ '/' :: cs → written cs ≠ [] := by
    intro init hpath
    rw [hpath] at hlast
    apply written_ne_nil
    · rintro rfl
      simp at hlast
    · intro hcs
      apply hlast
      simp [List.getLast?_cons, hcs]
  rcases hcs with hpath | ⟨rfl, hpath⟩
  · refine ⟨(written cs).map String.ofList, by simpa using hend _ hpath, ?_⟩
    have habsolute : isAbsolute path = isAbsolute folder := by
      obtain ⟨c, ds, hfolder⟩ := List.exists_cons_of_ne_nil (mt String.toList_eq_nil_iff.1 hne)
      simp [isAbsolute, hpath, hfolder]
    rw [parts_eq, parts_eq folder, hpath, written_append, habsolute, List.map_append,
      List.append_assoc]
  · refine ⟨(written cs).map String.ofList, by simpa using hend [] hpath, ?_⟩
    have habsolute : isAbsolute path = true := by simp [isAbsolute, hpath]
    rw [parts_eq, habsolute, hpath, ← List.nil_append ('/' :: cs), written_append]
    rfl

end Path

/-- Where a file stands, its directory stands. -/
theorem Disk.has_of_parent {d : Disk} {path folder : String} {file : File}
    (h : d.find path = .ok (.file file)) (hparent : Path.parent? path = some folder)
    (hne : folder ≠ "") : d.has folder = true := by
  obtain ⟨ps, hps, hwalk, hslash⟩ := find_file_iff.1 h
  obtain ⟨-, hzero, rfl⟩ := partsOf_eq_ok_iff.1 hps
  obtain ⟨qs, hqs, hparts⟩ := Path.parts_of_parent hparent hne hslash
  rw [hparts] at hwalk
  have hfolder : folder.toList.contains '\x00' = false := by
    rw [Bool.eq_false_iff] at hzero ⊢
    intro hfolder
    apply hzero
    obtain ⟨cs, hcs | ⟨rfl, -⟩⟩ := Path.toList_of_parent hparent hne
    · rw [hcs]
      simp_all
    · exact absurd hfolder (by decide)
  have hfind : d.find folder = .ok .folder := find_folder_iff.2
    ⟨_, partsOf_eq_ok_iff.2 ⟨hne, hfolder, rfl⟩, walk_folder_of_append hqs hwalk⟩
  rw [has, hfind]
  rfl

/-- A disk on which an empty log can be opened at a path: the directory of the path is there or can
be made, and so can an empty file in it. -/
def Disk.Offers (d : Disk) (path : String) : Prop :=
  ∃ d' d'', Log.prepare d path = (.ok (), d') ∧ d'.openFile path = .ok ({}, d'')

/-- An empty disk offers a place for the log. -/
theorem Disk.offers_empty : ({} : Disk).Offers (Log.pathOf "data") := ⟨_, _, rfl, rfl⟩

namespace Log

/-! ## A log that is there -/

/-- Where a log stands, nothing has to be made. -/
theorem prepare_of_find {d : Disk} {path : String} {file : File}
    (h : d.find path = .ok (.file file)) : prepare d path = (.ok (), d) := by
  unfold prepare
  split
  · rfl
  · rename_i folder hparent
    by_cases hne : folder = ""
    · rw [hne]
      rfl
    · rw [Disk.has_of_parent h hparent hne, if_pos rfl]

/-- The first steps of opening a log: its directory and its file are there or are made. -/
theorem open_of_openFile {d d' d'' : Disk} {path : String} {file : File}
    (hprepare : prepare d path = (.ok (), d')) (hopen : d'.openFile path = .ok (file, d'')) :
    Writer.open d path = ((Writer.attach path (.ofFile file)).1,
      d''.save path (Writer.attach path (.ofFile file)).2.toFile) := by
  unfold Writer.open
  rw [hprepare]
  dsimp only
  rw [hopen]

/-! ## Whole logs -/

/-- A log that is read as these records, with nothing behind them. -/
structure Whole (content : Bytes) (rs : List Record) : Prop where
  /-- Its lines are taken as the records. -/
  reads : ∃ c, taken content = .ok (rs, c)
  /-- It ends where a line ends. -/
  untorn : (Bytes.lines content).2 = []

/-- The complete lines of a log are a whole one. -/
theorem whole_of_taken {content : Bytes} {rs : List Record} {c : Cursor}
    (h : taken content = .ok (rs, c)) : Whole (Bytes.joinLines (Bytes.lines content).1) rs where
  reads := by
    refine ⟨c, ?_⟩
    rw [taken, Bytes.lines_joinLines_lines]
    exact h
  untorn := by rw [Bytes.lines_joinLines_lines]

namespace Whole

variable {content : Bytes} {rs : List Record}

/-- A whole log is its lines, each ended by a newline. -/
theorem joinLines_lines (h : Whole content rs) :
    Bytes.joinLines (Bytes.lines content).1 = content := by
  have hlines := Bytes.joinLines_lines content
  rw [h.untorn, List.append_nil] at hlines
  exact hlines

/-- A whole log is read to its end, and its tail is not torn. -/
theorem all (h : Whole content rs) :
    ∃ after, (Scan.ofContent content).all = (.ok rs, after) ∧ after.torn = false := by
  obtain ⟨c, hreads⟩ := h.reads
  refine ⟨_, all_of_taken hreads, ?_⟩
  rw [Scan.torn_ended, h.untorn]
  rfl

/-- The line of a record with the next number adds this record. -/
theorem append_line (h : Whole content rs) {e : Entry} (he : e.SelfDescribed)
    (hlasting : e.Lasting) {n : UInt64} (hn : n = UInt64.ofNat (rs.length + 1)) :
    Whole (content ++ (Record.make n e).line) (rs ++ [Record.make n e]) := by
  obtain ⟨c, hreads⟩ := h.reads
  have hnext : c.last + 1 = n := (last_of_taken hreads).trans hn.symm
  subst hnext
  have hline : Bytes.lines (Record.make (c.last + 1) e).line =
      ([(Record.make (c.last + 1) e).body], []) :=
    Bytes.lines_append_newline (Record.newline_notMem_body _) []
  have hlast : c.takeAll [(Record.make (c.last + 1) e).body] = .ok ([Record.make (c.last + 1) e],
      ⟨c.offset + (Record.make (c.last + 1) e).body.length + 1, c.last + 1⟩) :=
    Cursor.takeAll_cons_eq_ok_iff.2 ⟨_, _, _, Cursor.take_body he hlasting, rfl, rfl⟩
  have hlines := Bytes.lines_append content (Record.make (c.last + 1) e).line
  rw [h.untorn, List.nil_append, hline] at hlines
  constructor
  · rw [taken, hlines, Cursor.takeAll_append_of_ok hreads, hlast]
    exact ⟨_, rfl⟩
  · rw [hlines]

end Whole

end Log

/-! ## A log that is open -/

/-- A log is open for appending, and its file is read as these records. -/
structure LiveDisk.Logs (l : LiveDisk) (path : String) (w : Log.Writer) (rs : List Log.Record) :
    Prop where
  /-- The disk holds the file of the writer. -/
  serves : l.Serves path w
  /-- The file holds the records. -/
  whole : Log.Whole w.medium.content rs
  /-- The next record gets the next number. -/
  next : w.next = UInt64.ofNat (rs.length + 1)

namespace Log

variable {l : LiveDisk} {path : String}

/-- **A log that can be read is opened behind its complete lines.** What stood behind them is cut
off. -/
theorem logs_of_openFile (hroom : l.full = false) {d d' : Disk} {content : Bytes}
    (hprepare : prepare l.disk path = (.ok (), d))
    (hopen : d.openFile path = .ok (.ofContent content, d')) {rs : List Record} {c : Cursor}
    (htaken : taken content = .ok (rs, c)) :
    ∃ w l', l.release.opened (Writer.open l.disk path) = (.ok w, l') ∧ l'.Logs path w rs ∧
      w.medium.content = Bytes.joinLines (Bytes.lines content).1 := by
  obtain ⟨m, hattach, hhealthy, hcontent⟩ := attach_of_taken path htaken
  have hfind := Disk.find_of_openFile hopen
  refine ⟨{ path, next := c.last + 1, medium := m },
    { l with disk := d'.save path m.toFile, attached := some path }, ?_, ⟨?_, ?_, ?_⟩, hcontent⟩
  · rw [open_of_openFile hprepare hopen, hattach]
    rfl
  · exact ⟨rfl, hroom, Disk.find_save hfind rfl _, hhealthy⟩
  · rw [hcontent]
    exact whole_of_taken htaken
  · exact last_of_taken htaken

/-- A log that is opened on a readable file is written behind the file's complete lines. -/
theorem logs_of_find (hroom : l.full = false) {content : Bytes}
    (hfind : l.disk.find path = .ok (.file (.ofContent content))) {rs : List Record} {c : Cursor}
    (htaken : taken content = .ok (rs, c)) :
    ∃ w l', l.release.opened (Writer.open l.disk path) = (.ok w, l') ∧ l'.Logs path w rs ∧
      w.medium.content = Bytes.joinLines (Bytes.lines content).1 :=
  logs_of_openFile hroom (prepare_of_find hfind) (Disk.openFile_of_find hfind) htaken

/-- A log that is missing is made. -/
theorem logs_of_offers (hroom : l.full = false) (hoffers : l.disk.Offers path) :
    ∃ w l', l.release.opened (Writer.open l.disk path) = (.ok w, l') ∧ l'.Logs path w [] := by
  obtain ⟨d, d', hprepare, hopen⟩ := hoffers
  have hempty : d.openFile path = .ok (.ofContent [], d') := hopen
  have htaken : taken [] = .ok ([], {}) := rfl
  obtain ⟨w, l', hopened, hlogs, -⟩ := logs_of_openFile hroom hprepare hempty htaken
  exact ⟨w, l', hopened, hlogs⟩

end Log

namespace LiveDisk.Logs

variable {l : LiveDisk} {path : String} {w : Log.Writer} {rs : List Log.Record}

/-- **An entry is appended to an open log** under the next number, and its record is read behind the
others. -/
theorem append (h : l.Logs path w rs) {e : Entry} (he : e.SelfDescribed) (hlasting : e.Lasting) :
    ∃ w' l', l.act w (·.append e) = (.ok w.next, w', l') ∧
      l'.Logs path w' (rs ++ [Log.Record.make w.next e]) := by
  have hhealthy : (w.appended e).medium.Healthy := h.serves.healthy.grown _
  have hact := h.serves.act (f := (·.append e)) rfl (w.append_of_healthy h.serves.healthy e)
    hhealthy.keeps
  have hcontent : (w.appended e).medium.content =
      w.medium.content ++ (Log.Record.make w.next e).line :=
    Log.Medium.content_grown h.serves.healthy.keeps _
  refine ⟨_, _, hact, h.serves.saved hhealthy, ?_, ?_⟩
  · rw [hcontent]
    exact h.whole.append_line he hlasting h.next
  · show w.next + 1 = _
    rw [h.next, List.length_append, List.length_singleton, UInt64.ofNat_add (rs.length + 1)]
    rfl

/-- The file of an open log is read as the records, without a torn tail. -/
theorem all (h : l.Logs path w rs) :
    ∃ scan after, Log.Scan.open l.disk path = .ok scan ∧ scan.all = (.ok rs, after) ∧
      after.torn = false := by
  obtain ⟨after, hall, htorn⟩ := h.whole.all
  exact ⟨_, after, h.serves.scan, hall, htorn⟩

end LiveDisk.Logs

end DurableKV
