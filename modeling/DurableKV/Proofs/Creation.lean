import DurableKV.Proofs.Recovery

/-!
# Making a log where none was

The first start of a node in a data directory. The directories on the way to the log are made as far
as they are missing, and the log is made as an empty file. It is there afterwards, and so the next
start finds it (`Recovery.recover_of_holdsNothing`).

The disk makes the directory that the log stands in from the text of the path
(`Log.parent?_pathOf`). That the log can be put there rests on two facts: a directory that was made
can be reached (`walk_of_createFolders`), and making it puts nothing at the place of the log
(`at?_logPlace_put`).
-/

namespace DurableKV

/-! ## The directory that a path stands in -/

namespace Path

/-- Parts with slashes between them are the text that was cut into them. -/
theorem intercalate_splitSlashes (cs : List Char) :
    List.intercalate ['/'] (splitSlashes cs) = cs := by
  induction cs with
  | nil => rfl
  | cons c cs ih =>
    obtain ⟨part, parts, hsplit⟩ := List.exists_cons_of_ne_nil (splitSlashes_ne_nil cs)
    rw [hsplit] at ih
    rw [splitSlashes, hsplit]
    by_cases hslash : c = '/'
    · rw [if_pos hslash, List.intercalate_cons_cons, ih, hslash]
      rfl
    · rw [if_neg hslash]
      cases parts with
      | nil =>
        rw [List.intercalate_singleton] at ih ⊢
        rw [ih]
      | cons next parts =>
        rw [List.intercalate_cons_cons] at ih ⊢
        rw [List.cons_append, List.cons_append, ih]

/-- A text without slashes is one part. -/
theorem splitSlashes_of_notMem {cs : List Char} (h : '/' ∉ cs) : splitSlashes cs = [cs] := by
  induction cs with
  | nil => rfl
  | cons c cs ih =>
    rw [List.mem_cons, not_or] at h
    rw [splitSlashes, if_neg (Ne.symm h.1), ih h.2]

/-- A text behind which a new part begins. -/
def Closed (cs : List Char) : Prop := cs = [] ∨ ∃ init, cs = init ++ ['/']

/-- A closed text is closed without its first characters, too. -/
theorem Closed.drop {cs : List Char} (h : Closed cs) (n : Nat) : Closed (cs.drop n) := by
  rcases h with rfl | ⟨init, rfl⟩
  · exact Or.inl List.drop_nil
  · by_cases hle : n ≤ init.length
    · exact Or.inr ⟨init.drop n, List.drop_append_of_le_length hle⟩
    · refine Or.inl (List.drop_eq_nil_of_le ?_)
      rw [List.length_append, List.length_singleton]
      omega

/-- The part behind such a text is the last. -/
theorem splitSlashes_closed_append {cs name : List Char} (h : Closed cs) (hname : '/' ∉ name) :
    ∃ init, splitSlashes (cs ++ name) = init ++ [name] := by
  rcases h with rfl | ⟨init, rfl⟩
  · exact ⟨[], splitSlashes_of_notMem hname⟩
  · refine ⟨splitSlashes init, ?_⟩
    rw [List.append_assoc, List.singleton_append, splitSlashes_append, splitSlashes_of_notMem hname]

/-- A path in a directory is a text behind which a new part begins, and that part. -/
theorem toList_join (folder : String) {name : String} (hname : isAbsolute name = false) :
    ∃ cs, Closed cs ∧ (join folder name).toList = cs ++ name.toList := by
  rw [join, hname, if_neg Bool.false_ne_true]
  by_cases hempty : folder = ""
  · refine ⟨[], Or.inl rfl, ?_⟩
    rw [if_pos (Or.inl hempty), hempty, String.empty_append]
    rfl
  · by_cases hslash : endsInSlash folder = true
    · rw [if_pos (Or.inr hslash)]
      rw [endsInSlash, beq_iff_eq] at hslash
      exact ⟨folder.toList, Or.inr (List.getLast?_eq_some_iff.1 hslash), String.toList_append⟩
    · rw [if_neg (not_or.2 ⟨hempty, hslash⟩)]
      refine ⟨folder.toList ++ ['/'], Or.inr ⟨_, rfl⟩, ?_⟩
      rw [String.toList_append, String.toList_append]
      rfl

/-- A place has another key than a place in it. -/
theorem key_concat_ne {place : List String} (h : place ≠ []) (name : String) :
    key place ≠ key (place ++ [name]) := by
  intro hkey
  have happend : key (place ++ [name]) = key place ++ "/" ++ name :=
    String.intercalate_append_of_ne_nil h (List.cons_ne_nil _ _)
  have hlength := congrArg String.length (hkey.trans happend)
  rw [String.length_append, String.length_append] at hlength
  have hslash : "/".length = 1 := rfl
  omega

/-- The beginning of a path that is no part to be taken away, and what the path begins with then. -/
theorem lead_eq (path : String) :
    lead path = "" ∨ (lead path = "/" ∧ ∃ cs, path.toList = '/' :: cs) ∨
      (lead path = "." ∧ (path = "." ∨ ∃ cs, path.toList = '.' :: '/' :: cs)) := by
  unfold lead
  split
  · rename_i h
    rw [isAbsolute, beq_iff_eq] at h
    exact Or.inr (Or.inl ⟨rfl, List.head?_eq_some_iff.1 h⟩)
  · split
    · rename_i h
      refine Or.inr (Or.inr ⟨rfl, h.imp_right ?_⟩)
      intro h
      obtain ⟨cs, hcs⟩ := List.isPrefixOf_iff_prefix.1 h
      exact ⟨cs, hcs.symm⟩
    · exact Or.inl rfl

/-- The beginning of a path is one character at most, and is the beginning of its directory. -/
theorem lead_cases {folder : String} (hne : folder ≠ "") (rest : String) :
    lead (folder ++ rest) = "" ∨
      ∃ c, (lead (folder ++ rest)).toList = [c] ∧ folder.toList.head? = some c ∧
        (c = '/' ∨ c = '.') := by
  have hhead : ∀ c cs, (folder ++ rest).toList = c :: cs → folder.toList.head? = some c := by
    intro c cs h
    obtain ⟨c', cs', hfolder⟩ := List.exists_cons_of_ne_nil (mt String.toList_eq_nil_iff.1 hne)
    rw [String.toList_append, hfolder, List.cons_append] at h
    rw [hfolder]
    exact congrArg some (List.cons.inj h).1
  rcases lead_eq (folder ++ rest) with h | ⟨h, cs, hcs⟩ | ⟨h, hdot⟩
  · exact Or.inl h
  · rw [h]
    exact Or.inr ⟨'/', rfl, hhead _ cs hcs, Or.inl rfl⟩
  · rw [h]
    refine Or.inr ⟨'.', rfl, ?_, Or.inr rfl⟩
    rcases hdot with hdot | ⟨cs, hcs⟩
    · exact hhead _ [] (congrArg String.toList hdot)
    · exact hhead _ _ hcs

end Path

namespace Log

/-- The directory of the log ends in a part of its own. -/
theorem toList_folderOf (dataDir : String) :
    ∃ cs, Path.Closed cs ∧ (folderOf dataDir).toList = cs ++ ['w', 'a', 'l'] :=
  have hname : Path.isAbsolute "wal" = false := by decide
  Path.toList_join dataDir hname

/-- The folder of a log has a name. -/
theorem folderOf_ne_empty (dataDir : String) : folderOf dataDir ≠ "" := by
  obtain ⟨cs, -, hfolder⟩ := toList_folderOf dataDir
  intro hempty
  rw [hempty] at hfolder
  exact List.append_ne_nil_of_right_ne_nil cs (List.cons_ne_nil _ _) hfolder.symm

/-- The log lies in its folder. -/
theorem pathOf_eq (dataDir : String) : pathOf dataDir = folderOf dataDir ++ "/wal.log" := by
  obtain ⟨cs, -, hfolder⟩ := toList_folderOf dataDir
  have hslash : ¬ Path.endsInSlash (folderOf dataDir) = true := by
    rw [Path.endsInSlash, hfolder, List.getLast?_append]
    exact Bool.false_ne_true
  have hopen : ¬ (folderOf dataDir = "" ∨ Path.endsInSlash (folderOf dataDir) = true) :=
    not_or.2 ⟨folderOf_ne_empty dataDir, hslash⟩
  rw [pathOf, Path.join, if_neg (by decide), if_neg hopen, String.append_assoc]
  rfl

/-- The parts of the folder of a log. -/
theorem parts_folderOf (dataDir : String) :
    Path.parts (folderOf dataDir) = Path.parts dataDir ++ ["wal"] :=
  Path.parts_join _ (by decide)

/-- The parts of the path of a log. -/
theorem parts_pathOf (dataDir : String) :
    Path.parts (pathOf dataDir) = Path.parts (folderOf dataDir) ++ ["wal.log"] :=
  Path.parts_join _ (by decide)

/-- The path of a log names a file, not a folder. -/
theorem endsInSlash_pathOf (dataDir : String) : Path.endsInSlash (pathOf dataDir) = false := by
  rw [pathOf_eq, Path.endsInSlash, String.toList_append, List.getLast?_append]
  rfl

/-- The beginning of the path of the log takes nothing of the last part of its directory. -/
theorem toList_folderOf_lead (dataDir rest : String) :
    ∃ cs, Path.Closed cs ∧ (folderOf dataDir).toList =
      (Path.lead (folderOf dataDir ++ rest)).toList ++ (cs ++ ['w', 'a', 'l']) := by
  obtain ⟨cs, hclosed, hfolder⟩ := toList_folderOf dataDir
  rcases Path.lead_cases (folderOf_ne_empty dataDir) rest with hlead | ⟨c, hlead, hhead, hc⟩
  · rw [hlead]
    exact ⟨cs, hclosed, hfolder⟩
  · rw [hlead]
    rw [hfolder] at hhead
    cases cs with
    | nil =>
      -- then the part would begin with a slash or a dot
      cases hhead
      rcases hc with hc | hc <;> cases hc
    | cons c' cs =>
      cases hhead
      exact ⟨cs, hclosed.drop 1, hfolder⟩

/-- The log stands in the directory of the log. -/
theorem parent?_pathOf (dataDir : String) :
    Path.parent? (pathOf dataDir) = some (folderOf dataDir) := by
  obtain ⟨cs, hclosed, hfolder⟩ := toList_folderOf_lead dataDir "/wal.log"
  have hname : '/' ∉ ['w', 'a', 'l'] := by decide
  obtain ⟨init, hsplit⟩ := Path.splitSlashes_closed_append hclosed hname
  rw [pathOf_eq, Path.parent?, Path.above]
  generalize Path.lead (folderOf dataDir ++ "/wal.log") = lead at hfolder ⊢
  have hdrop : (folderOf dataDir ++ "/wal.log").toList.drop lead.length =
      cs ++ ['w', 'a', 'l'] ++ '/' :: "wal.log".toList := by
    rw [String.toList_append, hfolder, List.append_assoc, ← String.length_toList, List.drop_left]
    rfl
  have hlast : Path.splitSlashes "wal.log".toList = ["wal.log".toList] := by decide
  simp only [hdrop, Path.splitSlashes_append, hlast, hsplit]
  rw [List.reverse_append, List.reverse_append]
  show (Path.waysUp lead (['w', 'a', 'l'] :: init.reverse)).head? = _
  rw [Path.waysUp, if_pos (by decide), List.head?_cons, List.reverse_cons, List.reverse_reverse,
    ← hsplit, Path.intercalate_splitSlashes]
  refine congrArg some (String.toList_injective ?_)
  rw [String.toList_append, String.toList_ofList, hfolder]

end Log

namespace Disk

/-! ## Directories that were made -/

/-- A folder that was made is found. -/
theorem find_of_ensureFolder {d d' : Disk} {path : String} (h : d.ensureFolder path = .ok d') :
    d'.find path = .ok .folder := by
  unfold ensureFolder at h
  split at h
  · split at h
    · rename_i hfolder
      cases h
      unfold hasFolder at hfolder
      split at hfolder
      · assumption
      · cases hfolder
    · cases h
  · obtain ⟨ps, hps, hwalk, hnone, rfl⟩ := makeFolder_eq_ok h
    refine find_folder_iff.2 ⟨ps, hps, walk_of_at? ?_ (at?_put_self hnone _)⟩
    exact (extends_put hnone _).walk hwalk

/-- If all folders of a way were made, the last of them is found. -/
theorem find_of_ensureFolders {d d' : Disk} {path : String} {above : List String}
    (h : d.ensureFolders (path :: above) = (.ok (), d')) : d'.find path = .ok .folder := by
  unfold ensureFolders at h
  split at h
  · rename_i hmade
    cases h
    exact find_of_ensureFolder hmade
  · split at h
    · split at h
      · rename_i hmade
        cases h
        exact find_of_ensureFolder hmade
      · cases h
    · rename_i hfailed
      exact absurd h (hfailed d')
  · cases h

/-- A folder that is found is reached part by part. -/
theorem walk_of_find_folder {d : Disk} {path : String} (h : d.find path = .ok .folder) :
    d.walk [] (Path.parts path) = .ok .folder := by
  obtain ⟨ps, hps, hwalk⟩ := find_folder_iff.1 h
  obtain ⟨-, -, rfl⟩ := partsOf_eq_ok_iff.1 hps
  exact hwalk

/-- A directory that was made can be reached. -/
theorem walk_of_createFolders {d d' : Disk} {path : String}
    (h : d.createFolders path = (.ok (), d')) : d'.walk [] (Path.parts path) = .ok .folder := by
  by_cases hempty : path = ""
  · subst hempty
    rfl
  · rw [d.createFolders_of_ne_empty hempty] at h
    exact walk_of_find_folder (find_of_ensureFolders h)

/-- A directory is made where nothing stands in a directory that can be reached. -/
theorem ensureFolder_of_missing {d : Disk} {path : String} {ps : List String}
    (hps : partsOf path = .ok ps) (hwalk : d.walk [] ps.dropLast = .ok .folder)
    (hat : d.at? (Path.resolve ps) = none) :
    d.ensureFolder path = .ok (d.put (Path.resolve ps) .folder) := by
  rw [ensureFolder, makeFolder, placeOf_eq_ok_iff.2 ⟨ps, hps, hwalk, rfl⟩]
  simp only [bind, Except.bind, hat, Option.isSome_none, Bool.false_eq_true, if_false]

/-! ## The file of a log -/

/-- The paths of a missing log and of its folder can be taken apart. -/
theorem partsOf_of_missing {d : Disk} {dataDir : String}
    (h : d.find (Log.pathOf dataDir) = .error .notFound) :
    partsOf (Log.pathOf dataDir) = .ok (Path.parts (Log.pathOf dataDir)) ∧
      partsOf (Log.folderOf dataDir) = .ok (Path.parts (Log.folderOf dataDir)) := by
  have hpath : Log.pathOf dataDir ≠ "" := by
    rw [Log.pathOf_eq]
    intro hempty
    exact Log.folderOf_ne_empty dataDir (String.append_eq_empty_iff.1 hempty).1
  have hzero : (Log.pathOf dataDir).toList.contains '\x00' = false := by
    rw [Bool.eq_false_iff]
    intro hzero
    rw [find, partsOf, if_neg hpath, if_pos hzero] at h
    cases h
  have hzero' : (Log.folderOf dataDir).toList.contains '\x00' = false := by
    rw [Bool.eq_false_iff] at hzero ⊢
    intro hfolder
    exact hzero (Path.contains_join _ _ _ (by decide) hfolder)
  exact ⟨partsOf_eq_ok_iff.2 ⟨hpath, hzero, rfl⟩,
    partsOf_eq_ok_iff.2 ⟨Log.folderOf_ne_empty dataDir, hzero', rfl⟩⟩

/-- The place of the directory of the log of a data directory. -/
def folderPlace (dataDir : String) : List String :=
  Path.resolve (Path.parts (Log.folderOf dataDir))

/-- The place of the log of a data directory. -/
def logPlace (dataDir : String) : List String := Path.resolve (Path.parts (Log.pathOf dataDir))

/-- The folder of a log is not the root. -/
theorem folderPlace_ne_nil (dataDir : String) : folderPlace dataDir ≠ [] := by
  rw [folderPlace, Log.parts_folderOf, Path.resolve, List.foldl_append]
  exact List.append_ne_nil_of_right_ne_nil _ (List.cons_ne_nil _ _)

/-- The place of a log is in the place of its folder. -/
theorem logPlace_eq (dataDir : String) : logPlace dataDir = folderPlace dataDir ++ ["wal.log"] := by
  rw [logPlace, Log.parts_pathOf, Path.resolve, List.foldl_append]
  rfl

/-- Making the directory of the log puts nothing at the place of the log. -/
theorem at?_logPlace_put {d : Disk} {dataDir : String} (h : d.at? (logPlace dataDir) = none) :
    (d.put (folderPlace dataDir) .folder).at? (logPlace dataDir) = none := by
  obtain ⟨hstanding, hget⟩ := Option.or_eq_none_iff.1 h
  have hkey := Path.key_concat_ne (folderPlace_ne_nil dataDir) "wal.log"
  rw [← logPlace_eq] at hkey
  rw [at?_put, hstanding, if_neg hkey, hget]
  rfl

/-- A log whose directory is a file is not missing but out of reach. -/
theorem not_missing_of_file {d : Disk} {dataDir : String} {file : File}
    (h : d.walk [] (Path.parts (Log.folderOf dataDir)) = .ok (.file file)) :
    d.find (Log.pathOf dataDir) ≠ .error .notFound := by
  intro hmissing
  have hat : d.at? (folderPlace dataDir) = some (.file file) := at?_of_walk h
  have hwalk : d.walk [] (Path.parts (Log.pathOf dataDir)) = .error .notDirectory := by
    rw [Log.parts_pathOf, walk_append h, walk, ← Path.resolve, ← folderPlace, hat]
  rw [find, (partsOf_of_missing hmissing).1] at hmissing
  simp [bind, Except.bind, hwalk] at hmissing

/-- The directory of a log that is missing can be made, and the log is missing still. -/
theorem ensureFolder_folderOf {d : Disk} {dataDir : String}
    (hdir : d.walk [] (Path.parts dataDir) = .ok .folder)
    (hmissing : d.find (Log.pathOf dataDir) = .error .notFound)
    (hnone : d.at? (logPlace dataDir) = none) :
    ∃ d', d.ensureFolder (Log.folderOf dataDir) = .ok d' ∧ d'.at? (logPlace dataDir) = none := by
  obtain ⟨-, hfolder⟩ := partsOf_of_missing hmissing
  have hwalk : d.walk [] (Path.parts (Log.folderOf dataDir)).dropLast = .ok .folder := by
    rw [Log.parts_folderOf, List.dropLast_concat]
    exact hdir
  cases hat : d.at? (folderPlace dataDir) with
  | none => exact ⟨_, ensureFolder_of_missing hfolder hwalk hat, at?_logPlace_put hnone⟩
  | some item =>
    have hitem := walk_of_at? hwalk hat
    cases item with
    | folder => exact ⟨d, ensureFolder_of_find (find_folder_iff.2 ⟨_, hfolder, hitem⟩), hnone⟩
    | file file => exact absurd hmissing (not_missing_of_file hitem)

/-- A content that is written where a log is missing is found there. -/
theorem find_write_of_missing {d : Disk} {dataDir : String}
    (hdir : d.walk [] (Path.parts dataDir) = .ok .folder)
    (hmissing : d.find (Log.pathOf dataDir) = .error .notFound)
    (hnone : d.at? (logPlace dataDir) = none) (content : Bytes) :
    (d.write (Log.pathOf dataDir) content).find (Log.pathOf dataDir) =
      .ok (.file (.ofContent content)) := by
  obtain ⟨d', hmade, hnone'⟩ := ensureFolder_folderOf hdir hmissing hnone
  have hparent : d.createParent (Log.pathOf dataDir) = (.ok (), d') := by
    rw [createParent, Log.parent?_pathOf]
    show d.createFolders (Log.folderOf dataDir) = _
    rw [d.createFolders_of_ne_empty (Log.folderOf_ne_empty dataDir), ensureFolders, hmade]
  obtain ⟨hpath, -⟩ := partsOf_of_missing hmissing
  have hslash := Log.endsInSlash_pathOf dataDir
  have hwalk : d'.walk [] (Path.parts (Log.pathOf dataDir)).dropLast = .ok .folder := by
    rw [Log.parts_pathOf, List.dropLast_concat]
    exact walk_of_find_folder (find_of_ensureFolder hmade)
  -- the file is made empty first, and then has its content put over it
  let created := d'.put (logPlace dataDir) (.file {})
  have hopen : d'.openFile (Log.pathOf dataDir) = .ok ({}, created) := by
    rw [openFile, placeOf_eq_ok_iff.2 ⟨_, hpath, hwalk, rfl⟩]
    rw [logPlace] at hnone'
    simp only [bind, Except.bind, hslash, hnone', Bool.false_eq_true, if_false]
    rfl
  have hcreated : created.at? (logPlace dataDir) = some (.file {}) := at?_put_self hnone' _
  have hfound : created.walk [] (Path.parts (Log.pathOf dataDir)) = .ok (.file {}) :=
    walk_of_at? ((extends_put hnone' _).walk hwalk) hcreated
  rw [write, save, hparent]
  simp only [hopen, if_true]
  exact find_file_iff.2 ⟨_, hpath, walk_put hcreated rfl _ rfl hfound, hslash⟩

end Disk

/-! ## The first start -/

/-- A disk on which a data directory can be made and nothing stands at the place of its log, not
even out of reach. -/
def Disk.HoldsNothing (d : Disk) (dataDir : String) : Prop :=
  ∃ d', d.createFolders dataDir = (.ok (), d') ∧
    d'.find (Log.pathOf dataDir) = .error .notFound ∧ d'.at? (Disk.logPlace dataDir) = none

/-- Nothing is on an empty disk. -/
theorem Disk.holdsNothing_empty : ({} : Disk).HoldsNothing "data" := ⟨_, rfl, rfl, rfl⟩

/-- **Recovery where nothing was** brings up an empty store and leaves an empty log. -/
theorem Recovery.recover_of_holdsNothing {d : Disk} {dataDir : String}
    (h : d.HoldsNothing dataDir) :
    ∃ machine stats d', recover d dataDir = (.ok (machine, stats), d') ∧
      Restored (Log.pathOf dataDir) [] [] {} machine stats ∧ d'.HoldsLog dataDir [] := by
  obtain ⟨d', hfolders, hmissing, hnone⟩ := h
  obtain ⟨machine, stats, hrestore, hrestored⟩ :=
    @restore_of_taken (Log.pathOf dataDir) none [] {} rfl
  refine ⟨machine, stats, d'.write (Log.pathOf dataDir) [], ?_, hrestored, ?_⟩
  · simp only [recover, hfolders, hmissing, hrestore]
    rfl
  · exact Disk.find_write_of_missing (Disk.walk_of_createFolders hfolders) hmissing hnone []

end DurableKV
