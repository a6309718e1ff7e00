import DurableKV.Log.Location
import DurableKV.Proofs.Json.RoundTrip

/-!
# Finding and keeping files

What recovery relies on when it looks for a log and puts it back.

* `find_folder_of_find_log`: where the log of a data directory stands, the data directory stands
  too, so preparing it changes nothing (`createFolders_of_find_log`).
* `find_save`: a file that is put where a file stood is found there.

For the second, the directories on the way must stay what they are. Making directories only puts
something where nothing was (`Extends`), and putting a file over a file cannot touch a directory.
-/

namespace DurableKV

/-! ## Parts of paths -/

namespace Path

/-- Every text has a part. -/
theorem splitSlashes_ne_nil (cs : List Char) : splitSlashes cs ≠ [] := by
  cases cs with
  | nil => exact List.cons_ne_nil _ _
  | cons c cs =>
    rw [splitSlashes]
    split
    · exact List.cons_ne_nil _ _
    · split <;> exact List.cons_ne_nil _ _

/-- A slash ends the parts of one text and begins those of another. -/
theorem splitSlashes_append (cs ds : List Char) :
    splitSlashes (cs ++ '/' :: ds) = splitSlashes cs ++ splitSlashes ds := by
  induction cs with
  | nil => rfl
  | cons c cs ih =>
    obtain ⟨part, parts, hsplit⟩ := List.exists_cons_of_ne_nil (splitSlashes_ne_nil cs)
    rw [List.cons_append, splitSlashes, splitSlashes, ih, hsplit]
    by_cases h : c = '/' <;> simp [h]

/-- The parts between slashes that are not empty. -/
def written (cs : List Char) : List (List Char) := (splitSlashes cs).filter (· ≠ [])

/-- What is written in a path stands on either side of a slash. -/
theorem written_append (cs ds : List Char) :
    written (cs ++ '/' :: ds) = written cs ++ written ds := by
  rw [written, splitSlashes_append, List.filter_append]
  rfl

/-- The parts of a path are the root, if it is absolute, and what is written in it. -/
theorem parts_eq (path : String) :
    parts path = (if isAbsolute path then [""] else []) ++
      (written path.toList).map String.ofList :=
  rfl

/-- What follows a folder does not make its path absolute. -/
theorem isAbsolute_append {folder : String} (h : folder ≠ "") (path : String) :
    isAbsolute (folder ++ path) = isAbsolute folder := by
  obtain ⟨c, cs, hfolder⟩ := List.exists_cons_of_ne_nil (mt String.toList_eq_nil_iff.1 h)
  simp only [isAbsolute, String.toList_append, hfolder, List.cons_append, List.head?_cons]

/-- The parts of a path in a directory are those of the directory, then its own. -/
theorem parts_join (folder : String) {path : String} (hpath : isAbsolute path = false) :
    parts (join folder path) = parts folder ++ parts path := by
  have hown : parts path = (written path.toList).map String.ofList := by
    rw [parts_eq, hpath]
    rfl
  rw [join, hpath, if_neg Bool.false_ne_true]
  by_cases hempty : folder = ""
  · rw [if_pos (Or.inl hempty), hempty, String.empty_append]
    rfl
  · by_cases hslash : endsInSlash folder = true
    · obtain ⟨cs, hfolder⟩ : ∃ cs, folder.toList = cs ++ ['/'] := by
        rw [endsInSlash, beq_iff_eq] at hslash
        exact List.getLast?_eq_some_iff.1 hslash
      have hwritten : written folder.toList = written cs := by
        rw [hfolder, written_append]
        exact List.append_nil _
      rw [if_pos (Or.inr hslash), parts_eq, isAbsolute_append hempty, parts_eq folder, hown,
        String.toList_append, hfolder, List.append_assoc, List.singleton_append, written_append,
        ← hfolder, hwritten, List.map_append, List.append_assoc]
    · rw [if_neg (not_or.2 ⟨hempty, hslash⟩), parts_eq, String.append_assoc,
        isAbsolute_append hempty, parts_eq folder, hown, String.toList_append,
        String.toList_append]
      show _ ++ (written (folder.toList ++ '/' :: path.toList)).map String.ofList = _
      rw [written_append, List.map_append, List.append_assoc]

/-- A character of a folder is in every path that is joined to it. -/
theorem contains_join (folder : String) (path : String) (c : Char)
    (hpath : isAbsolute path = false) (h : folder.toList.contains c = true) :
    (join folder path).toList.contains c = true := by
  rw [List.contains_iff_mem] at h ⊢
  rw [join, hpath, if_neg Bool.false_ne_true]
  split <;> simp [String.toList_append, h]

end Path

namespace Disk

/-! ## Walking -/

/-- What a way leads to stands at its place. -/
theorem at?_of_walk {d : Disk} {ps : List String} : {place : List String} → {item : Item} →
    d.walk place ps = .ok item → d.at? (ps.foldl Path.step place) = some item := by
  induction ps with
  | nil =>
    intro place item h
    rw [walk] at h
    split at h
    · rename_i hat
      cases h
      exact hat
    · cases h
  | cons p ps ih =>
    intro place item h
    rw [walk] at h
    split at h
    · exact ih h
    · cases h
    · cases h

/-- What stands at the end of a way is reached through directories only. -/
theorem walk_folder_of_append {d : Disk} {qs : List String} (hqs : qs ≠ []) {ps : List String} :
    {place : List String} → {item : Item} → d.walk place (ps ++ qs) = .ok item →
    d.walk place ps = .ok .folder := by
  induction ps with
  | nil =>
    intro place item h
    obtain ⟨q, qs, rfl⟩ := List.exists_cons_of_ne_nil hqs
    rw [List.nil_append, walk] at h
    rw [walk]
    split at h
    · rename_i hat
      rw [hat]
    · cases h
    · cases h
  | cons p ps ih =>
    intro place item h
    rw [List.cons_append, walk] at h
    rw [walk]
    split at h
    · exact ih h
    · cases h
    · cases h

/-- A way that leads somewhere leads to a folder before its last part. -/
theorem walk_dropLast {d : Disk} {ps : List String}
    (h : d.walk [] ps = .ok .folder ∨ ∃ file, d.walk [] ps = .ok (.file file)) :
    d.walk [] ps.dropLast = .ok .folder := by
  rcases List.eq_nil_or_concat ps with rfl | ⟨init, last, rfl⟩
  · rfl
  · rw [List.concat_eq_append] at h ⊢
    rw [List.dropLast_concat]
    rcases h with h | ⟨file, h⟩
    · exact walk_folder_of_append (List.cons_ne_nil _ _) h
    · exact walk_folder_of_append (List.cons_ne_nil _ _) h

/-- A way that leads somewhere can be gone on from there. -/
theorem walk_append {d : Disk} {ps qs : List String} {item : Item} : {place : List String} →
    d.walk place ps = .ok item →
    d.walk place (ps ++ qs) = d.walk (ps.foldl Path.step place) qs := by
  induction ps with
  | nil =>
    intro place _
    rfl
  | cons p ps ih =>
    intro place h
    rw [walk] at h
    rw [List.cons_append, walk, List.foldl_cons]
    split at h
    · exact ih h
    · cases h
    · cases h

/-- What stands in a directory that can be reached can be reached. -/
theorem walk_of_at? {d : Disk} {ps : List String} {item : Item}
    (hfolder : d.walk [] ps.dropLast = .ok .folder) (hat : d.at? (Path.resolve ps) = some item) :
    d.walk [] ps = .ok item := by
  have hitem : ∀ place, d.at? place = some item → d.walk place [] = .ok item := by
    intro place h
    rw [walk, h]
  rcases List.eq_nil_or_concat ps with rfl | ⟨init, last, rfl⟩
  · exact hitem _ hat
  · rw [List.concat_eq_append] at hfolder hat ⊢
    rw [List.dropLast_concat] at hfolder
    have hstart : d.at? (init.foldl Path.step []) = some .folder := at?_of_walk hfolder
    rw [walk_append hfolder, walk, hstart]
    rw [Path.resolve, List.foldl_append] at hat
    exact hitem _ hat

/-- A folder is found exactly where the parts of the path lead to it. -/
theorem find_folder_iff {d : Disk} {path : String} :
    d.find path = .ok .folder ↔ ∃ ps, partsOf path = .ok ps ∧ d.walk [] ps = .ok .folder := by
  constructor
  · intro h
    obtain ⟨ps, hps, h⟩ := Json.bind_eq_ok_iff.1 h
    obtain ⟨item, hitem, h⟩ := Json.bind_eq_ok_iff.1 h
    cases item with
    | folder => exact ⟨ps, hps, hitem⟩
    | file file =>
      dsimp only at h
      split at h <;> cases h
  · rintro ⟨ps, hps, hwalk⟩
    exact Json.bind_eq_ok_iff.2 ⟨ps, hps, Json.bind_eq_ok_iff.2 ⟨_, hwalk, rfl⟩⟩

/-- A file is found exactly where the parts of the path lead to it and no slash ends the path. -/
theorem find_file_iff {d : Disk} {path : String} {file : File} :
    d.find path = .ok (.file file) ↔
      ∃ ps, partsOf path = .ok ps ∧ d.walk [] ps = .ok (.file file) ∧
        Path.endsInSlash path = false := by
  constructor
  · intro h
    obtain ⟨ps, hps, h⟩ := Json.bind_eq_ok_iff.1 h
    obtain ⟨item, hitem, h⟩ := Json.bind_eq_ok_iff.1 h
    cases item with
    | folder => cases h
    | file file' =>
      dsimp only at h
      split at h
      · cases h
      · rename_i hslash
        cases h
        exact ⟨ps, hps, hitem, Bool.eq_false_iff.2 hslash⟩
  · rintro ⟨ps, hps, hwalk, hslash⟩
    refine Json.bind_eq_ok_iff.2 ⟨ps, hps, Json.bind_eq_ok_iff.2 ⟨_, hwalk, ?_⟩⟩
    dsimp only
    rw [hslash]
    rfl

/-- A path is taken apart exactly if it is not empty and has no null character. -/
theorem partsOf_eq_ok_iff {path : String} {ps : List String} :
    partsOf path = .ok ps ↔
      path ≠ "" ∧ path.toList.contains '\x00' = false ∧ ps = Path.parts path := by
  unfold partsOf
  constructor
  · intro h
    split at h
    · cases h
    · rename_i hne
      split at h
      · cases h
      · rename_i hzero
        cases h
        exact ⟨hne, Bool.eq_false_iff.2 hzero, rfl⟩
  · rintro ⟨hne, hzero, rfl⟩
    rw [if_neg hne, hzero]
    rfl

/-- A path has a place exactly if the way before its last part leads to a folder. -/
theorem placeOf_eq_ok_iff {d : Disk} {path : String} {place : List String} :
    d.placeOf path = .ok place ↔ ∃ ps, partsOf path = .ok ps ∧
      d.walk [] ps.dropLast = .ok .folder ∧ place = Path.resolve ps := by
  constructor
  · intro h
    obtain ⟨ps, hps, h⟩ := Json.bind_eq_ok_iff.1 h
    obtain ⟨item, hitem, h⟩ := Json.bind_eq_ok_iff.1 h
    cases item with
    | folder =>
      cases h
      exact ⟨ps, hps, hitem, rfl⟩
    | file file => cases h
  · rintro ⟨ps, hps, hwalk, rfl⟩
    exact Json.bind_eq_ok_iff.2 ⟨ps, hps, Json.bind_eq_ok_iff.2 ⟨_, hwalk, rfl⟩⟩

/-! ## The data directory of a log -/

/-- The log lies two parts below its data directory. -/
theorem parts_pathOf (dataDir : String) :
    Path.parts (Log.pathOf dataDir) = Path.parts dataDir ++ ["wal", "wal.log"] := by
  rw [Log.pathOf, Log.folderOf, Path.parts_join _ (by decide), Path.parts_join _ (by decide),
    List.append_assoc]
  rfl

/-- Where a log stands, its data directory stands. -/
theorem find_folder_of_find_log {d : Disk} {dataDir : String} {item : Item}
    (h : d.find (Log.pathOf dataDir) = .ok item) (hne : dataDir ≠ "") :
    d.find dataDir = .ok .folder := by
  obtain ⟨ps, hps, h⟩ := Json.bind_eq_ok_iff.1 h
  obtain ⟨found, hwalk, -⟩ := Json.bind_eq_ok_iff.1 h
  obtain ⟨-, hzero, rfl⟩ := partsOf_eq_ok_iff.1 hps
  rw [parts_pathOf] at hwalk
  refine find_folder_iff.2 ⟨Path.parts dataDir, partsOf_eq_ok_iff.2 ⟨hne, ?_, rfl⟩,
    walk_folder_of_append (List.cons_ne_nil _ _) hwalk⟩
  rw [Bool.eq_false_iff] at hzero ⊢
  intro hdir
  apply hzero
  apply Path.contains_join _ _ _ (by decide)
  exact Path.contains_join _ _ _ (by decide) hdir

/-- A directory that is there is not made again. -/
theorem ensureFolder_of_find {d : Disk} {path : String} (h : d.find path = .ok .folder) :
    d.ensureFolder path = .ok d := by
  obtain ⟨ps, hps, hwalk⟩ := find_folder_iff.1 h
  have hplace : d.placeOf path = .ok (Path.resolve ps) :=
    placeOf_eq_ok_iff.2 ⟨ps, hps, walk_dropLast (Or.inl hwalk), rfl⟩
  have hat : d.at? (Path.resolve ps) = some .folder := at?_of_walk hwalk
  have hmake : d.makeFolder path = .error .alreadyExists := by
    rw [makeFolder, hplace]
    simp only [bind, Except.bind, hat, Option.isSome_some, if_true]
  have hfolder : d.hasFolder path = true := by
    rw [hasFolder, h]
  rw [ensureFolder, hmake]
  exact if_pos hfolder

/-- A folder is made behind those above it. -/
theorem createFolders_of_ne_empty (d : Disk) {path : String} (h : path ≠ "") :
    d.createFolders path = d.ensureFolders (path :: (Path.above path).filter (· ≠ "")) := by
  have hfilter : (path :: Path.above path).filter (· ≠ "") =
      path :: (Path.above path).filter (· ≠ "") :=
    List.filter_cons_of_pos (decide_eq_true h)
  rw [createFolders, hfilter]

/-- Where a log stands, its data directory needs no preparation. -/
theorem createFolders_of_find_log {d : Disk} {dataDir : String} {item : Item}
    (h : d.find (Log.pathOf dataDir) = .ok item) : d.createFolders dataDir = (.ok (), d) := by
  by_cases hne : dataDir = ""
  · subst hne
    rfl
  · rw [d.createFolders_of_ne_empty hne, ensureFolders,
      ensureFolder_of_find (find_folder_of_find_log h hne)]

/-! ## Making directories -/

/-- A disk on which everything stands that stood before. -/
def Extends (d d' : Disk) : Prop :=
  ∀ place item, d.at? place = some item → d'.at? place = some item

/-- A disk has everything that is on it. -/
theorem Extends.refl (d : Disk) : Extends d d := fun _ _ h => h

/-- What is kept by one change and by the next is kept by both. -/
theorem Extends.trans {d d' d'' : Disk} (h : Extends d d') (h' : Extends d' d'') :
    Extends d d'' := fun place item hat => h' place item (h place item hat)

/-- What stands at a place after something was put somewhere. -/
theorem at?_put (d : Disk) (place place' : List String) (item : Item) :
    (d.put place item).at? place' =
      (Item.standing? place').or
        (if Path.key place = Path.key place' then some item
          else d.items.get? (Path.key place')) := by
  rw [at?, put, Table.get?_insert]

/-- Putting something where nothing stands takes nothing away. -/
theorem extends_put {d : Disk} {place : List String} (h : d.at? place = none) (item : Item) :
    Extends d (d.put place item) := by
  intro place' found hfound
  rw [at?_put]
  rw [at?] at h hfound
  obtain ⟨-, hnone⟩ := Option.or_eq_none_iff.1 h
  by_cases hkey : Path.key place = Path.key place'
  · rw [← hkey, hnone, Option.or_none] at hfound
    rw [hfound, Option.some_or]
  · rw [if_neg hkey]
    exact hfound

/-- What is put where nothing stood stands there. -/
theorem at?_put_self {d : Disk} {place : List String} (h : d.at? place = none) (item : Item) :
    (d.put place item).at? place = some item := by
  rw [at?] at h
  rw [at?_put, if_pos rfl, (Option.or_eq_none_iff.1 h).1, Option.none_or]

/-- A directory that is made is put where nothing stood. -/
theorem makeFolder_eq_ok {d d' : Disk} {path : String} (h : d.makeFolder path = .ok d') :
    ∃ ps, partsOf path = .ok ps ∧ d.walk [] ps.dropLast = .ok .folder ∧
      d.at? (Path.resolve ps) = none ∧ d' = d.put (Path.resolve ps) .folder := by
  obtain ⟨place, hplace, h⟩ := Json.bind_eq_ok_iff.1 h
  obtain ⟨ps, hps, hwalk, rfl⟩ := placeOf_eq_ok_iff.1 hplace
  split at h
  · cases h
  · rename_i hat
    cases h
    exact ⟨ps, hps, hwalk, Option.not_isSome_iff_eq_none.1 hat, rfl⟩

/-- Making a folder takes nothing away. -/
theorem extends_makeFolder {d d' : Disk} {path : String} (h : d.makeFolder path = .ok d') :
    Extends d d' := by
  obtain ⟨ps, -, -, hnone, rfl⟩ := makeFolder_eq_ok h
  exact extends_put hnone _

/-- Making sure of a folder takes nothing away. -/
theorem extends_ensureFolder {d d' : Disk} {path : String} (h : d.ensureFolder path = .ok d') :
    Extends d d' := by
  unfold ensureFolder at h
  split at h
  · split at h
    · cases h
      exact Extends.refl d
    · cases h
  · exact extends_makeFolder h

/-- Making sure of folders takes nothing away, not even if it stops half way. -/
theorem extends_ensureFolders (paths : List String) : (d : Disk) →
    Extends d (d.ensureFolders paths).2 := by
  induction paths with
  | nil => exact Extends.refl
  | cons path above ih =>
    intro d
    unfold ensureFolders
    split
    · rename_i hmade
      exact extends_ensureFolder hmade
    · have habove := ih d
      split
      · rename_i heq
        rw [heq] at habove
        split
        · rename_i hmade
          exact habove.trans (extends_ensureFolder hmade)
        · exact habove
      · exact habove
    · exact Extends.refl d

/-- Making the folder of a path takes nothing away. -/
theorem extends_createParent (d : Disk) (path : String) : Extends d (d.createParent path).2 := by
  unfold createParent
  split
  · exact extends_ensureFolders _ d
  · exact Extends.refl d

/-- A way on a disk leads to the same on a disk with more on it. -/
theorem Extends.walk {d d' : Disk} (h : Extends d d') {ps : List String} :
    {place : List String} → {item : Item} → d.walk place ps = .ok item →
    d'.walk place ps = .ok item := by
  induction ps with
  | nil =>
    intro place item hwalk
    rw [Disk.walk] at hwalk ⊢
    split at hwalk
    · rename_i hat
      rw [h _ _ hat]
      exact hwalk
    · cases hwalk
  | cons p ps ih =>
    intro place item hwalk
    rw [Disk.walk] at hwalk ⊢
    split at hwalk
    · rename_i hat
      rw [h _ _ hat]
      exact ih hwalk
    · cases hwalk
    · cases hwalk

/-- A file on a disk is found on a disk with more on it. -/
theorem Extends.find_file {d d' : Disk} (h : Extends d d') {path : String} {file : File}
    (hfind : d.find path = .ok (.file file)) : d'.find path = .ok (.file file) := by
  obtain ⟨ps, hps, hwalk, hslash⟩ := find_file_iff.1 hfind
  exact find_file_iff.2 ⟨ps, hps, h.walk hwalk, hslash⟩

/-! ## Putting a file over a file -/

/-- What stands on every disk is no file that keeps anything. -/
theorem standing?_eq_none {d : Disk} {place : List String} {file : File}
    (h : d.at? place = some (.file file)) (hkeeps : file.keeps) : Item.standing? place = none := by
  rw [at?] at h
  cases hstanding : Item.standing? place with
  | none => rfl
  | some item =>
    rw [hstanding, Option.some_or] at h
    cases h
    unfold Item.standing? at hstanding
    split at hstanding
    · cases hstanding
    · split at hstanding
      · cases hstanding
        cases hkeeps
      · cases hstanding

/-- Putting a file over a file leaves every way to it: the directories on it stay. -/
theorem walk_put {d : Disk} {place : List String} {old : File}
    (hold : d.at? place = some (.file old)) (hkeeps : old.keeps) (file : File) {ps : List String} :
    {start : List String} → ps.foldl Path.step start = place →
    d.walk start ps = .ok (.file old) →
    (d.put place (.file file)).walk start ps = .ok (.file file) := by
  have hstanding := standing?_eq_none hold hkeeps
  induction ps with
  | nil =>
    rintro start rfl -
    rw [walk, at?_put, List.foldl_nil] at *
    rw [hstanding, if_pos rfl, Option.none_or]
  | cons p ps ih =>
    intro start hplace hwalk
    rw [walk] at hwalk ⊢
    split at hwalk
    · rename_i hat
      have hfolder : (d.put place (.file file)).at? start = some .folder := by
        rw [at?_put]
        rw [at?] at hat hold
        rw [hstanding, Option.none_or] at hold
        by_cases hkey : Path.key place = Path.key start
        · -- a directory under the key of the file can only be one that stands on every disk
          rw [← hkey, hold] at hat
          cases hstart : Item.standing? start with
          | none =>
            rw [hstart] at hat
            cases hat
          | some item =>
            rw [hstart, Option.some_or] at hat
            rw [hat, Option.some_or]
        · rw [if_neg hkey]
          exact hat
      rw [hfolder]
      exact ih hplace hwalk
    · cases hwalk
    · cases hwalk

/-- A file that is there is opened as it is. -/
theorem openFile_of_find {d : Disk} {path : String} {file : File}
    (h : d.find path = .ok (.file file)) : d.openFile path = .ok (file, d) := by
  obtain ⟨ps, hps, hwalk, hslash⟩ := find_file_iff.1 h
  have hat : d.at? (Path.resolve ps) = some (.file file) := at?_of_walk hwalk
  have hplace : d.placeOf path = .ok (Path.resolve ps) :=
    placeOf_eq_ok_iff.2 ⟨ps, hps, walk_dropLast (Or.inr ⟨file, hwalk⟩), rfl⟩
  rw [openFile, hplace]
  simp only [bind, Except.bind, hslash, hat, Bool.false_eq_true, if_false]

/-- A file that was opened stands at its path. -/
theorem find_of_openFile {d d' : Disk} {path : String} {file : File}
    (h : d.openFile path = .ok (file, d')) : d'.find path = .ok (.file file) := by
  obtain ⟨place, hplace, h⟩ := Json.bind_eq_ok_iff.1 h
  obtain ⟨ps, hps, hwalk, rfl⟩ := placeOf_eq_ok_iff.1 hplace
  split at h
  · cases h
  · rename_i hslash
    rw [Bool.not_eq_true] at hslash
    split at h
    · cases h
    · rename_i file' hat
      cases h
      exact find_file_iff.2 ⟨ps, hps, walk_of_at? hwalk hat, hslash⟩
    · rename_i hat
      cases h
      refine find_file_iff.2 ⟨ps, hps, walk_of_at? ?_ (at?_put_self hat _), hslash⟩
      exact (extends_put hat _).walk hwalk

/-- **A file that is put where a file stood is found there.** -/
theorem find_save {d : Disk} {path : String} {old : File} (h : d.find path = .ok (.file old))
    (hkeeps : old.keeps) (file : File) : (d.save path file).find path = .ok (.file file) := by
  have hparent : (d.createParent path).2.find path = .ok (.file old) :=
    (extends_createParent d path).find_file h
  rcases hcreate : d.createParent path with ⟨made, d'⟩
  rw [hcreate] at hparent
  obtain ⟨ps, hps, hwalk, hslash⟩ := find_file_iff.1 hparent
  obtain ⟨-, -, hparts⟩ := partsOf_eq_ok_iff.1 hps
  simp only [save, hcreate, openFile_of_find hparent, hkeeps, if_true]
  rw [← hparts]
  exact find_file_iff.2 ⟨ps, hps, walk_put (at?_of_walk hwalk) hkeeps file rfl hwalk, hslash⟩

end Disk

end DurableKV
