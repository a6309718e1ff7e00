import DurableKV.File
import DurableKV.OsError
import DurableKV.Path
import DurableKV.Table

/-!
# Files and directories

A `Disk` holds files and directories at places. What stands at the end of a path can only be reached
through directories: a missing part makes it missing, and a file on the way is a failure of its own.

Operations that may stop on the way, with a part of their work done, give back the disk beside their
result, so that this part stays.
-/

namespace DurableKV

/-- What stands at a place. -/
inductive Item where
  /-- A directory. -/
  | folder
  /-- A file. -/
  | file (file : File)
  deriving DecidableEq, Repr

/-- What stands on every disk: the root, the working directory and those above it, and the null
device with its directory. -/
def Item.standing? (place : List String) : Option Item :=
  if place = [""] ∨ place = ["", "dev"] ∨ place.all (· == "..") then some .folder
  else if place = ["", "dev", "null"] then some (.file .null)
  else none

/-- Files and directories, by the keys of their places. -/
structure Disk where
  /-- What stands where. -/
  items : Table Item := ∅
  deriving Repr

namespace Disk

/-! ## Looking -/

/-- What stands at a place. -/
def at? (d : Disk) (place : List String) : Option Item :=
  (Item.standing? place).or (d.items.get? (Path.key place))

/-- What stands at the end of parts taken one by one from a place. -/
def walk (d : Disk) (place : List String) : List String → Except OsError Item
  | [] =>
    match d.at? place with
    | some item => .ok item
    | none => .error .notFound
  | p :: ps =>
    match d.at? place with
    | some .folder => d.walk (Path.step place p) ps
    | some (.file _) => .error .notDirectory
    | none => .error .notFound

/-- The parts of a path, if there can be such a path. -/
def partsOf (path : String) : Except OsError (List String) :=
  if path = "" then .error .notFound
  else if path.toList.contains '\x00' then .error .zeroInPath
  else .ok (Path.parts path)

/-- What stands at a path. No file is found by a path that ends in a slash. -/
def find (d : Disk) (path : String) : Except OsError Item := do
  match ← d.walk [] (← partsOf path) with
  | .folder => .ok .folder
  | .file file => if Path.endsInSlash path then .error .notDirectory else .ok (.file file)

/-- Does anything stand at a path that can be reached? -/
def has (d : Disk) (path : String) : Bool := (d.find path).isOk

/-- Does a directory stand at a path? -/
def hasFolder (d : Disk) (path : String) : Bool :=
  match d.find path with
  | .ok .folder => true
  | _ => false

/-- The content of the file at a path. -/
def read (d : Disk) (path : String) : Except OsError Bytes := do
  match ← d.find path with
  | .folder => .error .isDirectory
  | .file file => .ok file.content

/-! ## Changing -/

/-- Put a file or directory at a place. -/
def put (d : Disk) (place : List String) (item : Item) : Disk :=
  ⟨d.items.insert (Path.key place) item⟩

/-- The place that a path names in a directory, which must be there. -/
def placeOf (d : Disk) (path : String) : Except OsError (List String) := do
  let ps ← partsOf path
  match ← d.walk [] ps.dropLast with
  | .folder => .ok (Path.resolve ps)
  | .file _ => .error .notDirectory

/-- Make a directory. The one it stands in must be there, and nothing may stand at its place. -/
def makeFolder (d : Disk) (path : String) : Except OsError Disk := do
  let place ← d.placeOf path
  if (d.at? place).isSome then .error .alreadyExists else .ok (d.put place .folder)

/-- Make a directory unless it is there. -/
def ensureFolder (d : Disk) (path : String) : Except OsError Disk :=
  match d.makeFolder path with
  | .error .alreadyExists => if d.hasFolder path then .ok d else .error .alreadyExists
  | made => made

/-- Make the first of some directories, each of which stands in the next. The others are made only
if it cannot be made without them, and stay if it cannot be made with them. -/
def ensureFolders (d : Disk) : List String → Except OsError Unit × Disk
  | [] => (.ok (), d)
  | path :: above =>
    match d.ensureFolder path with
    | .ok d => (.ok (), d)
    | .error .notFound =>
      match d.ensureFolders above with
      | (.ok (), d) =>
        match d.ensureFolder path with
        | .ok d => (.ok (), d)
        | .error cause => (.error cause, d)
      | failed => failed
    | .error cause => (.error cause, d)

/-- Make a directory and those above it, as far as they are missing. -/
def createFolders (d : Disk) (path : String) : Except OsError Unit × Disk :=
  d.ensureFolders ((path :: Path.above path).filter (· ≠ ""))

/-- Make the directory that a path stands in. -/
def createParent (d : Disk) (path : String) : Except OsError Unit × Disk :=
  match Path.parent? path with
  | some folder => d.createFolders folder
  | none => (.ok (), d)

/-- Open a file for writing, making it if it is missing. The file comes with the disk. -/
def openFile (d : Disk) (path : String) : Except OsError (File × Disk) := do
  let place ← d.placeOf path
  if Path.endsInSlash path then .error .isDirectory
  else
    match d.at? place with
    | some .folder => .error .isDirectory
    | some (.file file) => .ok (file, d)
    | none => .ok ({}, d.put place (.file {}))

/-- Put a file at a path; the directories above it are made as needed. It is not put there if no
file can be opened at the path, or only one that keeps nothing. -/
def save (d : Disk) (path : String) (file : File) : Disk :=
  let (_, d) := d.createParent path
  match d.openFile path with
  | .error _ => d
  | .ok (old, d) => if old.keeps then d.put (Path.resolve (Path.parts path)) (.file file) else d

/-- Give the file at a path a content. -/
def write (d : Disk) (path : String) (content : Bytes) : Disk := d.save path (.ofContent content)

/-- Take away the file at a path. A directory stays. -/
def removeFile (d : Disk) (path : String) : Disk :=
  match d.find path with
  | .ok (.file file) =>
    if file.keeps then ⟨d.items.erase (Path.key (Path.resolve (Path.parts path)))⟩ else d
  | _ => d

/-- Take away what stands at a path and all below it. -/
def remove (d : Disk) (path : String) : Disk :=
  let k := Path.key (Path.resolve (Path.parts path))
  let below := (k ++ "/").toList
  ⟨⟨d.items.entries.filter fun p => p.1 ≠ k && !below.isPrefixOf p.1.toList,
    d.items.ordered.filter _⟩⟩

end Disk

end DurableKV
