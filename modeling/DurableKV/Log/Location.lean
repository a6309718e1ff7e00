import DurableKV.Disk
import DurableKV.Log.Scan
import DurableKV.Log.Writer

/-!
# Where a log stands

The log of a data directory is the file `wal/wal.log` in it. This module opens logs on a disk, for
reading and for appending, and names the failures of what stands in the way.
-/

namespace DurableKV.Log

/-- The directory of the log in a data directory. -/
def folderOf (dataDir : String) : String := Path.join dataDir "wal"

/-- The log of a data directory. -/
def pathOf (dataDir : String) : String := Path.join (folderOf dataDir) "wal.log"

/-- Open a log for reading. A directory opens, but cannot be read. -/
def Scan.open (d : Disk) (path : String) : Except Failure Scan :=
  match d.find path with
  | .ok (.file file) => .ok (ofContent file.content)
  | .ok .folder => .ok (ofUnreadable .isDirectory)
  | .error cause => .error (.open path cause)

/-- Open a log for reading if it is there. -/
def Scan.find (d : Disk) (path : String) : Except Failure (Option Scan) :=
  match Scan.open d path with
  | .ok scan => .ok (some scan)
  | .error (.open _ .notFound) => .ok none
  | .error e => .error e

/-- Make the directory that a log is to stand in if nothing stands at its path. -/
def prepare (d : Disk) (path : String) : Except Failure Unit × Disk :=
  match Path.parent? path with
  | none => (.ok (), d)
  | some folder =>
    if d.has folder then (.ok (), d)
    else
      let (made, d) := d.createFolders folder
      (made.mapError (.open folder), d)

/-- Open a log for appending. The directory of the file is made if it is missing, then the file; a
torn line at its end is cut off. -/
def Writer.open (d : Disk) (path : String) : Except Failure Writer × Disk :=
  match prepare d path with
  | (.error e, d) => (.error e, d)
  | (.ok (), d) =>
    match d.openFile path with
    | .error cause => (.error (.open path cause), d)
    | .ok (file, d) =>
      let (w, m) := attach path (.ofFile file)
      (w, d.save path m.toFile)

end DurableKV.Log
