import DurableKV.Node

/-!
# A disk while a log on it is open

An open log writes to its file while others may change the same disk. A `LiveDisk` keeps the two in
step: before the owner of the log acts, its medium is made to show what the file holds now
(`LiveDisk.lend`), and afterwards the file is made to hold what the medium does (`LiveDisk.settle`).
A log whose file has been taken away goes on writing to it, but nobody sees that any more.

`Holder` is anything that has such a log.
-/

namespace DurableKV

/-- Something that owns an open log. -/
class Holder (α : Type) where
  /-- Its log. -/
  log : α → Log.Writer
  /-- Give it another medium. -/
  withMedium : α → Log.Medium → α

instance : Holder Log.Writer where
  log w := w
  withMedium w medium := { w with medium }

instance : Holder Machine where
  log m := m.log
  withMedium m medium := { m with log := Holder.withMedium m.log medium }

instance : Holder Replica where
  log r := r.machine.log
  withMedium r medium := { r with machine := Holder.withMedium r.machine medium }

instance : Holder (Service Replica) where
  log s := s.consensus.machine.log
  withMedium s medium := { s with consensus := Holder.withMedium s.consensus medium }

instance : Holder Node where
  log n := n.replica.machine.log
  withMedium n medium := { n with service := Holder.withMedium n.service medium }

/-- A disk with at most one open log. -/
structure LiveDisk where
  /-- The disk. -/
  disk : Disk := {}
  /-- The path at which the file of the open log stands, if it does. -/
  attached : Option String := none
  /-- Is the disk full? Then no file can grow. -/
  full : Bool := false
  deriving Repr

namespace LiveDisk

/-! ## The open log -/

/-- A medium as it is now. -/
def lend (l : LiveDisk) (m : Log.Medium) : Log.Medium :=
  if ¬ m.keeps then m
  else
    let file := match l.attached.map l.disk.find with
      | some (.ok (.file file)) => file
      | _ => m.toFile
    { m with toFile := file, writeFault := if l.full then some ⟨0, .fileTooLarge⟩ else none }

/-- The disk after the medium was written to. -/
def settle (l : LiveDisk) (m : Log.Medium) : LiveDisk :=
  match l.attached with
  | some path => if m.keeps then { l with disk := l.disk.save path m.toFile } else l
  | none => l

/-- Let the owner of the open log act. -/
def act {α β : Type} [Holder α] (l : LiveDisk) (x : α) (f : α → β × α) : β × α × LiveDisk :=
  let (b, x) := f (Holder.withMedium x (l.lend (Holder.log x).medium))
  (b, x, l.settle (Holder.log x).medium)

/-- Nobody has a log open. -/
def release (l : LiveDisk) : LiveDisk := { l with attached := none }

/-- Open a log: the result comes with the disk, to which the log is attached if it was opened. -/
def opened {ε α : Type} [Holder α] (l : LiveDisk) (result : Except ε α × Disk) :
    Except ε α × LiveDisk :=
  let attached := match result.1 with
    | .ok x => some (Holder.log x).path
    | .error _ => none
  (result.1, { l with disk := result.2, attached })

/-! ## Changes by others -/

/-- Change the disk. A log whose file is no longer there is not attached any more. -/
def change (l : LiveDisk) (f : Disk → Disk) : LiveDisk :=
  let disk := f l.disk
  { l with disk, attached := l.attached.filter fun path => (disk.read path).isOk }

/-- The content of a file, if it can be read. -/
def content? (l : LiveDisk) (path : String) : Option Bytes := (l.disk.read path).toOption

/-- Change the content of a file; a missing one counts as empty. -/
def edit (l : LiveDisk) (path : String) (f : Bytes → Bytes) : LiveDisk :=
  l.change fun d => d.write path (f ((l.content? path).getD []))

/-- Put a directory where a file may stand. -/
def putFolder (l : LiveDisk) (path : String) : LiveDisk :=
  l.change fun d => ((d.removeFile path).createFolders path).2

/-- Put an empty file where something else stands. -/
def putFile (l : LiveDisk) (path : String) : LiveDisk :=
  l.change fun d => (d.remove path).write path []

end LiveDisk

/-- Bytes with the first occurrence of some bytes replaced by others. -/
def Bytes.replaceFirst (old new : Bytes) : Bytes → Bytes
  | [] => if old = [] then new else []
  | b :: bs =>
    if old.isPrefixOf (b :: bs) then new ++ (b :: bs).drop old.length
    else b :: replaceFirst old new bs

end DurableKV
