import DurableKV.LiveDisk
import DurableKV.Proofs.Recovery

/-!
# An open log and its file

The owner of an open log writes to a medium, and the disk holds a file at the path of the log.
`LiveDisk.Serves` says that the two are the same file and that nothing is in the way of writing. Then
the owner meets the log as it left it, and whatever it writes is on the disk when it is done
(`Serves.act`), where the two are the same file again (`Serves.saved`).
-/

namespace DurableKV

/-- A file that keeps what it is told has nothing but its content. -/
theorem File.ofContent_content {f : File} (h : f.keeps) : File.ofContent f.content = f := by
  obtain ⟨reversed, keeps⟩ := f
  cases h
  rw [ofContent, content, List.reverse_reverse]

namespace LiveDisk

/-- A disk after a file was put at a path. -/
def saved (l : LiveDisk) (path : String) (file : File) : LiveDisk :=
  { l with disk := l.disk.save path file }

/-- The file of an open log stands on the disk, and nothing is in the way of writing to it. -/
structure Serves {α : Type} [Holder α] (l : LiveDisk) (path : String) (x : α) : Prop where
  /-- The log is open. -/
  attached : l.attached = some path
  /-- Files can grow. -/
  room : l.full = false
  /-- The disk holds the file of the log. -/
  stored : l.disk.find path = .ok (.file (Holder.log x).medium.toFile)
  /-- The log takes whatever is appended. -/
  healthy : (Holder.log x).medium.Healthy

variable {l : LiveDisk} {path : String} {m : Log.Medium}

/-- The owner of a log meets it as it left it if the disk holds the same file. -/
theorem lend_of_find (hattached : l.attached = some path) (hroom : l.full = false)
    (hfind : l.disk.find path = .ok (.file m.toFile)) (hm : m.Healthy) : l.lend m = m := by
  obtain ⟨file, writeFault, syncFault⟩ := m
  obtain ⟨hkeeps, hwrites, -⟩ := hm
  cases hwrites
  rw [lend, if_neg (not_not_intro hkeeps), hattached, Option.map_some, hfind, hroom]
  rfl

/-- Settling an open log saves its file at the path of the log. -/
theorem settle_of_attached (hattached : l.attached = some path) (hkeeps : m.keeps) :
    l.settle m = l.saved path m.toFile := by
  rw [settle, hattached]
  simp only [hkeeps, if_true]
  rw [saved, hattached]

section

variable {α : Type} [Holder α] {x : α}

/-- What the owner of a log does is done to the file on the disk as well. -/
theorem Serves.act (h : l.Serves path x) (hself : Holder.withMedium x (Holder.log x).medium = x)
    {β : Type} {f : α → β × α} {b : β} {y : α} (hf : f x = (b, y))
    (hkeeps : (Holder.log y).medium.keeps) :
    l.act x f = (b, y, l.saved path (Holder.log y).medium.toFile) := by
  have hlend := lend_of_find h.attached h.room h.stored h.healthy
  rw [← settle_of_attached h.attached hkeeps, LiveDisk.act, hlend, hself, hf]

/-- The disk goes on to serve the log with the file that was put there. -/
theorem Serves.saved (h : l.Serves path x) {β : Type} [Holder β] {y : β}
    (hy : (Holder.log y).medium.Healthy) :
    (l.saved path (Holder.log y).medium.toFile).Serves path y where
  attached := h.attached
  room := h.room
  stored := Disk.find_save h.stored h.healthy.keeps _
  healthy := hy

/-- The disk shows what the log of the owner holds. -/
theorem Serves.content? (h : l.Serves path x) :
    l.content? path = some (Holder.log x).medium.content := by
  unfold LiveDisk.content? Disk.read
  rw [h.stored]
  rfl

/-- The disk has a file at the path of the log, with the content of the log. -/
theorem Serves.find (h : l.Serves path x) :
    l.disk.find path = .ok (.file (.ofContent (Holder.log x).medium.content)) := by
  rw [File.ofContent_content h.healthy.keeps]
  exact h.stored

/-- Others find what the log holds on the disk. -/
theorem Serves.scan (h : l.Serves path x) :
    Log.Scan.open l.disk path = .ok (.ofContent (Holder.log x).medium.content) := by
  unfold Log.Scan.open
  rw [h.stored]

end

end LiveDisk

end DurableKV
