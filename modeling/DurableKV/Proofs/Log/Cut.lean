import DurableKV.Proofs.Log.Opening

/-!
# A log that is cut off

A file may lose any number of bytes from its end. What is left of a log then are its first lines and
a part of the next, and nothing tells the part from a write that was cut short. So the cut log is
read as its first records (`read_of_cut`), and a writer that opens it goes on behind them
(`cut_reads_back`), wherever the cut is made and whoever wrote the log.

Reading and opening are told by the lines that the cut leaves. That these are exactly the lines that
end before the cut is a fact about bytes: the lines of a first part are first lines of the whole
(`Bytes.lines_append`), and a part that ends where a line ends has no others and no tail
(`Bytes.lines_take_lineEnd`).
-/

namespace DurableKV

namespace Bytes

/-! ## Lines of a first part -/

/-- The byte after so many complete lines. -/
def lineEnd (bs : Bytes) (i : Nat) : Nat := (joinLines ((lines bs).1.take i)).length

/-- A later line ends no earlier. -/
theorem lineEnd_mono (bs : Bytes) {i j : Nat} (h : i ≤ j) : lineEnd bs i ≤ lineEnd bs j := by
  obtain ⟨more, hmore⟩ := List.take_prefix_take_left (l := (lines bs).1) h
  unfold lineEnd
  rw [← hmore, joinLines_append, List.length_append]
  exact Nat.le_add_right _ _

/-- What stands before the end of a line is the lines up to it. -/
theorem take_lineEnd (bs : Bytes) (i : Nat) :
    bs.take (lineEnd bs i) = joinLines ((lines bs).1.take i) := by
  have hbs := joinLines_lines bs
  rw [← List.take_append_drop i (lines bs).1, joinLines_append, List.append_assoc] at hbs
  generalize hrest : joinLines ((lines bs).1.drop i) ++ (lines bs).2 = rest at hbs
  have hend : lineEnd bs i = (joinLines ((lines bs).1.take i)).length := rfl
  generalize joinLines ((lines bs).1.take i) = front at hbs hend ⊢
  rw [hend, ← hbs, List.take_left]

/-- A first part that ends where a line ends has the lines up to there, and no tail. -/
theorem lines_take_lineEnd (bs : Bytes) (i : Nat) :
    lines (bs.take (lineEnd bs i)) = ((lines bs).1.take i, []) := by
  rw [take_lineEnd]
  apply lines_joinLines_whole
  intro l hl
  exact (newline_notMem_lines bs).1 l (List.mem_of_mem_take hl)

/-- The lines of a first part are the first of the lines. -/
theorem lines_take (bs : Bytes) (m : Nat) :
    (lines (bs.take m)).1 = (lines bs).1.take (lines (bs.take m)).1.length := by
  have hlines := lines_append (bs.take m) (bs.drop m)
  rw [List.take_append_drop] at hlines
  rw [hlines, List.take_left]

/-- A longer cut has no fewer complete lines. -/
theorem length_lines_take_mono (bs : Bytes) {m n : Nat} (h : m ≤ n) :
    (lines (bs.take m)).1.length ≤ (lines (bs.take n)).1.length := by
  have htake : (bs.take n).take m = bs.take m := by rw [List.take_take, Nat.min_eq_left h]
  have hlines := congrArg List.length (lines_take (bs.take n) m)
  rw [htake, List.length_take] at hlines
  omega

/-- A first part is its complete lines and its tail. -/
theorem lineEnd_add_tail (bs : Bytes) {m : Nat} (hm : m ≤ bs.length) :
    lineEnd bs (lines (bs.take m)).1.length + (lines (bs.take m)).2.length = m := by
  have hlength := congrArg List.length (joinLines_lines (bs.take m))
  rw [List.length_append, List.length_take, Nat.min_eq_left hm, lines_take bs m] at hlength
  exact hlength

/-- **The lines of a first part are those that end in it.** -/
theorem lineEnd_le_iff {bs : Bytes} {m i : Nat} (hm : m ≤ bs.length)
    (hi : i ≤ (lines bs).1.length) : lineEnd bs i ≤ m ↔ i ≤ (lines (bs.take m)).1.length := by
  have hadd := lineEnd_add_tail bs hm
  constructor
  · intro h
    -- the part that ends with the line `i` has `i` lines, and a longer one has no fewer
    have hmono := length_lines_take_mono bs h
    rw [lines_take_lineEnd, List.length_take, Nat.min_eq_left hi] at hmono
    exact hmono
  · intro h
    have hmono := lineEnd_mono bs h
    omega

/-- A first part has no tail exactly if a line ends where it ends, or it is empty. -/
theorem tail_take_eq_nil_iff {bs : Bytes} {m : Nat} (hm : m ≤ bs.length) :
    (lines (bs.take m)).2 = [] ↔ ∃ i ≤ (lines bs).1.length, m = lineEnd bs i := by
  constructor
  · intro h
    have hadd := lineEnd_add_tail bs hm
    rw [h, List.length_nil, Nat.add_zero] at hadd
    have hlength := congrArg List.length (lines_take bs m)
    rw [List.length_take] at hlength
    exact ⟨_, by omega, hadd.symm⟩
  · rintro ⟨i, -, rfl⟩
    rw [lines_take_lineEnd]

end Bytes

namespace Log

/-! ## Reading what is left -/

/-- The lines that a cut leaves are taken as the first records. -/
theorem taken_take {content : Bytes} {rs : List Record} {c : Cursor}
    (h : taken content = .ok (rs, c)) (m : Nat) :
    ∃ between, taken (content.take m) =
        .ok (rs.take (Bytes.lines (content.take m)).1.length, between) ∧
      between.offset = Bytes.lineEnd content (Bytes.lines (content.take m)).1.length := by
  have hlines := Bytes.lines_take content m
  rw [taken, ← List.take_append_drop (Bytes.lines (content.take m)).1.length
    (Bytes.lines content).1, ← hlines] at h
  obtain ⟨between, hbetween⟩ := Cursor.takeAll_of_append h
  refine ⟨between, hbetween, ?_⟩
  rw [Cursor.offset_takeAll hbetween, Bytes.lineEnd, ← hlines]
  exact Nat.zero_add _

/-- What the first bytes of a log hold: its first `k` lines, and perhaps a part of the next. -/
structure CutAt (content : Bytes) (rs : List Record) (m k : Nat) : Prop where
  /-- The log has at least so many records. -/
  le : k ≤ rs.length
  /-- The lines that lie within the first bytes are exactly those of these records. -/
  whole : ∀ i ≤ rs.length, Bytes.lineEnd content i ≤ m ↔ i ≤ k

/-- **What is left of a log is read as its first records**, and is torn unless a line ends where it
ends. -/
theorem read_of_cut {content : Bytes} {rs : List Record} {c : Cursor}
    (h : taken content = .ok (rs, c)) {m : Nat} (hm : m ≤ content.length) :
    ∃ k between, CutAt content rs m k ∧ taken (content.take m) = .ok (rs.take k, between) ∧
      between.offset = Bytes.lineEnd content k ∧
      Bytes.joinLines (Bytes.lines (content.take m)).1 = content.take (Bytes.lineEnd content k) ∧
      ((Bytes.lines (content.take m)).2 = [] ↔ ∃ i ≤ rs.length, m = Bytes.lineEnd content i) := by
  obtain ⟨between, htaken, hoffset⟩ := taken_take h m
  have hlength := Cursor.length_takeAll h
  have hlines := Bytes.lines_take content m
  refine ⟨(Bytes.lines (content.take m)).1.length, between, ⟨?_, ?_⟩, htaken, ?_, ?_, ?_⟩
  · rw [hlength, hlines, List.length_take]
    exact Nat.min_le_right _ _
  · intro i hi
    rw [hlength] at hi
    exact Bytes.lineEnd_le_iff hm hi
  · exact hoffset
  · rw [Bytes.take_lineEnd, ← hlines]
  · rw [hlength]
    exact Bytes.tail_take_eq_nil_iff hm

/-! ## Going on behind what is left -/

/-- **A log that is cut off anywhere goes on behind its whole lines.** Reading finds exactly the
records whose lines lie within what is left, stops where the last of them ends, and finds a torn tail
unless that is where the log was cut. A writer cuts the file there too and appends under the next
number, and what it appends is read behind the records that were left. -/
theorem cut_reads_back {l : LiveDisk} (hroom : l.full = false) {path : String} {content : Bytes}
    {rs : List Record} (hread : (Scan.ofContent content).all.1 = .ok rs) {m : Nat}
    (hm : m ≤ content.length)
    (hfind : l.disk.find path = .ok (.file (.ofContent (content.take m)))) :
    ∃ k scan w l', CutAt content rs m k ∧
      (Scan.ofContent (content.take m)).all = (.ok (rs.take k), scan) ∧
      (scan.torn = true ↔ ∀ i ≤ rs.length, m ≠ Bytes.lineEnd content i) ∧
      scan.cursor.offset = Bytes.lineEnd content k ∧
      l.release.opened (Writer.open l.disk path) = (.ok w, l') ∧
      l'.content? path = some (content.take (Bytes.lineEnd content k)) ∧
      w.next = UInt64.ofNat (k + 1) ∧
      ∀ c : Command, ∃ w' l'' again after,
        l'.act w (·.append (.command c)) = (.ok (UInt64.ofNat (k + 1)), w', l'') ∧
        Scan.open l''.disk path = .ok again ∧
        again.all =
          (.ok (rs.take k ++ [Record.make (UInt64.ofNat (k + 1)) (.command c)]), after) ∧
        after.torn = false := by
  obtain ⟨c, htaken⟩ := taken_of_all hread
  obtain ⟨k, between, hcut, hleft, hoffset, hwhole, htorn⟩ := read_of_cut htaken hm
  obtain ⟨w, l', hopened, hlogs, hcontent⟩ := logs_of_find hroom hfind hleft
  have hnext : w.next = UInt64.ofNat (k + 1) := by
    rw [hlogs.next, List.length_take, Nat.min_eq_left hcut.le]
  refine ⟨k, _, w, l', hcut, all_of_taken hleft, ?_, hoffset, hopened, ?_, hnext, ?_⟩
  · rw [Scan.torn_ended, Bool.not_eq_true', List.isEmpty_eq_false_iff, ne_eq, htorn]
    simp only [not_exists, not_and]
  · rw [hlogs.serves.content?, ← hwhole, ← hcontent]
    rfl
  · intro command
    obtain ⟨w', l'', hact, hlogs'⟩ :=
      hlogs.append (Entry.selfDescribed_command command) (Entry.lasting_command command)
    obtain ⟨again, after, hscan, hall, htail⟩ := hlogs'.all
    rw [hnext] at hact hall
    exact ⟨w', l'', again, after, hact, hscan, hall, htail⟩

/-- A log of two records loses its last byte, the newline of the second. -/
theorem cut_reads_back_torn :
    let es : List Entry := [.command (.set "k" "v"), .command (.delete "k")]
    let content := Bytes.joinLines (bodies 0 es)
    let left := content.take (content.length - 1)
    let l : LiveDisk := { disk := .withLog left }
    ∃ scan w l', (Scan.ofContent left).all =
        (.ok [Record.make 1 (.command (.set "k" "v"))], scan) ∧
      scan.torn = true ∧
      l.release.opened (Writer.open l.disk (pathOf "data")) = (.ok w, l') ∧
      l'.content? (pathOf "data") = some (Record.make 1 (.command (.set "k" "v"))).line ∧
      w.next = 2 := by
  intro es content left l
  have hself : ∀ e ∈ es, e.SelfDescribed := by
    simp [es, Entry.selfDescribed_command]
  have hlasting : ∀ e ∈ es, e.Lasting := by
    simp [es, Entry.lasting_command]
  obtain ⟨offset, htaken⟩ := taken_bodies hself hlasting List.not_mem_nil
  rw [List.append_nil] at htaken
  have hread : (Scan.ofContent content).all.1 = .ok (numbered 0 es) := by
    rw [all_of_taken htaken]
  have hm : content.length - 1 ≤ content.length := Nat.sub_le _ _
  obtain ⟨k, scan, w, l', hcut, hall, htorn, -, hopened, hcontent, hnext, -⟩ :=
    cut_reads_back (l := l) rfl hread hm (Disk.holdsLog_withLog left)
  have hfirst : 1 ≤ k := (hcut.whole 1 (by decide)).1 (by decide +kernel)
  have hsecond : ¬ 2 ≤ k := fun h => absurd ((hcut.whole 2 (by decide)).2 h) (by decide +kernel)
  obtain rfl : k = 1 := by omega
  have hinside : ∀ i ≤ (numbered 0 es).length, content.length - 1 ≠ Bytes.lineEnd content i := by
    decide +kernel
  refine ⟨scan, w, l', hall, htorn.2 hinside, hopened, ?_, hnext⟩
  rw [hcontent, Bytes.take_lineEnd, lines_bodies]
  exact congrArg some (List.append_nil _)

end Log

end DurableKV
