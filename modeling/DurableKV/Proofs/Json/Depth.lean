import DurableKV.Proofs.Json.RoundTrip

/-!
# Depth of what is read

The reader is told how many arrays and objects may still be opened. That number only says which
inputs it refuses:

* `readValue_within`: a value that is read is not nested deeper than that, and it is read all the
  same wherever there is room for its depth.
* `readPrefix_chars_eq_ok_iff`: so a written value is read exactly if there is room for its depth
  and all its numbers can be read.

A reader takes the room along unchanged except where it opens something, which is one induction over
the bound for values, items and fields together.
-/

namespace DurableKV.Json

/-- A reader for which room is a limit and nothing else: what it reads is no deeper than its room,
and is read with any other room that suffices. -/
def Within {α : Type} (read : Nat → Bytes → Except ReadError (α × Bytes)) (depth : α → Nat) :
    Prop :=
  ∀ {room : Nat} {input : Bytes} {x : α} {rest : Bytes}, read room input = .ok (x, rest) →
    depth x ≤ room ∧ ∀ {other : Nat}, depth x ≤ other → read other input = .ok (x, rest)

/-- An array or object takes one off the room. -/
theorem openNested_eq_ok {room inner : Nat} (h : openNested room = .ok inner) :
    room = inner + 1 := by
  cases room with
  | zero => cases h
  | succ room =>
    cases h
    rfl

/-- Items after an item, given the reader of values. -/
theorem readItems_within_succ {b : UInt8} {bound : Bytes}
    (hvalue : Within (readValue bound) Value.depth)
    (hitems : Within (readItems bound) Value.itemsDepth) :
    Within (readItems (b :: bound)) Value.itemsDepth := by
  intro room input vs rest h
  unfold readItems at h ⊢
  obtain ⟨upcoming, hnext, h⟩ := bind_eq_ok_iff.1 h
  simp only [hnext]
  cases upcoming with
  | done after =>
    cases h
    exact ⟨Nat.zero_le _, fun _ => rfl⟩
  | more input =>
    obtain ⟨⟨v, inner⟩, hv, h⟩ := bind_eq_ok_iff.1 h
    obtain ⟨⟨ws, after⟩, hws, h⟩ := bind_eq_ok_iff.1 h
    cases h
    obtain ⟨hvd, hvo⟩ := hvalue hv
    obtain ⟨hwd, hwo⟩ := hitems hws
    refine ⟨Nat.max_le.2 ⟨hvd, hwd⟩, fun hother => ?_⟩
    obtain ⟨hvother, hwother⟩ := Nat.max_le.1 hother
    exact bind_eq_ok_iff.2 ⟨_, rfl, bind_eq_ok_iff.2 ⟨_, hvo hvother,
      bind_eq_ok_iff.2 ⟨_, hwo hwother, rfl⟩⟩⟩

/-- Fields after a field, given the reader of values. -/
theorem readFields_within_succ {b : UInt8} {bound : Bytes}
    (hvalue : Within (readValue bound) Value.depth)
    (hfields : Within (readFields bound) Value.fieldsDepth) :
    Within (readFields (b :: bound)) Value.fieldsDepth := by
  intro room input fs rest h
  unfold readFields at h ⊢
  obtain ⟨upcoming, hnext, h⟩ := bind_eq_ok_iff.1 h
  simp only [hnext]
  cases upcoming with
  | done after =>
    cases h
    exact ⟨Nat.zero_le _, fun _ => rfl⟩
  | more input =>
    obtain ⟨⟨name, colon⟩, hname, h⟩ := bind_eq_ok_iff.1 h
    obtain ⟨start, hcolon, h⟩ := bind_eq_ok_iff.1 h
    obtain ⟨⟨v, inner⟩, hv, h⟩ := bind_eq_ok_iff.1 h
    obtain ⟨⟨gs, after⟩, hgs, h⟩ := bind_eq_ok_iff.1 h
    cases h
    obtain ⟨hvd, hvo⟩ := hvalue hv
    obtain ⟨hgd, hgo⟩ := hfields hgs
    refine ⟨Nat.max_le.2 ⟨hvd, hgd⟩, fun hother => ?_⟩
    obtain ⟨hvother, hgother⟩ := Nat.max_le.1 hother
    exact bind_eq_ok_iff.2 ⟨_, rfl, bind_eq_ok_iff.2 ⟨_, hname, bind_eq_ok_iff.2 ⟨_, hcolon,
      bind_eq_ok_iff.2 ⟨_, hvo hvother, bind_eq_ok_iff.2 ⟨_, hgo hgother, rfl⟩⟩⟩⟩⟩

section

variable {b : UInt8} {bound input tail : Bytes} {room : Nat} {v : Value} {rest : Bytes}

/-- An array, given the readers of what may stand in it. -/
theorem readValue_within_array (hspace : skipSpace input = openBracket :: tail)
    (hvalue : Within (readValue bound) Value.depth)
    (hitems : Within (readItems bound) Value.itemsDepth)
    (h : readValue (b :: bound) room input = .ok (v, rest)) :
    v.depth ≤ room ∧
      ∀ {other : Nat}, v.depth ≤ other → readValue (b :: bound) other input = .ok (v, rest) := by
  have hquote : ¬ openBracket = quote := by decide
  unfold readValue at h ⊢
  simp only [hspace, hquote, if_false, if_true] at h ⊢
  obtain ⟨inner, hopen, hread⟩ := bind_eq_ok_iff.1 h
  obtain rfl := openNested_eq_ok hopen
  obtain ⟨upcoming, hnext, hread⟩ := bind_eq_ok_iff.1 hread
  cases upcoming with
  | done after =>
    cases hread
    refine ⟨Nat.le_add_left 1 _, fun {other} hother => ?_⟩
    obtain ⟨other, rfl⟩ := Nat.exists_eq_add_of_le' (show 1 ≤ other from hother)
    exact bind_eq_ok_iff.2 ⟨_, rfl, bind_eq_ok_iff.2 ⟨_, hnext, rfl⟩⟩
  | more input =>
    obtain ⟨⟨w, between⟩, hw, hread⟩ := bind_eq_ok_iff.1 hread
    obtain ⟨⟨ws, after⟩, hws, hread⟩ := bind_eq_ok_iff.1 hread
    cases hread
    obtain ⟨hwd, hwo⟩ := hvalue hw
    obtain ⟨hwsd, hwso⟩ := hitems hws
    refine ⟨Nat.succ_le_succ (Nat.max_le.2 ⟨hwd, hwsd⟩), fun {other} hother => ?_⟩
    obtain ⟨other, rfl⟩ :=
      Nat.exists_eq_add_of_le' (Nat.le_trans (Nat.le_add_left 1 _) hother)
    obtain ⟨hwother, hwsother⟩ := Nat.max_le.1 (Nat.le_of_succ_le_succ hother)
    exact bind_eq_ok_iff.2 ⟨_, rfl, bind_eq_ok_iff.2 ⟨_, hnext, bind_eq_ok_iff.2
      ⟨_, hwo hwother, bind_eq_ok_iff.2 ⟨_, hwso hwsother, rfl⟩⟩⟩⟩

/-- An object, given the readers of what may stand in it. -/
theorem readValue_within_object (hspace : skipSpace input = openBrace :: tail)
    (hvalue : Within (readValue bound) Value.depth)
    (hfields : Within (readFields bound) Value.fieldsDepth)
    (h : readValue (b :: bound) room input = .ok (v, rest)) :
    v.depth ≤ room ∧
      ∀ {other : Nat}, v.depth ≤ other → readValue (b :: bound) other input = .ok (v, rest) := by
  have hquote : ¬ openBrace = quote := by decide
  have hbracket : ¬ openBrace = openBracket := by decide
  unfold readValue at h ⊢
  simp only [hspace, hquote, hbracket, if_false, if_true] at h ⊢
  obtain ⟨inner, hopen, hread⟩ := bind_eq_ok_iff.1 h
  obtain rfl := openNested_eq_ok hopen
  obtain ⟨upcoming, hnext, hread⟩ := bind_eq_ok_iff.1 hread
  cases upcoming with
  | done after =>
    cases hread
    refine ⟨Nat.le_add_left 1 _, fun {other} hother => ?_⟩
    obtain ⟨other, rfl⟩ := Nat.exists_eq_add_of_le' (show 1 ≤ other from hother)
    exact bind_eq_ok_iff.2 ⟨_, rfl, bind_eq_ok_iff.2 ⟨_, hnext, rfl⟩⟩
  | more input =>
    obtain ⟨⟨name, colon⟩, hname, hread⟩ := bind_eq_ok_iff.1 hread
    obtain ⟨start, hcolon, hread⟩ := bind_eq_ok_iff.1 hread
    obtain ⟨⟨w, between⟩, hw, hread⟩ := bind_eq_ok_iff.1 hread
    obtain ⟨⟨gs, after⟩, hgs, hread⟩ := bind_eq_ok_iff.1 hread
    cases hread
    obtain ⟨hwd, hwo⟩ := hvalue hw
    obtain ⟨hgsd, hgso⟩ := hfields hgs
    refine ⟨Nat.succ_le_succ (Nat.max_le.2 ⟨hwd, hgsd⟩), fun {other} hother => ?_⟩
    obtain ⟨other, rfl⟩ :=
      Nat.exists_eq_add_of_le' (Nat.le_trans (Nat.le_add_left 1 _) hother)
    obtain ⟨hwother, hgsother⟩ := Nat.max_le.1 (Nat.le_of_succ_le_succ hother)
    exact bind_eq_ok_iff.2 ⟨_, rfl, bind_eq_ok_iff.2 ⟨_, hnext, bind_eq_ok_iff.2
      ⟨_, hname, bind_eq_ok_iff.2 ⟨_, hcolon, bind_eq_ok_iff.2
        ⟨_, hwo hwother, bind_eq_ok_iff.2 ⟨_, hgso hgsother, rfl⟩⟩⟩⟩⟩⟩

/-- Texts, numbers and words have no depth, and room plays no part in reading them. -/
theorem readValue_within_scalar {c : UInt8} (hspace : skipSpace input = c :: tail)
    (hbracket : c ≠ openBracket) (hbrace : c ≠ openBrace)
    (h : readValue (b :: bound) room input = .ok (v, rest)) :
    v.depth = 0 ∧ ∀ other, readValue (b :: bound) other input = .ok (v, rest) := by
  unfold readValue at h ⊢
  simp only [hspace, hbracket, hbrace, if_false] at h ⊢
  refine ⟨?_, fun _ => h⟩
  -- one case for a text, a number and each of the three words
  split at h
  · obtain ⟨_, -, h⟩ := bind_eq_ok_iff.1 h
    cases h
    rfl
  split at h
  · obtain ⟨_, -, h⟩ := bind_eq_ok_iff.1 h
    cases h
    rfl
  split at h
  · obtain ⟨_, -, h⟩ := bind_eq_ok_iff.1 h
    cases h
    rfl
  split at h
  · obtain ⟨_, -, h⟩ := bind_eq_ok_iff.1 h
    cases h
    rfl
  split at h
  · obtain ⟨_, -, h⟩ := bind_eq_ok_iff.1 h
    cases h
    rfl
  · cases h

end

/-- A value, given the readers of what may stand in it. -/
theorem readValue_within_succ {b : UInt8} {bound : Bytes}
    (hvalue : Within (readValue bound) Value.depth)
    (hitems : Within (readItems bound) Value.itemsDepth)
    (hfields : Within (readFields bound) Value.fieldsDepth) :
    Within (readValue (b :: bound)) Value.depth := by
  intro room input v rest h
  cases hspace : skipSpace input with
  | nil =>
    unfold readValue at h
    rw [hspace] at h
    cases h
  | cons c tail =>
    by_cases hbracket : c = openBracket
    · rw [hbracket] at hspace
      exact readValue_within_array hspace hvalue hitems h
    by_cases hbrace : c = openBrace
    · rw [hbrace] at hspace
      exact readValue_within_object hspace hvalue hfields h
    · obtain ⟨hdepth, hread⟩ := readValue_within_scalar hspace hbracket hbrace h
      rw [hdepth]
      exact ⟨Nat.zero_le _, fun _ => hread _⟩

/-- **Room is a limit and nothing else**, for values and for what stands behind an item or a field
of one. -/
theorem readers_within (bound : Bytes) :
    Within (readValue bound) Value.depth ∧ Within (readItems bound) Value.itemsDepth ∧
      Within (readFields bound) Value.fieldsDepth := by
  induction bound with
  | nil =>
    refine ⟨?_, ?_, ?_⟩
    all_goals
      intro room input x rest h
      cases h
  | cons b bound ih =>
    obtain ⟨hvalue, hitems, hfields⟩ := ih
    exact ⟨readValue_within_succ hvalue hitems hfields, readItems_within_succ hvalue hitems,
      readFields_within_succ hvalue hfields⟩

/-- A value is read within the room that is left, and more room does no harm. -/
theorem readValue_within (bound : Bytes) : Within (readValue bound) Value.depth :=
  (readers_within bound).1

/-! ## Depth of what is written -/

mutual

/-- A value is read back with its depth. -/
theorem depth_reread : (v : Value) → {w : Value} → v.reread = .ok w → w.depth = v.depth
  | .null, w, h => by cases h; rfl
  | .bool _, w, h => by cases h; rfl
  | .string _, w, h => by cases h; rfl
  | .number n, w, h => by
    obtain ⟨m, -, rfl⟩ := map_eq_ok_iff.1 h
    rfl
  | .array items, w, h => by
    obtain ⟨ws, hws, rfl⟩ := map_eq_ok_iff.1 h
    exact congrArg (· + 1) (itemsDepth_reread items hws)
  | .object fields, w, h => by
    obtain ⟨gs, hgs, rfl⟩ := map_eq_ok_iff.1 h
    exact congrArg (· + 1) (fieldsDepth_reread fields hgs)

/-- Items are read back with their depth. -/
theorem itemsDepth_reread : (vs : List Value) → {ws : List Value} →
    Value.rereadItems vs = .ok ws → Value.itemsDepth ws = Value.itemsDepth vs
  | [], ws, h => by cases h; rfl
  | v :: vs, ws, h => by
    obtain ⟨w, hw, h⟩ := bind_eq_ok_iff.1 h
    obtain ⟨ws, hws, h⟩ := bind_eq_ok_iff.1 h
    cases h
    simp only [Value.itemsDepth, depth_reread v hw, itemsDepth_reread vs hws]

/-- Fields are read back with their depth. -/
theorem fieldsDepth_reread : (fs : List (String × Value)) → {gs : List (String × Value)} →
    Value.rereadFields fs = .ok gs → Value.fieldsDepth gs = Value.fieldsDepth fs
  | [], gs, h => by cases h; rfl
  | (k, v) :: fs, gs, h => by
    obtain ⟨w, hw, h⟩ := bind_eq_ok_iff.1 h
    obtain ⟨gs, hgs, h⟩ := bind_eq_ok_iff.1 h
    cases h
    simp only [Value.fieldsDepth, depth_reread v hw, fieldsDepth_reread fs hgs]

end

/-- **When a written value can be read**: if there is room for its depth and all its numbers can be
read, and only then. -/
theorem readPrefix_chars_eq_ok_iff (v : Value) {room : Nat} {rest : Bytes} (hrest : NumberEnd rest)
    {w : Value} {after : Bytes} :
    Value.readPrefix room (Bytes.ofChars v.chars ++ rest) = .ok (w, after) ↔
      v.depth ≤ room ∧ v.reread = .ok w ∧ after = rest := by
  unfold Value.readPrefix
  constructor
  · intro h
    -- the value is read with unlimited room too, where it is known what comes out
    have hmax := (readValue_within _ h).2 (Nat.le_max_left w.depth v.depth)
    rw [readValue_chars v (Nat.le_max_right w.depth v.depth) hrest (Nat.le_refl _)] at hmax
    obtain ⟨u, hu, heq⟩ := map_eq_ok_iff.1 hmax
    cases heq
    exact ⟨depth_reread v hu ▸ (readValue_within _ h).1, hu, rfl⟩
  · rintro ⟨hdepth, hreread, rfl⟩
    rw [readValue_chars v hdepth hrest (Nat.le_refl _), hreread]
    rfl

/-- The written form of a value, from its characters. -/
theorem bytes_eq_ofChars (v : Value) : v.bytes = Bytes.ofChars v.chars := by
  rw [Value.bytes, Value.text, Bytes.ofText_ofList]

/-- What is read from the bytes of a value is what the value is read back as. -/
theorem reread_of_read {v w : Value} (h : Value.read v.bytes = .ok w) : v.reread = .ok w := by
  obtain ⟨⟨u, rest⟩, hu, h⟩ := bind_eq_ok_iff.1 h
  obtain ⟨-, -, h⟩ := bind_eq_ok_iff.1 h
  cases h
  rw [bytes_eq_ofChars, ← List.append_nil (Bytes.ofChars v.chars)] at hu
  exact ((readPrefix_chars_eq_ok_iff v numberEnd_nil).1 hu).2.1

/-- **A value is read back from its bytes** if it is not nested too deep and its numbers are. -/
theorem read_bytes {v : Value} (hdepth : v.depth ≤ nestingLimit)
    (hnumbers : ∀ n ∈ v.numbers, n.reread = .ok n) : Value.read v.bytes = .ok v := by
  have hread := (readPrefix_chars_eq_ok_iff v numberEnd_nil).2
    ⟨hdepth, (reread_eq_self_iff v).2 hnumbers, rfl⟩
  rw [List.append_nil] at hread
  rw [Value.read, bytes_eq_ofChars, hread]
  rfl

end DurableKV.Json
