import DurableKV.Proofs.Entry
import DurableKV.Proofs.Json.Members

/-!
# Fields that an operation does not use

All operations are read with one form, which has the fields of all of them. A field that belongs to
another operation is not used, but it is read. `stray_field_ignored` says what that comes to: such a
field makes no difference if the form could hold its value (`CommandForm.Fits`), and if not, the
entry is refused, although its operation can do without the field. A field that is in no form fits
whatever it holds.

The form of an object is read name by name (`CommandForm.fromValue_ordered`). Two objects that
differ in one name are compared one name after the other (`Both.bind`), and the command that a form
describes does not depend on the fields of other operations (`toCommand_congr`).
-/

namespace DurableKV

open Json

/-! ## Two results compared -/

/-- Two computations fail alike, or give results that are related. -/
def Both {ε α β : Type} (R : α → β → Prop) (x : Except ε α) (y : Except ε β) : Prop :=
  (∃ e, x = .error e ∧ y = .error e) ∨ ∃ a b, x = .ok a ∧ y = .ok b ∧ R a b

namespace Both

variable {ε α β : Type}

/-- Computations that go on alike from related results end alike. -/
theorem bind {γ δ : Type} {R : α → β → Prop} {S : γ → δ → Prop} {x : Except ε α} {y : Except ε β}
    {f : α → Except ε γ} {g : β → Except ε δ} (h : Both R x y)
    (hfg : ∀ a b, R a b → Both S (f a) (g b)) : Both S (x >>= f) (y >>= g) := by
  rcases h with ⟨e, rfl, rfl⟩ | ⟨a, b, rfl, rfl, hab⟩
  · exact Or.inl ⟨e, rfl, rfl⟩
  · exact hfg a b hab

/-- Related results are a pair of results that are related. -/
theorem ok {R : α → β → Prop} {a : α} {b : β} (h : R a b) :
    Both R (.ok a : Except ε α) (.ok b) :=
  Or.inr ⟨a, b, rfl, rfl, h⟩

end Both

namespace CommandForm

/-! ## Values that fit -/

/-- A form could hold this value in the field of this name, whatever its operation. Names that are
in no form can have any value. -/
structure Fits (name : String) (v : Value) : Prop where
  /-- A key or a value is a text or `null`. -/
  text : name = "key" ∨ name = "value" → v = .null ∨ ∃ s, v = .string s
  /-- The writes are a list of assignments. -/
  writes : name = "write_set" → ∃ as, (Reading.list Assignment.reading).fromValue v = .ok as
  /-- The reads are a list of observations. -/
  reads : name = "read_set" → ∃ os, (Reading.list Observation.reading).fromValue v = .ok os

/-- Any value fits in a name that is in no form. -/
theorem fits_of_notMem {name : String} (h : name ∉ fields.names) (v : Value) : Fits name v := by
  simp only [fields, Fields.names, List.mem_cons, List.not_mem_nil, or_false, not_or] at h
  exact ⟨by simp [h], by simp [h], by simp [h]⟩

/-- What is read as a text, where there may be none. -/
theorem optional_text_eq_ok_iff {v : Value} :
    (∃ s, (Reading.optional .text).fromValue v = .ok s) ↔ v = .null ∨ ∃ s, v = .string s := by
  cases v <;> simp [Reading.optional, Reading.text, Reading.textNamed, Except.map]

/-- A field is read if the member of its name is, and if there is none. -/
theorem slot_eq_ok_iff {α : Type} {members : List (String × Value)} {name : String}
    {r : Reading α} :
    (∃ x, Fields.slot members name r = .ok x) ↔
      ∀ v, Table.lookupIn name members = some v → ∃ x, r.fromValue v = .ok x := by
  unfold Fields.slot
  cases Table.lookupIn name members with
  | none => simp
  | some v => cases hr : r.fromValue v <;> simp [hr, Except.map]

/-- What stands for a name is read if it fits. -/
theorem slots_of_fits {t : Table Value} {name : String}
    (h : ∀ v, t.get? name = some v → Fits name v) :
    (name = "key" → ∃ x, Fields.slot t.entries "key" (.optional .text) = .ok x) ∧
    (name = "read_set" →
      ∃ x, Fields.slot t.entries "read_set" (.list Observation.reading) = .ok x) ∧
    (name = "value" → ∃ x, Fields.slot t.entries "value" (.optional .text) = .ok x) ∧
    (name = "write_set" →
      ∃ x, Fields.slot t.entries "write_set" (.list Assignment.reading) = .ok x) := by
  refine ⟨?_, ?_, ?_, ?_⟩
  · rintro rfl
    exact slot_eq_ok_iff.2 fun v hv => optional_text_eq_ok_iff.2 ((h v hv).text (Or.inl rfl))
  · rintro rfl
    exact slot_eq_ok_iff.2 fun v hv => (h v hv).reads rfl
  · rintro rfl
    exact slot_eq_ok_iff.2 fun v hv => optional_text_eq_ok_iff.2 ((h v hv).text (Or.inr rfl))
  · rintro rfl
    exact slot_eq_ok_iff.2 fun v hv => (h v hv).writes rfl

/-- What describes a form fits, whatever it stands for. -/
theorem fits_of_ofMembers {t : Table Value} {op name : String} {f : CommandForm} {v : Value}
    (h : ofMembers t.entries op = .ok f) (hv : t.get? name = some v) : Fits name v := by
  simp only [ofMembers, bind_eq_ok_iff] at h
  obtain ⟨key, hkey, reads, hreads, value, hvalue, writes, hwrites, -⟩ := h
  refine ⟨?_, ?_, ?_⟩
  · rintro (rfl | rfl)
    · exact optional_text_eq_ok_iff.1 (slot_eq_ok_iff.1 ⟨key, hkey⟩ v hv)
    · exact optional_text_eq_ok_iff.1 (slot_eq_ok_iff.1 ⟨value, hvalue⟩ v hv)
  · rintro rfl
    exact slot_eq_ok_iff.1 ⟨writes, hwrites⟩ v hv
  · rintro rfl
    exact slot_eq_ok_iff.1 ⟨reads, hreads⟩ v hv

/-! ## Objects that differ in one name -/

/-- Two forms that agree in all fields but one. -/
structure AgreesBut (name : String) (f g : CommandForm) : Prop where
  /-- They are of one operation. -/
  op : f.op = g.op
  /-- They have one key, unless that is the field. -/
  key : name ≠ "key" → f.key = g.key
  /-- They have one value, unless that is the field. -/
  value : name ≠ "value" → f.value = g.value
  /-- They have the same writes, unless these are the field. -/
  writes : name ≠ "write_set" → f.writes = g.writes
  /-- They have the same reads, unless these are the field. -/
  reads : name ≠ "read_set" → f.reads = g.reads

/-- The fields that belong to an operation. -/
def fieldsOf (op : String) : List String :=
  if op = Command.setName then ["op", "key", "value"]
  else if op = Command.deleteName then ["op", "key"]
  else if op = Command.commitName then ["op", "read_set", "write_set"]
  else []

/-- **A command depends on the fields of its operation** and on no others. -/
theorem toCommand_congr {name : String} {f g : CommandForm} (h : AgreesBut name f g)
    (hstray : name ∉ fieldsOf f.op) : f.toCommand = g.toCommand := by
  unfold fieldsOf at hstray
  unfold toCommand
  rw [← h.op]
  split
  · rename_i hset
    rw [if_pos hset] at hstray
    simp only [List.mem_cons, not_or] at hstray
    rw [h.key hstray.2.1, h.value hstray.2.2.1]
  · rename_i hset
    rw [if_neg hset] at hstray
    split
    · rename_i hdelete
      rw [if_pos hdelete] at hstray
      simp only [List.mem_cons, not_or] at hstray
      rw [h.key hstray.2.1]
    · rename_i hdelete
      rw [if_neg hdelete] at hstray
      split
      · rename_i hcommit
        rw [if_pos hcommit] at hstray
        simp only [List.mem_cons, not_or] at hstray
        rw [h.reads hstray.2.1, h.writes hstray.2.2.1]
      · rfl

section

variable {t u : Table Value} {op name : String}

/-- In objects that differ in one name a field is read alike, but for the field of that name. -/
theorem slot_both {α : Type} {n : String} {r : Reading α}
    (hsame : ∀ other, other ≠ name → u.get? other = t.get? other)
    (ht : name = n → ∃ x, Fields.slot t.entries n r = .ok x)
    (hu : name = n → ∃ x, Fields.slot u.entries n r = .ok x) :
    Both (fun x y => name ≠ n → x = y) (Fields.slot t.entries n r) (Fields.slot u.entries n r) := by
  by_cases hn : name = n
  · obtain ⟨x, hx⟩ := ht hn
    obtain ⟨y, hy⟩ := hu hn
    exact Or.inr ⟨x, y, hx, hy, fun h => absurd hn h⟩
  · have hslot : Fields.slot u.entries n r = Fields.slot t.entries n r := by
      unfold Fields.slot
      rw [show Table.lookupIn n u.entries = _ from hsame n (Ne.symm hn)]
      rfl
    rw [hslot]
    cases Fields.slot t.entries n r with
    | error e => exact Or.inl ⟨e, rfl, rfl⟩
    | ok x => exact Both.ok fun _ => rfl

/-- Objects that differ in one name, where both have a value that fits, describe forms that differ
in no other field, or fail alike. -/
theorem ofMembers_both (hsame : ∀ other, other ≠ name → u.get? other = t.get? other)
    (ht : ∀ v, t.get? name = some v → Fits name v) (hu : ∀ v, u.get? name = some v → Fits name v) :
    Both (AgreesBut name) (ofMembers t.entries op) (ofMembers u.entries op) := by
  obtain ⟨hkey, hreads, hvalue, hwrites⟩ := slots_of_fits ht
  obtain ⟨hkey', hreads', hvalue', hwrites'⟩ := slots_of_fits hu
  refine (slot_both hsame hkey hkey').bind fun key key' hkey => ?_
  refine (slot_both hsame hreads hreads').bind fun reads reads' hreads => ?_
  refine (slot_both hsame hvalue hvalue').bind fun value value' hvalue => ?_
  refine (slot_both hsame hwrites hwrites').bind fun writes writes' hwrites => ?_
  exact Both.ok
    { op := rfl
      key := fun h => by rw [hkey h]
      value := fun h => by rw [hvalue h]
      writes := fun h => by rw [hwrites h]
      reads := fun h => by rw [hreads h] }

end

end CommandForm

namespace Entry

open CommandForm

/-- Every known operation has the field of the operation. -/
theorem op_mem_fieldsOf {op : String} (h : Command.isKnownOp op = true) : "op" ∈ fieldsOf op := by
  simp only [Command.isKnownOp, Bool.or_eq_true, beq_iff_eq] at h
  rcases h with (rfl | rfl) | rfl <;> decide

/-- An object with a known operation is decoded as a command through the form of its members. -/
theorem ofValue_table {t : Table Value} {op : String} (hop : t.get? "op" = some (.string op))
    (hknown : Command.isKnownOp op = true) :
    ofValue (.object t.entries) =
      (ofMembers t.entries op).mapError EntryError.malformed >>= fun f =>
        f.toCommand >>= fun c => .ok (.command c) := by
  have hname : ((Value.object t.entries).get? "op").bind Value.text? = some op := by
    rw [show (Value.object t.entries).get? "op" = _ from hop]
    rfl
  unfold ofValue
  rw [hname, ← fromValue_ordered t.ordered hop]
  dsimp only
  rw [if_pos hknown]

/-- **A field of another operation makes no difference if it fits**, and is a reason to refuse the
entry if it does not. Two objects with one known operation differ in a field that does not belong to
it, and that either may lack. The first has nothing there but what a form could hold. If that is so
for the second too, both describe the same entry or are refused for the same reason. If not, the
second is refused as malformed. A field that is in no form fits whatever it holds. -/
theorem stray_field_ignored {t u : Table Value} {op name : String}
    (hop : t.get? "op" = some (.string op)) (hknown : Command.isKnownOp op = true)
    (hstray : name ∉ fieldsOf op) (hsame : ∀ other, other ≠ name → u.get? other = t.get? other)
    (hfits : ∀ v, t.get? name = some v → Fits name v) :
    ((∀ v, u.get? name = some v → Fits name v) →
      ofValue (.object u.entries) = ofValue (.object t.entries)) ∧
    (∀ v, u.get? name = some v → ¬ Fits name v →
      ∃ cause, ofValue (.object u.entries) = .error (.malformed cause)) ∧
    (name ∉ fields.names → ∀ v, Fits name v) := by
  have hne : "op" ≠ name := fun h => hstray (h ▸ op_mem_fieldsOf hknown)
  have hop' : u.get? "op" = some (.string op) := (hsame "op" hne).trans hop
  rw [ofValue_table hop hknown, ofValue_table hop' hknown]
  refine ⟨fun hfits' => ?_, fun v hv hnot => ?_, fits_of_notMem⟩
  · have hboth : Both (AgreesBut name) (ofMembers t.entries op) (ofMembers u.entries op) :=
      ofMembers_both hsame hfits hfits'
    rcases hboth with ⟨e, ht, hu⟩ | ⟨f, g, ht, hu, hfg⟩
    · rw [ht, hu]
    · rw [ht, hu]
      have hcommand : f.toCommand = g.toCommand := by
        refine toCommand_congr hfg ?_
        rw [op_of_ofMembers ht]
        exact hstray
      show g.toCommand >>= _ = f.toCommand >>= _
      rw [hcommand]
  · cases hu : ofMembers u.entries op with
    | error cause => exact ⟨cause, rfl⟩
    | ok f => exact absurd (fits_of_ofMembers hu hv) hnot

/-- A delete with a text as its value is the delete without it, and one with a number is refused. -/
theorem stray_field_ignored_delete :
    let t : Table Value := .ofList [("key", .string "k"), ("op", .string "DELETE")]
    ofValue (.object (t.insert "value" (.string "stray")).entries) = ofValue (.object t.entries) ∧
      ∃ cause, ofValue (.object (t.insert "value" (.ofNat 5)).entries) =
        .error (.malformed cause) := by
  intro t
  have hsame : ∀ v other, other ≠ "value" → (t.insert "value" v).get? other = t.get? other := by
    intro v other hother
    rw [Table.get?_insert, if_neg (Ne.symm hother)]
  have hnone : ∀ v, t.get? "value" = some v → Fits "value" v := fun v hv => by cases hv
  have hop : t.get? "op" = some (.string "DELETE") := rfl
  obtain ⟨htext, -⟩ := stray_field_ignored hop rfl (by decide) (hsame (.string "stray")) hnone
  obtain ⟨-, hnumber, -⟩ := stray_field_ignored hop rfl (by decide) (hsame (.ofNat 5)) hnone
  refine ⟨htext fun v hv => ?_, hnumber _ rfl fun h => ?_⟩
  · cases hv
    exact ⟨fun _ => Or.inr ⟨_, rfl⟩, by simp, by simp⟩
  · simpa [Value.ofNat] using h.text (Or.inr rfl)

/-- A value does not belong to a delete, but if a delete has one that is a number then it cannot be
read. -/
theorem stray_field_refused :
    let t : Table Value := .ofList [("key", .string "k"), ("op", .string "DELETE")]
    let u := t.insert "value" (.ofNat 5)
    "value" ∉ fieldsOf "DELETE" ∧ ofValue (.object t.entries) = .ok (.command (.delete "k")) ∧
      ofValue (.object u.entries) =
        .error (.malformed (.wrongKind (.number (.int 5)) "a string")) :=
  ⟨by decide, rfl, rfl⟩

end Entry

end DurableKV
