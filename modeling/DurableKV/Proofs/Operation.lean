import DurableKV.Proofs.Replica
import DurableKV.Proofs.StrayFields

/-!
# What the operation decides

Whether a value is an entry, and of which kind, is decided in two steps: the name of the operation
is looked up first, and only if it is a known one are the fields of the form read. The name is
compared twice, once to tell whether it is known and once to tell what command the form describes.
`Classified` says all that this may come to, with the cases apart by the operation alone, and
`classified` that it is so for every value: the two comparisons agree.

`decode_by_operation` draws from it what nodes of different versions rely on: an entry of an
operation that is not known yet is taken by every node, whatever else it holds, and takes its
position in the log, and a known operation never gives another entry than its own command.
-/

namespace DurableKV

open Json

/-! ## The operation of a value -/

namespace Entry

/-- The operation of a value: the text in the last field `op`, if the value is an object that has
one and it is a text. -/
def operation? : Value → Option String
  | .object members => (Table.lookupIn "op" members.reverse).bind Value.text?
  | _ => none

/-- The canonical form of a value has the operation of the value. -/
theorem operation?_canonical (v : Value) :
    (v.canonical.get? "op").bind Value.text? = operation? v := by
  cases v with
  | object members =>
    rw [get?_canonical, operation?, Option.bind_map]
    congr 1
    funext v
    exact text?_canonical v
  | null | bool | number | string | array => rfl

/-! ## The cases -/

/-- What comes of a value that is to be an entry. -/
inductive Classified (v : Value) : Except EntryError Entry → Prop
  /-- It has no operation. -/
  | missing (hop : operation? v = none) : Classified v (.error .missingOp)
  /-- It has an operation that is not known, and is kept as it is. -/
  | foreign {op : String} (hop : operation? v = some op) (hknown : Command.isKnownOp op = false) :
      Classified v (.ok (.foreign op v.canonical))
  /-- It has a known operation and is a command of it. -/
  | command {c : Command} (hop : operation? v = some c.opName) : Classified v (.ok (.command c))
  /-- It has a known operation, and a field of the form is of the wrong kind. -/
  | malformed {op : String} {cause : ReadError} (hop : operation? v = some op)
      (hknown : Command.isKnownOp op = true) : Classified v (.error (.malformed cause))
  /-- It has a known operation, and the key that the operation needs is missing. -/
  | keyless {op : String} (hop : operation? v = some op) (hknown : Command.isKnownOp op = true) :
      Classified v (.error (.missingField op "key"))

end Entry

namespace CommandForm

/-- A command is made of a field that is there, and one that is not is reported. -/
theorem need_bind_cases (op field : String) (s : Option String) (f : String → Command) :
    (need op field s >>= fun x => .ok (f x)) = .error (.missingField op field) ∨
      ∃ x, (need op field s >>= fun x => .ok (f x)) = .ok (f x) := by
  cases s with
  | none => exact Or.inl rfl
  | some x => exact Or.inr ⟨x, rfl⟩

/-- A form of a known operation describes a command of it or lacks the key. -/
theorem toCommand_cases {f : CommandForm} (hknown : Command.isKnownOp f.op = true) :
    f.toCommand = .error (.missingField f.op "key") ∨
      ∃ c, f.toCommand = .ok c ∧ c.opName = f.op := by
  unfold toCommand
  split
  · rename_i hset
    refine (need_bind_cases f.op "key" f.key _).imp_right ?_
    rintro ⟨key, hc⟩
    exact ⟨_, hc, hset.symm⟩
  · split
    · rename_i hdelete
      refine (need_bind_cases f.op "key" f.key _).imp_right ?_
      rintro ⟨key, hc⟩
      exact ⟨_, hc, hdelete.symm⟩
    · split
      · rename_i hcommit
        exact Or.inr ⟨_, rfl, hcommit.symm⟩
      · -- the names that are compared here are those of `isKnownOp`
        rename_i hset hdelete hcommit
        simp [Command.isKnownOp, hset, hdelete, hcommit] at hknown

end CommandForm

namespace Entry

/-- A value with an operation is an object, and its canonical form is a table that has it. -/
theorem table_of_operation {v : Value} {op : String} (h : operation? v = some op) :
    ∃ t : Table Value, v.canonical = .object t.entries ∧ t.get? "op" = some (.string op) := by
  cases v with
  | object members =>
    rw [← operation?_canonical, Option.bind_eq_some_iff] at h
    obtain ⟨w, hw, htext⟩ := h
    refine ⟨_, rfl, ?_⟩
    cases w with
    | string s =>
      cases htext
      exact hw
    | null | bool | number | array | object => cases htext
  | null | bool | number | string | array => cases h

/-- The known operations are setting a key, deleting one and committing a transaction. -/
theorem isKnownOp_iff {op : String} :
    Command.isKnownOp op = true ↔ op ∈ ["SET", "DELETE", "TX_COMMIT"] := by
  simp [Command.isKnownOp, Command.setName, Command.deleteName, Command.commitName, or_assoc]

/-- **The operation decides**: for every value it is one of the cases. -/
theorem classified (v : Value) : Classified v (ofValue v.canonical) := by
  cases hop : operation? v with
  | none =>
    have h : ofValue v.canonical = .error .missingOp := by
      unfold ofValue
      rw [operation?_canonical, hop]
    rw [h]
    exact .missing hop
  | some op =>
    cases hknown : Command.isKnownOp op with
    | false =>
      have h : ofValue v.canonical = .ok (.foreign op v.canonical) := by
        unfold ofValue
        rw [operation?_canonical, hop]
        exact if_neg (Bool.eq_false_iff.1 hknown)
      rw [h]
      exact .foreign hop hknown
    | true =>
      obtain ⟨t, ht, hget⟩ := table_of_operation hop
      rw [ht, ofValue_table hget hknown]
      cases hform : CommandForm.ofMembers t.entries op with
      | error cause => exact .malformed hop hknown
      | ok f =>
        have hf : f.op = op := CommandForm.op_of_ofMembers hform
        show Classified v (f.toCommand >>= fun c => .ok (.command c))
        rcases CommandForm.toCommand_cases (hf ▸ hknown) with hkey | ⟨c, hc, hname⟩
        · rw [hkey, hf]
          exact .keyless hop hknown
        · rw [hc]
          exact .command (by rw [hop, hname, hf])

/-- Without an operation a value is refused for that. -/
theorem Classified.eq_missing {v : Value} {result : Except EntryError Entry}
    (h : Classified v result) (hop : operation? v = none) : result = .error .missingOp := by
  cases h with
  | missing => rfl
  | foreign hop' | command hop' | malformed hop' | keyless hop' => cases hop.symm.trans hop'

/-- With an unknown operation a value is kept in its canonical form. -/
theorem Classified.eq_foreign {v : Value} {result : Except EntryError Entry}
    (h : Classified v result) {op : String} (hop : operation? v = some op)
    (hunknown : Command.isKnownOp op = false) : result = .ok (.foreign op v.canonical) := by
  cases h with
  | missing hop' => cases hop.symm.trans hop'
  | foreign hop' =>
    cases hop.symm.trans hop'
    rfl
  | @command c hop' =>
    cases hop.symm.trans hop'
    cases hunknown.symm.trans c.isKnownOp_opName
  | malformed hop' hknown | keyless hop' hknown =>
    cases hop.symm.trans hop'
    cases hunknown.symm.trans hknown

/-- Bytes that are read as a value are decoded as its canonical form. -/
theorem decode_of_read {b : Bytes} {v : Value} (hread : Value.read b = .ok v) :
    decode b = ofValue v.canonical := by
  rw [decode, hread]
  rfl

end Entry

/-- A machine whose log takes what is written to it passes over a foreign entry: it answers so, and
its store stays as it was, but the entry has the next number in the log. -/
theorem Machine.apply_foreign {m : Machine} (hhealthy : m.log.medium.Healthy) {b : Bytes}
    {op : String} {raw : Value} (hdecode : Entry.decode b = .ok (.foreign op raw)) :
    ∃ m', m.apply b = (.ok (.ignored op), m') ∧ m'.store = m.store ∧
      m'.lastSequence = m.lastSequence + 1 ∧
      m'.log.medium.content = m.log.medium.content ++
        (Log.Record.make (m.lastSequence + 1) (.foreign op raw)).line := by
  have happend := Log.Writer.append_of_healthy hhealthy (.foreign op raw)
  refine ⟨_, apply_of_append hdecode happend, m.accept_store _, m.lastSequence_accept _, ?_⟩
  rw [accept_log, ← m.next_eq]
  exact Log.Medium.content_grown hhealthy.keeps _

namespace Entry

/-- **Decoding is open to new operations.** The bytes are a value as the reader takes it. Then they
are never refused for an operation that is unknown, and for a missing one exactly if the value is no
object or its last `op` is no text. If the operation is not one of the three, they are a foreign
entry, whatever else the object holds, and a machine whose log takes what is written to it passes
over the entry: the store stays as it was, and one number of the log is used, for its record.
Whatever entry they are, it has the operation of the object and is of that kind. -/
theorem decode_by_operation {b : Bytes} {v : Value} (hread : Value.read b = .ok v) :
    (∀ op, decode b ≠ .error (.unknownOp op)) ∧
    (decode b = .error .missingOp ↔ operation? v = none) ∧
    (∀ op, operation? v = some op → op ∉ ["SET", "DELETE", "TX_COMMIT"] →
      decode b = .ok (.foreign op v.canonical) ∧
      ∀ m : Machine, m.log.medium.Healthy →
        ∃ m', m.apply b = (.ok (.ignored op), m') ∧ m'.store = m.store ∧
          m'.lastSequence = m.lastSequence + 1 ∧
          m'.log.medium.content = m.log.medium.content ++
            (Log.Record.make (m.lastSequence + 1) (.foreign op v.canonical)).line) ∧
    ∀ e, decode b = .ok e → ∃ op, operation? v = some op ∧ e.opName = op ∧
      ((op = "SET" ∧ ∃ key value, e = .command (.set key value)) ∨
        (op = "DELETE" ∧ ∃ key, e = .command (.delete key)) ∨
        (op = "TX_COMMIT" ∧ ∃ reads writes, e = .command (.commit reads writes)) ∨
        (op ∉ ["SET", "DELETE", "TX_COMMIT"] ∧ e = .foreign op v.canonical)) := by
  have hcases := classified v
  rw [← decode_of_read hread] at hcases
  refine ⟨fun op h => ?_, ⟨fun h => ?_, hcases.eq_missing⟩, fun op hop hnew => ?_, fun e he => ?_⟩
  · rw [h] at hcases
    cases hcases
  · rw [h] at hcases
    cases hcases with
    | missing hop => exact hop
  · have hunknown : Command.isKnownOp op = false :=
      Bool.eq_false_iff.2 fun hknown => hnew (isKnownOp_iff.1 hknown)
    have hdecode := hcases.eq_foreign hop hunknown
    exact ⟨hdecode, fun m hhealthy => Machine.apply_foreign hhealthy hdecode⟩
  · rw [he] at hcases
    cases hcases with
    | @foreign op hop hunknown =>
      have hnew : op ∉ ["SET", "DELETE", "TX_COMMIT"] := fun hmem =>
        Bool.eq_false_iff.1 hunknown (isKnownOp_iff.2 hmem)
      exact ⟨op, hop, rfl, Or.inr (Or.inr (Or.inr ⟨hnew, rfl⟩))⟩
    | @command c hop =>
      refine ⟨c.opName, hop, rfl, ?_⟩
      cases c with
      | set key value => exact Or.inl ⟨rfl, key, value, rfl⟩
      | delete key => exact Or.inr (Or.inl ⟨rfl, key, rfl⟩)
      | commit reads writes => exact Or.inr (Or.inr (Or.inl ⟨rfl, reads, writes, rfl⟩))

/-- An object with two operations, of which the later is a new one, and with fields that no command
could have, comes to a machine that has logged two records. -/
theorem decode_by_operation_new :
    let b := Bytes.ofText
      "\x7b\"op\": \"SET\", \"key\": [7], \"op\": \"INCR\", \"value\": null\x7d"
    let v : Value := .object [("op", .string "SET"), ("key", .array [.ofNat 7]),
      ("op", .string "INCR"), ("value", .null)]
    let m : Machine := { log := { path := "wal", next := 3, medium := .ofFile (.ofContent []) } }
    Value.read b = .ok v ∧ decode b = .ok (.foreign "INCR" v.canonical) ∧
      ∃ m', m.apply b = (.ok (.ignored "INCR"), m') ∧ m'.store = m.store ∧ m'.lastSequence = 3 := by
  intro b v m
  have hread : Value.read b = .ok v := rfl
  have hhealthy : m.log.medium.Healthy := ⟨rfl, rfl, rfl⟩
  obtain ⟨-, -, hnew, -⟩ := decode_by_operation hread
  obtain ⟨hdecode, happly⟩ := hnew "INCR" rfl (by decide)
  obtain ⟨m', hm', hstore, hlast, -⟩ := happly m hhealthy
  refine ⟨hread, hdecode, m', hm', hstore, ?_⟩
  rw [hlast]
  decide

end Entry

end DurableKV
