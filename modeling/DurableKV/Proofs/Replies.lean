import DurableKV.Node
import DurableKV.Proofs.Json.Rearrangement

/-!
# Replies are read back

A reply is written as the JSON text of an object. Its data is legible, whatever was asked and
whatever the node holds (`Node.handle_legible`): the only numbers that a node tells its clients are
words, and no object in a reply names a field twice. So whoever reads the text has the reply again,
the order of fields apart (`Reply.read_text_ok`, `Reply.read_text_error`).
-/

namespace DurableKV

open Json

namespace Reply

/-- The data of a reply is legible. A failure has none. -/
def Legible : Reply → Prop
  | ok data => data.Legible 3
  | error .. => True

/-- The canonical form of a reply with data. -/
theorem canonical_ok (data : Value) :
    (ok data).toValue.canonical = .object [("data", data.canonical), ("status", .string "ok")] := by
  have hdata : "data" < "status" := by decide
  simp only [toValue, Value.canonical, Value.canonicalFields, Table.ofList, List.foldl_cons,
    List.foldl_nil, Table.insert, Table.empty, Table.insertIn, if_pos hdata]

/-- The canonical form of a failure. -/
theorem canonical_error (code message : String) :
    (error code message).toValue.canonical =
      .object [("code", .string code), ("message", .string message),
        ("status", .string "error")] := by
  have hcode : "code" < "status" := by decide
  have hbehind : ¬ "message" < "code" := by decide
  have hother : ¬ "message" = "code" := by decide
  have hmessage : "message" < "status" := by decide
  simp only [toValue, Value.canonical, Value.canonicalFields, Table.ofList, List.foldl_cons,
    List.foldl_nil, Table.insert, Table.empty, Table.insertIn, if_pos hcode, if_neg hbehind,
    if_neg hother, if_pos hmessage]

/-- **A reply with data is read back** as an object of its status and its data. -/
theorem read_text_ok {data : Value} (h : data.Legible 3) :
    ∃ w, Value.read (Bytes.ofText (ok data).text) =
        .ok (.object [("data", w), ("status", .string "ok")]) ∧ w.Rearranges data := by
  have hlegible : (ok data).toValue.Legible 4 := by
    simp [toValue, h]
  have hread : Value.read (Bytes.ofText (ok data).text) = .ok (ok data).toValue.canonical :=
    (hlegible.mono (by decide)).read_canonical
  rw [canonical_ok] at hread
  exact ⟨data.canonical, hread, Value.canonical_rearranges data h.distinct⟩

/-- **A failure is read back** as an object of its status, its code and its message. -/
theorem read_text_error (code message : String) :
    Value.read (Bytes.ofText (error code message).text) =
      .ok (.object [("code", .string code), ("message", .string message),
        ("status", .string "error")]) := by
  have hlegible : (error code message).toValue.Legible 4 := by
    simp [toValue]
  have hread : Value.read (Bytes.ofText (error code message).text) =
      .ok (error code message).toValue.canonical :=
    (hlegible.mono (by decide)).read_canonical
  rw [hread, canonical_error]

end Reply

namespace Node

section

variable {n n' : Node} {reply : Reply}

/-- What the service gives is legible if it is however it is told. -/
theorem legible_of_answer {α : Type} {a : Service.Answer Replica α} {f : α → Reply}
    (hf : ∀ x, (f x).Legible) (h : n.answer a f = (.ok reply, n')) : reply.Legible := by
  obtain ⟨x, -, rfl⟩ := map_eq_ok_iff.1 (congrArg Prod.fst h)
  exact hf x

/-- The voters of a node are legible: no two of them share a name. -/
theorem legible_voters (voters : Table String) : (Value.ofTable Value.string voters).Legible 2 := by
  refine Value.legible_object_iff.2 ⟨?_, fun f hf => ?_⟩
  · rw [List.map_map]
    exact voters.nodup_keys
  · obtain ⟨p, -, rfl⟩ := List.mem_map.1 hf
    exact Value.legible_string p.2

/-- The state of a node is legible. -/
theorem legible_status (n : Node) : n.status.Legible 3 := by
  have hmetrics : n.metrics.toValue.Legible 2 := by
    simp [Metrics.toValue]
  simp [status, legible_voters, hmetrics]

/-- The versions that a transaction gave are legible. -/
theorem legible_committed (id : String) (versions : List KeyVersion) :
    (committed id versions).Legible := by
  have hversion (v : KeyVersion) : v.toValue.Legible 1 := by
    simp [KeyVersion.toValue]
  simp [committed, Reply.Legible, hversion]

/-- **Whatever is asked, the reply is legible.** -/
theorem execute_legible {r : Request} (h : n.execute r = (.ok reply, n')) : reply.Legible := by
  cases r with
  | get key =>
    refine legible_of_answer (fun found => ?_) h
    cases found with
    | none => trivial
    | some v => simp [Reply.Legible]
  | set key value => exact legible_of_answer (fun version => by simp [keySet, Reply.Legible]) h
  | delete key => exact legible_of_answer (fun _ => by simp [keyDeleted, Reply.Legible]) h
  | begin =>
    cases h
    simp [Reply.Legible]
  | txRead id key => exact legible_of_answer (fun value => by simp [Reply.Legible]) h
  | txWrite id key value => exact legible_of_answer (fun _ => by simp [Reply.Legible]) h
  | txCommit id => exact legible_of_answer (legible_committed id) h
  | txAbort id =>
    cases h
    simp [Reply.Legible]
  | join nodeId address => exact legible_of_answer (fun _ => by simp [Reply.Legible]) h
  | status =>
    cases h
    exact legible_status n

/-- **Whatever line a node is handed, its reply is legible.** -/
theorem handle_legible {line : Bytes} (h : (n.handle line).1 = .ok reply) : reply.Legible := by
  unfold handle at h
  split at h
  · cases h
    trivial
  · split at h
    · rename_i hexecute
      cases h
      exact execute_legible hexecute
    · split at h
      · cases h
      · cases h
        trivial

end

end Node

end DurableKV
