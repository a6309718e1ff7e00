import DurableKV.Proofs.Entry
import DurableKV.Proofs.Json.Range

/-!
# Bytes of foreign entries

The checksum of a record is taken over the bytes that its entry is written as, so these bytes must
not change when the entry is read again. For commands that is so by their form. A foreign entry is
any object that came in as an entry, and it is kept with all that it holds.
`decode_bytes_iff` says when an entry is read back from its bytes: if its numbers are, for it was
read from somewhere, and so is not nested too deep, and stands in canonical form, which is left as
it is. `foreign_bytes_stable` says that this is the case for every foreign entry without floats.
-/

namespace DurableKV.Entry

open Json

/-- The value of an entry that was decoded has room in the nesting limit, and its numbers are in the
range of the reader. -/
theorem bounds_of_decode {b : Bytes} {op : String} {raw : Value}
    (h : decode b = .ok (.foreign op raw)) :
    raw.depth ≤ nestingLimit ∧ ∀ n ∈ raw.numbers, n.InRange := by
  obtain ⟨v, hv, h⟩ := bind_eq_ok_iff.1 h
  obtain rfl := ofValue_eq_foreign h
  obtain ⟨hdepth, hrange⟩ := bounds_of_read (mapError_eq_ok_iff.1 hv)
  exact ⟨Nat.le_trans (depth_canonical_le v) hdepth,
    fun n hn => hrange n (mem_numbers_of_canonical v hn)⟩

/-- **When a foreign entry is read back from its bytes**: if its numbers are, and only then. -/
theorem decode_bytes_iff {b : Bytes} {op : String} {raw : Value}
    (h : decode b = .ok (.foreign op raw)) :
    decode (foreign op raw).bytes = .ok (.foreign op raw) ↔
      ∀ n ∈ raw.numbers, n.reread = .ok n := by
  have hself := selfDescribed_of_decode h
  constructor
  · intro hagain
    obtain ⟨w, hw, hagain⟩ := bind_eq_ok_iff.1 hagain
    have hreread : raw.reread = .ok w := reread_of_read (mapError_eq_ok_iff.1 hw)
    rw [← reread_eq_self_iff]
    exact reread_eq_self_of_ofValue hself hreread hagain
  · intro hnumbers
    have hread : Value.read (foreign op raw).bytes = .ok raw :=
      read_bytes (bounds_of_decode h).1 hnumbers
    rw [decode, hread]
    exact hself

/-- **The bytes of a foreign entry do not change**, if it holds no float. They are decoded to the
entry, however it was written where it came from, and whatever they are decoded to is written as
these bytes again. So the bytes that it came from were its written form only if they were these. -/
theorem foreign_bytes_stable {b : Bytes} {op : String} {raw : Value}
    (hdecode : decode b = .ok (.foreign op raw)) (hints : ∀ n ∈ raw.numbers, ∃ i, n = .int i) :
    decode (foreign op raw).bytes = .ok (.foreign op raw) ∧
      (∀ e, decode (foreign op raw).bytes = .ok e → e.bytes = (foreign op raw).bytes) ∧
      (Canonical b ↔ b = (foreign op raw).bytes) := by
  have hagain : decode (foreign op raw).bytes = .ok (.foreign op raw) := by
    refine (decode_bytes_iff hdecode).2 fun n hn => ?_
    obtain ⟨i, rfl⟩ := hints n hn
    exact reread_of_inRange ((bounds_of_decode hdecode).2 _ hn)
  refine ⟨hagain, fun e he => ?_, canonical_iff_of_decode hdecode⟩
  obtain rfl := Except.ok.inj (hagain.symm.trans he)
  rfl

/-- An object with blanks, escapes, numbers at both ends of the range, and two fields of one name,
the first of which holds a float. -/
theorem foreign_bytes_stable_note :
    let b := Bytes.ofText ("\x7b \"op\": \"note\", \"n\": 1.5, \"n\": [-9223372036854775808], " ++
      "\"a\\u0000\\n\": \x7b\"m\": 18446744073709551615\x7d \x7d")
    let raw : Value := .object [("a\x00\n", .object [("m", .number (.int 18446744073709551615))]),
      ("n", .array [.number (.int (-9223372036854775808))]), ("op", .string "note")]
    decode b = .ok (.foreign "note" raw) ∧
      decode (foreign "note" raw).bytes = .ok (.foreign "note" raw) ∧ ¬ Canonical b := by
  intro b raw
  have hdecode : decode b = .ok (.foreign "note" raw) := rfl
  have hints : ∀ n ∈ raw.numbers, ∃ i, n = .int i := by
    simp [raw, Value.numbers, Value.fieldsNumbers, Value.itemsNumbers]
  have hne : b ≠ (foreign "note" raw).bytes := by decide +kernel
  obtain ⟨hagain, -, hcanonical⟩ := foreign_bytes_stable hdecode hints
  exact ⟨hdecode, hagain, fun h => hne (hcanonical.1 h)⟩

end DurableKV.Entry
