import DurableKV.Proofs.Json.Canonical
import DurableKV.Proofs.Json.Depth

/-!
# Numbers of what is read

Every number in a value that is read was read as a number (`readers_numbers`), and so is in the
range of the reader (`Number.InRange`): an integer goes from `-2 ^ 63` to `2 ^ 64 - 1`, for digits
are only collected while they fit into 64 bits. Integers of this range are read back as themselves,
and the canonical form of a value adds no number (`mem_numbers_of_canonical`).
-/

namespace DurableKV.Json

/-! ## One number -/

/-- The numbers that the reader makes: any float, and the integers of 64 bits with or without a
sign. -/
def Number.InRange : Number → Prop
  | .int i => -0x8000000000000000 ≤ i ∧ i < UInt64.size
  | .float _ => True

/-- The digits that are gathered make a word. -/
theorem gather_fst_lt {s : Nat} (hs : s < UInt64.size) (ds : Bytes) :
    (gather s ds).1 < UInt64.size := by
  induction ds generalizing s with
  | nil => exact hs
  | cons d ds ih =>
    simp only [gather]
    split
    · apply ih
      assumption
    · exact hs

/-- A float is made by rounding, if it is not too large. -/
theorem inRange_of_float {negative : Bool} {magnitude : Option Magnitude} {n : Number}
    (h : (match magnitude with
      | some x => Except.ok (Number.float ⟨negative, x⟩)
      | none => Except.error ReadError.numberOutOfRange) = .ok n) : n.InRange := by
  cases magnitude with
  | some x =>
    cases h
    trivial
  | none => cases h

/-- A number made of its digits is in range: an integer fits in a word, and what does not is made a
floating-point number. -/
theorem makeNumber_inRange {negative : Bool} {digits : Bytes} {fraction : Option Bytes}
    {exponent : Option Int} {n : Number}
    (h : makeNumber negative digits fraction exponent = .ok n) : n.InRange := by
  have hlt := gather_fst_lt (show 0 < UInt64.size by decide) digits
  have hhalf : Nat.pow 2 63 = 0x8000000000000000 := rfl
  unfold makeNumber at h
  generalize gather 0 digits = gathered at h hlt
  obtain ⟨whole, dropped⟩ := gathered
  dsimp only at h hlt
  split at h
  · split at h
    · exact inRange_of_float h
    · split at h
      · cases h
        exact ⟨by omega, by omega⟩
      · split at h
        · exact inRange_of_float h
        · cases h
          exact ⟨by omega, by omega⟩
  · exact inRange_of_float h
  · exact inRange_of_float h

/-- A number read after its sign is in range. -/
theorem readUnsigned_inRange {negative : Bool} {input rest : Bytes} {n : Number}
    (h : readUnsigned negative input = .ok (n, rest)) : n.InRange := by
  unfold readUnsigned at h
  obtain ⟨⟨digits, after⟩, -, h⟩ := bind_eq_ok_iff.1 h
  obtain ⟨⟨fraction, after⟩, -, h⟩ := bind_eq_ok_iff.1 h
  obtain ⟨⟨exponent, after⟩, -, h⟩ := bind_eq_ok_iff.1 h
  obtain ⟨m, hm, h⟩ := bind_eq_ok_iff.1 h
  cases h
  exact makeNumber_inRange hm

/-- A number that is read is in range. -/
theorem readNumber_inRange {input rest : Bytes} {n : Number}
    (h : readNumber input = .ok (n, rest)) : n.InRange := by
  unfold readNumber at h
  split at h
  · exact readUnsigned_inRange h
  · exact readUnsigned_inRange h

/-- An integer of the range is read back as itself. -/
theorem reread_of_inRange {i : Int} (h : (Number.int i).InRange) :
    (Number.int i).reread = .ok (.int i) :=
  reread_int h.1 h.2

/-! ## What a reader goes through -/

section

variable {b : UInt8} {bound input rest : Bytes} {room : Nat}

/-- An array or object that is read has no items or fields, or a first one and further ones that are
read; whatever else is read is a number or holds none. -/
theorem readValue_cases {v : Value} (h : readValue (b :: bound) room input = .ok (v, rest)) :
    v.numbers = [] ∨
      (∃ start n, readNumber start = .ok (n, rest) ∧ v = .number n) ∨
      (∃ inner start w between ws, readValue bound inner start = .ok (w, between) ∧
        readItems bound inner between = .ok (ws, rest) ∧ v = .array (w :: ws)) ∨
      ∃ inner start name w between gs, readValue bound inner start = .ok (w, between) ∧
        readFields bound inner between = .ok (gs, rest) ∧ v = .object ((name, w) :: gs) := by
  unfold readValue at h
  split at h
  · cases h
  split at h
  · obtain ⟨_, -, h⟩ := bind_eq_ok_iff.1 h
    cases h
    exact Or.inl rfl
  split at h
  · obtain ⟨inner, -, h⟩ := bind_eq_ok_iff.1 h
    obtain ⟨upcoming, -, h⟩ := bind_eq_ok_iff.1 h
    cases upcoming with
    | done after =>
      cases h
      exact Or.inl rfl
    | more start =>
      obtain ⟨⟨w, between⟩, hw, h⟩ := bind_eq_ok_iff.1 h
      obtain ⟨⟨ws, after⟩, hws, h⟩ := bind_eq_ok_iff.1 h
      cases h
      exact Or.inr (Or.inr (Or.inl ⟨inner, start, w, between, ws, hw, hws, rfl⟩))
  split at h
  · obtain ⟨inner, -, h⟩ := bind_eq_ok_iff.1 h
    obtain ⟨upcoming, -, h⟩ := bind_eq_ok_iff.1 h
    cases upcoming with
    | done after =>
      cases h
      exact Or.inl rfl
    | more start =>
      obtain ⟨⟨name, colon⟩, -, h⟩ := bind_eq_ok_iff.1 h
      obtain ⟨start, -, h⟩ := bind_eq_ok_iff.1 h
      obtain ⟨⟨w, between⟩, hw, h⟩ := bind_eq_ok_iff.1 h
      obtain ⟨⟨gs, after⟩, hgs, h⟩ := bind_eq_ok_iff.1 h
      cases h
      exact Or.inr (Or.inr (Or.inr ⟨inner, start, name, w, between, gs, hw, hgs, rfl⟩))
  split at h
  · obtain ⟨⟨n, after⟩, hn, h⟩ := bind_eq_ok_iff.1 h
    cases h
    exact Or.inr (Or.inl ⟨_, n, hn, rfl⟩)
  -- a word is left
  all_goals
    refine Or.inl ?_
    repeat' split at h
    all_goals
      first
      | cases h
      | obtain ⟨_, -, h⟩ := bind_eq_ok_iff.1 h
        cases h
        rfl

/-- The items that are read after one of an array are none, or a value and the items read after it.
-/
theorem readItems_cases {vs : List Value} (h : readItems (b :: bound) room input = .ok (vs, rest)) :
    vs = [] ∨ ∃ start w between ws, readValue bound room start = .ok (w, between) ∧
      readItems bound room between = .ok (ws, rest) ∧ vs = w :: ws := by
  unfold readItems at h
  obtain ⟨upcoming, -, h⟩ := bind_eq_ok_iff.1 h
  cases upcoming with
  | done after =>
    cases h
    exact Or.inl rfl
  | more start =>
    obtain ⟨⟨w, between⟩, hw, h⟩ := bind_eq_ok_iff.1 h
    obtain ⟨⟨ws, after⟩, hws, h⟩ := bind_eq_ok_iff.1 h
    cases h
    exact Or.inr ⟨start, w, between, ws, hw, hws, rfl⟩

/-- The members that are read after one of an object are none, or a name with a value and the
members read after it. -/
theorem readFields_cases {fs : List (String × Value)}
    (h : readFields (b :: bound) room input = .ok (fs, rest)) :
    fs = [] ∨ ∃ start name w between gs, readValue bound room start = .ok (w, between) ∧
      readFields bound room between = .ok (gs, rest) ∧ fs = (name, w) :: gs := by
  unfold readFields at h
  obtain ⟨upcoming, -, h⟩ := bind_eq_ok_iff.1 h
  cases upcoming with
  | done after =>
    cases h
    exact Or.inl rfl
  | more start =>
    obtain ⟨⟨name, colon⟩, -, h⟩ := bind_eq_ok_iff.1 h
    obtain ⟨start, -, h⟩ := bind_eq_ok_iff.1 h
    obtain ⟨⟨w, between⟩, hw, h⟩ := bind_eq_ok_iff.1 h
    obtain ⟨⟨gs, after⟩, hgs, h⟩ := bind_eq_ok_iff.1 h
    cases h
    exact Or.inr ⟨start, name, w, between, gs, hw, hgs, rfl⟩

end

/-! ## All numbers -/

/-- A reader that makes no numbers of its own: those in what it reads were read as numbers. -/
def Gathers {α : Type} (read : Nat → Bytes → Except ReadError (α × Bytes))
    (numbers : α → List Number) : Prop :=
  ∀ {room : Nat} {input : Bytes} {x : α} {rest : Bytes}, read room input = .ok (x, rest) →
    ∀ n ∈ numbers x, ∃ start after, readNumber start = .ok (n, after)

/-- **The numbers in what is read were read as numbers**, in values and in what stands behind an
item or a field of one. -/
theorem readers_numbers (bound : Bytes) :
    Gathers (readValue bound) Value.numbers ∧ Gathers (readItems bound) Value.itemsNumbers ∧
      Gathers (readFields bound) Value.fieldsNumbers := by
  induction bound with
  | nil =>
    refine ⟨?_, ?_, ?_⟩
    all_goals
      intro room input x rest h
      cases h
  | cons b bound ih =>
    obtain ⟨hvalue, hitems, hfields⟩ := ih
    refine ⟨?_, ?_, ?_⟩
    · intro room input v rest h n hn
      rcases readValue_cases h with hnone | ⟨start, m, hm, rfl⟩ |
        ⟨inner, start, w, between, ws, hw, hws, rfl⟩ |
        ⟨inner, start, name, w, between, gs, hw, hgs, rfl⟩
      · rw [hnone] at hn
        cases hn
      · obtain rfl := List.mem_singleton.1 hn
        exact ⟨start, rest, hm⟩
      · exact (List.mem_append.1 hn).elim (hvalue hw n) (hitems hws n)
      · exact (List.mem_append.1 hn).elim (hvalue hw n) (hfields hgs n)
    · intro room input vs rest h n hn
      rcases readItems_cases h with rfl | ⟨start, w, between, ws, hw, hws, rfl⟩
      · cases hn
      · exact (List.mem_append.1 hn).elim (hvalue hw n) (hitems hws n)
    · intro room input fs rest h n hn
      rcases readFields_cases h with rfl | ⟨start, name, w, between, gs, hw, hgs, rfl⟩
      · cases hn
      · exact (List.mem_append.1 hn).elim (hvalue hw n) (hfields hgs n)

/-- What a whole input is read as has room in the nesting limit, and its numbers are in range. -/
theorem bounds_of_read {b : Bytes} {v : Value} (h : Value.read b = .ok v) :
    v.depth ≤ nestingLimit ∧ ∀ n ∈ v.numbers, n.InRange := by
  unfold Value.read at h
  obtain ⟨⟨w, rest⟩, hw, h⟩ := bind_eq_ok_iff.1 h
  obtain ⟨-, -, h⟩ := bind_eq_ok_iff.1 h
  cases h
  refine ⟨(readValue_within _ hw).1, fun n hn => ?_⟩
  obtain ⟨start, after, hread⟩ := (readers_numbers _).1 hw n hn
  exact readNumber_inRange hread

/-! ## Numbers of the canonical form -/

mutual

/-- A number of the canonical form is one of the value: fields of one name before the last are
dropped, and nothing is added. -/
theorem mem_numbers_of_canonical {n : Number} : (v : Value) → n ∈ v.canonical.numbers →
    n ∈ v.numbers
  | .null, h => h
  | .bool _, h => h
  | .number _, h => h
  | .string _, h => h
  | .array items, h => mem_itemsNumbers_of_canonical items h
  | .object fields, h => by
    rw [Value.canonical, Value.numbers, mem_fieldsNumbers] at h
    obtain ⟨f, hf, hn⟩ := h
    exact mem_fieldsNumbers_of_canonical fields (Table.mem_ofList hf) hn

/-- The canonical form of some items has no number that the items have not. -/
theorem mem_itemsNumbers_of_canonical {n : Number} : (vs : List Value) →
    n ∈ Value.itemsNumbers (Value.canonicalItems vs) → n ∈ Value.itemsNumbers vs
  | [], h => h
  | v :: vs, h => by
    simp only [Value.canonicalItems, Value.itemsNumbers, List.mem_append] at h ⊢
    exact h.imp (mem_numbers_of_canonical v) (mem_itemsNumbers_of_canonical vs)

/-- The canonical form of some members has no number that the members have not. -/
theorem mem_fieldsNumbers_of_canonical {n : Number} : (fs : List (String × Value)) →
    {f : String × Value} → f ∈ Value.canonicalFields fs → n ∈ f.2.numbers →
    n ∈ Value.fieldsNumbers fs
  | [], _, hf, _ => by cases hf
  | (k, v) :: fs, f, hf, hn => by
    simp only [Value.fieldsNumbers, List.mem_append]
    rcases List.mem_cons.1 hf with rfl | hf
    · exact Or.inl (mem_numbers_of_canonical v hn)
    · exact Or.inr (mem_fieldsNumbers_of_canonical fs hf hn)

end

end DurableKV.Json
