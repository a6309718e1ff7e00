import DurableKV.Checksum
import Mathlib.Algebra.Group.Nat.Defs
import Mathlib.Logic.Function.Iterate

/-!
# What the checksum tells apart

Two sequences of bytes that differ in nothing but four bytes in a row have different checksums,
however long they are and wherever the four bytes stand (`crc32_ne_of_burst`).

Two registers are compared through their difference, the exclusive or of them. A shift of the
register is linear (`shift_xor`), so the differences of a run are shifted as registers are. And a
shift can be seen to have let go of nothing: the generator sets the top bit, so a difference without
its top bit was doubled when the shift was undone (`toNat_eq_of_shift_lt`). Hence

* registers that are equal after some bytes were equal before them (`feed_injective`), which takes
  care of the bytes behind the burst;
* if two bursts of at most four bytes end in one register, the difference of the registers before
  them has not outgrown the bursts (`lt_of_feed_eq`), and if that was nothing, neither burst holds a
  byte that the other does not (`eq_of_feed_eq`).
-/

namespace DurableKV.Checksum

/-! ## Shifts of a difference -/

/-- The lowest bit of a word is set exactly if the word is odd. -/
theorem and_one_eq_one_iff (r : UInt32) : r &&& 1 = 1 ↔ r.toNat % 2 = 1 := by
  rw [← UInt32.toNat_inj, UInt32.toNat_and, UInt32.toNat_one, Nat.and_one_is_mod]

/-- **A shift is linear**: the difference of two registers is shifted as they are. -/
theorem shift_xor (r s : UInt32) : shift (r ^^^ s) = shift r ^^^ shift s := by
  have hodd : (r ^^^ s) &&& 1 = 1 ↔ ¬ (r &&& 1 = 1 ↔ s &&& 1 = 1) := by
    simp only [and_one_eq_one_iff, UInt32.toNat_xor, Nat.xor_mod_two_eq_one]
  unfold shift
  by_cases hr : r &&& 1 = 1 <;> by_cases hs : s &&& 1 = 1
  · -- the generator is taken in twice, and cancels
    rw [if_neg (by simp [hodd, hr, hs]), if_pos hr, if_pos hs, UInt32.shiftRight_xor,
      UInt32.xor_comm (s >>> 1), UInt32.xor_assoc, ← UInt32.xor_assoc polynomial, UInt32.xor_self,
      UInt32.zero_xor]
  · rw [if_pos (by simp [hodd, hr, hs]), if_pos hr, if_neg hs, UInt32.shiftRight_xor]
    ac_rfl
  · rw [if_pos (by simp [hodd, hr, hs]), if_neg hr, if_pos hs, UInt32.shiftRight_xor]
    ac_rfl
  · rw [if_neg (by simp [hodd, hr, hs]), if_neg hr, if_neg hs, UInt32.shiftRight_xor]

/-- A shift that leaves the top bit clear has only halved the register. -/
theorem toNat_eq_of_shift_lt {r : UInt32} (h : (shift r).toNat < 2 ^ 31) :
    r.toNat = 2 * (shift r).toNat := by
  have hhalf : (r >>> 1).toNat = r.toNat / 2 := rfl
  unfold shift at h ⊢
  split at h
  · -- the generator would have set the top bit, which half a register does not have
    rename_i hodd
    have hclear : (r.toNat / 2).testBit 31 = false :=
      Nat.testBit_lt_two_pow (by have := r.toNat_lt; omega)
    have htop : (r >>> 1 ^^^ polynomial).toNat.testBit 31 = true := by
      rw [UInt32.toNat_xor, hhalf, Nat.testBit_xor, hclear]
      rfl
    exact absurd h (Nat.not_lt.2 (Nat.ge_two_pow_of_testBit htop))
  · rename_i heven
    rw [if_neg heven, hhalf]
    rw [and_one_eq_one_iff] at heven
    omega

/-- A shift takes different registers to different ones. -/
theorem shift_injective : Function.Injective shift := by
  intro r s h
  have hzero : shift (r ^^^ s) = 0 := by rw [shift_xor, h, UInt32.xor_self]
  have hback : (r ^^^ s).toNat = 2 * (shift (r ^^^ s)).toNat :=
    toNat_eq_of_shift_lt (by rw [hzero]; decide)
  rw [hzero] at hback
  exact UInt32.xor_eq_zero_iff.1 (UInt32.toNat_inj.1 hback)

/-- Any number of shifts is linear in exclusive or. -/
theorem iterate_shift_xor (n : Nat) (r s : UInt32) :
    shift^[n] (r ^^^ s) = shift^[n] r ^^^ shift^[n] s := by
  induction n with
  | zero => rfl
  | succ n ih => simp only [Function.iterate_succ_apply', ih, shift_xor]

/-- A register that is small after some shifts has only moved down in them. -/
theorem toNat_eq_of_iterate_shift_lt {n : Nat} {r : UInt32}
    (h : 2 ^ n * (shift^[n] r).toNat < 2 ^ 32) : r.toNat = 2 ^ n * (shift^[n] r).toNat := by
  induction n with
  | zero => simp
  | succ n ih =>
    rw [Function.iterate_succ_apply', Nat.pow_succ, Nat.mul_assoc] at h ⊢
    have hle : 2 * (shift (shift^[n] r)).toNat ≤ 2 ^ n * (2 * (shift (shift^[n] r)).toNat) :=
      Nat.le_mul_of_pos_left _ (Nat.two_pow_pos n)
    have hlast : (shift^[n] r).toNat = 2 * (shift (shift^[n] r)).toNat :=
      toNat_eq_of_shift_lt (by omega)
    rw [← hlast] at h ⊢
    exact ih h

/-! ## Bytes through two registers -/

/-- A byte is taken in by exclusive or with it and eight shifts. -/
theorem feedByte_eq (r : UInt32) (b : UInt8) : feedByte r b = shift^[8] (r ^^^ b.toUInt32) := rfl

/-- How two registers differ after a byte each depends on how registers and bytes differ. -/
theorem feedByte_xor (r s : UInt32) (a b : UInt8) :
    feedByte r a ^^^ feedByte s b = shift^[8] ((r ^^^ s) ^^^ (a ^^^ b).toUInt32) := by
  rw [feedByte_eq, feedByte_eq, ← iterate_shift_xor, UInt8.toUInt32_xor]
  congr 1
  ac_rfl

/-- A difference that still has room for a byte is what the difference before the last byte was,
that byte taken in, with its lowest byte gone. -/
theorem toNat_eq_of_feedByte_lt {r s : UInt32} {a b : UInt8}
    (h : (feedByte r a ^^^ feedByte s b).toNat < 2 ^ 24) :
    ((r ^^^ s) ^^^ (a ^^^ b).toUInt32).toNat = 2 ^ 8 * (feedByte r a ^^^ feedByte s b).toNat := by
  rw [feedByte_xor] at h ⊢
  exact toNat_eq_of_iterate_shift_lt (by omega)

/-- The same bytes take different registers to different ones. -/
theorem feed_injective (bs : Bytes) : Function.Injective (feed · bs) := by
  induction bs with
  | nil => exact Function.injective_id
  | cons b bs ih =>
    have hbyte : Function.Injective (feedByte · b) := fun r s h =>
      (UInt32.xor_left_inj _).1 (shift_injective.iterate 8 h)
    exact ih.comp hbyte

/-- Registers that at most four bytes each take to one register differ in no more bits than these
bytes have. -/
theorem lt_of_feed_eq {as bs : Bytes} {r s : UInt32} (hlength : as.length = bs.length)
    (hle : as.length ≤ 4) (h : feed r as = feed s bs) : (r ^^^ s).toNat < 2 ^ (8 * as.length) := by
  induction as generalizing bs r s with
  | nil =>
    obtain rfl := List.eq_nil_of_length_eq_zero hlength.symm
    obtain rfl : r = s := h
    simp
  | cons a as ih =>
    obtain ⟨b, bs, rfl⟩ := List.exists_cons_of_length_eq_add_one hlength.symm
    simp only [List.length_cons] at hlength hle ⊢
    have hnext : (feedByte r a ^^^ feedByte s b).toNat < 2 ^ (8 * as.length) :=
      ih (by omega) (by omega) h
    have hroom : 2 ^ (8 * as.length) ≤ 2 ^ 24 := Nat.pow_le_pow_right (by decide) (by omega)
    have hword : ((r ^^^ s) ^^^ (a ^^^ b).toUInt32).toNat < 2 ^ (8 * (as.length + 1)) := by
      rw [toNat_eq_of_feedByte_lt (Nat.lt_of_lt_of_le hnext hroom), Nat.mul_add, Nat.pow_add]
      omega
    have hbyte : (a ^^^ b).toUInt32.toNat < 2 ^ (8 * (as.length + 1)) :=
      Nat.lt_of_lt_of_le (a ^^^ b).toNat_lt (Nat.pow_le_pow_right (by decide) (by omega))
    rw [← UInt32.xor_zero (a := r ^^^ s), ← UInt32.xor_self (a := (a ^^^ b).toUInt32),
      ← UInt32.xor_assoc, UInt32.toNat_xor]
    exact Nat.xor_lt_two_pow hword hbyte

/-- **At most four bytes can be told from the register after them**, if the one before them is
known. -/
theorem eq_of_feed_eq {as bs : Bytes} {r : UInt32} (hlength : as.length = bs.length)
    (hle : as.length ≤ 4) (h : feed r as = feed r bs) : as = bs := by
  induction as generalizing bs r with
  | nil => exact (List.eq_nil_of_length_eq_zero hlength.symm).symm
  | cons a as ih =>
    obtain ⟨b, bs, rfl⟩ := List.exists_cons_of_length_eq_add_one hlength.symm
    simp only [List.length_cons, Nat.add_right_cancel_iff] at hlength hle
    have hnext : (feedByte r a ^^^ feedByte r b).toNat < 2 ^ (8 * as.length) :=
      lt_of_feed_eq hlength (by omega) h
    have hroom : 2 ^ (8 * as.length) ≤ 2 ^ 24 := Nat.pow_le_pow_right (by decide) (by omega)
    have hback := toNat_eq_of_feedByte_lt (Nat.lt_of_lt_of_le hnext hroom)
    rw [UInt32.xor_self, UInt32.zero_xor, UInt8.toNat_toUInt32] at hback
    -- a byte that is a multiple of 256 is zero
    have hzero : (a ^^^ b).toNat = 0 := by
      have := (a ^^^ b).toNat_lt
      omega
    obtain rfl : a = b := UInt8.xor_eq_zero_iff.1 (UInt8.toNat_inj.1 hzero)
    rw [ih hlength (by omega) h]

/-! ## Bursts -/

/-- Two sequences of bytes of one length that are different, but only within so many bytes in a
row. -/
structure Burst (width : Nat) (as bs : Bytes) : Prop where
  /-- They are of one length. -/
  length_eq : as.length = bs.length
  /-- They are different. -/
  ne : as ≠ bs
  /-- All places where they differ stand in one window. -/
  window : ∃ i, ∀ j, as[j]? ≠ bs[j]? → i ≤ j ∧ j < i + width

/-- A burst stands between a common beginning and a common end. -/
theorem Burst.exists_split {width : Nat} {as bs : Bytes} (h : Burst width as bs) :
    ∃ front mid mid' back, as = front ++ (mid ++ back) ∧ bs = front ++ (mid' ++ back) ∧
      mid.length = mid'.length ∧ mid.length ≤ width ∧ mid ≠ mid' := by
  obtain ⟨hlength, hne, i, hwindow⟩ := h
  have hsame : ∀ j, j < i ∨ i + width ≤ j → as[j]? = bs[j]? := fun j hj =>
    Decidable.byContradiction fun hdiffers => by
      have := hwindow j hdiffers
      omega
  have hfront : as.take i = bs.take i := by
    refine List.ext_getElem? fun j => ?_
    rw [List.getElem?_take, List.getElem?_take]
    split
    · rename_i hj
      exact hsame j (Or.inl hj)
    · rfl
  have hback : (as.drop i).drop width = (bs.drop i).drop width := by
    refine List.ext_getElem? fun j => ?_
    simp only [List.getElem?_drop]
    exact hsame _ (Or.inr (by omega))
  have has : as = as.take i ++ ((as.drop i).take width ++ (as.drop i).drop width) := by
    rw [List.take_append_drop, List.take_append_drop]
  have hbs : bs = as.take i ++ ((bs.drop i).take width ++ (as.drop i).drop width) := by
    rw [hfront, hback, List.take_append_drop, List.take_append_drop]
  refine ⟨_, _, _, _, has, hbs, ?_, List.length_take_le _ _, fun heq => hne ?_⟩
  · simp only [List.length_take, List.length_drop, hlength]
  · rw [has, heq]
    exact hbs.symm

/-- Any burst in the middle of two sequences is one. -/
theorem burst_of_split {width : Nat} (front back : Bytes) {mid mid' : Bytes}
    (hlength : mid.length = mid'.length) (hle : mid.length ≤ width) (hne : mid ≠ mid') :
    Burst width (front ++ (mid ++ back)) (front ++ (mid' ++ back)) where
  length_eq := by simp only [List.length_append, hlength]
  ne h := hne (List.append_cancel_right (List.append_cancel_left h))
  window := by
    refine ⟨front.length, fun j hdiffers => ?_⟩
    have hfront : front.length ≤ j := by
      refine Nat.not_lt.1 fun hj => hdiffers ?_
      rw [List.getElem?_append_left hj, List.getElem?_append_left hj]
    rw [List.getElem?_append_right hfront, List.getElem?_append_right hfront] at hdiffers
    have hmid : j - front.length < mid.length := by
      refine Nat.not_le.1 fun hj => hdiffers ?_
      rw [List.getElem?_append_right hj, List.getElem?_append_right (hlength ▸ hj), hlength]
    omega

/-- **A burst of at most four bytes changes the checksum.** -/
theorem crc32_ne_of_burst {as bs : Bytes} (h : Burst 4 as bs) : crc32 as ≠ crc32 bs := by
  obtain ⟨front, mid, mid', back, rfl, rfl, hlength, hle, hne⟩ := h.exists_split
  intro heq
  have hfeed := (UInt32.xor_left_inj _).1 heq
  simp only [feed_append] at hfeed
  exact hne (eq_of_feed_eq hlength hle (feed_injective back hfeed))

/-- The check value of the IEEE polynomial. -/
example : crc32 (Bytes.ofText "123456789") = 0xCBF43926 := by decide +kernel

end DurableKV.Checksum
