import WfyApp.ByteText

/-! Fields of a packed record: little-endian numbers at fixed offsets of a buffer, and a
memory in which the buffer lies. -/

namespace WfyApp.ByteFields
open ByteText

def slice (offset length : Nat) (b : Bytes) : Bytes := (b.drop offset).take length

theorem slice_middle (before part after : Bytes) (offset length : Nat)
    (starts : before.length = offset) (fills : part.length = length) :
    slice offset length (before ++ (part ++ after)) = part := by
  rw [slice, ← starts, List.drop_left, ← fills, List.take_left]

theorem drop_eq_slice_append (offset length : Nat) (b : Bytes) :
    b.drop offset = slice offset length b ++ b.drop (offset + length) := by
  rw [slice, ← List.drop_drop, List.take_append_drop]

theorem slice_of_initial (offset length : Nat) {short long : Bytes} (begins : short <+: long)
    (fits : offset + length ≤ short.length) : slice offset length long = slice offset length short := by
  obtain ⟨rest, rfl⟩ := begins
  rw [slice, slice, List.drop_append_of_le_length (by omega), List.take_append_of_le_length]
  rw [List.length_drop]
  omega

theorem slice_length (offset length : Nat) (b : Bytes) (fits : offset + length ≤ b.length) :
    (slice offset length b).length = length := by
  rw [slice, List.length_take, List.length_drop]
  omega

def le : Bytes → Nat
  | [] => 0
  | b :: bs => b.toNat + 256 * le bs

theorem le_lt (b : Bytes) : le b < 256 ^ b.length := by
  induction b with
  | nil => decide
  | cons c b ih =>
      have small := c.toNat_lt
      rw [le, List.length_cons, pow_succ]
      omega

def leBytes : Nat → Nat → Bytes
  | 0, _ => []
  | width + 1, n => UInt8.ofNat n :: leBytes width (n / 256)

theorem leBytes_length (width n : Nat) : (leBytes width n).length = width := by
  induction width generalizing n with
  | zero => rfl
  | succ width ih => rw [leBytes, List.length_cons, ih]

theorem le_leBytes (width n : Nat) (small : n < 256 ^ width) : le (leBytes width n) = n := by
  induction width generalizing n with
  | zero =>
      rw [pow_zero] at small
      simp only [leBytes, le]
      omega
  | succ width ih =>
      rw [pow_succ] at small
      rw [leBytes, le, ih (n / 256) (by omega), UInt8.toNat_ofNat']
      omega

theorem leBytes_le (b : Bytes) : leBytes b.length (le b) = b := by
  induction b with
  | nil => rfl
  | cons c b ih =>
      have small := c.toNat_lt
      have low : UInt8.ofNat (c.toNat + 256 * le b) = c := by
        apply UInt8.toNat_inj.mp
        rw [UInt8.toNat_ofNat']
        omega
      have high : (c.toNat + 256 * le b) / 256 = le b := by omega
      rw [le, List.length_cons, leBytes, low, high, ih]

def field (offset width : Nat) (b : Bytes) : Nat := le (slice offset width b)

/-- The bytes around a buffer, by their distance from its beginning. -/
abbrev Memory := Int → UInt8

/-- A fresh block that has been filled with zeros. -/
def zeroed (length : Nat) (heap : Memory) : Memory := fun i =>
  if 0 ≤ i ∧ i < length then 0 else heap i

def writeAt (m : Memory) (offset : Int) (data : Bytes) : Memory := fun i =>
  if i < offset then m i else data[(i - offset).toNat]?.getD (m i)

def readAt (m : Memory) (offset : Int) (length : Nat) : Bytes :=
  (List.range length).map fun i : Nat => m (offset + i)

theorem writeAt_nil (m : Memory) (offset : Int) : writeAt m offset [] = m := by
  funext i
  simp [writeAt]

theorem writeAt_append (m : Memory) (offset : Int) (first second : Bytes) :
    writeAt (writeAt m offset first) (offset + first.length) second =
      writeAt m offset (first ++ second) := by
  funext i
  unfold writeAt
  by_cases before : i < offset
  · rw [if_pos before, if_pos before, if_pos (by omega)]
  · rw [if_neg before, if_neg before, List.getElem?_append]
    by_cases inside : (i - offset).toNat < first.length
    · rw [if_pos inside, if_pos (by omega)]
    · have past : first[(i - offset).toNat]? = none := List.getElem?_eq_none (by omega)
      have shift : (i - (offset + first.length)).toNat = (i - offset).toNat - first.length := by
        omega
      rw [if_neg inside, if_neg (by omega), past, shift]
      rfl

theorem readAt_writeAt (m : Memory) (data : Bytes) (offset length : Nat)
    (fits : offset + length ≤ data.length) :
    readAt (writeAt m 0 data) offset length = slice offset length data := by
  refine List.ext_getElem? fun i => ?_
  rw [readAt, slice, List.getElem?_map, List.getElem?_take, List.getElem?_drop]
  by_cases inside : i < length
  · have index : ((offset : Int) + i - 0).toNat = offset + i := by omega
    rw [List.getElem?_range inside, if_pos inside, Option.map_some, writeAt, if_neg (by omega),
      index, List.getElem?_eq_getElem (by omega)]
    rfl
  · rw [List.getElem?_eq_none (by simpa using inside), if_neg inside]
    rfl

theorem readAt_length (m : Memory) (offset : Int) (length : Nat) :
    (readAt m offset length).length = length := by
  simp [readAt]

theorem readAt_getElem? (m : Memory) (offset length i : Nat) (inside : i < length) :
    (readAt m offset length)[i]? = some (m (offset + i)) := by
  rw [readAt, List.getElem?_map, List.getElem?_range inside]
  rfl

theorem readAt_eq_iff (m : Memory) (offset : Nat) (data : Bytes) :
    readAt m offset data.length = data ↔
      ∀ i < data.length, data[i]? = some (m (offset + i)) := by
  constructor
  · intro same i inside
    rw [← readAt_getElem? m offset data.length i inside, same]
  · intro all
    refine List.ext_getElem? fun i => ?_
    by_cases inside : i < data.length
    · rw [readAt_getElem? m offset data.length i inside, all i inside]
    · rw [List.getElem?_eq_none (by rw [readAt_length]; omega), List.getElem?_eq_none (by omega)]

theorem le_eq_iff (b : Bytes) (n : Nat) (small : n < 256 ^ b.length) :
    le b = n ↔ b = leBytes b.length n := by
  constructor
  · rintro rfl
    exact (leBytes_le b).symm
  · intro same
    rw [same, le_leBytes _ _ small]

theorem writeAt_of_lt (m : Memory) (data : Bytes) (i : Nat) (inside : i < data.length) :
    some (writeAt m 0 data i) = data[i]? := by
  simp [writeAt, List.getElem?_eq_getElem inside]

theorem writeAt_of_le (m : Memory) (data : Bytes) (i : Nat) (outside : data.length ≤ i) :
    writeAt m 0 data i = m i := by
  simp [writeAt, List.getElem?_eq_none outside]

end WfyApp.ByteFields
