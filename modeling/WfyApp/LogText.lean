import WfyApp.NumberText

/-! Text of log lines: hexadecimal numbers, hex dumps in rows of sixteen
bytes, and the alignment of two logs. Two logs are compared from the front: a pair of
segments pins a condition if equality of the logs means that condition and equality of
what follows. -/

namespace WfyApp.LogText
open ByteText NumberText

/-- Text that may hold characters outside ASCII. -/
def utf8 (s : String) : Bytes := s.toUTF8.data.toList

def hexDigit (n : Nat) : UInt8 := if n < 10 then UInt8.ofNat (0x30 + n) else UInt8.ofNat (0x57 + n)

/-- The conversion `%02x`. -/
def hexByte (b : UInt8) : Bytes := [hexDigit (b.toNat / 16), hexDigit (b.toNat % 16)]

def hexRow (bytes : Bytes) : Bytes := bytes.flatMap fun b => hexByte b ++ [0x20]

def hexRows (label data : Bytes) : List Bytes :=
  (List.range ((data.length + 15) / 16)).map fun k =>
    label ++ ascii "[" ++ decimalPadded 4 (16 * k) ++ ascii "] " ++
      hexRow ((data.drop (16 * k)).take 16)

def hexDump (label data : Bytes) : List Bytes :=
  if data = [] then [label ++ ascii "(empty)"] else hexRows label data

theorem hexDigit_injective : ∀ m < 16, ∀ n < 16, hexDigit m = hexDigit n → m = n := by
  decide

theorem hexByte_injective (a b : UInt8) (same : hexByte a = hexByte b) : a = b := by
  have high := (List.cons.inj same).1
  have low := (List.cons.inj (List.cons.inj same).2).1
  have a_lt := a.toNat_lt
  have b_lt := b.toNat_lt
  have high_eq := hexDigit_injective _ (by omega) _ (by omega) high
  have low_eq := hexDigit_injective _ (by omega) _ (by omega) low
  exact UInt8.toNat_inj.mp (by omega)

theorem hexRow_length (bytes : Bytes) : (hexRow bytes).length = 3 * bytes.length := by
  induction bytes with
  | nil => rfl
  | cons b bytes ih =>
      rw [hexRow, List.flatMap_cons, List.length_append, ← hexRow, ih, List.length_cons]
      simp only [hexByte, List.cons_append, List.nil_append, List.length_cons, List.length_nil]
      omega

theorem hexRow_injective (a b : Bytes) (same : hexRow a = hexRow b) : a = b := by
  induction a generalizing b with
  | nil =>
      have lengths := congrArg List.length same
      rw [hexRow_length, hexRow_length] at lengths
      simp only [List.length_nil] at lengths
      exact (List.length_eq_zero_iff.mp (by omega)).symm
  | cons x xs ih =>
      cases b with
      | nil =>
          have lengths := congrArg List.length same
          rw [hexRow_length, hexRow_length] at lengths
          simp at lengths
      | cons y ys =>
          have parts := List.append_inj same rfl
          have heads := (List.append_inj parts.1 rfl).1
          rw [hexByte_injective x y heads, ih ys parts.2]

theorem hexRows_length (label data : Bytes) :
    (hexRows label data).length = (data.length + 15) / 16 := by
  rw [hexRows, List.length_map, List.length_range]

theorem hexDump_length_eq (label a b : Bytes) (length : a.length = b.length) :
    (hexDump label a).length = (hexDump label b).length := by
  have empty : a = [] ↔ b = [] := by
    rw [← List.length_eq_zero_iff, length, List.length_eq_zero_iff]
  by_cases none : b = []
  · rw [hexDump, hexDump, if_pos none, if_pos (empty.mpr none)]
  · rw [hexDump, hexDump, if_neg none, if_neg (mt empty.mp none), hexRows_length, hexRows_length,
      length]

theorem eq_of_rows_eq (a b : Bytes) (length : a.length = b.length)
    (rows : ∀ k < (a.length + 15) / 16, (a.drop (16 * k)).take 16 = (b.drop (16 * k)).take 16) :
    a = b := by
  apply List.ext_getElem? fun i => ?_
  by_cases inside : i < a.length
  · have row := congrArg (·[i % 16]?) (rows (i / 16) (by omega))
    have bound : i % 16 < 16 := Nat.mod_lt i (by decide)
    simp only [List.getElem?_take_of_lt bound, List.getElem?_drop, Nat.div_add_mod] at row
    exact row
  · rw [List.getElem?_eq_none (by omega), List.getElem?_eq_none (by omega)]

theorem hexDump_injective (label a b : Bytes) (length : a.length = b.length)
    (same : hexDump label a = hexDump label b) : a = b := by
  by_cases none : b = []
  · rw [none, List.length_nil] at length
    rw [none, List.length_eq_zero_iff.mp length]
  · have some : a ≠ [] := fun empty => none (List.length_eq_zero_iff.mp (by rw [← length, empty]; rfl))
    rw [hexDump, hexDump, if_neg none, if_neg some, hexRows, hexRows, length] at same
    refine eq_of_rows_eq a b length fun k inside => ?_
    have row := List.map_inj_left.mp same k (List.mem_range.mpr (by omega))
    exact hexRow_injective _ _ (List.append_cancel_left row)

theorem hexDump_line_length_le (label data : Bytes) (small : data.length < 2 ^ 64) :
    ∀ line ∈ hexDump label data, line.length ≤ label.length + 71 := by
  intro line member
  rw [hexDump] at member
  split_ifs at member
  · rw [List.mem_singleton.mp member, List.length_append]
    exact Nat.add_le_add_left (by decide) _
  · obtain ⟨k, inside, rfl⟩ := List.mem_map.mp member
    have before := List.mem_range.mp inside
    have offset := decimalPadded_length_le 4 (16 * k) 20 (by decide) (by decide) (by omega)
    have row : (hexRow ((data.drop (16 * k)).take 16)).length ≤ 48 := by
      rw [hexRow_length, List.length_take]
      omega
    have bracket : (ascii "[").length = 1 := rfl
    have close : (ascii "] ").length = 2 := rfl
    simp only [List.length_append, bracket, close]
    omega

section Alignment
variable {α : Type} {a b a' b' : List α} {C D : Prop}

/-- Logs that start with these segments are equal exactly if the condition holds and
they go on equally. -/
def Pins (a b : List α) (C : Prop) : Prop := ∀ x y, a ++ x = b ++ y ↔ C ∧ x = y

theorem pins_self (a : List α) : Pins a a True := by
  intro x y
  rw [List.append_cancel_left_eq, true_and]

theorem pins_of_length (length : a.length = b.length) : Pins a b (a = b) := by
  intro x y
  refine ⟨fun same => List.append_inj same length, fun parts => ?_⟩
  rw [parts.1, parts.2]

theorem Pins.append (first : Pins a b C) (second : C → Pins a' b' D) :
    Pins (a ++ a') (b ++ b') (C ∧ D) := by
  intro x y
  rw [List.append_assoc, List.append_assoc, first, and_assoc]
  exact and_congr_right fun holds => second holds x y

/-- A first entry that only depends on the pinned condition changes nothing. -/
theorem Pins.cons {x y : α} (pins : Pins a b C) (first : C → x = y) :
    Pins (x :: a) (y :: b) C := by
  intro u v
  rw [List.cons_append, List.cons_append, List.cons.injEq, pins]
  exact ⟨fun both => both.2, fun rest => ⟨first rest.1, rest⟩⟩

theorem Pins.congr (pins : Pins a b C) (same : C ↔ D) : Pins a b D := by
  intro x y
  rw [pins, same]

theorem Pins.eq_iff (pins : Pins a b C) : a = b ↔ C := by
  have both := pins [] []
  rwa [List.append_nil, List.append_nil, eq_self, and_true] at both

end Alignment

end WfyApp.LogText
