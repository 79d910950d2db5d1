import WfyApp.ByteText

/-! Numbers as C prints them in base ten, and the value of a row of digits. -/

namespace WfyApp.NumberText
open ByteText

def decimal (n : Nat) : Bytes :=
  if n = 0 then [0x30] else (Nat.digits 10 n).reverse.map fun d => UInt8.ofNat (0x30 + d)

/-- The conversion `%0<width>u`. -/
def decimalPadded (width n : Nat) : Bytes :=
  List.replicate (width - (decimal n).length) 0x30 ++ decimal n

/-- A decimal literal with a sign if it is negative. -/
def signed (n : Int) : Bytes := if n < 0 then hyphen :: decimal n.natAbs else decimal n.natAbs

theorem decimal_length_le (n k : Nat) (pos : 0 < k) (small : n < 10 ^ k) :
    (decimal n).length ≤ k := by
  rw [decimal]
  split_ifs
  · exact pos
  · rw [List.length_map, List.length_reverse]
    exact (Nat.digits_length_le_iff (by decide) n).mpr small

theorem decimal_digits (n : Nat) : ∀ c ∈ decimal n, 0x30 ≤ c ∧ c ≤ 0x39 := by
  have digit : ∀ d < 10, 0x30 ≤ UInt8.ofNat (0x30 + d) ∧ UInt8.ofNat (0x30 + d) ≤ 0x39 := by
    decide
  intro c member
  rw [decimal] at member
  split_ifs at member
  · rw [List.mem_singleton.mp member]
    decide
  · obtain ⟨d, inside, rfl⟩ := List.mem_map.mp member
    exact digit d (Nat.digits_lt_base (by decide) (List.mem_reverse.mp inside))

theorem decimalPadded_length_le (width n k : Nat) (pos : 0 < k) (wide : width ≤ k)
    (small : n < 10 ^ k) : (decimalPadded width n).length ≤ k := by
  have digits := decimal_length_le n k pos small
  rw [decimalPadded, List.length_append, List.length_replicate]
  omega

theorem signed_length_le (n : Int) (k : Nat) (pos : 0 < k) (small : n.natAbs < 10 ^ k) :
    (signed n).length ≤ k + 1 := by
  have digits := decimal_length_le n.natAbs k pos small
  rw [signed]
  split_ifs
  · rw [List.length_cons]
    omega
  · omega

def digitValue (v : Nat) (c : UInt8) : Nat := 10 * v + (c.toNat - 0x30)

theorem foldl_digitValue_digits (ds : List Nat) (small : ∀ d ∈ ds, d < 10) :
    (ds.reverse.map fun d => UInt8.ofNat (0x30 + d)).foldl digitValue 0 = Nat.ofDigits 10 ds := by
  have digit : ∀ d < 10, (UInt8.ofNat (0x30 + d)).toNat - 0x30 = d := by decide
  induction ds with
  | nil => rfl
  | cons d ds ih =>
      have rest := ih fun e member => small e (List.mem_cons_of_mem d member)
      rw [List.reverse_cons, List.map_append, List.foldl_append, rest, Nat.ofDigits_cons]
      simp only [List.map_cons, List.map_nil, List.foldl_cons, List.foldl_nil, digitValue,
        digit d (small d List.mem_cons_self)]
      omega

theorem foldl_digitValue_decimal (n : Nat) : (decimal n).foldl digitValue 0 = n := by
  rw [decimal]
  split_ifs with zero
  · rw [zero]
    rfl
  · rw [foldl_digitValue_digits _ fun d member => Nat.digits_lt_base (by decide) member,
      Nat.ofDigits_digits]

theorem decimal_inj (m n : Nat) (same : decimal m = decimal n) : m = n := by
  have value := congrArg (List.foldl digitValue 0) same
  rwa [foldl_digitValue_decimal, foldl_digitValue_decimal] at value

theorem isDigit_decimal (n : Nat) : ∀ c ∈ decimal n, isDigit c = true := by
  intro c member
  obtain ⟨low, high⟩ := decimal_digits n c member
  simp only [isDigit, Bool.and_eq_true, decide_eq_true_eq]
  exact ⟨low, high⟩

theorem decimal_ne_nil (n : Nat) : decimal n ≠ [] := by
  rw [decimal]
  split_ifs with zero
  · simp
  · simpa using Nat.digits_ne_nil_iff_ne_zero.mpr zero

end WfyApp.NumberText
