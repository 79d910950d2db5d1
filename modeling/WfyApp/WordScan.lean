import Mathlib

/-! Searches over positions by loops that look at several positions in one step.
A step reports a position it found, or nothing, or a fault; the loop's result is the
plain left-to-right search over all the positions its steps cover. The word test that
lets a step skip four bytes at once is related to the bytes of the word. -/

namespace WfyApp.WordScan

inductive Outcome where
  | found (position : Nat)
  | reached (position : Nat)
  deriving DecidableEq, Repr

def Outcome.next : Outcome → (Nat → Outcome) → Outcome
  | .found q, _ => .found q
  | .reached p, rest => rest p

/-- `for (; p < stop; p += stride)` around a step that may return a position. A faulting
step, and a loop that needs more rounds than `fuel`, give `none`. -/
def strideLoop (look : Nat → Option (Option Nat)) (stride stop : Nat) :
    (fuel : Nat) → (p : Nat) → Option Outcome
  | 0, p => if p < stop then none else some (.reached p)
  | fuel + 1, p =>
    if p < stop then
      match look p with
      | none => none
      | some (some q) => some (.found q)
      | some none => strideLoop look stride stop fuel (p + stride)
    else some (.reached p)

def covered (test : Nat → Bool) (p n : Nat) : Outcome :=
  match (List.range' p n).find? test with
  | some q => .found q
  | none => .reached (p + n)

theorem find_range_add (test : Nat → Bool) (p m n : Nat) :
    (List.range' p (m + n)).find? test =
      ((List.range' p m).find? test).or ((List.range' (p + m) n).find? test) := by
  have split : List.range' p m ++ List.range' (p + m) n = List.range' p (m + n) := by
    simp
  rw [← split, List.find?_append]

theorem reached_eq (test : Nat → Bool) (p n q : Nat) (reached : covered test p n = .reached q) :
    q = p + n := by
  unfold covered at reached
  split at reached
  · cases reached
  · cases reached
    rfl

theorem covered_add (test : Nat → Bool) (p m n : Nat) :
    covered test p (m + n) = (covered test p m).next fun q => covered test q n := by
  unfold covered
  rw [find_range_add]
  cases (List.range' p m).find? test with
  | some q => rfl
  | none => simp only [Option.none_or, Outcome.next, Nat.add_assoc]

/-- A loop whose steps search `stride` positions each searches the positions up to the
first multiple of `stride` at or after `stop`. `Good` is what the steps need of their
position, an alignment for instance. -/
theorem strideLoop_eq (look : Nat → Option (Option Nat)) (test : Nat → Bool)
    (Good : Nat → Prop) (stride stop : Nat)
    (kept : ∀ p, Good p → Good (p + stride))
    (sound : ∀ p, Good p → p < stop → look p = some ((List.range' p stride).find? test))
    (fuel p : Nat) (good : Good p) (enough : stop ≤ p + fuel * stride) :
    ∃ n, stop ≤ p + n * stride ∧ (n = 0 ∨ p + n * stride < stop + stride) ∧
      strideLoop look stride stop fuel p = some (covered test p (n * stride)) := by
  induction fuel generalizing p with
  | zero =>
    have past : ¬ p < stop := by omega
    refine ⟨0, by omega, .inl rfl, ?_⟩
    simp [strideLoop, past, covered]
  | succ fuel ih =>
    by_cases inside : p < stop
    · have room : stop ≤ p + stride + fuel * stride := by
        rw [Nat.succ_mul] at enough
        omega
      obtain ⟨n, reaches, stops, equal⟩ := ih (p + stride) (kept p good) room
      have length : (n + 1) * stride = stride + n * stride := by rw [Nat.succ_mul, Nat.add_comm]
      refine ⟨n + 1, by omega, .inr ?_, ?_⟩
      · rcases stops with rfl | near
        · omega
        · omega
      · rw [strideLoop, if_pos inside, sound p good inside, length, covered_add]
        cases first : (List.range' p stride).find? test with
        | some q => simp only [covered, first, Outcome.next]
        | none => rw [equal, covered.eq_def test p stride, first, Outcome.next]
    · refine ⟨0, by omega, .inl rfl, ?_⟩
      simp [strideLoop, inside, covered]

def zeroByteTest (x : BitVec 32) : BitVec 32 :=
  (x - 0x01010101#32) &&& ~~~x &&& 0x80808080#32

def wordOf (a b c d : UInt8) : BitVec 32 :=
  BitVec.ofNat 32 (a.toNat + 256 * b.toNat + 65536 * c.toNat + 16777216 * d.toNat)

theorem zeroByteTest_bit (x : BitVec 32) (i : Nat) (marked : (0x80808080#32).getLsbD i = true)
    (clear : x.getLsbD i = false) (set : (x - 0x01010101#32).getLsbD i = true) :
    zeroByteTest x ≠ 0#32 := by
  intro zero
  have inside : i < 32 := BitVec.lt_of_getLsbD marked
  have bit : (zeroByteTest x).getLsbD i = true := by
    simp only [zeroByteTest, BitVec.getLsbD_and, BitVec.getLsbD_not, set, clear, marked, inside,
      decide_true, Bool.not_false, Bool.and_self]
  rw [zero, BitVec.getLsbD_zero] at bit
  cases bit

theorem getLsbD_eq_digit (y : BitVec 32) (i : Nat) :
    y.getLsbD i = decide (y.toNat / 2 ^ i % 2 = 1) := by
  rw [← BitVec.testBit_toNat, Nat.testBit_eq_decide_div_mod_eq]

theorem wordOf_toNat (a b c d : UInt8) : (wordOf a b c d).toNat =
    a.toNat + 256 * b.toNat + 65536 * c.toNat + 16777216 * d.toNat := by
  have aLt := a.toNat_lt
  have bLt := b.toNat_lt
  have cLt := c.toNat_lt
  have dLt := d.toNat_lt
  rw [wordOf, BitVec.toNat_ofNat, Nat.mod_eq_of_lt (by omega)]

theorem zeroByteTest_ne_zero_of_digit (x : BitVec 32) (i : Nat)
    (marked : (0x80808080#32).getLsbD i = true) (clear : x.toNat / 2 ^ i % 2 = 0)
    (set : (4278124287 + x.toNat) % 4294967296 / 2 ^ i % 2 = 1) : zeroByteTest x ≠ 0#32 := by
  refine zeroByteTest_bit x i marked ?_ ?_
  · rw [getLsbD_eq_digit, clear]
    rfl
  · rw [getLsbD_eq_digit, BitVec.toNat_sub]
    exact decide_eq_true set

/-- The lowest zero byte of a word is marked: no borrow from below reaches it. -/
theorem zeroByteTest_wordOf_ne_zero (a b c d : UInt8)
    (zero : a = 0 ∨ b = 0 ∨ c = 0 ∨ d = 0) : zeroByteTest (wordOf a b c d) ≠ 0#32 := by
  have aLt := a.toNat_lt
  have bLt := b.toNat_lt
  have cLt := c.toNat_lt
  have dLt := d.toNat_lt
  have value := wordOf_toNat a b c d
  simp only [← UInt8.toNat_inj, UInt8.toNat_zero] at zero
  by_cases za : a.toNat = 0
  · exact zeroByteTest_ne_zero_of_digit _ 7 (by decide) (by omega) (by omega)
  by_cases zb : b.toNat = 0
  · exact zeroByteTest_ne_zero_of_digit _ 15 (by decide) (by omega) (by omega)
  by_cases zc : c.toNat = 0
  · exact zeroByteTest_ne_zero_of_digit _ 23 (by decide) (by omega) (by omega)
  have zd : d.toNat = 0 := by omega
  exact zeroByteTest_ne_zero_of_digit _ 31 (by decide) (by omega) (by omega)

end WfyApp.WordScan
